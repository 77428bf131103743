import SourceIndex.Embedding.Single

/-! Embedding models, and where they come from. -/

namespace SourceIndex.Embedding

/-- What went wrong in something that is not part of this library: its kind and its text. -/
structure Fault where
  kind : String
  text : String
  deriving DecidableEq, Repr

/-- What is told of a fault: its text, or its kind if it has none. -/
def Fault.message (f : Fault) : String :=
  if f.text.isEmpty then f.kind else f.text

/-- The name of a model, and the folder that it is kept in; an empty path is the usual folder. -/
structure ModelRef where
  name : String
  path : String := ""
  deriving DecidableEq, Repr

/-- The folder of a model, unless it is the usual one. -/
def ModelRef.folder? (r : ModelRef) : Option String :=
  if r.path.isEmpty then none else some r.path

/-- A model gives numbers for a text. -/
abbrev Model := Text → Except Fault (Tensor Binary.Number)

/-- Where models are loaded from: what a load gives, after the loads before it. -/
abbrev ModelSource := List ModelRef → ModelRef → Except Fault Model

/-- A model could not be opened. -/
structure Unavailable where
  name : String
  cause : String
  deriving DecidableEq, Repr

def Unavailable.message (e : Unavailable) : String :=
  "Failed to load embedding model '" ++ e.name ++
    "'. Check the model location and availability. Error: " ++ e.cause

/-- Opens a model by its name and its folder. -/
def ModelRef.openWith {α : Type} (construct : String → Option String → Except String α)
    (r : ModelRef) : Except Unavailable α :=
  (construct r.name r.folder?).mapError fun cause => ⟨r.name, cause⟩

end SourceIndex.Embedding
