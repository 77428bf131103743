import SourceIndex.Indexing.Indexer
import SourceIndex.Json.Printer

/-! Summaries of what the commands did, as they are printed. -/

namespace SourceIndex.CommandLine

/-- An object with named members. -/
def object (members : List (String × Json)) : Json :=
  .object (members.map fun (name, value) => (Json.codes name.toList, value))

def optional {α : Type} (f : α → Json) : Option α → Json
  | none => .null
  | some a => f a

def natural (n : Nat) : Json :=
  .integer n

def chunkSummary (c : Chunking.Chunk) : Json :=
  object [
    ("offset", natural c.offset),
    ("content", .ofText c.content),
    ("parent_id", optional (fun o => .ofString o.name) c.origin),
    ("order", optional natural c.order),
    ("oversized", .bool c.oversized),
    ("structure_type", optional .ofString c.kind)]

/-- The summary of a file that was cut. -/
def cutSummary (file : Text) (language : Option String) (chunks : List Chunking.Chunk) : Json :=
  object [
    ("file", .ofText file),
    ("language", optional .ofString language),
    ("chunks", .array (chunks.map chunkSummary))]

/-- The summary of a chunk that was to be embedded. -/
def vectorSummary (c : Chunking.Chunk) (r : Embedding.Result) : Json :=
  object [
    ("offset", natural c.offset),
    ("dimensions", optional (fun v => natural v.length) r.vector?),
    ("error", optional .ofString r.message?)]

/-- The summary of a file that was indexed. -/
def indexSummary (file : Text) (x : Indexing.Indexed) : Json :=
  object [
    ("file", .ofText file),
    ("success", .bool (x.ending == .done)),
    ("error", optional .ofString x.ending.message?),
    ("chunks", .array (List.zipWith vectorSummary x.chunks x.results))]

end SourceIndex.CommandLine
