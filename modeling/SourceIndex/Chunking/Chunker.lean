import SourceIndex.Chunking.Chunk

/-! Chunkers: an estimator, a way to find breakpoints, and the choice to drop what holds no code. -/

namespace SourceIndex.Chunking

/-- A way to find the breakpoints of a text in a language and a variant of it; it may fail. -/
abbrev Extractor := Text → String → Option String → Except String (List Syntax.Breakpoint)

/-- The extractor that finds nothing, as one that has been disposed of. -/
def Extractor.disposed : Extractor := fun _ _ _ => .ok []

/-- The extractor that reads breakpoints off syntax trees. -/
def Extractor.ofParser (parser : Syntax.Parser) : Extractor := fun text language variant =>
  .ok (Syntax.breakpoints (fun name => Language.spec? (some name)) parser text language variant)

structure Chunker where
  estimator : Token.Estimator
  extract : Extractor
  filter : Bool := true

namespace Chunker

/-- The breakpoints of a document: none without a language, and none if the extractor fails. -/
def breakpoints (c : Chunker) (doc : Document) : List Syntax.Breakpoint :=
  match doc.language with
  | none => []
  | some language =>
    if language.isEmpty then []
    else (c.extract doc.text language doc.variant).toOption.getD []

/-- What chunking a document gave, and the chunker and the signal afterwards. -/
structure Outcome where
  result : Except Stop (List Chunk)
  chunker : Chunker
  signal : Option Signal

def chunk (c : Chunker) (doc : Document) (signal : Option Signal) : Outcome :=
  let plan := chunkPlan c.estimator.contextLength c.filter c.breakpoints doc
  let (result, setting) := plan.run { estimator := c.estimator, signal }
  { result, chunker := { c with estimator := setting.estimator }, signal := setting.signal }

end Chunker

end SourceIndex.Chunking
