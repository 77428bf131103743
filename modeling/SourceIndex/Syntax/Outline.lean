import SourceIndex.Language.Table
import SourceIndex.Syntax.LeadingBlock
import SourceIndex.Syntax.Query
import SourceIndex.Syntax.Resolution

/-! The outline of a text: the lines where its constructs start, comments in front of them included. -/

namespace SourceIndex.Syntax

/-- A line where a construct starts, and the construct's type. -/
structure Breakpoint where
  line : Nat
  kind : Option String
  deriving DecidableEq, Repr

/-- A parser gives the tree of a text in a language and a variant of it, if it can, and an engine for
queries of such trees. -/
structure Parser where
  parse : Text → String → Option String → Option Tree
  engine : String → Option String → QueryEngine

/-- The points of interest of a tree that are kept, in the order of the text. -/
def pointsOfInterest (engine : QueryEngine) (spec : LanguageSpec) (t : Tree) : List Place :=
  resolve (List.lookup · spec.wrapperPolicy) spec.outermostOnly
    (candidates engine spec.pointsOfInterest t)

/-- The breakpoints of lines with the types of what starts there: one for each line, with the first of
its types, in ascending order. -/
def Breakpoint.ofStarts (starts : List (Nat × String)) : List Breakpoint :=
  let lines := (starts.map Prod.fst).eraseDups.mergeSort fun a b => a ≤ b
  lines.map fun line => ⟨line, starts.lookup line⟩

/-- The breakpoints of a tree of a text. -/
def outline (engine : QueryEngine) (spec : LanguageSpec) (text : Text) (t : Tree) :
    List Breakpoint :=
  let source := Source.ofText text
  let metadata := spec.metadataTypes
  Breakpoint.ofStarts <|
    (pointsOfInterest engine spec t).map fun p => (source.blockLine metadata p, p.kind)

/-- The tree of a text; there is none for a language without a description. -/
def tree? (spec? : String → Option LanguageSpec) (parser : Parser) (text : Text) (language : String)
    (variant : Option String) : Option Tree :=
  (spec? language).bind fun _ => parser.parse text language variant

/-- The breakpoints of a text; there are none for a blank one, and none where there is no tree. -/
def breakpoints (spec? : String → Option LanguageSpec) (parser : Parser) (text : Text)
    (language : String) (variant : Option String) : List Breakpoint :=
  match spec? language with
  | none => []
  | some spec =>
    if Text.isBlank text then []
    else
      let engine := parser.engine language variant
      ((parser.parse text language variant).map (outline engine spec text)).getD []

end SourceIndex.Syntax
