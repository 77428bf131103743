import SourceIndex.Text.Blank

/-! What is known of a programming language: where its constructs are found in a syntax tree, and how
its comments and closing delimiters are written. -/

namespace SourceIndex

/-- Which of two nested points of interest survives. -/
inductive Winner where
  | parent
  | child
  deriving DecidableEq, Repr

/-- A grammar: the package that holds it, and its entry in there. -/
structure GrammarId where
  package : String
  entry : String
  deriving DecidableEq, Repr

/-- A block comment runs from its opening to the first closing after that. -/
structure BlockComment where
  opening : Text
  closing : Text
  deriving DecidableEq, Repr

/-- How comments and closing delimiters are written. -/
structure CommentSyntax where
  line : List Text
  block : List BlockComment
  closers : List Text
  deriving DecidableEq, Repr

namespace CommentSyntax

/-- The block comments of the C family. -/
def cBlock : BlockComment := ⟨['/', '*'], ['*', '/']⟩

/-- The closing delimiters of the C family. -/
def cClosers : List Text :=
  [['}'], [')'], [']'], ['}', ';'], ['}', ')', ';'], [')', ';'], [']', ',']]

/-- The comments and closing delimiters of the C family, which unknown languages get too. -/
def cFamily : CommentSyntax := ⟨[['/', '/']], [cBlock], cClosers⟩

/-- Prose has neither comments nor closing delimiters. -/
def prose : CommentSyntax := ⟨[], [], []⟩

/-- Whether block comments are written as in C. -/
def isCStyle (s : CommentSyntax) : Bool :=
  s.block.any fun b => b.opening == cBlock.opening

end CommentSyntax

/-- The description of one language. Points of interest and comments are query patterns. -/
structure LanguageSpec where
  grammar : GrammarId
  pointsOfInterest : List String
  comments : List String := ["(comment) @capture"]
  variants : List (String × GrammarId) := []
  wrapperPolicy : List (String × Winner) := []
  outermostOnly : Bool := false
  syntaxOfComments : CommentSyntax := .cFamily

namespace LanguageSpec

/-- The grammar of a variant of the language, or of the language itself. -/
def grammarFor (spec : LanguageSpec) (variant : Option String) : GrammarId :=
  (variant.bind (List.lookup · spec.variants)).getD spec.grammar

/-- The letters, digits and underscores of a node type. -/
def isTypeChar (c : Char) : Bool :=
  c.isAlphanum || c == '_'

/-- The node type that a query pattern starts with. -/
def headType? (pattern : Text) : Option Text :=
  match Text.trim pattern with
  | '(' :: rest =>
    match (Text.trimStart rest).takeWhile isTypeChar with
    | [] => none
    | c :: cs => if c.isDigit then none else some (c :: cs)
  | _ => none

/-- The node types that count as comments, decorators and attributes, in ascending order. -/
def metadataTypes (spec : LanguageSpec) : List String :=
  let types := (spec.comments.filterMap fun p => headType? p.toList).map String.ofList
  types.eraseDups.mergeSort fun a b => !(b < a)

end LanguageSpec

end SourceIndex
