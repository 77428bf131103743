import SourceIndex.Syntax.Outline

/-! Names of constructs. -/

namespace SourceIndex.Syntax

/-- A named construct and where it starts; columns count bytes. -/
structure Symbol where
  name : Text
  kind : String
  row : Nat
  column : Nat
  deriving DecidableEq, Repr

/-- The types of nodes that are names. -/
def identifierKinds : List String :=
  ["identifier", "property_identifier", "type_identifier", "field_identifier",
    "namespace_identifier", "constant"]

/-- The types of nodes that name what a declarator declares. -/
def declaratorKinds : List String :=
  identifierKinds ++ ["qualified_identifier", "destructor_name", "operator_name"]

/-- The types of nodes whose names pass to what wraps them. -/
def wrappedKinds : List String :=
  ["class_declaration", "function_declaration", "class_specifier", "struct_specifier",
    "function_definition", "declaration"]

/-- A name with at least one character. -/
def nonEmpty? : Option Text → Option Text
  | some [] => none
  | name => name

theorem Tree.sizeOf_lt_of_find? {p : Tree → Bool} {t child : Tree}
    (h : t.children.find? p = some child) : sizeOf child < sizeOf t := by
  have hm := List.mem_of_find?_eq_some h
  cases t with
  | node label children =>
    have := List.sizeOf_lt_of_mem hm
    simp only [Tree.children, Tree.node.sizeOf_spec] at *
    omega

/-- The name of a node: its own name field; else the name of what it wraps; else the first name in its
declarator; else its selectors, if it is a rule; else its last child that is a name; else the name of
its first child that is a declaration. -/
def Source.nameOf? (s : Source) (t : Tree) : Option Text :=
  let own := ["name", "id", "identifier"].findSome? fun field =>
    (t.childByField? field).filter fun child => identifierKinds.contains child.kind
  match own with
  | some child => some (s.textOf child)
  | none =>
    let wrapped (field : String) : Option Text :=
      match _h : t.children.find? fun child => child.label.field == some field with
      | some child => nonEmpty? (nameOf? s child)
      | none => none
    match (wrapped "definition").or (wrapped "declaration") with
    | some name => some name
    | none =>
      let declared := (t.childByField? "declarator").bind fun declarator =>
        declarator.nodes.find? fun n => declaratorKinds.contains n.kind
      match declared with
      | some n => some (s.textOf n)
      | none =>
        let selectors :=
          if t.kind == "rule_set" then t.children.find? fun child => child.kind == "selectors"
          else none
        match selectors.or (t.children.reverse.find? fun c => identifierKinds.contains c.kind) with
        | some child => some (s.textOf child)
        | none =>
          match _h : t.children.find? fun c => c.label.named && wrappedKinds.contains c.kind with
          | some child => nameOf? s child
          | none => none
termination_by sizeOf t
decreasing_by all_goals exact Tree.sizeOf_lt_of_find? _h

/-- Earlier rows come first, and on one row earlier columns. -/
def Symbol.precedes (a b : Symbol) : Bool :=
  a.row < b.row || a.row == b.row && a.column ≤ b.column

/-- The symbol at a place, if it has a name. -/
def Source.symbol? (s : Source) (p : Place) : Option Symbol :=
  (nonEmpty? (s.nameOf? p.tree)).map fun name => ⟨name, p.kind, s.row p.start, s.column p.start⟩

/-- The symbols of a text, each once, in the order of their places. -/
def symbols (spec? : String → Option LanguageSpec) (parser : Parser) (text : Text)
    (language : String) (variant : Option String) : List Symbol :=
  match spec? language with
  | none => []
  | some spec =>
    match parser.parse text language variant with
    | none => []
    | some tree =>
      let source := Source.ofText text
      let engine := parser.engine language variant
      let found := (candidates engine spec.pointsOfInterest tree).filterMap source.symbol?
      found.eraseDups.mergeSort Symbol.precedes

end SourceIndex.Syntax
