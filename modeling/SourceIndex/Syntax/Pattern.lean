import SourceIndex.Syntax.Query
import SourceIndex.Text.Blank

/-! An engine for plain patterns: `(type) @name` finds the named nodes of a type, and
`(type field: (inner)) @name` those with a named child of another type in a field. A pattern without
a name captures nothing, and a text of any other shape is refused. -/

namespace SourceIndex.Syntax

/-- A pattern: the type of a node, a field of it with the type of the child that fills it, and the name
that the node is captured under. -/
structure Pattern where
  kind : String
  inner : Option (String × String) := none
  name : Option String
  deriving DecidableEq, Repr

namespace Pattern

/-- The characters of names in patterns. -/
def isNameChar (c : Char) : Bool :=
  c.isAlphanum || c == '_' || c == '-' || c == '.'

def readName (t : Text) : Option (String × Text) :=
  match t.takeWhile isNameChar with
  | [] => none
  | name => some (String.ofList name, t.dropWhile isNameChar)

/-- Reads one character, after white space. -/
def readChar (c : Char) (t : Text) : Option Text :=
  match Text.trimStart t with
  | d :: rest => if d = c then some rest else none
  | [] => none

/-- Reads an opening parenthesis and a type. -/
def readType (t : Text) : Option (String × Text) :=
  (readChar '(' t).bind fun rest => readName (Text.trimStart rest)

/-- Reads the capture after a pattern, if one is there, and the end. -/
def readCapture (t : Text) : Option (Option String) :=
  match Text.trim t with
  | [] => some none
  | '@' :: name =>
    if !name.isEmpty && name.all isNameChar then some (some (String.ofList name)) else none
  | _ => none

/-- Reads a field and the type of the child in it. -/
def readInner (t : Text) : Option ((String × String) × Text) := do
  let (field, t) ← readName (Text.trimStart t)
  let t ← readChar ':' t
  let (kind, t) ← readType t
  let t ← readChar ')' t
  return ((field, kind), t)

/-- The pattern that a text spells. -/
def parse? (pattern : Text) : Option Pattern := do
  let (kind, t) ← readType pattern
  let (inner, t) := match readInner t with
    | some (inner, t) => (some inner, t)
    | none => (none, t)
  let t ← readChar ')' t
  let name ← readCapture t
  return ⟨kind, inner, name⟩

/-- Whether a node is one that the pattern is for. -/
def accepts (q : Pattern) (t : Tree) : Bool :=
  t.label.named && t.kind == q.kind &&
    q.inner.all fun (field, kind) =>
      t.children.any fun child =>
        child.label.field == some field && child.label.named && child.kind == kind

/-- The matches of a pattern: one for each node that it is for, in the order of the tree. -/
def found (q : Pattern) (t : Tree) : List Match :=
  (t.places.filter fun p => q.accepts p.tree).map fun p => (q.name.map fun n => (n, [p])).toList

/-- The engine for plain patterns. -/
def engine : QueryEngine where
  search? pattern := (parse? pattern.toList).map found

theorem capturesNodes_engine (t : Tree) : engine.CapturesNodes t := by
  intro pattern search hsearch m hm capture hcapture p hp
  obtain ⟨q, -, rfl⟩ := Option.map_eq_some_iff.mp hsearch
  obtain ⟨place, hplace, rfl⟩ := List.mem_map.mp hm
  obtain ⟨n, -, rfl⟩ := Option.map_eq_some_iff.mp (Option.mem_toList.mp hcapture)
  obtain rfl := List.mem_singleton.mp hp
  exact (List.mem_filter.mp hplace).1

end Pattern

end SourceIndex.Syntax
