import SourceIndex.Text.Utf8

/-! Syntax trees over the bytes of a text, and the places in them. -/

namespace SourceIndex.Syntax

/-- What a node says of itself: its type, whether the grammar names it, the field of its parent that it
fills, and the range of bytes it covers. -/
structure Label where
  kind : String
  named : Bool
  field : Option String
  start : Nat
  stop : Nat
  deriving DecidableEq, Repr, Inhabited

inductive Tree where
  | node (label : Label) (children : List Tree)
  deriving Inhabited

namespace Tree

def label : Tree → Label
  | .node label _ => label

def children : Tree → List Tree
  | .node _ children => children

/-- The type of the root. -/
abbrev kind (t : Tree) : String :=
  t.label.kind

/-- The first child that fills a field. -/
def childByField? (t : Tree) (field : String) : Option Tree :=
  t.children.find? fun child => child.label.field == some field

mutual

/-- All nodes, each before those below it. -/
def nodes : Tree → List Tree
  | .node label children => .node label children :: nodesOf children

def nodesOf : List Tree → List Tree
  | [] => []
  | t :: ts => nodes t ++ nodesOf ts

end

end Tree

/-- A node in a tree. Its path tells which child it is, then which child its parent is, and so on; its
previous siblings come nearest first. -/
structure Place where
  path : List Nat
  tree : Tree
  before : List Tree

namespace Place

/-- The first byte of the node. -/
abbrev start (p : Place) : Nat :=
  p.tree.label.start

/-- The byte after the last of the node. -/
abbrev stop (p : Place) : Nat :=
  p.tree.label.stop

/-- The type of the node. -/
abbrev kind (p : Place) : String :=
  p.tree.kind

/-- The paths of the nodes above a path, nearest first. -/
def above : List Nat → List (List Nat)
  | [] => []
  | _ :: path => path :: above path

end Place

mutual

/-- The places of a tree that stands at `path` after the siblings `before`. -/
def placesAt (path : List Nat) (before : List Tree) : Tree → List Place
  | .node label children =>
    ⟨path, .node label children, before⟩ :: placesIn path 0 [] children

/-- The places of the children of the node at `path`, from the child with number `index` on. -/
def placesIn (path : List Nat) (index : Nat) (before : List Tree) : List Tree → List Place
  | [] => []
  | t :: ts => placesAt (index :: path) before t ++ placesIn path (index + 1) (t :: before) ts

end

/-- All places of a tree, each before those below it. -/
def Tree.places (t : Tree) : List Place :=
  placesAt [0] [] t

/-- A text with its bytes and the positions of the newlines among them. -/
structure Source where
  lines : List Text
  bytes : List UInt8
  newlines : List Nat

namespace Source

/-- The positions of newlines among bytes, the first of which is at `position`. -/
def newlinesFrom (position : Nat) : List UInt8 → List Nat
  | [] => []
  | b :: bs =>
    if b = 10 then position :: newlinesFrom (position + 1) bs else newlinesFrom (position + 1) bs

def ofText (t : Text) : Source where
  lines := Text.lines t
  bytes := Text.Utf8.encode t
  newlines := newlinesFrom 0 (Text.Utf8.encode t)

/-- The row of a byte position: the number of newlines before it. -/
def row (s : Source) (position : Nat) : Nat :=
  s.newlines.countP (· < position)

/-- The column of a byte position: the bytes since the last newline before it. -/
def column (s : Source) (position : Nat) : Nat :=
  position - ((s.newlines.filter (· < position)).getLast?.map (· + 1)).getD 0

def slice (s : Source) (start stop : Nat) : List UInt8 :=
  (s.bytes.take stop).drop start

def textOf (s : Source) (t : Tree) : Text :=
  Text.Utf8.decodeLenient (s.slice t.label.start t.label.stop)

end Source

end SourceIndex.Syntax
