import SourceIndex.Text.Line

/-! Arrays of any number of dimensions, as models put them out. -/

namespace SourceIndex.Embedding

/-- How many entries a shape holds. -/
def volume (shape : List Nat) : Nat :=
  shape.foldr (· * ·) 1

/-- An array: the sizes of its dimensions, and its entry at each index. What there is at an index out of
bounds is of no account. -/
structure Tensor (α : Type) where
  shape : List Nat
  entry : List Nat → α

namespace Tensor

variable {α : Type}

/-- The indices of a shape; those of the last dimension run fastest. -/
def indices : List Nat → List (List Nat)
  | [] => [[]]
  | n :: shape => (List.range n).flatMap fun i => (indices shape).map (i :: ·)

/-- The number of an index among those of a shape. -/
def position : List Nat → List Nat → Nat
  | _ :: shape, i :: index => i * volume shape + position shape index
  | _, _ => 0

/-- The array of a shape with entries in the order of the indices, if there are as many as it holds. -/
def ofData? [Inhabited α] (shape : List Nat) (data : List α) : Option (Tensor α) :=
  let entries := data.toArray
  if entries.size = volume shape then
    some ⟨shape, fun index => entries.getD (position shape index) default⟩
  else none

def empty [Inhabited α] : Tensor α :=
  ⟨[0], fun _ => default⟩

/-- All entries, in the order of the indices. -/
def flat (t : Tensor α) : List α :=
  (indices t.shape).map t.entry

def map {β : Type} (f : α → β) (t : Tensor α) : Tensor β :=
  ⟨t.shape, fun index => f (t.entry index)⟩

/-- The part of an array at a number of its first dimension. -/
def part (t : Tensor α) (i : Nat) : Tensor α :=
  ⟨t.shape.tail, fun index => t.entry (i :: index)⟩

/-- The entries that are met by going through a dimension, from an index. -/
def along (t : Tensor α) (dimension : Nat) (index : List Nat) : List α :=
  (List.range (t.shape.getD dimension 0)).map fun j => t.entry (index.set dimension j)

/-- The dimension that an axis names, of as many as there are; negative ones count from behind the
last. -/
def dimension? (count : Nat) (axis : Int) : Option Nat :=
  let number := if axis < 0 then axis + count else axis
  if 0 ≤ number && number < count then some number.toNat else none

/-- The index that an index of a larger array stands for where sizes of one are stretched. -/
def shrink (shape index : List Nat) : List Nat :=
  List.zipWith (fun n i => if n = 1 then 0 else i) shape index

/-- The text of a shape: its dimensions in parentheses, a single one followed by a comma. -/
def shapeText : List Nat → String
  | [n] => s!"({n},)"
  | shape => "(" ++ String.intercalate ", " (shape.map toString) ++ ")"

end Tensor

end SourceIndex.Embedding
