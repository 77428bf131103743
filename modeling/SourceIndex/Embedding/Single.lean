import SourceIndex.Binary.Sum
import SourceIndex.Embedding.Pooling

/-! The arithmetic of arrays in single precision. -/

namespace SourceIndex.Embedding

open Binary (Number binary32)

/-- The coordinates of a vector, in single precision. -/
abbrev Vec := List Number

instance : Inhabited Number := ⟨.nan⟩

namespace Single

/-- The sum of numbers that lie side by side. -/
def sum (xs : Vec) : Number :=
  binary32.add (binary32.zero false) (binary32.pairwiseSum xs)

def length (v : Vec) : Number :=
  binary32.sqrt (sum (v.map fun x => binary32.mul x x))

/-- The means along an axis. Numbers lie side by side if the axis has the only dimension that counts;
otherwise they are added up one after another. -/
def mean (axis : Int) (t : Tensor Number) : Tensor Number :=
  let dimension := (Tensor.dimension? t.shape.length axis).getD 0
  let shape := t.shape.eraseIdx dimension
  let sum := if volume shape = 1 then sum else binary32.sum
  { shape
    entry := fun index =>
      let xs := t.along dimension (index.insertIdx dimension 0)
      binary32.div (sum xs) (binary32.ofInt xs.length) }

/-- The lengths of the vectors along an axis. -/
def norm (axis : Int) (keep : Bool) (t : Tensor Number) : Tensor Number :=
  let dimension := (Tensor.dimension? t.shape.length axis).getD 0
  if keep then ⟨t.shape.set dimension 1, fun index => length (t.along dimension index)⟩
  else ⟨t.shape.eraseIdx dimension, fun index =>
    length (t.along dimension (index.insertIdx dimension 0))⟩

def divide (t u : Tensor Number) : Tensor Number where
  shape := t.shape
  entry index := binary32.div (t.entry index) (u.entry (Tensor.shrink u.shape index))

def math : ArrayMath Number where
  mean := mean
  norm := norm
  divide := divide
  isZero := Number.isZero
  one := binary32.ofInt 1
  single := binary32.convert

end Single

end SourceIndex.Embedding
