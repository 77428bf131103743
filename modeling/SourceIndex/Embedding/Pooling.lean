import SourceIndex.Embedding.Tensor
import SourceIndex.Text.Quoted

/-! Pooling: from a vector for each token of a text to one vector for the text. Means, lengths and
quotients are left to an arithmetic of arrays. -/

namespace SourceIndex.Embedding

/-- How the vectors of tokens become one: by their mean, as that of the first token, or all in a row. -/
inductive Strategy where
  | mean
  | first
  | all
  deriving DecidableEq, Repr

def Strategy.ofName? (name : String) : Option Strategy :=
  if name == "mean" then some .mean
  else if name == "cls" then some .first
  else if name == "none" then some .all
  else none

/-- How vectors are made of a model's output. The name of the strategy is looked up when it is used. -/
structure Options where
  pooling : String := "mean"
  normalize : Bool := true
  deriving DecidableEq, Repr

/-- Why a model's output gives no vector. -/
inductive PoolingError where
  | malformed (shape : List Nat)
  | unknown (name : String)
  deriving DecidableEq, Repr

def PoolingError.message : PoolingError → String
  | .malformed shape =>
    "Malformed model output: expected (tokens, dim), got shape " ++ Tensor.shapeText shape
  | .unknown name =>
    "Unknown pooling strategy: " ++ String.ofList (Text.quote name.toList)

/-- An arithmetic of arrays: means along an axis, lengths of the vectors along an axis, which may be
kept with size one, and quotients; beside them what is zero, what is one, and what becomes of a number
in single precision. -/
structure ArrayMath (α : Type) where
  mean (axis : Int) (t : Tensor α) : Tensor α
  norm (axis : Int) (keep : Bool) (t : Tensor α) : Tensor α
  divide (t u : Tensor α) : Tensor α
  isZero : α → Bool
  one : α
  single : α → α

namespace ArrayMath

variable {α : Type}

/-- Divides the vectors along the last axis by their lengths, and those without length by one. -/
def normalize (m : ArrayMath α) (t : Tensor α) : Tensor α :=
  let norms := m.norm (-1) true t
  m.divide t (norms.map fun x => if m.isZero x then m.one else x)

/-- What is left of the rows of a matrix. -/
def reduce (m : ArrayMath α) (strategy : Strategy) (t : Tensor α) : Tensor α :=
  match strategy with
  | .mean => m.mean 0 t
  | .first => t.part 0
  | .all => t

end ArrayMath

/-- One vector for a model's output, which must have a row for each token. -/
def pool {α : Type} (m : ArrayMath α) (options : Options) (output : Tensor α) :
    Except PoolingError (List α) :=
  if output.shape.length ≠ 2 || output.shape.head? == some 0 then
    .error (.malformed output.shape)
  else
    match Strategy.ofName? options.pooling with
    | none => .error (.unknown options.pooling)
    | some strategy =>
      let pooled := m.reduce strategy output
      let pooled := if options.normalize then m.normalize pooled else pooled
      .ok (pooled.flat.map m.single)

end SourceIndex.Embedding
