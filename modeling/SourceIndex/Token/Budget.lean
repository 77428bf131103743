import SourceIndex.Binary.Arithmetic
import SourceIndex.Text.Line

/-! Token budgets: parts of a model's context length, and the estimate for texts that could not be
measured. -/

namespace SourceIndex.Token

/-- Why no part of a context length can be taken. -/
inductive BudgetError where
  | lengthTooLarge
  | infinite
  | notANumber
  deriving DecidableEq, Repr

def BudgetError.message : BudgetError → String
  | .lengthTooLarge => "int too large to convert to float"
  | .infinite => "cannot convert float infinity to integer"
  | .notANumber => "cannot convert float NaN to integer"

open Binary

/-- The part of a context length that one chunk may fill, which leaves room for special tokens. -/
def chunkFactor : Number := binary64.ofDecimal false 85 (-2)

/-- The part of a context length up to which a text is left whole. -/
def fitFactor : Number := binary64.ofDecimal false 95 (-2)

/-- A part of a context length, rounded down; the product is formed in double precision. -/
def part (length : Nat) (factor : Number) : Except BudgetError Int :=
  match binary64.ofInt length with
  | .infinite _ => .error .lengthTooLarge
  | x =>
    match binary64.mul x factor with
    | .nan => .error .notANumber
    | .infinite _ => .error .infinite
    | y => .ok (y.floor?.getD 0)

/-- The estimated number of tokens of a text: one for every four characters, rounded up. -/
def estimate (t : Text) : Nat :=
  (t.length + 3) / 4

end SourceIndex.Token
