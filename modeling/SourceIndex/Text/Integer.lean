import SourceIndex.Text.Blank
import SourceIndex.Text.Digit

/-! Integers as people write them: white space around, a sign, and decimal digits of any script, between
which single underscores may stand. -/

namespace SourceIndex.Text

/-- The most digits that are read as one integer. -/
def maxDigits : Nat := 4300

/-- Why a text is no integer. -/
inductive IntegerError where
  | malformed
  | tooManyDigits (count : Nat)
  deriving DecidableEq, Repr

/-- What is told of an integer with too many digits. -/
def tooManyDigitsMessage (count : Nat) : String :=
  s!"Exceeds the limit ({maxDigits} digits) for integer string conversion: value has {count} digits; " ++
    "use sys.set_int_max_str_digits() to increase the limit"

/-- White space around an integer, which of the separators in ASCII has only the common ones. -/
def isIntegerGap (c : Char) : Bool :=
  isSpace c && !(0x1c ≤ c.toNat && c.toNat ≤ 0x1f)

/-- What can stand in the run of digits. -/
def isDigitOrMark (c : Char) : Bool :=
  c == '_' || (decimalValue? c).isSome

/-- Whether two underscores stand side by side. -/
def hasDoubleMark : Text → Bool
  | '_' :: '_' :: _ => true
  | _ :: cs => hasDoubleMark cs
  | [] => false

/-- Whether the underscores of a run each stand between two digits. -/
def isWellMarked (run : Text) : Bool :=
  run.head? != some '_' && run.getLast? != some '_' && !hasDoubleMark run

/-- Reads a text without a sign. -/
def readDigitRun (t : Text) : Except IntegerError Nat :=
  let run := t.takeWhile isDigitOrMark
  let rest := t.dropWhile isDigitOrMark
  let values := run.filterMap decimalValue?
  if !isWellMarked run then .error .malformed
  else if maxDigits < values.length then .error (.tooManyDigits values.length)
  else if values.isEmpty || !rest.all isIntegerGap then .error .malformed
  else .ok (values.foldl (fun n d => n * 10 + d) 0)

def readInteger (t : Text) : Except IntegerError Int :=
  match t.dropWhile isIntegerGap with
  | '-' :: rest => (readDigitRun rest).map fun n => -(n : Int)
  | '+' :: rest => (readDigitRun rest).map Int.ofNat
  | rest => (readDigitRun rest).map Int.ofNat

end SourceIndex.Text
