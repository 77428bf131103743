/-! Binary floating point numbers of any format. A result is formed exactly and then rounded once, to
the nearest number of the format, a tie going to the even mantissa. -/

namespace SourceIndex.Binary

/-- A format: the bits of a mantissa, and the exponents of the smallest and the largest last place. -/
structure Format where
  precision : Nat
  minExp : Int
  maxExp : Int
  deriving DecidableEq, Repr

def binary32 : Format := ⟨24, -149, 104⟩

def binary64 : Format := ⟨53, -1074, 971⟩

/-- A number of some format; a finite one is its mantissa times two to its exponent. -/
inductive Number where
  | nan
  | infinite (negative : Bool)
  | finite (negative : Bool) (mantissa : Nat) (exponent : Int)
  deriving DecidableEq, Repr

/-- The quotient `num / den` to the nearest natural number, a tie going to the even one. -/
def roundDiv (num den : Nat) : Nat :=
  let q := num / den
  let r := num % den
  if 2 * r < den then q else if den < 2 * r then q + 1 else if q % 2 = 0 then q else q + 1

/-- The fraction `num / den / 2 ^ e`. -/
def scaleDown (num den : Nat) (e : Int) : Nat × Nat :=
  if 0 ≤ e then (num, den <<< e.toNat) else (num <<< (-e).toNat, den)

namespace Format

def zero (f : Format) (negative : Bool) : Number :=
  .finite negative 0 f.minExp

/-- The number nearest to `num / den`. -/
def round (f : Format) (negative : Bool) (num den : Nat) : Number :=
  if num = 0 then f.zero negative
  else
    let low : Int := (num.log2 : Int) - den.log2 - f.precision
    let (n, d) := scaleDown num den low
    let e := max f.minExp (if n < d <<< f.precision then low else low + 1)
    let (n, d) := scaleDown num den e
    let m := roundDiv n d
    let (m, e) :=
      if m = Nat.pow 2 f.precision then (Nat.pow 2 (f.precision - 1), e + 1) else (m, e)
    if f.maxExp < e then .infinite negative else .finite negative m e

/-- The number nearest to `m * 2 ^ e`. -/
def roundScaled (f : Format) (negative : Bool) (m : Nat) (e : Int) : Number :=
  if 0 ≤ e then f.round negative (m <<< e.toNat) 1 else f.round negative m (1 <<< (-e).toNat)

/-- The number nearest to an integer. -/
def ofInt (f : Format) (n : Int) : Number :=
  f.round (n < 0) n.natAbs 1

/-- The number nearest to `digits * 10 ^ exponent`. An exponent too far out for the format is settled
before any power is formed. -/
def ofDecimal (f : Format) (negative : Bool) (digits : Nat) (exponent : Int) : Number :=
  let magnitude : Int := exponent + (Nat.toDigits 10 digits).length
  if digits = 0 then f.zero negative
  else if f.maxExp + f.precision ≤ 3 * (magnitude - 1) then .infinite negative
  else if 3 * magnitude ≤ f.minExp - 1 then f.zero negative
  else if 0 ≤ exponent then f.round negative (digits * Nat.pow 10 exponent.toNat) 1
  else f.round negative digits (Nat.pow 10 (-exponent).toNat)

/-- The number of this format nearest to a number of any format. -/
def convert (f : Format) : Number → Number
  | .nan => .nan
  | .infinite s => .infinite s
  | .finite s m e => f.roundScaled s m e

/-- The bits of a sign, an exponent field and a fraction. -/
def pack (f : Format) (negative : Bool) (field fraction : Nat) : Nat :=
  let width := ((f.maxExp - f.minExp + 2).toNat).log2 + 1
  ((if negative then 1 else 0) <<< width + field) <<< (f.precision - 1) + fraction

/-- The bits of a number of this format; there are many for what is no number. -/
def bits? (f : Format) : Number → Option Nat
  | .nan => none
  | .infinite s => some (f.pack s (f.maxExp - f.minExp + 2).toNat 0)
  | .finite s m e =>
    let lead := Nat.pow 2 (f.precision - 1)
    if m < lead then some (f.pack s 0 m)
    else some (f.pack s (e - f.minExp + 1).toNat (m - lead))

end Format

end SourceIndex.Binary
