import SourceIndex.Binary.Format

/-! The shortest decimal text of a number: the fewest digits that read back as it, and of the texts
with so many digits the nearest to it. -/

namespace SourceIndex.Binary

/-- The non-negative decimal `digits * 10 ^ exponent`. -/
structure Decimal where
  digits : Nat
  exponent : Int
  deriving DecidableEq, Repr

/-- The decimal without zeros at its end; `fuel` bounds their number. -/
def Decimal.strip : Nat → Decimal → Decimal
  | 0, d => d
  | fuel + 1, d =>
    if d.digits != 0 && d.digits % 10 == 0 then strip fuel ⟨d.digits / 10, d.exponent + 1⟩ else d

/-- The fraction `num / den * 10 ^ t`. -/
def scaleUpTen (num den : Nat) (t : Int) : Nat × Nat :=
  if 0 ≤ t then (num * Nat.pow 10 t.toNat, den) else (num, den * Nat.pow 10 (-t).toNat)

namespace Format

/-- The reals that round to `m * 2 ^ e`, in quarters of its last place: the lower end, the number and
the upper end. The numbers below a power of two lie half as far apart. -/
def quarters (f : Format) (m : Nat) (e : Int) : Nat × Nat × Nat :=
  let below := if m = Nat.pow 2 (f.precision - 1) && f.minExp < e then 1 else 2
  (4 * m - below, 4 * m, 4 * m + 2)

/-- The decimal of the grid `10 ^ t` that is nearest to `m * 2 ^ e`, if one rounds to it. -/
def onGrid? (f : Format) (m : Nat) (e t : Int) : Option Decimal :=
  let (lo, mid, hi) := f.quarters m e
  let (scale, den) := scaleUpTen 1 1 (-t)
  let (scale, den) := if 0 ≤ e - 2 then (scale <<< (e - 2).toNat, den) else (scale, den <<< (2 - e).toNat)
  let fits (c : Nat) : Bool :=
    if m % 2 = 0 then lo * scale ≤ c * den && c * den ≤ hi * scale
    else lo * scale < c * den && c * den < hi * scale
  let c := roundDiv (mid * scale) den
  let floor := mid * scale / den
  if fits c then some ⟨c, t⟩
  else if fits floor then some ⟨floor, t⟩
  else if fits (floor + 1) then some ⟨floor + 1, t⟩
  else none

/-- The exponent `k` with `10 ^ (k - 1) ≤ m * 2 ^ e < 10 ^ k`, for positive `m`. -/
def decimalExponent (m : Nat) (e : Int) : Int :=
  if 0 ≤ e then (Nat.toDigits 10 (m <<< e.toNat)).length
  else
    let den := 1 <<< (-e).toNat
    if den ≤ m then (Nat.toDigits 10 (m / den)).length
    else
      let tens := (List.range ((-e).toNat + 1)).find? fun j => den ≤ m * Nat.pow 10 j
      1 - (tens.getD 0 : Int)

/-- The shortest decimal that reads back as the positive number `m * 2 ^ e`. -/
def shortest (f : Format) (m : Nat) (e : Int) : Decimal :=
  let k := decimalExponent m e
  let found := (List.range (f.precision + 1)).findSome? fun (n : Nat) => f.onGrid? m e (k - 1 - n)
  (found.getD ⟨0, 0⟩).strip f.precision

end Format

/-- The text of a positive decimal: positional from 0.0001 up to below 10^16, else with an exponent of
two digits or more. -/
def Decimal.render (d : Decimal) : List Char :=
  let ds := Nat.toDigits 10 d.digits
  let point : Int := ds.length + d.exponent
  if -4 < point && point ≤ 16 then
    if point ≤ 0 then '0' :: '.' :: List.replicate (-point).toNat '0' ++ ds
    else if (ds.length : Int) ≤ point then
      ds ++ List.replicate (point.toNat - ds.length) '0' ++ ['.', '0']
    else ds.take point.toNat ++ '.' :: ds.drop point.toNat
  else
    let power := point - 1
    let powerDigits := Nat.toDigits 10 power.natAbs
    ds.take 1 ++ (if ds.length = 1 then [] else '.' :: ds.drop 1) ++
      'e' :: (if power < 0 then '-' else '+') ::
      (List.replicate (2 - powerDigits.length) '0' ++ powerDigits)

/-- The text of a double precision number, with the given words for what is not finite. -/
def Number.render (infinity nan : List Char) : Number → List Char
  | .nan => nan
  | .infinite s => if s then '-' :: infinity else infinity
  | .finite s m e =>
    let body := if m = 0 then ['0', '.', '0'] else (binary64.shortest m e).render
    if s then '-' :: body else body

end SourceIndex.Binary
