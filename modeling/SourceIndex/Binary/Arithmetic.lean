import SourceIndex.Binary.Format

/-! Arithmetic on binary floating point numbers. -/

namespace SourceIndex.Binary

namespace Number

def neg : Number → Number
  | .nan => .nan
  | .infinite s => .infinite (!s)
  | .finite s m e => .finite (!s) m e

def isZero : Number → Bool
  | .finite _ m _ => m == 0
  | _ => false

/-- A finite number in units of `2 ^ e`, where `e` is at most its exponent. -/
def units (e : Int) : Bool → Nat → Int → Int
  | s, m, x => let n : Int := (m <<< (x - e).toNat : Nat); if s then -n else n

/-- The greatest integer not above a finite number. -/
def floor? : Number → Option Int
  | .finite s m e =>
    let n : Int := if s then -(m : Int) else m
    some (if 0 ≤ e then n * Nat.pow 2 e.toNat else n.fdiv (Nat.pow 2 (-e).toNat))
  | _ => none

/-- The least integer not below a finite number. -/
def ceil? (x : Number) : Option Int :=
  x.neg.floor?.map (- ·)

end Number

namespace Format

/-- The sum, rounded. Numbers that cancel give the positive zero. -/
def add (f : Format) : Number → Number → Number
  | .nan, _ | _, .nan => .nan
  | .infinite s, .infinite t => if s = t then .infinite s else .nan
  | .infinite s, .finite .. => .infinite s
  | .finite .., .infinite t => .infinite t
  | .finite s m x, .finite t n y =>
    let e := min x y
    let sum := Number.units e s m x + Number.units e t n y
    if sum = 0 then f.zero (s && t) else f.roundScaled (sum < 0) sum.natAbs e

def mul (f : Format) : Number → Number → Number
  | .nan, _ | _, .nan => .nan
  | .infinite s, .infinite t => .infinite (s != t)
  | .infinite s, .finite t n _ => if n = 0 then .nan else .infinite (s != t)
  | .finite s m _, .infinite t => if m = 0 then .nan else .infinite (s != t)
  | .finite s m x, .finite t n y => f.roundScaled (s != t) (m * n) (x + y)

def div (f : Format) : Number → Number → Number
  | .nan, _ | _, .nan => .nan
  | .infinite _, .infinite _ => .nan
  | .infinite s, .finite t _ _ => .infinite (s != t)
  | .finite s _ _, .infinite t => f.zero (s != t)
  | .finite s m x, .finite t n y =>
    if n = 0 then (if m = 0 then .nan else .infinite (s != t))
    else
      let (num, den) := scaleDown m n (y - x)
      f.round (s != t) num den

/-- The square root, rounded. The root is taken with two bits to spare, and a last bit that tells
whether the root is exact. -/
def sqrt (f : Format) : Number → Number
  | .nan => .nan
  | .infinite s => if s then .nan else .infinite s
  | .finite s m e =>
    if m = 0 then .finite s m e
    else if s then .nan
    else
      let shift := 2 * f.precision + 4 + (if (e - 2 * f.precision - 4) % 2 = 0 then 0 else 1)
      let square := m <<< shift
      let root := Nat.sqrt square
      let odd := if root * root = square then 0 else 1
      f.roundScaled false (2 * root + odd) ((e - shift) / 2 - 1)

end Format

end SourceIndex.Binary
