import SourceIndex.Binary.Arithmetic

/-! How many workers a number of processor cores is good for. -/

namespace SourceIndex.Settings

/-- A number of cores that is too large to be halved in double precision. -/
structure CoreOverflow where
  cores : Int
  deriving DecidableEq, Repr

def CoreOverflow.message (_ : CoreOverflow) : String :=
  "integer division result too large for a float"

/-- Half the cores, rounded up, and two at the least. The half is formed in double precision. -/
def workersFor (cores : Int) : Except CoreOverflow Nat :=
  match (Binary.binary64.round (cores < 0) cores.natAbs 2).ceil? with
  | none => .error ⟨cores⟩
  | some half => .ok (max 2 half.toNat)

/-- The number of cores that counts: the given one, else the one that was found, unless that is
zero. -/
def coreCount (given found : Option Int) : Int :=
  match given, found with
  | some n, _ => n
  | none, some n => if n = 0 then 1 else n
  | none, none => 1

end SourceIndex.Settings
