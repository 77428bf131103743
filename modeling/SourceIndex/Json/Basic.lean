import SourceIndex.Binary.Format
import SourceIndex.Text.Line

/-! JSON values. Strings are code points, since an escape can name a lone surrogate, which no character
is. Integers are kept apart from reals, and the members of an object keep their order. -/

namespace SourceIndex

inductive Json where
  | null
  | bool (value : Bool)
  | integer (value : Int)
  | real (value : Binary.Number)
  | string (codes : List Nat)
  | array (items : List Json)
  | object (members : List (List Nat × Json))

namespace Json

/-- The code points of a text. -/
def codes (t : Text) : List Nat :=
  t.map Char.toNat

/-- The text of code points; one that is no character becomes U+FFFD. -/
def text (cs : List Nat) : Text :=
  cs.map fun n => if n.isValidChar then Char.ofNat n else '\ufffd'

/-- The string value of a text. -/
def ofText (t : Text) : Json :=
  .string (codes t)

/-- The string value of a name. -/
def ofString (s : String) : Json :=
  ofText s.toList

/-- The members after `key` is set: in its old place if it had one, else at the end. -/
def put (key : List Nat) (value : Json) : List (List Nat × Json) → List (List Nat × Json)
  | [] => [(key, value)]
  | (k, v) :: rest => if k = key then (key, value) :: rest else (k, v) :: put key value rest

def member? (name : String) : Json → Option Json
  | .object members => members.lookup (codes name.toList)
  | _ => none

end Json

end SourceIndex
