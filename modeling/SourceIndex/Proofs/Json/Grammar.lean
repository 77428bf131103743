import SourceIndex.Json.Reader

/-!
# The grammar of JSON texts

A text with the value that it spells, said without any reader: `IsNumber` and `IsString` for the leaves,
`IsValue` for what may be nested, and `IsSpaced` for a value with white space around it, which is what a
whole text is. Both tell how many levels of arrays and objects there may be at most. Beside the
standard's grammar the words of `keywords` are values, and integers have at most `Text.maxDigits`
digits. Of members with one name the last one stands (`merge`).
-/

namespace SourceIndex.Json

/-- White space, of which there may be none. -/
def IsGap (t : Text) : Prop :=
  ∀ c ∈ t, isGap c = true

/-! ## Numbers -/

/-- One or more decimal digits. -/
structure IsDigits (t : Text) : Prop where
  ne_nil : t ≠ []
  isDigit : ∀ c ∈ t, c.isDigit = true

inductive IsSign : Text → Bool → Prop
  | none : IsSign [] false
  | minus : IsSign ['-'] true

/-- The digits before a point: a zero, or digits that start with no zero. -/
structure IsWhole (t : Text) : Prop where
  isDigits : IsDigits t
  eq_zero : t.head? = some '0' → t = ['0']

/-- A fraction with its digits, if there is one. -/
inductive IsFraction : Text → Text → Prop
  | none : IsFraction [] []
  | digits {ds : Text} (h : IsDigits ds) : IsFraction ('.' :: ds) ds

/-- An exponent with its value, which is zero if there is none. -/
inductive IsExponent : Text → Int → Prop
  | none : IsExponent [] 0
  | digits {e : Char} {ds : Text} (he : e = 'e' ∨ e = 'E') (h : IsDigits ds) :
      IsExponent (e :: ds) (digitsValue ds)
  | plus {e : Char} {ds : Text} (he : e = 'e' ∨ e = 'E') (h : IsDigits ds) :
      IsExponent (e :: '+' :: ds) (digitsValue ds)
  | minus {e : Char} {ds : Text} (he : e = 'e' ∨ e = 'E') (h : IsDigits ds) :
      IsExponent (e :: '-' :: ds) (-(digitsValue ds : Int))

/-- A number; with a fraction or an exponent it is a real one. -/
inductive IsNumber : Text → Json → Prop
  | integer {sign whole : Text} {negative : Bool} (hsign : IsSign sign negative)
      (hwhole : IsWhole whole) (hlength : whole.length ≤ Text.maxDigits) :
      IsNumber (sign ++ whole)
        (.integer (if negative then -(digitsValue whole : Int) else digitsValue whole))
  | real {sign whole fraction decimals exponent : Text} {negative : Bool} {power : Int}
      (hsign : IsSign sign negative) (hwhole : IsWhole whole)
      (hfraction : IsFraction fraction decimals) (hexponent : IsExponent exponent power)
      (hreal : fraction ≠ [] ∨ exponent ≠ []) :
      IsNumber (sign ++ (whole ++ (fraction ++ exponent)))
        (.real (Binary.binary64.ofDecimal negative (digitsValue (whole ++ decimals))
          (power - decimals.length)))

/-! ## Strings -/

/-- What stands between two quotes, with the code units that it spells. -/
inductive IsUnits : Text → List Nat → Prop
  | nil : IsUnits [] []
  | plain {c : Char} {t : Text} {units : List Nat} (hquote : c ≠ '"') (hescape : c ≠ '\\')
      (hcontrol : 0x20 ≤ c.toNat) (h : IsUnits t units) : IsUnits (c :: t) (c.toNat :: units)
  | short {c : Char} {unit : Nat} {t : Text} {units : List Nat}
      (hunit : shortEscape? c = some unit) (h : IsUnits t units) :
      IsUnits ('\\' :: c :: t) (unit :: units)
  | hex {a b c d : Char} {unit : Nat} {t : Text} {units : List Nat}
      (hunit : hexQuad? a b c d = some unit) (h : IsUnits t units) :
      IsUnits ('\\' :: 'u' :: a :: b :: c :: d :: t) (unit :: units)

/-- A string with its code points. -/
inductive IsString : Text → List Nat → Prop
  | quoted {t : Text} {units : List Nat} (h : IsUnits t units) :
      IsString ('"' :: (t ++ ['"'])) (joinPairs units)

/-- The name of a member, with white space around it. -/
inductive IsName : Text → List Nat → Prop
  | spaced {before t after : Text} {name : List Nat} (hbefore : IsGap before) (h : IsString t name)
      (hafter : IsGap after) : IsName (before ++ (t ++ after)) name

/-! ## Values -/

/-- Members, put one after another into others. -/
def merge (members : List (List Nat × Json)) (new : List (List Nat × Json)) :
    List (List Nat × Json) :=
  new.foldl (fun members member => put member.1 member.2 members) members

mutual

/-- A value with room for so many levels. -/
inductive IsValue : Nat → Text → Json → Prop
  | keyword {room : Nat} {t : Text} {value : Json} (h : (t, value) ∈ keywords) :
      IsValue room t value
  | number {room : Nat} {t : Text} {value : Json} (h : IsNumber t value) : IsValue room t value
  | string {room : Nat} {t : Text} {codes : List Nat} (h : IsString t codes) :
      IsValue room t (.string codes)
  | emptyArray {room : Nat} {t : Text} (h : IsGap t) :
      IsValue (room + 1) ('[' :: (t ++ [']'])) (.array [])
  | array {room : Nat} {t : Text} {items : List Json} (h : IsItems room t items) :
      IsValue (room + 1) ('[' :: (t ++ [']'])) (.array items)
  | emptyObject {room : Nat} {t : Text} (h : IsGap t) :
      IsValue (room + 1) ('\x7b' :: (t ++ ['\x7d'])) (.object [])
  | object {room : Nat} {t : Text} {members : List (List Nat × Json)}
      (h : IsMembers room t members) :
      IsValue (room + 1) ('\x7b' :: (t ++ ['\x7d'])) (.object (merge [] members))

/-- A value with white space around it. -/
inductive IsSpaced : Nat → Text → Json → Prop
  | spaced {room : Nat} {before t after : Text} {value : Json} (hbefore : IsGap before)
      (h : IsValue room t value) (hafter : IsGap after) :
      IsSpaced room (before ++ (t ++ after)) value

/-- One or more items with commas between them. -/
inductive IsItems : Nat → Text → List Json → Prop
  | last {room : Nat} {t : Text} {item : Json} (h : IsSpaced room t item) : IsItems room t [item]
  | more {room : Nat} {t ts : Text} {item : Json} {items : List Json} (h : IsSpaced room t item)
      (hmore : IsItems room ts items) : IsItems room (t ++ ',' :: ts) (item :: items)

/-- One or more members with commas between them. -/
inductive IsMembers : Nat → Text → List (List Nat × Json) → Prop
  | last {room : Nat} {n t : Text} {name : List Nat} {value : Json} (hname : IsName n name)
      (h : IsSpaced room t value) : IsMembers room (n ++ ':' :: t) [(name, value)]
  | more {room : Nat} {n t ts : Text} {name : List Nat} {value : Json}
      {members : List (List Nat × Json)} (hname : IsName n name) (h : IsSpaced room t value)
      (hmore : IsMembers room ts members) :
      IsMembers room (n ++ ':' :: (t ++ ',' :: ts)) ((name, value) :: members)

end

end SourceIndex.Json
