import SourceIndex.Json.Basic
import SourceIndex.Text.Integer

/-! Reading JSON. Beside the standard's grammar the words `NaN`, `Infinity` and `-Infinity` are numbers;
of two members with one name the later value stands; control characters in strings, a byte order mark,
trailing commas and comments are refused. Arrays and objects may nest as far as there is room. -/

namespace SourceIndex.Json

/-- What other values stand in. -/
inductive Container where
  | array
  | object
  deriving DecidableEq, Repr

/-- Why no JSON value is read from a text. -/
inductive ReadError where
  | malformed
  | tooManyDigits (count : Nat)
  | tooDeep (container : Container)
  deriving DecidableEq, Repr

/-- A reader takes a value off the front of a text. -/
abbrev Read (α : Type) := Except ReadError (α × Text)

/-- White space between tokens. -/
def isGap (c : Char) : Bool :=
  c == ' ' || c == '\t' || c == '\n' || c == '\r'

def skipGap (t : Text) : Text :=
  t.dropWhile isGap

/-- The value of a hexadecimal digit. -/
def hexValue? (c : Char) : Option Nat :=
  if '0' ≤ c && c ≤ '9' then some (c.toNat - '0'.toNat)
  else if 'a' ≤ c && c ≤ 'f' then some (c.toNat - 'a'.toNat + 10)
  else if 'A' ≤ c && c ≤ 'F' then some (c.toNat - 'A'.toNat + 10)
  else none

/-- The number that four hexadecimal digits spell. -/
def hexQuad? (a b c d : Char) : Option Nat := do
  return (((← hexValue? a) * 16 + (← hexValue? b)) * 16 + (← hexValue? c)) * 16 + (← hexValue? d)

/-- What a short escape stands for. -/
def shortEscape? : Char → Option Nat
  | '"' => some 0x22
  | '\\' => some 0x5c
  | '/' => some 0x2f
  | 'b' => some 0x08
  | 'f' => some 0x0c
  | 'n' => some 0x0a
  | 'r' => some 0x0d
  | 't' => some 0x09
  | _ => none

/-- Reads the code units of a string, from after its opening quote to after its closing one. -/
def readUnits : Text → Read (List Nat)
  | '"' :: rest => .ok ([], rest)
  | '\\' :: 'u' :: a :: b :: c :: d :: rest =>
    match hexQuad? a b c d with
    | none => .error .malformed
    | some n => (readUnits rest).map fun (ns, rest) => (n :: ns, rest)
  | '\\' :: c :: rest =>
    match shortEscape? c with
    | none => .error .malformed
    | some n => (readUnits rest).map fun (ns, rest) => (n :: ns, rest)
  | c :: rest =>
    if c = '\\' || c.toNat < 0x20 then .error .malformed
    else (readUnits rest).map fun (ns, rest) => (c.toNat :: ns, rest)
  | [] => .error .malformed

/-- Reads one or more decimal digits. -/
def readDigits (t : Text) : Option (Text × Text) :=
  let ds := t.takeWhile Char.isDigit
  if ds.isEmpty then none else some (ds, t.dropWhile Char.isDigit)

/-- The number that decimal digits spell. -/
def digitsValue (ds : Text) : Nat :=
  ds.foldl (fun n c => n * 10 + (c.toNat - '0'.toNat)) 0

/-- Reads the fraction of a number, if there is one. -/
def readFraction : Text → Option (Text × Text)
  | '.' :: t => readDigits t
  | _ => none

/-- Reads the exponent of a number, if there is one. -/
def readExponent : Text → Option (Int × Text)
  | c :: t =>
    if c = 'e' || c = 'E' then
      let (negative, t) := match t with
        | '-' :: t => (true, t)
        | '+' :: t => (false, t)
        | t => (false, t)
      (readDigits t).map fun (ds, rest) =>
        (if negative then -(digitsValue ds : Int) else digitsValue ds, rest)
    else none
  | [] => none

/-- Reads the digits before the point: a zero, or digits that start with no zero. -/
def readWhole : Text → Option (Text × Text)
  | '0' :: t => some (['0'], t)
  | t => readDigits t

/-- Reads a number; with neither fraction nor exponent it is an integer. -/
def readNumber (t : Text) : Read Json :=
  let (negative, t) := match t with
    | '-' :: t => (true, t)
    | t => (false, t)
  match readWhole t with
  | none => .error .malformed
  | some (whole, t) =>
    let fraction := readFraction t
    let (decimals, t) := fraction.getD ([], t)
    let exponent := readExponent t
    let (power, t) := exponent.getD (0, t)
    if fraction.isNone && exponent.isNone then
      if Text.maxDigits < whole.length then .error (.tooManyDigits whole.length)
      else
        let n := digitsValue whole
        .ok (.integer (if negative then -(n : Int) else n), t)
    else
      let x := Binary.binary64.ofDecimal negative (digitsValue (whole ++ decimals))
        (power - decimals.length)
      .ok (.real x, t)

def keywords : List (Text × Json) :=
  [("null".toList, .null), ("true".toList, .bool true), ("false".toList, .bool false),
    ("NaN".toList, .real .nan), ("Infinity".toList, .real (.infinite false)),
    ("-Infinity".toList, .real (.infinite true))]

/-- Reads a word that is a value. -/
def readKeyword? (t : Text) : Option (Json × Text) :=
  keywords.findSome? fun (word, value) => (word.isPrefixOf? t).map fun rest => (value, rest)

/-- Joins the two halves of each surrogate pair. -/
def joinPairs : List Nat → List Nat
  | hi :: lo :: rest =>
    if 0xd800 ≤ hi && hi < 0xdc00 && 0xdc00 ≤ lo && lo < 0xe000 then
      (0x10000 + (hi - 0xd800) * 0x400 + (lo - 0xdc00)) :: joinPairs rest
    else hi :: joinPairs (lo :: rest)
  | rest => rest

/-- Reads a string, from after its opening quote. -/
def readString (t : Text) : Read (List Nat) :=
  (readUnits t).map fun (units, rest) => (joinPairs units, rest)

mutual

/-- Reads a value; `fuel` bounds the steps, and each takes at least one character. With `room` for no
level, neither an array nor an object may start. -/
def readValue : Nat → Nat → Text → Read Json
  | 0, _, _ => .error .malformed
  | fuel + 1, room, t =>
    match t with
    | '"' :: rest => (readString rest).map fun (s, rest) => (.string s, rest)
    | '[' :: rest =>
      match room with
      | 0 => .error (.tooDeep .array)
      | room + 1 =>
        match skipGap rest with
        | ']' :: rest => .ok (.array [], rest)
        | rest => (readItems fuel room rest).map fun (items, rest) => (.array items, rest)
    | '\x7b' :: rest =>
      match room with
      | 0 => .error (.tooDeep .object)
      | room + 1 =>
        match skipGap rest with
        | '\x7d' :: rest => .ok (.object [], rest)
        | rest => (readMembers fuel room [] rest).map fun (members, rest) => (.object members, rest)
    | t =>
      match readKeyword? t with
      | some r => .ok r
      | none => readNumber t

def readItems : Nat → Nat → Text → Read (List Json)
  | 0, _, _ => .error .malformed
  | fuel + 1, room, t =>
    match readValue fuel room t with
    | .error e => .error e
    | .ok (item, rest) =>
      match skipGap rest with
      | ']' :: rest => .ok ([item], rest)
      | ',' :: rest =>
        (readItems fuel room (skipGap rest)).map fun (items, rest) => (item :: items, rest)
      | _ => .error .malformed

/-- Reads the members of an object up to its end, after those already read. -/
def readMembers : Nat → Nat → List (List Nat × Json) → Text → Read (List (List Nat × Json))
  | 0, _, _, _ => .error .malformed
  | fuel + 1, room, members, t =>
    match t with
    | '"' :: rest =>
      match readString rest with
      | .error e => .error e
      | .ok (key, rest) =>
        match skipGap rest with
        | ':' :: rest =>
          match readValue fuel room (skipGap rest) with
          | .error e => .error e
          | .ok (value, rest) =>
            let members := put key value members
            match skipGap rest with
            | '\x7d' :: rest => .ok (members, rest)
            | ',' :: rest => readMembers fuel room members (skipGap rest)
            | _ => .error .malformed
        | _ => .error .malformed
    | _ => .error .malformed

end

/-- The value that a whole text spells. There is room for as many levels of arrays and objects inside
the outermost one. -/
def read (room : Nat) (t : Text) : Except ReadError Json :=
  match readValue (t.length + 1) (room + 1) (skipGap t) with
  | .error e => .error e
  | .ok (value, rest) => if (skipGap rest).isEmpty then .ok value else .error .malformed

end SourceIndex.Json
