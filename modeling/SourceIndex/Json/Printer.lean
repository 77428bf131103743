import SourceIndex.Binary.Shortest
import SourceIndex.Json.Basic
import SourceIndex.Text.Quoted

/-! Writing JSON in ASCII, on one line or with an indent of two for each level, and the plain text of
a value that stands where a word is expected. -/

namespace SourceIndex.Json

/-- One UTF-16 unit as an escape. -/
def escapeUnit (n : Nat) : Text :=
  '\\' :: 'u' :: Text.hexDigits 4 n

/-- One code point inside a string. -/
def escapeCode (n : Nat) : Text :=
  if n = 0x22 then ['\\', '"']
  else if n = 0x5c then ['\\', '\\']
  else if 0x20 ≤ n && n ≤ 0x7e then [Char.ofNat n]
  else if n = 0x0a then ['\\', 'n']
  else if n = 0x0d then ['\\', 'r']
  else if n = 0x09 then ['\\', 't']
  else if n = 0x0c then ['\\', 'f']
  else if n = 0x08 then ['\\', 'b']
  else if n < 0x10000 then escapeUnit n
  else
    let v := n - 0x10000
    escapeUnit (0xd800 + v / 0x400) ++ escapeUnit (0xdc00 + v % 0x400)

/-- A string in its quotes. -/
def quoted (codes : List Nat) : Text :=
  '"' :: codes.flatMap escapeCode ++ ['"']

def integerText (n : Int) : Text :=
  if n < 0 then '-' :: Nat.toDigits 10 n.natAbs else Nat.toDigits 10 n.natAbs

/-- Pieces with a separator between them. -/
def joinWith (sep : Text) (pieces : List Text) : Text :=
  (pieces.intersperse sep).flatten

mutual

/-- A value on one line. -/
def compact : Json → Text
  | .null => "null".toList
  | .bool b => (if b then "true" else "false").toList
  | .integer n => integerText n
  | .real x => x.render "Infinity".toList "NaN".toList
  | .string codes => quoted codes
  | .array items => '[' :: joinWith [','] (compactItems items) ++ [']']
  | .object members => '\x7b' :: joinWith [','] (compactMembers members) ++ ['\x7d']

def compactItems : List Json → List Text
  | [] => []
  | item :: items => compact item :: compactItems items

def compactMembers : List (List Nat × Json) → List Text
  | [] => []
  | (key, value) :: members => (quoted key ++ ':' :: compact value) :: compactMembers members

end

/-- A line end and the indent of a level. -/
def newline (level : Nat) : Text :=
  '\n' :: List.replicate (2 * level) ' '

/-- Pieces between brackets, each on a line of its own one level further in. -/
def block (opening closing : Char) (level : Nat) (pieces : List Text) : Text :=
  if pieces.isEmpty then [opening, closing]
  else
    opening :: newline (level + 1) ++ joinWith (',' :: newline (level + 1)) pieces ++
      newline level ++ [closing]

mutual

/-- A value that starts at an indent of `level`. -/
def prettyAt (level : Nat) : Json → Text
  | .null => "null".toList
  | .bool b => (if b then "true" else "false").toList
  | .integer n => integerText n
  | .real x => x.render "Infinity".toList "NaN".toList
  | .string codes => quoted codes
  | .array items => block '[' ']' level (prettyItems (level + 1) items)
  | .object members => block '\x7b' '\x7d' level (prettyMembers (level + 1) members)

def prettyItems (level : Nat) : List Json → List Text
  | [] => []
  | item :: items => prettyAt level item :: prettyItems level items

def prettyMembers (level : Nat) : List (List Nat × Json) → List Text
  | [] => []
  | (key, value) :: members =>
    (quoted key ++ ':' :: ' ' :: prettyAt level value) :: prettyMembers level members

end

/-- A value on as many lines as it has items and members. -/
def pretty (value : Json) : Text :=
  prettyAt 0 value

mutual

/-- A value inside another, as plain text: strings are quoted and constants are capitalised. -/
def nestedPlain : Json → Text
  | .null => "None".toList
  | .bool b => (if b then "True" else "False").toList
  | .integer n => integerText n
  | .real x => x.render "inf".toList "nan".toList
  | .string codes => Text.quoteCodes codes
  | .array items => '[' :: joinWith [',', ' '] (nestedItems items) ++ [']']
  | .object members => '\x7b' :: joinWith [',', ' '] (nestedMembers members) ++ ['\x7d']

def nestedItems : List Json → List Text
  | [] => []
  | item :: items => nestedPlain item :: nestedItems items

def nestedMembers : List (List Nat × Json) → List Text
  | [] => []
  | (key, value) :: members =>
    (Text.quoteCodes key ++ ':' :: ' ' :: nestedPlain value) :: nestedMembers members

end

/-- The code points of a value as plain text; a string stands for itself. -/
def plain : Json → List Nat
  | .string codes => codes
  | value => codes (nestedPlain value)

end SourceIndex.Json
