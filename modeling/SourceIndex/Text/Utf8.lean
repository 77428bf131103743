import SourceIndex.Text.Line

/-! UTF-8. Bytes are read unit by unit: a unit is one character, or one maximal ill-formed subpart.
Strict reading stops at the first ill-formed unit and lenient reading puts U+FFFD in its place. -/

namespace SourceIndex.Text.Utf8

def encode (t : Text) : List UInt8 :=
  t.flatMap String.utf8EncodeChar

def size (t : Text) : Nat :=
  t.foldl (fun n c => n + c.utf8Size) 0

/-- Why bytes are no character. -/
inductive Defect where
  | invalidStart
  | invalidContinuation
  | truncated
  deriving DecidableEq, Repr

/-- Some bytes at the front and what they stand for. -/
structure Piece where
  width : Nat
  value : Except Defect Char

/-- The ranges that the bytes after a leading byte must lie in; none for a byte that cannot lead. -/
def tailRanges (lead : UInt8) : Option (List (UInt8 × UInt8)) :=
  if lead < 0x80 then some []
  else if lead < 0xc2 then none
  else if lead < 0xe0 then some [(0x80, 0xbf)]
  else if lead = 0xe0 then some [(0xa0, 0xbf), (0x80, 0xbf)]
  else if lead = 0xed then some [(0x80, 0x9f), (0x80, 0xbf)]
  else if lead < 0xf0 then some [(0x80, 0xbf), (0x80, 0xbf)]
  else if lead = 0xf0 then some [(0x90, 0xbf), (0x80, 0xbf), (0x80, 0xbf)]
  else if lead < 0xf4 then some [(0x80, 0xbf), (0x80, 0xbf), (0x80, 0xbf)]
  else if lead = 0xf4 then some [(0x80, 0x8f), (0x80, 0xbf), (0x80, 0xbf)]
  else none

/-- The bits that a leading byte gives to its character. -/
def leadBits (lead : UInt8) : Nat :=
  let n := lead.toNat
  if n < 0x80 then n else if n < 0xe0 then n % 0x20 else if n < 0xf0 then n % 0x10 else n % 0x08

/-- Reads the bytes after a leading one; `code` and `width` tell of the bytes already read. -/
def pieceTail (code width : Nat) : List (UInt8 × UInt8) → List UInt8 → Piece
  | [], _ => ⟨width, .ok (Char.ofNat code)⟩
  | _ :: _, [] => ⟨width, .error .truncated⟩
  | (lo, hi) :: ranges, b :: bytes =>
    if lo ≤ b && b ≤ hi then pieceTail (code * 64 + b.toNat % 64) (width + 1) ranges bytes
    else ⟨width, .error .invalidContinuation⟩

/-- Reads the unit that starts with `lead`. -/
def piece (lead : UInt8) (rest : List UInt8) : Piece :=
  match tailRanges lead with
  | none => ⟨1, .error .invalidStart⟩
  | some ranges => pieceTail (leadBits lead) 1 ranges rest

/-- All units of a sequence of bytes. -/
def pieces : List UInt8 → List Piece
  | [] => []
  | lead :: rest =>
    let p := piece lead rest
    p :: pieces (rest.drop (p.width - 1))
termination_by bytes => bytes.length
decreasing_by simp only [List.length_cons, List.length_drop]; omega

/-- Reads all bytes, with U+FFFD for each maximal ill-formed subpart. -/
def decodeLenient (bytes : List UInt8) : Text :=
  (pieces bytes).map fun p => p.value.toOption.getD '\ufffd'

/-- Where and why strict reading stops; `bytes` are those of the ill-formed unit. -/
structure DecodeError where
  position : Nat
  bytes : List UInt8
  defect : Defect
  deriving DecidableEq, Repr

/-- Reads units that are all characters; the first is at `position`. -/
def decodePieces (bytes : List UInt8) (position : Nat) : List Piece → Except DecodeError Text
  | [] => .ok []
  | p :: ps =>
    match p.value with
    | .error defect => .error ⟨position, (bytes.drop position).take p.width, defect⟩
    | .ok c => (decodePieces bytes (position + p.width) ps).map (c :: ·)

/-- Reads bytes that are all well formed. -/
def decode (bytes : List UInt8) : Except DecodeError Text :=
  decodePieces bytes 0 (pieces bytes)

end SourceIndex.Text.Utf8
