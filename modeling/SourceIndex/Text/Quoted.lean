import SourceIndex.Text.Printable
import SourceIndex.Text.Line

/-! Quoted text, as messages show it. Single quotes stand around it unless it holds single quotes and
no double ones; what is not printable is written as an escape, so quoting never loses a code point. -/

namespace SourceIndex.Text

/-- The lower-case hexadecimal digits of `n`, at least `width` of them. -/
def hexDigits (width n : Nat) : Text :=
  let digits := Nat.toDigits 16 n
  List.replicate (width - digits.length) '0' ++ digits

/-- One code point as it stands between two quotes `q`. -/
def quoteCode (q : Char) (n : Nat) : Text :=
  if n = q.toNat then ['\\', q]
  else if n = 0x5c then ['\\', '\\']
  else if n = 0x0a then ['\\', 'n']
  else if n = 0x0d then ['\\', 'r']
  else if n = 0x09 then ['\\', 't']
  else if isPrintable n then [Char.ofNat n]
  else if n < 0x100 then '\\' :: 'x' :: hexDigits 2 n
  else if n < 0x10000 then '\\' :: 'u' :: hexDigits 4 n
  else '\\' :: 'U' :: hexDigits 8 n

/-- The quote put around code points. -/
def quoteMark (codes : List Nat) : Char :=
  if codes.contains '\''.toNat && !codes.contains '"'.toNat then '"' else '\''

/-- Code points, lone surrogates among them, in quotes. -/
def quoteCodes (codes : List Nat) : Text :=
  let q := quoteMark codes
  q :: codes.flatMap (quoteCode q) ++ [q]

def quote (t : Text) : Text :=
  quoteCodes (t.map Char.toNat)

end SourceIndex.Text
