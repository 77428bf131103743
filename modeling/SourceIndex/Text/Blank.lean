import SourceIndex.Text.Line

/-! White space: the class of characters, blank texts, trimming and words. -/

namespace SourceIndex.Text

/-- White space is Unicode's, with the four information separators U+001C to U+001F. -/
def isSpace (c : Char) : Bool :=
  let n := c.toNat
  (9 ≤ n && n ≤ 13) || (0x1c ≤ n && n ≤ 0x20) || n == 0x85 || n == 0xa0 || n == 0x1680 ||
    (0x2000 ≤ n && n ≤ 0x200a) || n == 0x2028 || n == 0x2029 || n == 0x202f || n == 0x205f ||
    n == 0x3000

/-- The blanks that make up indentation. -/
def isIndent (c : Char) : Bool :=
  c == ' ' || c == '\t'

/-- A text with nothing but white space in it. -/
def isBlank (t : Text) : Bool :=
  t.all isSpace

/-- Drops white space at the start. -/
def trimStart (t : Text) : Text :=
  t.dropWhile isSpace

/-- Drops white space at the end. -/
def trimEnd (t : Text) : Text :=
  (t.reverse.dropWhile isSpace).reverse

def trim (t : Text) : Text :=
  trimEnd (trimStart t)

/-- The words of a text: its maximal runs without white space. -/
def words (t : Text) : List Text :=
  (t.splitBy fun a b => isSpace a == isSpace b).filter fun run => !isBlank run

end SourceIndex.Text
