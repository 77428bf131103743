import SourceIndex.Text.Blank
import SourceIndex.Text.Utf8

/-! Tokenizers, as what they answer to each of a series of calls. -/

namespace SourceIndex.Token

/-- The answer to one call, and whether a cancellation signal was raised while it lasted. -/
structure Reply where
  ids : Except String (List Nat)
  raises : Bool := false

/-- A tokenizer answers to its call with a number, counted from one, on a text. -/
structure Tokenizer where
  encode : Nat → Text → Reply

namespace Tokenizer

/-- The tokenizer that never fails and finds as many tokens as `count` tells. -/
def counting (count : Text → Nat) : Tokenizer where
  encode _ t := { ids := .ok (List.range (count t)) }

/-- One token for each word. -/
def words : Tokenizer := counting fun t => (Text.words t).length

/-- One token for each character. -/
def characters : Tokenizer := counting List.length

/-- One token for each byte. -/
def bytes : Tokenizer := counting Text.Utf8.size

/-- One token for each line. -/
def lines : Tokenizer := counting fun t => (Text.lines t).length

end Tokenizer

end SourceIndex.Token
