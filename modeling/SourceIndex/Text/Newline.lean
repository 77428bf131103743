import SourceIndex.Text.Line

/-! Newlines of text files. -/

namespace SourceIndex.Text

/-- Writes every line end, be it a carriage return, a newline or the two together, as a newline. -/
def unifyNewlines : Text → Text
  | [] => []
  | '\r' :: '\n' :: cs => '\n' :: unifyNewlines cs
  | c :: cs => (if c = '\r' then '\n' else c) :: unifyNewlines cs

end SourceIndex.Text
