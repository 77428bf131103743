import SourceIndex.Language.Spec

/-! Significance: a text counts for nothing if it holds only comments and closing delimiters. Lines are
read one after another, and a block comment that is still open passes on to the next line. -/

namespace SourceIndex.Chunking

/-- What follows the first occurrence of `mark` in a text. -/
def after? (mark : Text) : Text → Option Text
  | [] => mark.isPrefixOf? []
  | c :: cs =>
    match mark.isPrefixOf? (c :: cs) with
    | some rest => some rest
    | none => after? mark cs

/-- Whether a line is made of closing delimiters with white space between them, and maybe a comment
behind them. -/
def isClosing (s : CommentSyntax) (line : Text) : Bool :=
  s.closers.any fun closer =>
    match closer.isPrefixOf? line with
    | none => false
    | some rest =>
      let rest := Text.trimStart rest
      rest.isEmpty || s.line.any (·.isPrefixOf rest) ||
        s.block.any (·.opening.isPrefixOf rest) ||
        if rest.length < line.length then isClosing s rest else false
termination_by line.length

/-- Whether a line is a piece from inside a block comment of the C family. -/
def isFragment (line : Text) : Bool :=
  line == ['*'] || ['*', ' '].isPrefixOf line || ['*', '/'].isPrefixOf line

/-- Reads one line, or what is left of it. `pending` is the closing of the block comment that is open.
The answer is the closing that is pending after the line, or nothing if there is code on it. A mark is
never empty, so what follows it is shorter. -/
def scanLine (s : CommentSyntax) (pending : Option Text) (line : Text) : Option (Option Text) :=
  if line.isEmpty then some pending
  else
    match pending with
    | some closing =>
      match after? closing line with
      | none => some pending
      | some rest =>
        let rest := Text.trim rest
        if rest.length < line.length then scanLine s none rest else none
    | none =>
      if s.line.any (·.isPrefixOf line) then some none
      else
        match s.block.find? fun b => b.opening.isPrefixOf line with
        | some b =>
          match after? b.closing (line.drop b.opening.length) with
          | none => some (some b.closing)
          | some rest =>
            let rest := Text.trim rest
            if rest.length < line.length then scanLine s none rest else none
        | none =>
          if s.isCStyle && isFragment line then some none
          else if isClosing s line then some none
          else none
termination_by line.length

/-- Reads lines one after another. -/
def scanLines (s : CommentSyntax) (pending : Option Text) : List Text → Bool
  | [] => true
  | line :: lines =>
    match scanLine s pending (Text.trim line) with
    | none => false
    | some pending => scanLines s pending lines

/-- Whether a text holds only comments, closing delimiters and blanks. -/
def isInsignificant (s : CommentSyntax) (content : Text) : Bool :=
  scanLines s none (Text.lines content)

end SourceIndex.Chunking
