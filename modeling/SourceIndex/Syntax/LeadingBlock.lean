import SourceIndex.Syntax.Tree
import SourceIndex.Text.Blank

/-! The comments, decorators and attributes in front of a construct that belong to it. -/

namespace SourceIndex.Syntax

/-- Whether nodes of a type are comments in every language. -/
def isCommentKind (kind : String) : Bool :=
  kind == "comment" || "_comment".toList.isSuffixOf kind.toList

/-- White space among bytes is that of ASCII. -/
def isBlankByte (b : UInt8) : Bool :=
  (9 ≤ b && b ≤ 13) || b == 32

/-- Whether a line strictly between two rows is blank. -/
def Source.blankBetween (s : Source) (first last : Nat) : Bool :=
  ((s.lines.take last).drop (first + 1)).any Text.isBlank

/-- Walks back over previous siblings, nearest first, from the node `current` of a block that so far
starts on `line`. Comments and metadata join the block and blank nodes are passed over; the walk ends
at a blank line, at anything else, and at a comment that trails code on its own line. -/
def Source.leadingLine (s : Source) (metadata : List String) (line : Nat) (current : Tree) :
    List Tree → Nat
  | [] => line
  | previous :: earlier =>
    let first := s.row previous.label.start
    if s.blankBetween (s.row previous.label.stop) (s.row current.label.start) then line
    else if isCommentKind previous.kind || metadata.contains previous.kind then
      if isCommentKind previous.kind &&
          earlier.head?.any fun code => s.row code.label.stop == first then line
      else leadingLine s metadata first previous earlier
    else if (s.slice previous.label.start previous.label.stop).all isBlankByte then
      leadingLine s metadata line previous earlier
    else line

/-- The first line of a node with the block in front of it. -/
def Source.blockLine (s : Source) (metadata : List String) (p : Place) : Nat :=
  s.leadingLine metadata (s.row p.start) p.tree p.before

end SourceIndex.Syntax
