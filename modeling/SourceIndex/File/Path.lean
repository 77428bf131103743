import SourceIndex.Text.Line

/-! Paths of files: components between slashes. Empty components and `.` add nothing, and `..` stays
as it is. -/

namespace SourceIndex

/-- A path; the root is empty for a relative one, and two slashes at the start are kept as they are. -/
structure Path where
  root : Text
  parts : List Text
  deriving DecidableEq, Repr

namespace Path

/-- The pieces of a text between slashes. -/
def splitSlash : Text → List Text
  | [] => [[]]
  | c :: cs => if c = '/' then [] :: splitSlash cs else (splitSlash cs).modifyHead (c :: ·)

def ofText (t : Text) : Path where
  root :=
    match (t.takeWhile (· == '/')).length with
    | 0 => []
    | 2 => ['/', '/']
    | _ => ['/']
  parts := (splitSlash t).filter fun part => part != [] && part != ['.']

/-- The normal text of a path; the empty path is the current directory. -/
def text (p : Path) : Text :=
  let body := (p.parts.intersperse ['/']).flatten
  if p.root.isEmpty && body.isEmpty then ['.'] else p.root ++ body

/-- The last component, empty if there is none. -/
def name (p : Path) : Text :=
  p.parts.getLastD []

/-- The last dot of the name and what follows it, unless that dot starts or ends the name. -/
def suffix (p : Path) : Text :=
  let n := p.name
  let tail := (n.reverse.takeWhile (· != '.')).reverse
  let stem := n.take (n.length - tail.length - 1)
  if tail.isEmpty || stem.isEmpty then [] else '.' :: tail

end Path

end SourceIndex
