import SourceIndex.Text.Blank

/-! Trimming: blank lines at the edges of a text go, and so does the indentation that all its lines
share. -/

namespace SourceIndex.Chunking

/-- The blanks at the start of a line. -/
def indent (line : Text) : Text :=
  line.takeWhile Text.isIndent

/-- The longest common start of two texts. -/
def commonStart : Text → Text → Text
  | a :: as, b :: bs => if a = b then a :: commonStart as bs else []
  | _, _ => []

/-- The longest common start of several texts. -/
def sharedStart : List Text → Text
  | [] => []
  | [t] => t
  | t :: ts => commonStart t (sharedStart ts)

/-- The indentation that all non-blank lines share. -/
def sharedIndent (lines : List Text) : Text :=
  sharedStart ((lines.filter fun line => !Text.isBlank line).map indent)

/-- A line without the shared indentation; a blank line that lacks it loses its own. -/
def unindent (shared line : Text) : Text :=
  match shared.isPrefixOf? line with
  | some rest => rest
  | none => line.dropWhile Text.isIndent

/-- What trimming leaves, and how many characters of the text stand before it. -/
structure Trimmed where
  content : Text
  skipped : Nat
  deriving DecidableEq, Repr

/-- The lines from the first to the last that is not blank. -/
def trimLines (lines : List Text) : List Text :=
  ((lines.dropWhile Text.isBlank).reverse.dropWhile Text.isBlank).reverse

/-- Trims a text; nothing is left of a blank one. -/
def trim? (text : Text) : Option Trimmed :=
  let lines := Text.lines text
  match trimLines lines with
  | [] => none
  | kept =>
    let shared := sharedIndent kept
    let above := (lines.takeWhile Text.isBlank).foldl (fun n line => n + line.length + 1) 0
    some ⟨Text.ofLines (kept.map (unindent shared)), above + shared.length⟩

end SourceIndex.Chunking
