/-! Texts as lists of characters, and the two views of their lines: `lines` without the newlines
that end them, and `rows` with them. A line ends at a newline and nowhere else. -/

namespace SourceIndex

/-- A text is the list of its characters, so lengths and offsets count code points. -/
abbrev Text := List Char

namespace Text

/-- The lines of a text without their newlines: one more than there are newlines. -/
def lines : Text → List Text
  | [] => [[]]
  | c :: cs => if c = '\n' then [] :: lines cs else (lines cs).modifyHead (c :: ·)

/-- The text that has the given lines. -/
def ofLines : List Text → Text
  | [] => []
  | [l] => l
  | l :: ls => l ++ '\n' :: ofLines ls

/-- The non-empty pieces of a text that end at its newlines; the last may lack one. -/
def rows : Text → List Text
  | [] => []
  | c :: cs =>
    if c = '\n' then [c] :: rows cs
    else
      match rows cs with
      | [] => [[c]]
      | r :: rs => (c :: r) :: rs

/-- The number of a line that may be counted from the end, as negative numbers are. -/
def lineNumber (t : Text) (line : Int) : Nat :=
  if line < 0 then (lines t).length - line.natAbs else line.toNat

/-- The offsets at which consecutive lines start, the first at `pos`. -/
def lineStartsFrom (pos : Nat) : List Text → List Nat
  | [] => []
  | l :: ls => pos :: lineStartsFrom (pos + l.length + 1) ls

/-- The offset at which each line of a text starts. -/
def lineStarts (t : Text) : List Nat :=
  lineStartsFrom 0 (lines t)

theorem lines_ne_nil : ∀ t : Text, lines t ≠ []
  | [] => by simp [lines]
  | c :: cs => by
    rw [lines]
    split
    · simp
    · have := lines_ne_nil cs
      cases h : lines cs <;> simp_all

theorem ofLines_lines (t : Text) : ofLines (lines t) = t := by
  induction t with
  | nil => rfl
  | cons c cs ih =>
    rw [lines]
    cases h : lines cs with
    | nil => exact absurd h (lines_ne_nil cs)
    | cons l ls =>
      rw [h] at ih
      split
      · simp_all [ofLines]
      · cases ls <;> simp_all [ofLines]

theorem flatten_rows (t : Text) : (rows t).flatten = t := by
  induction t with
  | nil => rfl
  | cons c cs ih =>
    rw [rows]
    split
    · simp [ih]
    · cases h : rows cs <;> simp_all

end Text

end SourceIndex
