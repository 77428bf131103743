import SourceIndex.Syntax.Outline

/-! Excerpts: runs of consecutive rows of a text. A text is cut into excerpts at breakpoints, at blank
lines, and where a budget is used up. -/

namespace SourceIndex.Chunking

/-- Consecutive rows of a text, and the offset of the first. -/
structure Excerpt where
  start : Nat
  rows : List Text
  deriving DecidableEq, Repr

namespace Excerpt

def text (e : Excerpt) : Text :=
  e.rows.flatten

def whole (t : Text) : Excerpt :=
  ⟨0, Text.rows t⟩

/-- The excerpt of the rows from `first` to before `last`. -/
def between (rows : List Text) (first last : Nat) : Excerpt :=
  ⟨((rows.take first).flatten).length, (rows.take last).drop first⟩

/-- Excerpts of consecutive groups of rows, the first at `start`. -/
def consecutive (start : Nat) : List (List Text) → List Excerpt
  | [] => []
  | rows :: groups => ⟨start, rows⟩ :: consecutive (start + rows.flatten.length) groups

@[simp] theorem text_whole (t : Text) : (whole t).text = t :=
  Text.flatten_rows t

theorem rows_consecutive (start : Nat) (groups : List (List Text)) :
    (consecutive start groups).map rows = groups := by
  induction groups generalizing start with
  | nil => rfl
  | cons _ _ ih => rw [consecutive, List.map_cons, ih]

end Excerpt

open Syntax (Breakpoint)

/-- The segments that breakpoints cut rows into, each with the type of its construct. What is before
the first breakpoint belongs to none; a segment that ends where it starts, or before, is empty. -/
def segments (rows : List Text) : List Breakpoint → List (Option String × Excerpt)
  | [] => []
  | [b] => [(b.kind, .between rows b.line rows.length)]
  | b :: next :: rest =>
    (b.kind, .between rows b.line next.line) :: segments rows (next :: rest)

/-- A row of spaces and tabs that ends with a newline separates paragraphs. -/
def isGap (row : Text) : Bool :=
  row.dropWhile Text.isIndent == ['\n']

/-- The paragraphs of rows: a row, the rows after it up to the next gap, and the gaps that follow and
belong to none. Gaps at the end leave an empty paragraph behind them. -/
def paragraphs (start : Nat) : List Text → List Excerpt
  | [] => [⟨start, []⟩]
  | row :: rows =>
    let body := row :: rows.takeWhile fun r => !isGap r
    match _h : rows.dropWhile fun r => !isGap r with
    | [] => [⟨start, body⟩]
    | gap :: rest =>
      let gaps := gap :: rest.takeWhile isGap
      ⟨start, body⟩ ::
        paragraphs (start + body.flatten.length + gaps.flatten.length) (rest.dropWhile isGap)
termination_by rows => rows.length
decreasing_by
  have h₁ := (List.dropWhile_suffix (l := rows) fun r => !isGap r).length_le
  have h₂ := (List.dropWhile_suffix (l := rest) isGap).length_le
  rw [_h, List.length_cons] at h₁
  rw [List.length_cons]
  omega

/-- Rows that a budget puts together; one alone that exceeds it is oversized. -/
structure Group where
  rows : List Text
  oversized : Bool
  deriving DecidableEq, Repr

/-- The group of the rows gathered so far, if there are any. -/
def Group.close : List Text → List Group
  | [] => []
  | rows => [⟨rows, false⟩]

/-- Groups measured rows: a row joins those gathered, which use `used` of the budget, as long as the
budget lasts, and a row over budget stands alone. -/
def groupFrom (budget : Nat) (gathered : List Text) (used : Nat) : List (Text × Nat) → List Group
  | [] => Group.close gathered
  | (row, size) :: rest =>
    if budget < size then
      Group.close gathered ++ ⟨[row], true⟩ :: groupFrom budget [] 0 rest
    else if budget < used + size then
      Group.close gathered ++ groupFrom budget [row] size rest
    else groupFrom budget (gathered ++ [row]) (used + size) rest

/-- Groups measured rows under a budget. -/
def group (budget : Nat) (rows : List (Text × Nat)) : List Group :=
  groupFrom budget [] 0 rows

theorem Group.flatMap_rows_close (rows : List Text) : (close rows).flatMap Group.rows = rows := by
  cases rows <;> simp [close]

theorem flatMap_rows_groupFrom (budget : Nat) (gathered : List Text) (used : Nat)
    (rows : List (Text × Nat)) :
    (groupFrom budget gathered used rows).flatMap Group.rows = gathered ++ rows.map Prod.fst := by
  fun_induction groupFrom budget gathered used rows with
  | case1 => simp [Group.flatMap_rows_close]
  | case2 | case3 | case4 => simp_all [Group.flatMap_rows_close]

theorem flatMap_rows_group (budget : Nat) (rows : List (Text × Nat)) :
    (group budget rows).flatMap Group.rows = rows.map Prod.fst :=
  flatMap_rows_groupFrom budget [] 0 rows

end SourceIndex.Chunking
