import SourceIndex.Language.Table
import SourceIndex.Proofs.Chunking.Dedent
import SourceIndex.Proofs.Text.Spacing

/-! # The verdict, line by line

Whether a text is insignificant is told by its solid lines: a blank line is skipped, whatever comment is
open there, and any other is trimmed before it is read (`scanLines_solid`). So changes to white space
make no difference to the verdict, and trimming, which leaves the solid lines as they are
(`solid_lines_of_trim?`), makes none either. The lines above a newline are read before those below it,
and code found on them is not forgotten (`scanLines_of_append`). -/

namespace SourceIndex.Chunking

open Text

/-- A verdict on texts that is reached line by line. It is told by the solid lines, so changes to white
space make no difference to it, and trimming a text, wherever it stands, makes none. If it holds of a
text, it holds of what is above any newline there. -/
structure IsLinewise (verdict : Text → Bool) : Prop where
  told : ∀ t u, solid (lines t) = solid (lines u) → verdict t = verdict u
  respaced : ∀ t u, IsRespaced t u → verdict t = verdict u
  trimmed : ∀ t content offset offset', trimAt? t offset = some (content, offset') →
    verdict t = verdict content
  above : ∀ t u, verdict (t ++ '\n' :: u) = true → verdict t = true

variable {s : CommentSyntax} {pending : Option Text}

/-! ## Scanning -/

theorem scanLine_nil : scanLine s pending [] = some pending := by
  rw [scanLine.eq_def]
  rfl

/-- The solid lines are scanned as all lines are, whatever comment is open above them. -/
theorem scanLines_solid (s : CommentSyntax) (pending : Option Text) (ls : List Text) :
    scanLines s pending (solid ls) = scanLines s pending ls := by
  induction ls generalizing pending with
  | nil => rfl
  | cons l ls ih =>
    cases hblank : isBlank l with
    | true =>
      rw [solid_cons_of_isBlank hblank, scanLines, trim_eq_nil_iff.mpr hblank, scanLine_nil]
      exact ih pending
    | false =>
      rw [solid_cons_of_not_isBlank hblank, scanLines, scanLines, trim_trim]
      cases scanLine s pending (trim l) with
      | none => rfl
      | some pending' => exact ih pending'

theorem isInsignificant_eq_of_solid {t u : Text} (h : solid (lines t) = solid (lines u)) :
    isInsignificant s t = isInsignificant s u := by
  rw [isInsignificant, isInsignificant, ← scanLines_solid, h, scanLines_solid]

theorem scanLines_of_append {above below : List Text}
    (h : scanLines s pending (above ++ below) = true) : scanLines s pending above = true := by
  induction above generalizing pending with
  | nil => rfl
  | cons l above ih =>
    rw [List.cons_append, scanLines] at h
    rw [scanLines]
    cases hscan : scanLine s pending (trim l) with
    | none =>
      rw [hscan] at h
      cases h
    | some pending' =>
      rw [hscan] at h
      exact ih h

/-! ## Trimming -/

theorem trim_unindent (ls : List Text) (l : Text) :
    trim (unindent (sharedIndent ls) l) = trim l := by
  obtain ⟨gone, hgone, hl, -⟩ := exists_unindent ls l
  have hpad := @trim_pad gone (unindent (sharedIndent ls) l) [] (isBlank_of_isIndent hgone) rfl
  rw [List.append_nil, ← hl] at hpad
  exact hpad.symm

/-- Trimming leaves the solid lines of a text. -/
theorem solid_lines_of_trim? {t : Text} {trimmed : Trimmed} (h : trim? t = some trimmed) :
    solid (lines trimmed.content) = solid (lines t) := by
  have habove : solid ((lines t).takeWhile isBlank) = [] :=
    solid_eq_nil fun _ => List.mem_takeWhile_imp
  have hbelow : solid (((lines t).dropWhile isBlank).rtakeWhile isBlank) = [] :=
    solid_eq_nil fun _ => List.mem_rtakeWhile_imp
  calc solid (lines trimmed.content)
      = solid (trimLines (lines t)) := by
        rw [lines_of_trim? h, solid, List.map_map, solid]
        congr 1
        exact List.map_congr_left fun l _ => trim_unindent _ l
    _ = solid ((lines t).takeWhile isBlank) ++ (solid (trimLines (lines t)) ++
          solid (((lines t).dropWhile isBlank).rtakeWhile isBlank)) := by
        rw [habove, hbelow, List.nil_append, List.append_nil]
    _ = solid (lines t) := by rw [← solid_append, ← solid_append, ← eq_trimLines]

/-! ## The verdict -/

/-- In every language, whether a text is insignificant is found out line by line. -/
theorem isLinewise_isInsignificant (language : Option String) :
    IsLinewise (isInsignificant (Language.commentSyntax language)) := by
  constructor
  case told => exact fun t u => isInsignificant_eq_of_solid
  case respaced => exact fun t u h => isInsignificant_eq_of_solid (isRespaced_iff.mp h)
  case trimmed =>
    intro t content offset offset' h
    obtain ⟨trimmed, htrim, heq⟩ := Option.map_eq_some_iff.mp h
    cases heq
    exact isInsignificant_eq_of_solid (solid_lines_of_trim? htrim).symm
  case above =>
    intro t u h
    rw [isInsignificant, lines_append] at h
    exact scanLines_of_append h

/-- A comment over several lines and a closing delimiter behind it, with blank lines between them and
around them, one of these with white space that is no indentation. -/
def scattered : Text :=
  [' ', '\n', '\t', '/', '*', ' ', 'a', '\n', '\u00a0', '\n', '\t', ' ', 'x', ' ', '\n', '\t', '*',
    '/', ' ', '}', '\n', '\n']

/-- Its solid lines. -/
def gathered : Text :=
  ['/', '*', ' ', 'a', '\n', 'x', '\n', '*', '/', ' ', '}']

/-- What trimming leaves of it. -/
def straightened : Text :=
  ['/', '*', ' ', 'a', '\n', '\u00a0', '\n', ' ', 'x', ' ', '\n', '*', '/', ' ', '}']

/-- Below its first lines the comment is open; on their own, the lines there hold code. -/
theorem isLinewise_isInsignificant_scattered :
    solid (lines scattered) = solid (lines gathered) ∧ IsRespaced straightened gathered ∧
      trimAt? scattered 5 = some (straightened, 8) ∧
      isInsignificant (Language.commentSyntax (some "c")) gathered = true ∧
      isInsignificant (Language.commentSyntax (some "c")) scattered =
        isInsignificant (Language.commentSyntax (some "c")) gathered ∧
      isInsignificant (Language.commentSyntax (some "c")) straightened =
        isInsignificant (Language.commentSyntax (some "c")) gathered ∧
      isInsignificant (Language.commentSyntax (some "c")) scattered =
        isInsignificant (Language.commentSyntax (some "c")) straightened ∧
      isInsignificant (Language.commentSyntax (some "c")) (scattered.take 9) = true ∧
      isInsignificant (Language.commentSyntax (some "c")) (scattered.drop 10) = false := by
  have hverdict := isLinewise_isInsignificant (some "c")
  have hsolid : solid (lines scattered) = solid (lines gathered) := by decide +kernel
  have hrespaced : IsRespaced straightened gathered := isRespaced_iff.mpr (by decide +kernel)
  have htrim : trimAt? scattered 5 = some (straightened, 8) := by decide +kernel
  have hgathered : isInsignificant (Language.commentSyntax (some "c")) gathered = true := by
    decide +kernel
  have hscattered := hverdict.told scattered gathered hsolid
  refine ⟨hsolid, hrespaced, htrim, hgathered, hscattered, hverdict.respaced _ _ hrespaced,
    hverdict.trimmed _ _ 5 8 htrim, ?_, by decide +kernel⟩
  exact hverdict.above (scattered.take 9) (scattered.drop 10) (hscattered.trans hgathered)

end SourceIndex.Chunking
