import SourceIndex.Chunking.Excerpt
import SourceIndex.Proofs.Text.Rows
import Mathlib.Data.List.Forall2

/-! # Tilings of rows by excerpts

Excerpts tile rows if they follow one another and only blank rows are between them (`Tiling`).
Groups that a budget puts together tile their rows (`tiling_consecutive`), so do the segments
between ascending breakpoints (`tiling_segments`) and the paragraphs (`tiling_paragraphs`), and the
tiles of tiles are a tiling again (`Tiling.refine`). Whatever the order of breakpoints, a segment is
an excerpt of its text (`isOf_of_mem_segments`). -/

namespace SourceIndex.Chunking

open Text
open Syntax (Breakpoint)

/-- Some consecutive rows of a text, with the offset of the first. -/
def Excerpt.IsOf (e : Excerpt) (t : Text) : Prop :=
  ∃ above below, Text.rows t = above ++ (e.rows ++ below) ∧ e.start = above.flatten.length

/-- Excerpts of rows, the first row at an offset, one after another with only blank rows between. -/
inductive Tiling : Nat → List Text → List Excerpt → Prop
  | nil {pos : Nat} : Tiling pos [] []
  | skip {pos : Nat} {row : Text} : isBlank row = true → Tiling (pos + row.length) rs es →
      Tiling pos (row :: rs) es
  | tile {pos : Nat} (own : List Text) : Tiling (pos + own.flatten.length) rs es →
      Tiling pos (own ++ rs) (⟨pos, own⟩ :: es)

namespace Tiling

variable {pos : Nat} {rs rs' : List Text} {es es' : List Excerpt} {t : Text}

theorem append (h : Tiling pos rs es) (h' : Tiling (pos + rs.flatten.length) rs' es') :
    Tiling pos (rs ++ rs') (es ++ es') := by
  induction h with
  | nil => exact h'
  | skip hblank _ ih =>
    refine .skip hblank (ih ?_)
    rwa [List.flatten_cons, List.length_append, ← Nat.add_assoc] at h'
  | tile own _ ih =>
    rw [List.append_assoc]
    refine .tile own (ih ?_)
    rwa [List.flatten_append, List.length_append, ← Nat.add_assoc] at h'

theorem of_blank (h : ∀ r ∈ rs, isBlank r = true) : Tiling pos rs [] := by
  induction rs generalizing pos with
  | nil => exact .nil
  | cons r rs ih =>
    obtain ⟨hr, hrs⟩ := List.forall_mem_cons.mp h
    exact .skip hr (ih hrs)

theorem single (e : Excerpt) : Tiling e.start e.rows [e] := by
  have h : Tiling e.start (e.rows ++ []) [e] := .tile e.rows .nil
  rwa [List.append_nil] at h

/-- The tiles of tiles are tiles. -/
theorem refine {outs : List (List Excerpt)} (h : Tiling pos rs es)
    (houts : List.Forall₂ (fun e out => Tiling e.start e.rows out) es outs) :
    Tiling pos rs outs.flatten := by
  induction h generalizing outs with
  | nil => cases houts; exact .nil
  | skip hblank _ ih => exact .skip hblank (ih houts)
  | tile own _ ih =>
    obtain ⟨⟩ := houts
    rename_i hout houts
    exact hout.append (ih houts)

/-- Tiles of rows of a text lie among these rows. -/
theorem exists_above {above below : List Text} (h : Tiling pos rs es)
    (hrows : Text.rows t = above ++ (rs ++ below)) (hpos : pos = above.flatten.length) :
    ∀ e ∈ es, ∃ above' below', Text.rows t = above' ++ (e.rows ++ below') ∧
      e.start = above'.flatten.length ∧ above.length ≤ above'.length ∧
      above'.length + e.rows.length ≤ above.length + rs.length := by
  induction h generalizing above with
  | nil => exact fun e he => absurd he List.not_mem_nil
  | @skip _ _ _ row _ _ ih =>
    intro e he
    obtain ⟨above', below', hrows', hstart, hle, hlen⟩ :=
      @ih (above ++ [row]) (by simp [hrows]) (by simp [hpos]) e he
    simp only [List.length_append, List.length_cons, List.length_nil] at hle hlen ⊢
    exact ⟨above', below', hrows', hstart, by omega, by omega⟩
  | tile own _ ih =>
    refine List.forall_mem_cons.mpr
      ⟨⟨above, _, by rw [hrows, List.append_assoc], hpos, Nat.le_refl _, by simp⟩, ?_⟩
    intro e he
    obtain ⟨above', below', hrows', hstart, hle, hlen⟩ :=
      @ih (above ++ own) (by simp [hrows]) (by simp [hpos]) e he
    simp only [List.length_append] at hle hlen ⊢
    exact ⟨above', below', hrows', hstart, by omega, by omega⟩

theorem isOf {above below : List Text} (h : Tiling pos rs es)
    (hrows : Text.rows t = above ++ (rs ++ below)) (hpos : pos = above.flatten.length) :
    ∀ e ∈ es, e.IsOf t := by
  intro e he
  obtain ⟨above', below', hrows', hstart, -, -⟩ := h.exists_above hrows hpos e he
  exact ⟨above', below', hrows', hstart⟩

end Tiling

theorem Excerpt.isOf_whole (t : Text) : (Excerpt.whole t).IsOf t :=
  ⟨[], [], by simp [Excerpt.whole], rfl⟩

/-- Tiles of an excerpt of a text are excerpts of that text. -/
theorem Excerpt.IsOf.of_tiling {e : Excerpt} {t : Text} (h : e.IsOf t) {es : List Excerpt}
    (htiling : Tiling e.start e.rows es) : ∀ e' ∈ es, e'.IsOf t := by
  obtain ⟨above, below, hrows, hstart⟩ := h
  exact htiling.isOf hrows hstart

/-! ## Groups -/

theorem tiling_consecutive (start : Nat) (groups : List (List Text)) :
    Tiling start groups.flatten (Excerpt.consecutive start groups) := by
  induction groups generalizing start with
  | nil => exact .nil
  | cons rs groups ih => exact .tile rs (ih _)

/-! ## Segments -/

theorem drop_take_append_drop {rs : List Text} {first last : Nat} (h : first ≤ last) :
    (rs.take last).drop first ++ rs.drop last = rs.drop first := by
  rw [List.drop_take]
  conv_lhs => rw [← Nat.add_sub_cancel' h, ← List.drop_drop]
  rw [Nat.add_sub_cancel' h, List.take_append_drop]

theorem take_append_drop_take {rs : List Text} {first last : Nat} (h : first ≤ last) :
    rs.take first ++ (rs.take last).drop first = rs.take last := by
  conv_rhs => rw [← List.take_append_drop first (rs.take last), List.take_take, Nat.min_eq_left h]

theorem Excerpt.isOf_between {t : Text} {first last : Nat}
    (h : (between (Text.rows t) first last).rows ≠ []) :
    (between (Text.rows t) first last).IsOf t := by
  have hle : first ≤ last := by
    refine Nat.le_of_not_lt fun hlt => h (List.drop_eq_nil_of_le ?_)
    exact (List.length_take_le _ _).trans hlt.le
  refine ⟨(Text.rows t).take first, (Text.rows t).drop last, ?_, rfl⟩
  rw [between, drop_take_append_drop hle, List.take_append_drop]

theorem isOf_of_mem_segments {t : Text} {bs : List Breakpoint} {kind : Option String} {e : Excerpt}
    (h : (kind, e) ∈ segments (Text.rows t) bs) (hne : e.rows ≠ []) : e.IsOf t := by
  fun_induction segments (Text.rows t) bs with
  | case1 => exact absurd h List.not_mem_nil
  | case2 b =>
    cases List.mem_singleton.mp h
    exact Excerpt.isOf_between hne
  | case3 b next rest ih =>
    rcases List.mem_cons.mp h with h | h
    · cases h
      exact Excerpt.isOf_between hne
    · exact ih h

theorem tiling_between {rs : List Text} {first last : Nat} {es : List Excerpt} (h : first ≤ last)
    (hes : Tiling (rs.take last).flatten.length (rs.drop last) es) :
    Tiling (rs.take first).flatten.length (rs.drop first) (.between rs first last :: es) := by
  rw [← drop_take_append_drop h]
  refine .tile _ ?_
  rwa [← List.length_append, ← List.flatten_append, take_append_drop_take h]

/-- Segments between ascending breakpoints tile the rows from the first breakpoint on. -/
theorem tiling_segments {rs : List Text} {b : Breakpoint} {bs : List Breakpoint}
    (h : (b :: bs).Pairwise fun b b' => b.line < b'.line) :
    Tiling (rs.take b.line).flatten.length (rs.drop b.line)
      ((segments rs (b :: bs)).map Prod.snd) := by
  induction bs generalizing b with
  | nil =>
    have hsingle := Tiling.single (.between rs b.line rs.length)
    rw [Excerpt.between, List.take_length] at hsingle
    rw [segments, List.map_singleton, Excerpt.between, List.take_length]
    exact hsingle
  | cons next bs ih =>
    obtain ⟨hb, hbs⟩ := List.pairwise_cons.mp h
    exact tiling_between (hb next List.mem_cons_self).le (ih hbs)

/-! ## Paragraphs -/

theorem isBlank_of_isGap {row : Text} (h : isGap row = true) : isBlank row = true := by
  have hrow : row.takeWhile isIndent ++ ['\n'] = row := by
    conv_rhs => rw [← List.takeWhile_append_dropWhile (p := isIndent) (l := row), beq_iff_eq.mp h]
  refine List.all_eq_true.mpr fun c hc => ?_
  rw [← hrow, List.mem_append, List.mem_singleton] at hc
  rcases hc with hc | rfl
  · exact isSpace_of_isIndent (List.mem_takeWhile_imp hc)
  · rfl

theorem tiling_paragraphs (start : Nat) (rs : List Text) :
    Tiling start rs (paragraphs start rs) := by
  fun_induction paragraphs start rs with
  | case1 start => exact .tile [] .nil
  | case2 start row rows body hrest =>
    have hbody : body = row :: rows := by
      rw [List.cons.injEq, ← List.append_nil (rows.takeWhile _), ← hrest]
      exact ⟨rfl, List.takeWhile_append_dropWhile⟩
    rw [← hbody]
    exact .single ⟨start, body⟩
  | case3 start row rows body gap rest hrest gaps ih =>
    have hgap : isGap gap = true := by
      have := List.head?_dropWhile_not (fun r => !isGap r) rows
      rw [hrest] at this
      simpa using this
    have hrows : row :: rows = body ++ (gaps ++ rest.dropWhile isGap) := by
      rw [List.cons_append, List.cons_append, List.takeWhile_append_dropWhile, ← hrest,
        List.takeWhile_append_dropWhile]
    have hgaps : ∀ r ∈ gaps, isBlank r = true := by
      refine List.forall_mem_cons.mpr ⟨isBlank_of_isGap hgap, fun r hr => ?_⟩
      exact isBlank_of_isGap (List.mem_takeWhile_imp hr)
    rw [hrows]
    exact .tile body ((Tiling.of_blank hgaps).append ih)

end SourceIndex.Chunking
