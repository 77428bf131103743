import SourceIndex.Proofs.Syntax.Place
import SourceIndex.Proofs.Syntax.Resolution
import SourceIndex.Proofs.Syntax.Row
import SourceIndex.Syntax.Outline
import Mathlib.Data.List.Sort

/-! # The outline of a text

The block of a place starts on the row of the place or on that of a sibling before it
(`Source.leadingLine_eq_or`), and in a well-formed tree no sibling before a place starts on a row below
it. Breakpoints are lines in ascending order, each once, with the first type that is told for the line
(`Breakpoint.mem_ofStarts`). Together these say what the outline of a text is (`isOutline_outline`). -/

namespace SourceIndex.Syntax

/-- The line where a place starts, with the block in front of it. -/
def lineOf (spec : LanguageSpec) (text : Text) (p : Place) : Nat :=
  (Source.ofText text).blockLine spec.metadataTypes p

/-- Breakpoints stand for the points of interest of a tree that are kept: their lines are those where
such points start, with the blocks in front of them, and their types are those of the first points that
start there. -/
structure IsOutline (engine : QueryEngine) (spec : LanguageSpec) (text : Text) (t : Tree)
    (bs : List Breakpoint) : Prop where
  ascending : bs.Pairwise fun b b' => b.line < b'.line
  bounded : ∀ b ∈ bs, b.line ≤ text.count '\n'
  lines : ∀ line, (∃ b ∈ bs, b.line = line) ↔
    ∃ p ∈ pointsOfInterest engine spec t, lineOf spec text p = line
  above : ∀ p ∈ pointsOfInterest engine spec t,
    lineOf spec text p ≤ (Source.ofText text).row p.start
  order : (pointsOfInterest engine spec t).Pairwise
    (Place.Leads (candidates engine spec.pointsOfInterest t))
  kinds : ∀ b ∈ bs, ∃ before p after, pointsOfInterest engine spec t = before ++ p :: after ∧
    lineOf spec text p = b.line ∧ b.kind = some p.kind ∧
    ∀ q ∈ before, lineOf spec text q ≠ b.line

variable {engine : QueryEngine} {spec : LanguageSpec} {text : Text} {t : Tree} {p : Place}

/-! ## Blocks in front of places -/

/-- A walk back over siblings stays on its line or ends on the row of a sibling. -/
theorem Source.leadingLine_eq_or (s : Source) (metadata : List String) (line : Nat) (current : Tree)
    (before : List Tree) :
    s.leadingLine metadata line current before = line ∨
      ∃ q ∈ before, s.leadingLine metadata line current before = s.row q.label.start := by
  induction before generalizing line current with
  | nil => exact .inl rfl
  | cons previous earlier ih =>
    rw [leadingLine]
    split
    · exact .inl rfl
    · split
      · split
        · exact .inl rfl
        · -- The block reaches up to `previous`.
          rcases ih (s.row previous.label.start) previous with h | ⟨q, hq, h⟩
          · exact .inr ⟨previous, List.mem_cons_self, h⟩
          · exact .inr ⟨q, List.mem_cons_of_mem _ hq, h⟩
      · split
        · -- `previous` is blank and passed over.
          rcases ih line previous with h | ⟨q, hq, h⟩
          · exact .inl h
          · exact .inr ⟨q, List.mem_cons_of_mem _ hq, h⟩
        · exact .inl rfl

theorem lineOf_le_row {size : Nat} (ht : t.IsWellFormed size) (hp : p ∈ t.places) :
    lineOf spec text p ≤ (Source.ofText text).row p.start := by
  rw [lineOf, Source.blockLine]
  rcases (Source.ofText text).leadingLine_eq_or spec.metadataTypes
    ((Source.ofText text).row p.start) p.tree p.before with h | ⟨q, hq, h⟩
  · exact Nat.le_of_eq h
  · rw [h]
    exact Source.row_mono text (ht.start_le hp q hq)

/-! ## Lines with types -/

theorem nodup_eraseDups {α : Type} [BEq α] [LawfulBEq α] (l : List α) : l.eraseDups.Nodup := by
  match l with
  | [] => exact List.nodup_nil
  | a :: l =>
    rw [List.eraseDups_cons, List.nodup_cons, List.mem_eraseDups]
    exact ⟨by simp, nodup_eraseDups _⟩
termination_by l.length
decreasing_by exact Nat.lt_succ_of_le (List.length_filter_le _ _)

theorem Breakpoint.pairwise_ofStarts (starts : List (Nat × String)) :
    (ofStarts starts).Pairwise fun b b' => b.line < b'.line := by
  rw [ofStarts, List.pairwise_map]
  have hsorted := List.pairwise_mergeSort' (· ≤ ·) (starts.map Prod.fst).eraseDups
  have hnodup : ((starts.map Prod.fst).eraseDups.mergeSort fun a b => a ≤ b).Nodup :=
    (List.mergeSort_perm _ _).nodup_iff.mpr (nodup_eraseDups _)
  exact hsorted.imp₂ (fun a b hle hne => Nat.lt_of_le_of_ne hle hne) hnodup

theorem Breakpoint.mem_ofStarts {starts : List (Nat × String)} {b : Breakpoint} :
    b ∈ ofStarts starts ↔
      b.line ∈ starts.map Prod.fst ∧ b.kind = starts.lookup b.line := by
  rw [ofStarts, List.mem_map]
  simp only [List.mem_mergeSort, List.mem_eraseDups]
  constructor
  · rintro ⟨line, hline, rfl⟩
    exact ⟨hline, rfl⟩
  · rintro ⟨hline, hkind⟩
    exact ⟨b.line, hline, by rw [← hkind]⟩

/-! ## Outlines -/

theorem outline_eq (engine : QueryEngine) (spec : LanguageSpec) (text : Text) (t : Tree) :
    outline engine spec text t = Breakpoint.ofStarts
      ((pointsOfInterest engine spec t).map fun p => (lineOf spec text p, p.kind)) := rfl

theorem mem_places_of_mem_pointsOfInterest (hengine : engine.CapturesNodes t)
    (h : p ∈ pointsOfInterest engine spec t) : p ∈ t.places :=
  mem_places_of_mem_candidates hengine (mem_of_mem_resolve h)

theorem exists_line_iff (line : Nat) :
    (∃ b ∈ outline engine spec text t, b.line = line) ↔
      ∃ p ∈ pointsOfInterest engine spec t, lineOf spec text p = line := by
  simp only [outline_eq, Breakpoint.mem_ofStarts, List.map_map, List.mem_map, Function.comp_apply]
  constructor
  · rintro ⟨b, ⟨⟨p, hp, hline⟩, -⟩, rfl⟩
    exact ⟨p, hp, hline⟩
  · rintro ⟨p, hp, hline⟩
    exact ⟨⟨line, List.lookup line _⟩, ⟨⟨p, hp, hline⟩, rfl⟩, rfl⟩

theorem exists_first_of_mem_outline {b : Breakpoint} (h : b ∈ outline engine spec text t) :
    ∃ before p after, pointsOfInterest engine spec t = before ++ p :: after ∧
      lineOf spec text p = b.line ∧ b.kind = some p.kind ∧
      ∀ q ∈ before, lineOf spec text q ≠ b.line := by
  rw [outline_eq, Breakpoint.mem_ofStarts] at h
  obtain ⟨hline, hkind⟩ := h
  cases hfind : (pointsOfInterest engine spec t).find? fun p => lineOf spec text p == b.line with
  | none =>
    obtain ⟨_, hstart, hline⟩ := List.mem_map.mp hline
    obtain ⟨p, hp, rfl⟩ := List.mem_map.mp hstart
    exact absurd (beq_iff_eq.mpr hline) (List.find?_eq_none.mp hfind p hp)
  | some p =>
    obtain ⟨hp, before, after, hpoints, hbefore⟩ := List.find?_eq_some_iff_append.mp hfind
    rw [beq_iff_eq] at hp
    have hne : ∀ q ∈ before, lineOf spec text q ≠ b.line := fun q hq => by
      simpa using hbefore q hq
    refine ⟨before, p, after, hpoints, hp, ?_, hne⟩
    rw [hkind, hpoints, List.map_append, List.map_cons, hp, List.lookup_eq_some_iff]
    refine ⟨_, _, rfl, ?_⟩
    rintro _ hstart
    obtain ⟨q, hq, rfl⟩ := List.mem_map.mp hstart
    exact bne_iff_ne.mpr (hne q hq).symm

theorem isOutline_outline {size : Nat} (hengine : engine.CapturesNodes t)
    (ht : t.IsWellFormed size) : IsOutline engine spec text t (outline engine spec text t) where
  ascending := Breakpoint.pairwise_ofStarts _
  bounded b hb := by
    obtain ⟨p, hp, hline⟩ := (exists_line_iff b.line).mp ⟨b, hb, rfl⟩
    rw [← hline]
    exact Nat.le_trans (lineOf_le_row ht (mem_places_of_mem_pointsOfInterest hengine hp))
      (Source.row_le text p.start)
  lines := exists_line_iff
  above p hp := lineOf_le_row ht (mem_places_of_mem_pointsOfInterest hengine hp)
  order := pairwise_resolve
  kinds _ hb := exists_first_of_mem_outline hb

end SourceIndex.Syntax
