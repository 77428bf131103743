import SourceIndex.Proofs.Text.Rows
import Mathlib.Data.List.DropRight
import Mathlib.Logic.Relation

/-! # White space around lines

A text is what trimming leaves of it, between white space (`exists_trim`), and white space around a text
makes no difference to what trimming leaves (`trim_pad`). The solid lines of a text are those that are
not blank, without the white space at their edges. They are what two texts have in common if and only if
one is made of the other by changes to white space: blank lines that come or go, and other white space
at the edges of lines (`isRespaced_iff`). -/

namespace SourceIndex.Text

open Relation (EqvGen)

/-- Of lines, what trimming leaves of those that are not blank. -/
def solid (ls : List Text) : List Text :=
  (ls.map trim).filter fun l => !l.isEmpty

/-- One change to the white space of lines: a blank line comes between them, or there is other white
space at the edges of one of them. A blank line is all white space, so this may also change it into
another. -/
inductive Respaces : List Text → List Text → Prop where
  | blank {above below : List Text} {l : Text} : isBlank l = true →
      Respaces (above ++ below) (above ++ l :: below)
  | edges {above below : List Text} {lead lead' core trail trail' : Text} :
      isBlank lead = true → isBlank lead' = true → isBlank trail = true → isBlank trail' = true →
      Respaces (above ++ (lead ++ (core ++ trail)) :: below)
        (above ++ (lead' ++ (core ++ trail')) :: below)

/-- Texts of which one is made of the other by changes to the white space of its lines, or by taking
such changes back. -/
def IsRespaced : Text → Text → Prop :=
  EqvGen fun t u => Respaces (lines t) (lines u)

variable {lead core trail t u : Text}

/-! ## Trimming -/

theorem head?_trimStart (t : Text) : ∀ c ∈ (trimStart t).head?, isSpace c = false := by
  intro c hc
  have hnot := List.head?_dropWhile_not isSpace t
  rw [trimStart, Option.mem_def] at hc
  rw [hc] at hnot
  exact hnot

theorem trimEnd_eq_self_iff : trimEnd t = t ↔ t.reverse.dropWhile isSpace = t.reverse := by
  rw [trimEnd, List.reverse_eq_iff]

/-- What is at the end of a text without white space at its end has none either. -/
theorem trimEnd_of_isSuffix {rest : Text} (ht : trimEnd t = t) (h : rest <:+ t) :
    trimEnd rest = rest := by
  rw [trimEnd_eq_self_iff, List.dropWhile_eq_self_iff] at ht ⊢
  obtain ⟨body, hbody⟩ := List.reverse_prefix.mpr h
  intro hlength
  have hlength' : 0 < t.reverse.length := by
    rw [← hbody, List.length_append]
    omega
  have hhead := ht hlength'
  simpa only [← hbody, List.getElem_append_left hlength] using hhead

theorem trimEnd_append_of_isBlank (htrail : isBlank trail = true) :
    trimEnd (core ++ trail) = trimEnd core := by
  have hall : ∀ c ∈ trail.reverse, isSpace c = true := fun c hc =>
    List.all_eq_true.mp htrail c (List.mem_reverse.mp hc)
  rw [trimEnd, List.reverse_append, List.dropWhile_append_of_pos hall, trimEnd]

theorem trim_isPrefix (t : Text) : trim t <+: trimStart t :=
  List.rdropWhile_prefix isSpace (trimStart t)

theorem head?_trim (t : Text) : ∀ c ∈ (trim t).head?, isSpace c = false := by
  intro c hc
  obtain ⟨rest, hrest⟩ := trim_isPrefix t
  apply head?_trimStart t
  rw [← hrest, List.head?_append, Option.mem_def.mp hc]
  rfl

theorem length_trim_le (t : Text) : (trim t).length ≤ t.length :=
  (trim_isPrefix t).length_le.trans (List.dropWhile_suffix _).length_le

theorem newline_notMem_trim (h : '\n' ∉ t) : '\n' ∉ trim t := fun hmem =>
  h ((List.dropWhile_suffix _).subset ((trim_isPrefix t).subset hmem))

theorem trimEnd_trim (t : Text) : trimEnd (trim t) = trim t := by
  rw [trimEnd_eq_self_iff, trim, trimEnd, List.reverse_reverse]
  exact List.dropWhile_idempotent _ _

theorem trim_of_isSuffix (ht : trimEnd t = t) {rest : Text} (h : rest <:+ t) :
    trim rest = trimStart rest :=
  trimEnd_of_isSuffix ht ((List.dropWhile_suffix _).trans h)

/-- A text is what trimming leaves of it, between white space. -/
theorem exists_trim (t : Text) :
    ∃ lead trail, t = lead ++ (trim t ++ trail) ∧ isBlank lead = true ∧ isBlank trail = true := by
  refine ⟨t.takeWhile isSpace, (trimStart t).rtakeWhile isSpace, ?_, ?_, ?_⟩
  · conv_lhs => rw [← List.takeWhile_append_dropWhile (p := isSpace) (l := t)]
    exact congrArg _ List.rdropWhile_append_rtakeWhile.symm
  · exact List.all_eq_true.mpr fun _ => List.mem_takeWhile_imp
  · exact List.all_eq_true.mpr fun _ => List.mem_rtakeWhile_imp

theorem trim_pad (hlead : isBlank lead = true) (htrail : isBlank trail = true) :
    trim (lead ++ (core ++ trail)) = trim core := by
  have hstart : trimStart (lead ++ (core ++ trail)) = trimStart (core ++ trail) :=
    List.dropWhile_append_of_pos (List.all_eq_true.mp hlead)
  rw [trim, hstart, trimStart, List.dropWhile_append]
  split
  next hempty =>
    -- Nothing is left of the core, and then nothing of what stands behind it.
    have hnil : trail.dropWhile isSpace = [] :=
      List.dropWhile_eq_nil_iff.mpr (List.all_eq_true.mp htrail)
    rw [hnil, trim, trimStart, List.isEmpty_iff.mp hempty]
  next => rw [trimEnd_append_of_isBlank htrail, trim, trimStart]

theorem trim_trim (t : Text) : trim (trim t) = trim t := by
  obtain ⟨lead, trail, hsplit, hlead, htrail⟩ := exists_trim t
  conv_rhs => rw [hsplit, trim_pad hlead htrail]

theorem trim_eq_nil_iff : trim t = [] ↔ isBlank t = true := by
  constructor
  · intro hnil
    obtain ⟨lead, trail, hsplit, hlead, htrail⟩ := exists_trim t
    rw [hsplit, hnil, isBlank, List.nil_append, List.all_append]
    exact Bool.and_eq_true_iff.mpr ⟨hlead, htrail⟩
  · intro hblank
    have hpad := @trim_pad t [] [] hblank rfl
    rwa [List.append_nil, List.append_nil] at hpad

/-! ## Solid lines -/

variable {l : Text} {ls ls' : List Text}

theorem solid_append (ls ls' : List Text) : solid (ls ++ ls') = solid ls ++ solid ls' := by
  rw [solid, List.map_append, List.filter_append, solid, solid]

theorem solid_cons_of_isBlank (hl : isBlank l = true) (ls : List Text) :
    solid (l :: ls) = solid ls := by
  rw [solid, List.map_cons, trim_eq_nil_iff.mpr hl, List.filter_cons_of_neg (by simp), solid]

theorem solid_cons_of_not_isBlank (hl : isBlank l = false) (ls : List Text) :
    solid (l :: ls) = trim l :: solid ls := by
  have hne : trim l ≠ [] := fun hnil => by
    rw [trim_eq_nil_iff.mp hnil] at hl
    cases hl
  rw [solid, List.map_cons, List.filter_cons_of_pos (by simpa using hne), solid]

theorem solid_eq_nil (h : ∀ l ∈ ls, isBlank l = true) : solid ls = [] := by
  induction ls with
  | nil => rfl
  | cons l ls ih =>
    obtain ⟨hl, hls⟩ := List.forall_mem_cons.mp h
    rw [solid_cons_of_isBlank hl, ih hls]

/-! ## Changes to white space -/

theorem Respaces.solid_eq (h : Respaces ls ls') : solid ls = solid ls' := by
  cases h with
  | blank hl => rw [solid_append, solid_append, solid_cons_of_isBlank hl]
  | edges hlead hlead' htrail htrail' =>
    simp only [solid, List.map_append, List.map_cons, trim_pad hlead htrail,
      trim_pad hlead' htrail']

theorem Respaces.cons (l : Text) (h : Respaces ls ls') : Respaces (l :: ls) (l :: ls') := by
  cases h with
  | @blank above below _ hl => exact @blank (l :: above) below _ hl
  | @edges above below _ _ _ _ _ hlead hlead' htrail htrail' =>
    exact @edges (l :: above) below _ _ _ _ _ hlead hlead' htrail htrail'

theorem respaces_trim (l : Text) (ls : List Text) : Respaces (l :: ls) (trim l :: ls) := by
  obtain ⟨lead, trail, hsplit, hlead, htrail⟩ := exists_trim l
  have hstep := @Respaces.edges [] ls lead [] (trim l) trail [] hlead rfl htrail rfl
  rw [← hsplit, List.append_nil] at hstep
  exact hstep

namespace IsRespaced

theorem solid_eq (h : IsRespaced t u) : solid (lines t) = solid (lines u) := by
  induction h with
  | rel _ _ hstep => exact hstep.solid_eq
  | refl => rfl
  | symm _ _ _ ih => exact ih.symm
  | trans _ _ _ _ _ ih ih' => exact ih.trans ih'

theorem cons (hl : '\n' ∉ l) (h : IsRespaced t u) :
    IsRespaced (l ++ '\n' :: t) (l ++ '\n' :: u) := by
  induction h with
  | rel t u hstep =>
    apply EqvGen.rel
    rw [lines_append_newline hl, lines_append_newline hl]
    exact hstep.cons l
  | refl => exact .refl _
  | symm _ _ _ ih => exact .symm _ _ ih
  | trans _ _ _ _ _ ih ih' => exact .trans _ _ _ ih ih'

/-- Changes to white space lead from a text to the text of its solid lines. -/
theorem ofLines_solid (t : Text) : IsRespaced t (ofLines (solid (lines t))) := by
  induction t using byLines with
  | last l hl =>
    have hsolid : ofLines (solid (lines l)) = trim l := by
      rw [lines_of_notMem hl]
      cases hblank : isBlank l with
      | true => rw [solid_cons_of_isBlank hblank, trim_eq_nil_iff.mpr hblank]; rfl
      | false => rw [solid_cons_of_not_isBlank hblank]; rfl
    apply EqvGen.rel
    rw [hsolid, lines_of_notMem hl, lines_of_notMem (newline_notMem_trim hl)]
    exact respaces_trim l []
  | line l t hl ih =>
    rw [lines_append_newline hl]
    cases hblank : isBlank l with
    | true =>
      rw [solid_cons_of_isBlank hblank]
      refine .trans _ t _ (.symm _ _ (.rel _ _ ?_)) ih
      rw [lines_append_newline hl]
      exact @Respaces.blank [] (lines t) l hblank
    | false =>
      have htrim := newline_notMem_trim hl
      have hstep : IsRespaced (l ++ '\n' :: t) (trim l ++ '\n' :: t) := by
        apply EqvGen.rel
        rw [lines_append_newline hl, lines_append_newline htrim]
        exact respaces_trim l (lines t)
      rw [solid_cons_of_not_isBlank hblank]
      refine .trans _ _ _ hstep (.trans _ _ _ (ih.cons htrim) ?_)
      cases solid (lines t) with
      | nil =>
        -- No line is left below this one but an empty one, which goes.
        refine .symm _ _ (.rel _ _ ?_)
        rw [ofLines, ofLines, lines_append_newline htrim, lines_of_notMem htrim]
        exact @Respaces.blank [trim l] [] [] rfl
      | cons l' ls =>
        rw [← ofLines_cons (trim l) (List.cons_ne_nil l' ls)]
        exact .refl _

end IsRespaced

/-- Changes to white space lead from one text to another if and only if they have the same solid
lines. -/
theorem isRespaced_iff : IsRespaced t u ↔ solid (lines t) = solid (lines u) := by
  refine ⟨IsRespaced.solid_eq, fun h => ?_⟩
  have hu : IsRespaced (ofLines (solid (lines u))) u := .symm _ _ (IsRespaced.ofLines_solid u)
  rw [← h] at hu
  exact .trans _ _ _ (IsRespaced.ofLines_solid t) hu

end SourceIndex.Text
