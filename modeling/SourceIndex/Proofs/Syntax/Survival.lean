import SourceIndex.Proofs.Syntax.Resolution
import SourceIndex.Syntax.Pattern
import Mathlib.Algebra.Order.BigOperators.Group.List
import Mathlib.Algebra.Order.Group.Nat
import Mathlib.Data.List.Nodup

/-! # No construct is lost in a resolution

A candidate gives way to its parent or to one of its children (`givesWay_iff`). What it gives way to may
give way in turn, but only in the same direction: a parent that wins over its children does not lose to
one of them, and a child that wins does not lose to its parent. So up or down from a candidate that
gives way there is one that does not (`exists_survivor_above`, `exists_survivor_below`), and above that
there is an outermost one (`exists_outermost`). Hence each candidate that is dropped is above or below
one that is kept (`resolve_covers`). -/

namespace SourceIndex.Syntax

namespace Place

/-- The node stands right below another. -/
def IsRightBelow (p q : Place) : Prop :=
  ∃ index, p.path = index :: q.path

/-- The node stands below another, at any depth. -/
def IsBelow (p q : Place) : Prop :=
  q.path <:+ p.path ∧ q.path ≠ p.path

variable {p q r : Place}

theorem isRightBelow_iff : p.IsRightBelow q ↔ p.path.tail = q.path ∧ p.path ≠ [] := by
  rw [IsRightBelow]
  cases p.path <;> simp

theorem IsRightBelow.length_eq (h : p.IsRightBelow q) : p.path.length = q.path.length + 1 := by
  obtain ⟨index, hpath⟩ := h
  rw [hpath, List.length_cons]

theorem IsRightBelow.isBelow (h : p.IsRightBelow q) : p.IsBelow q := by
  obtain ⟨index, hpath⟩ := h
  rw [IsBelow, hpath]
  exact ⟨List.suffix_cons index _, (List.cons_ne_self index _).symm⟩

theorem IsBelow.length_lt (h : p.IsBelow q) : q.path.length < p.path.length :=
  Nat.lt_of_le_of_ne h.1.length_le fun hlength => h.2 (h.1.eq_of_length hlength)

theorem IsBelow.trans (hpq : p.IsBelow q) (hqr : q.IsBelow r) : p.IsBelow r := by
  refine ⟨hqr.1.trans hpq.1, fun hpath => ?_⟩
  have hlt := hqr.length_lt.trans hpq.length_lt
  rw [hpath] at hlt
  exact Nat.lt_irrefl _ hlt

/-- Two nodes that a third is below are the same, or one is below the other. -/
theorem IsBelow.trichotomy (hq : p.IsBelow q) (hr : p.IsBelow r) :
    q.path = r.path ∨ q.IsBelow r ∨ r.IsBelow q := by
  by_cases hpath : q.path = r.path
  · exact .inl hpath
  · rcases List.suffix_or_suffix_of_suffix hq.1 hr.1 with hsuffix | hsuffix
    · exact .inr (.inr ⟨hsuffix, hpath⟩)
    · exact .inr (.inl ⟨hsuffix, Ne.symm hpath⟩)

theorem mem_above_iff {path path' : List Nat} :
    path' ∈ above path ↔ path' <:+ path ∧ path' ≠ path := by
  induction path with
  | nil => simp [above]
  | cons index path ih =>
    rw [above, List.mem_cons, ih, List.suffix_cons_iff]
    constructor
    · rintro (rfl | ⟨hsuffix, hne⟩)
      · exact ⟨.inr (List.suffix_refl _), (List.cons_ne_self index _).symm⟩
      · refine ⟨.inr hsuffix, ?_⟩
        rintro rfl
        exact absurd hsuffix.length_le (by simp)
    · rintro ⟨rfl | hsuffix, hne⟩
      · exact absurd rfl hne
      · by_cases hpath : path' = path
        · exact .inl hpath
        · exact .inr ⟨hsuffix, hpath⟩

end Place

variable {policy : String → Option Winner} {outermostOnly : Bool} {candidates kept : List Place}
  {p q : Place}

/-! ## Candidates that give way -/

theorem nodup_path_distinctPlaces (seen : List (List Nat)) (ps : List Place) :
    ((distinctPlaces seen ps).map Place.path).Nodup ∧
      ∀ p ∈ distinctPlaces seen ps, p.path ∉ seen := by
  fun_induction distinctPlaces seen ps with
  | case1 => simp
  | case2 seen p ps hseen ih => exact ih
  | case3 seen p ps hseen ih =>
    obtain ⟨hnodup, hnotMem⟩ := ih
    rw [List.map_cons, List.nodup_cons]
    refine ⟨⟨fun hmem => ?_, hnodup⟩, List.forall_mem_cons.mpr ⟨by simpa using hseen, ?_⟩⟩
    · obtain ⟨q, hq, hpath⟩ := List.mem_map.mp hmem
      exact hnotMem q hq (hpath ▸ List.mem_cons_self)
    · exact fun q hq hmem => hnotMem q hq (List.mem_cons_of_mem _ hmem)

/-- The candidates of a tree are distinct. -/
theorem nodup_path_candidates (engine : QueryEngine) (patterns : List String) (t : Tree) :
    ((Syntax.candidates engine patterns t).map Place.path).Nodup :=
  (nodup_path_distinctPlaces [] _).1

/-- The candidates that do not give way. -/
def survivors (policy : String → Option Winner) (candidates : List Place) : List Place :=
  candidates.filter fun p => !givesWay policy candidates p

/-- A place gives way to a parent that wins over its children, and to its children if these win. -/
theorem givesWay_iff : givesWay policy candidates p = true ↔
    (∃ q ∈ candidates, p.IsRightBelow q ∧ policy q.kind = some .parent) ∨
      policy p.kind = some .child ∧ ∃ q ∈ candidates, q.IsRightBelow p := by
  simp only [givesWay, Bool.or_eq_true, Bool.and_eq_true, List.any_eq_true, beq_iff_eq,
    Bool.not_eq_true', List.isEmpty_eq_false_iff, Place.isRightBelow_iff]

theorem mem_survivors : p ∈ survivors policy candidates ↔
    p ∈ candidates ∧ givesWay policy candidates p = false := by
  rw [survivors, List.mem_filter, Bool.not_eq_true']

/-- Above a candidate that gives way to its parent there is one that does not give way. -/
theorem exists_survivor_above {p q : Place} (hq : q ∈ candidates) (hpq : p.IsRightBelow q)
    (hpolicy : policy q.kind = some .parent) : ∃ r ∈ survivors policy candidates, p.IsBelow r := by
  cases hway : givesWay policy candidates q with
  | false => exact ⟨q, mem_survivors.mpr ⟨hq, hway⟩, hpq.isBelow⟩
  | true =>
    rcases givesWay_iff.mp hway with ⟨q', hq', hqq', hpolicy'⟩ | ⟨hchild, -⟩
    · obtain ⟨r, hr, hbelow⟩ := exists_survivor_above hq' hqq' hpolicy'
      exact ⟨r, hr, hpq.isBelow.trans hbelow⟩
    · -- The parent wins over its children, so it does not give way to them.
      rw [hpolicy] at hchild
      cases hchild
termination_by p.path.length
decreasing_by exact hpq.isBelow.length_lt

/-- Below a candidate that gives way to its children there is one that does not give way. -/
theorem exists_survivor_below {p q : Place}
    (hdistinct : (candidates.map Place.path).Nodup) (hp : p ∈ candidates)
    (hpolicy : policy p.kind = some .child) (hq : q ∈ candidates) (hqp : q.IsRightBelow p) :
    ∃ r ∈ survivors policy candidates, r.IsBelow p := by
  cases hway : givesWay policy candidates q with
  | false => exact ⟨q, mem_survivors.mpr ⟨hq, hway⟩, hqp.isBelow⟩
  | true =>
    rcases givesWay_iff.mp hway with ⟨p', hp', hqp', hpolicy'⟩ | ⟨hchild, q', hq', hqq'⟩
    · -- The only parent of `q` is `p`, where children win.
      obtain ⟨index, hpath⟩ := hqp
      obtain ⟨index', hpath'⟩ := hqp'
      have hsame : p = p' := List.inj_on_of_nodup_map hdistinct hp hp'
        (List.cons.inj (hpath.symm.trans hpath')).2
      rw [← hsame, hpolicy] at hpolicy'
      cases hpolicy'
    · obtain ⟨r, hr, hbelow⟩ := exists_survivor_below hdistinct hq hchild hq' hqq'
      exact ⟨r, hr, hbelow.trans hqp.isBelow⟩
termination_by (candidates.map fun r => r.path.length).sum - p.path.length
decreasing_by
  -- No candidate lies deeper than all of them together.
  have hdepth : q.path.length ≤ (candidates.map fun r => r.path.length).sum :=
    List.le_sum_of_mem (List.mem_map_of_mem hq)
  have hlength := hqp.length_eq
  omega

theorem exists_survivor_of_givesWay (hdistinct : (candidates.map Place.path).Nodup)
    (hp : p ∈ candidates) (hway : givesWay policy candidates p = true) :
    ∃ r ∈ survivors policy candidates, p.IsBelow r ∨ r.IsBelow p := by
  rcases givesWay_iff.mp hway with ⟨q, hq, hpq, hpolicy⟩ | ⟨hpolicy, q, hq, hqp⟩
  · obtain ⟨r, hr, hbelow⟩ := exists_survivor_above hq hpq hpolicy
    exact ⟨r, hr, .inl hbelow⟩
  · obtain ⟨r, hr, hbelow⟩ := exists_survivor_below hdistinct hp hpolicy hq hqp
    exact ⟨r, hr, .inr hbelow⟩

/-! ## Outermost candidates -/

/-- Those of some places that are below none of them. -/
def outermost (kept : List Place) : List Place :=
  kept.filter fun p => !(Place.above p.path).any (occurs kept)

theorem mem_outermost : p ∈ outermost kept ↔ p ∈ kept ∧ ∀ q ∈ kept, ¬p.IsBelow q := by
  simp only [outermost, occurs, List.mem_filter, Bool.not_eq_true', List.any_eq_false,
    List.any_eq_true, beq_iff_eq, Place.mem_above_iff]
  refine and_congr_right fun _ => ⟨fun h q hq hbelow => ?_, fun h path hpath => ?_⟩
  · exact h q.path hbelow ⟨q, hq, rfl⟩
  · rintro ⟨q, hq, rfl⟩
    exact h q hq hpath

/-- A place is outermost or below one that is. -/
theorem exists_outermost {p : Place} (hp : p ∈ kept) : ∃ r ∈ outermost kept, p = r ∨ p.IsBelow r := by
  by_cases hout : ∀ q ∈ kept, ¬p.IsBelow q
  · exact ⟨p, mem_outermost.mpr ⟨hp, hout⟩, .inl rfl⟩
  · push Not at hout
    obtain ⟨q, hq, hpq⟩ := hout
    obtain ⟨r, hr, hbelow⟩ := exists_outermost hq
    refine ⟨r, hr, .inr ?_⟩
    rcases hbelow with rfl | hbelow
    · exact hpq
    · exact hpq.trans hbelow
termination_by p.path.length
decreasing_by exact hpq.length_lt

/-! ## Resolutions -/

theorem mem_resolve : p ∈ resolve policy outermostOnly candidates ↔
    p ∈ if outermostOnly then outermost (survivors policy candidates)
      else survivors policy candidates :=
  List.mem_mergeSort

theorem mem_survivors_of_mem_resolve (h : p ∈ resolve policy outermostOnly candidates) :
    p ∈ survivors policy candidates := by
  rw [mem_resolve] at h
  split at h
  · exact (mem_outermost.mp h).1
  · exact h

/-- A survivor is kept or below one that is. -/
theorem exists_mem_resolve (outermostOnly : Bool) (h : p ∈ survivors policy candidates) :
    ∃ r ∈ resolve policy outermostOnly candidates, p = r ∨ p.IsBelow r := by
  simp only [mem_resolve]
  split
  · exact exists_outermost h
  · exact ⟨p, h, .inl rfl⟩

/-- A candidate that is dropped is below or above one that is kept. -/
theorem resolve_covers (hdistinct : (candidates.map Place.path).Nodup) (hp : p ∈ candidates)
    (hdropped : p ∉ resolve policy outermostOnly candidates) :
    ∃ q ∈ resolve policy outermostOnly candidates, p.IsBelow q ∨ q.IsBelow p := by
  cases hway : givesWay policy candidates p with
  | false =>
    obtain ⟨r, hr, rfl | hbelow⟩ :=
      exists_mem_resolve outermostOnly (mem_survivors.mpr ⟨hp, hway⟩)
    · exact absurd hr hdropped
    · exact ⟨r, hr, .inl hbelow⟩
  | true =>
    obtain ⟨s, hs, hside⟩ := exists_survivor_of_givesWay hdistinct hp hway
    obtain ⟨r, hr, hsr⟩ := exists_mem_resolve outermostOnly hs
    refine ⟨r, hr, ?_⟩
    rcases hsr with rfl | hsr
    · exact hside
    · rcases hside with hps | hsp
      · exact .inl (hps.trans hsr)
      · -- `p` and `r` are both above `s`, and not the same, as `p` gives way and `r` does not.
        rcases hsp.trichotomy hsr with hpath | hbelow
        · obtain ⟨hr', hkeeps⟩ := mem_survivors.mp (mem_survivors_of_mem_resolve hr)
          rw [← List.inj_on_of_nodup_map hdistinct hp hr' hpath, hway] at hkeeps
          cases hkeeps
        · exact hbelow

/-- Places that are kept resolve candidates: they are some of them, in the order of the text; of a
parent and a child that are candidates, the one that does not win is not kept; if only outermost ones
are, none is below another; and each candidate that is not kept is below or above one that is. -/
structure IsResolution (policy : String → Option Winner) (outermostOnly : Bool)
    (candidates kept : List Place) : Prop where
  subperm : kept.Subperm candidates
  order : kept.Pairwise (Place.Leads candidates)
  parents : ∀ p ∈ candidates, ∀ q ∈ candidates, p.IsRightBelow q →
    policy q.kind = some .parent → p ∉ kept
  children : ∀ p ∈ candidates, ∀ q ∈ candidates, p.IsRightBelow q →
    policy q.kind = some .child → q ∉ kept
  outermost : outermostOnly = true → ∀ p ∈ kept, ∀ q ∈ kept, ¬p.IsBelow q
  covers : ∀ p ∈ candidates, p ∉ kept → ∃ q ∈ kept, p.IsBelow q ∨ q.IsBelow p

/-- Distinct candidates are resolved, whatever wins over what, and some of them are kept if there are
any. -/
theorem isResolution_resolve (policy : String → Option Winner) (outermostOnly : Bool)
    (candidates : List Place) (hdistinct : (candidates.map Place.path).Nodup) :
    IsResolution policy outermostOnly candidates (resolve policy outermostOnly candidates) ∧
      (candidates ≠ [] → resolve policy outermostOnly candidates ≠ []) := by
  have hgives {p : Place} (hway : givesWay policy candidates p = true) :
      p ∉ resolve policy outermostOnly candidates := fun h => by
    rw [(mem_survivors.mp (mem_survivors_of_mem_resolve h)).2] at hway
    cases hway
  have hcovers : ∀ p ∈ candidates, p ∉ resolve policy outermostOnly candidates →
      ∃ q ∈ resolve policy outermostOnly candidates, p.IsBelow q ∨ q.IsBelow p :=
    fun p hp => resolve_covers hdistinct hp
  constructor
  · refine ⟨?_, pairwise_resolve, ?_, ?_, ?_, hcovers⟩
    · obtain ⟨kept, hkept, hresolve⟩ := exists_kept policy outermostOnly candidates
      rw [hresolve]
      exact (List.mergeSort_perm kept precedes).subperm.trans hkept.subperm
    · exact fun p hp q hq hpq hpolicy => hgives (givesWay_iff.mpr (.inl ⟨q, hq, hpq, hpolicy⟩))
    · exact fun p hp q hq hpq hpolicy => hgives (givesWay_iff.mpr (.inr ⟨hpolicy, p, hp, hpq⟩))
    · rintro rfl p hp q hq
      exact (mem_outermost.mp (mem_resolve.mp hp)).2 q (mem_survivors_of_mem_resolve hq)
  · intro hne hnil
    obtain ⟨p, hp⟩ := List.exists_mem_of_ne_nil candidates hne
    obtain ⟨q, hq, -⟩ := hcovers p hp (by rw [hnil]; exact List.not_mem_nil)
    rw [hnil] at hq
    cases hq

/-- A class in a statement that exports it, in a wrapper. -/
def wrapped : Tree :=
  .node ⟨"wrapper", true, none, 0, 9⟩
    [.node ⟨"export", true, none, 0, 9⟩ [.node ⟨"class", true, none, 4, 9⟩ []]]

/-- Children win over wrappers, and exports over their children. -/
def wrappedPolicy : String → Option Winner :=
  (List.lookup · [("wrapper", .child), ("export", .parent)])

/-- Of three nodes one below the other, both the first and the last give way to the one between. -/
theorem isResolution_resolve_wrapped :
    let candidates := Syntax.candidates Pattern.engine
      ["(class) @it", "(wrapper) @it", "(export) @it"] wrapped
    (candidates.map Place.path).Nodup ∧
      IsResolution wrappedPolicy true candidates (resolve wrappedPolicy true candidates) ∧
      candidates.map Place.kind = ["class", "wrapper", "export"] ∧
      (resolve wrappedPolicy true candidates).map Place.kind = ["export"] := by
  intro candidates
  have hdistinct : (candidates.map Place.path).Nodup := nodup_path_candidates _ _ _
  refine ⟨hdistinct, (isResolution_resolve wrappedPolicy true candidates hdistinct).1, by decide, ?_⟩
  exact congrArg (List.map Place.kind) (List.mergeSort_singleton _)

end SourceIndex.Syntax
