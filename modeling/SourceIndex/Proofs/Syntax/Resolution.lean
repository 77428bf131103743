import SourceIndex.Syntax.Query
import SourceIndex.Syntax.Resolution

/-! # Resolution of points of interest

What is kept of the candidates is some of them, sorted (`exists_kept`). The sort is stable
(`filter_mergeSort`), so of two places that are kept one comes first by where it starts and stops, and
of those with one range the one that is the first candidate (`pairwise_resolve`). If an engine captures
nodes of the tree, so are its candidates (`mem_places_of_mem_candidates`). -/

namespace SourceIndex.Syntax

/-- Of two places, one comes first by its start, then by its end, the later first, and then by its
number among the candidates. -/
def Place.Leads (candidates : List Place) (p q : Place) : Prop :=
  p.start < q.start ∨ p.start = q.start ∧
    (q.stop < p.stop ∨ q.stop = p.stop ∧ [p, q].Sublist candidates)

variable {policy : String → Option Winner} {outermostOnly : Bool} {candidates : List Place}

/-! ## Candidates -/

theorem mem_of_mem_distinctPlaces {seen : List (List Nat)} {ps : List Place} {p : Place}
    (h : p ∈ distinctPlaces seen ps) : p ∈ ps := by
  fun_induction distinctPlaces seen ps with
  | case1 => cases h
  | case2 seen q ps hseen ih => exact List.mem_cons_of_mem _ (ih h)
  | case3 seen q ps hseen ih =>
    rcases List.mem_cons.mp h with rfl | h
    · exact List.mem_cons_self
    · exact List.mem_cons_of_mem _ (ih h)

/-- What is taken from a match is captured under one of its names. -/
theorem Match.exists_of_mem_taken {m : Match} {p : Place} (h : p ∈ m.taken) :
    ∃ capture ∈ m, p ∈ capture.2 := by
  rw [taken] at h
  split at h
  next q qs hlookup =>
    obtain ⟨before, after, hm, -⟩ := List.lookup_eq_some_iff.mp hlookup
    refine ⟨("capture", q :: qs), ?_, h⟩
    rw [hm]
    exact List.mem_append_right _ List.mem_cons_self
  next =>
    cases m with
    | nil => cases h
    | cons capture m => exact ⟨capture, List.mem_cons_self, h⟩

section

variable {engine : QueryEngine} {t : Tree} {p : Place}

theorem mem_places_of_mem_captured {pattern : String} (hengine : engine.CapturesNodes t)
    (h : p ∈ engine.captured pattern t) : p ∈ t.places := by
  rw [QueryEngine.captured] at h
  split at h
  next search hsearch =>
    obtain ⟨m, hm, hp⟩ := List.mem_flatMap.mp h
    obtain ⟨capture, hcapture, hp⟩ := m.exists_of_mem_taken hp
    exact hengine pattern search hsearch m hm capture hcapture p hp
  next => cases h

theorem mem_places_of_mem_candidates {patterns : List String} (hengine : engine.CapturesNodes t)
    (h : p ∈ Syntax.candidates engine patterns t) : p ∈ t.places := by
  obtain ⟨pattern, -, hp⟩ := List.mem_flatMap.mp (mem_of_mem_distinctPlaces h)
  exact mem_places_of_mem_captured hengine hp

end

/-! ## Order -/

/-- Elements that a stable sort may leave in either order stay in the order they were in. -/
theorem filter_mergeSort {α : Type} {le : α → α → Bool} {tied : α → Bool}
    (trans : ∀ a b c, le a b = true → le b c = true → le a c = true)
    (total : ∀ a b, (le a b || le b a) = true)
    (htied : ∀ a b, tied a = true → tied b = true → le a b = true) (l : List α) :
    (l.mergeSort le).filter tied = l.filter tied := by
  have hpairwise : (l.filter tied).Pairwise fun a b => le a b = true :=
    List.pairwise_of_forall_mem_list fun a ha b hb =>
      htied a b (List.mem_filter.mp ha).2 (List.mem_filter.mp hb).2
  have hsub := List.sublist_mergeSort trans total hpairwise List.filter_sublist
  have hfilter := hsub.filter tied
  rw [List.filter_filter] at hfilter
  simp only [Bool.and_self] at hfilter
  exact (hfilter.eq_of_length ((List.mergeSort_perm l le).filter tied).length_eq.symm).symm

theorem precedes_trans (p q r : Place) (h : precedes p q = true) (h' : precedes q r = true) :
    precedes p r = true := by
  simp only [precedes, Bool.or_eq_true, Bool.and_eq_true, decide_eq_true_eq, beq_iff_eq] at *
  omega

theorem precedes_total (p q : Place) : (precedes p q || precedes q p) = true := by
  simp only [precedes, Bool.or_eq_true, Bool.and_eq_true, decide_eq_true_eq, beq_iff_eq]
  omega

theorem exists_kept (policy : String → Option Winner) (outermostOnly : Bool)
    (candidates : List Place) :
    ∃ kept : List Place, kept.Sublist candidates ∧
      resolve policy outermostOnly candidates = kept.mergeSort precedes := by
  refine ⟨_, ?_, rfl⟩
  split
  · exact List.filter_sublist.trans List.filter_sublist
  · exact List.filter_sublist

theorem mem_of_mem_resolve {p : Place} (h : p ∈ resolve policy outermostOnly candidates) :
    p ∈ candidates := by
  obtain ⟨kept, hkept, hresolve⟩ := exists_kept policy outermostOnly candidates
  rw [hresolve, List.mem_mergeSort] at h
  exact hkept.subset h

/-- Places that are kept are in the order of where they start and stop, and those with one range in the
order of the candidates. -/
theorem pairwise_resolve :
    (resolve policy outermostOnly candidates).Pairwise (Place.Leads candidates) := by
  obtain ⟨kept, hkept, hresolve⟩ := exists_kept policy outermostOnly candidates
  rw [hresolve, List.pairwise_iff_forall_sublist]
  intro p q hpq
  have hprecedes : precedes p q = true :=
    List.pairwise_iff_forall_sublist.mp (List.pairwise_mergeSort precedes_trans precedes_total kept)
      hpq
  by_cases htied : q.start = p.start ∧ q.stop = p.stop
  · -- Among the places with the range of `p`, each precedes each, and the sort keeps their order.
    obtain ⟨hstart, hstop⟩ := htied
    let tied (r : Place) : Bool := r.start == p.start && r.stop == p.stop
    have hstable : (kept.mergeSort precedes).filter tied = kept.filter tied := by
      refine filter_mergeSort precedes_trans precedes_total (fun a b ha hb => ?_) kept
      simp only [tied, precedes, Bool.or_eq_true, Bool.and_eq_true, decide_eq_true_eq,
        beq_iff_eq] at *
      omega
    have hpair : [p, q].filter tied = [p, q] := by simp [tied, hstart, hstop]
    have hsub := hpq.filter tied
    rw [hstable, hpair] at hsub
    exact .inr ⟨hstart.symm, .inr ⟨hstop, (hsub.trans List.filter_sublist).trans hkept⟩⟩
  · simp only [precedes, Bool.or_eq_true, Bool.and_eq_true, decide_eq_true_eq,
      beq_iff_eq] at hprecedes
    rcases hprecedes with hlt | ⟨hstart, hle⟩
    · exact .inl hlt
    · exact .inr ⟨hstart, .inl (by omega)⟩

end SourceIndex.Syntax
