import SourceIndex.Proofs.Chunking.Budget
import SourceIndex.Proofs.Chunking.Degradation
import SourceIndex.Proofs.Chunking.Filter
import Mathlib.Order.Monotone.Defs

/-!
# Splits have as few pieces as a budget allows

A budget lets rows stand together if they are within it, and a row that exceeds it stands alone
(`Fits`). Splitting groups rows greedily, yet no other way to cut them into groups that fit makes
fewer of these (`length_group_le`): where a group is closed early, no more than that one group is
lost (`length_groupFrom`). What fits under a budget can be cut as well under a larger one
(`IsPartition.of_le`), so more budget never makes more pieces. Runs of a split give such pieces, one
after another from the start of the text on (`exists_isSplit`).
-/

namespace SourceIndex.Chunking

open Text

/-- Measured rows that a budget lets stand together: one that exceeds it, which is flagged, or some
that are within it, which are not. -/
inductive Fits (budget : Nat) : List (Text × Nat) → Bool → Prop
  | alone {row size} : budget < size → Fits budget [(row, size)] true
  | within {part} : part ≠ [] → (part.map Prod.snd).sum ≤ budget → Fits budget part false

/-- Measured rows are cut into parts that fit. -/
structure IsPartition (budget : Nat) (rs : List (Text × Nat)) (parts : List (List (Text × Nat))) :
    Prop where
  flatten : parts.flatten = rs
  fits : ∀ part ∈ parts, ∃ flag, Fits budget part flag

/-- Candidates are what a budget makes of a text with measured rows, from an offset on: they make up
the text, each starts where those before it end, each is made of rows that fit, with the flag of
these, and there is no partition into fewer parts. -/
structure IsSplit (budget start : Nat) (t : Text) (rs : List (Text × Nat)) (cs : List Candidate) :
    Prop where
  text : cs.flatMap (fun c => c.excerpt.text) = t
  start : ∀ before c after, cs = before ++ c :: after →
    c.excerpt.start = start + (before.flatMap fun c => c.excerpt.text).length
  parts : ∃ parts, IsPartition budget rs parts ∧ List.Forall₂
    (fun c part => c.excerpt.rows = part.map Prod.fst ∧ Fits budget part c.oversized) cs parts
  least : ∀ parts, IsPartition budget rs parts → cs.length ≤ parts.length

variable {budget budget' used used' : Nat} {gathered gathered' : List Text}
  {rs part : List (Text × Nat)}

/-! ## Greedy grouping -/

theorem length_close (h : gathered ≠ []) : (Group.close gathered).length = 1 := by
  cases gathered with
  | nil => exact absurd rfl h
  | cons => rfl

theorem length_groupFrom_cons (gathered : List Text) (used : Nat) (row : Text) (size : Nat)
    (rs : List (Text × Nat)) :
    (groupFrom budget gathered used ((row, size) :: rs)).length =
      if budget < size then (Group.close gathered).length + ((group budget rs).length + 1)
      else if budget < used + size then
        (Group.close gathered).length + (groupFrom budget [row] size rs).length
      else (groupFrom budget (gathered ++ [row]) (used + size) rs).length := by
  rw [groupFrom]
  split
  · rw [List.length_append, List.length_cons, group]
  · split
    · rw [List.length_append]
    · rfl

theorem length_group_cons (row : Text) (size : Nat) (rs : List (Text × Nat)) :
    (group budget ((row, size) :: rs)).length =
      if budget < size then (group budget rs).length + 1
      else (groupFrom budget [row] size rs).length := by
  have hclosed : (Group.close []).length = 0 := rfl
  rw [group, length_groupFrom_cons, hclosed]
  simp only [Nat.zero_add, List.nil_append, ite_self]

/-- What is gathered makes at most one more group than nothing would, and the more of the budget it
uses, the more groups follow. -/
theorem length_groupFrom (rs : List (Text × Nat)) (hgathered : gathered ≠ [])
    (hgathered' : gathered' ≠ []) (h : used ≤ used') :
    (groupFrom budget gathered used rs).length ≤ (groupFrom budget gathered' used' rs).length ∧
      (group budget rs).length ≤ (groupFrom budget gathered used rs).length ∧
      (groupFrom budget gathered used rs).length ≤ (group budget rs).length + 1 := by
  induction rs generalizing gathered gathered' used used' with
  | nil =>
    rw [group, groupFrom, groupFrom, groupFrom, length_close hgathered, length_close hgathered']
    exact ⟨Nat.le_refl 1, Nat.zero_le 1, Nat.le_refl 1⟩
  | cons r rs ih =>
    obtain ⟨row, size⟩ := r
    have hne (rows : List Text) : rows ++ [row] ≠ [] :=
      List.append_ne_nil_of_right_ne_nil rows (List.cons_ne_nil row [])
    have hapart := ih (List.cons_ne_nil row []) (hne gathered) (Nat.le_add_left size used)
    have hjoined := ih (hne gathered) (hne gathered') (Nat.add_le_add_right h size)
    rw [length_group_cons, length_groupFrom_cons, length_groupFrom_cons, length_close hgathered,
      length_close hgathered']
    split
    · omega
    · split <;> split <;> omega

/-- Rows that are within the budget together with what is gathered join it. -/
theorem length_groupFrom_append_le (rows : List (Text × Nat)) (hgathered : gathered ≠ [])
    (h : used + (rows.map Prod.snd).sum ≤ budget) :
    (groupFrom budget gathered used (rows ++ rs)).length ≤ (group budget rs).length + 1 := by
  induction rows generalizing gathered used with
  | nil => exact (length_groupFrom rs hgathered hgathered (Nat.le_refl used)).2.2
  | cons r rows ih =>
    obtain ⟨row, size⟩ := r
    rw [List.map_cons, List.sum_cons, ← Nat.add_assoc] at h
    rw [List.cons_append, length_groupFrom_cons, if_neg (by omega), if_neg (by omega)]
    exact ih (List.append_ne_nil_of_right_ne_nil gathered (List.cons_ne_nil row [])) h

/-- A part that fits costs no more than one group. -/
theorem length_group_append_le {flag : Bool} (h : Fits budget part flag) :
    (group budget (part ++ rs)).length ≤ (group budget rs).length + 1 := by
  cases h with
  | alone hover => rw [List.singleton_append, length_group_cons, if_pos hover]
  | within hne hsum =>
    obtain ⟨⟨row, size⟩, rows, rfl⟩ := List.exists_cons_of_ne_nil hne
    rw [List.map_cons, List.sum_cons] at hsum
    rw [List.cons_append, length_group_cons, if_neg (by omega)]
    exact length_groupFrom_append_le rows (List.cons_ne_nil row []) hsum

/-- No partition has fewer parts than grouping makes groups. -/
theorem length_group_le {parts : List (List (Text × Nat))} (h : IsPartition budget rs parts) :
    (group budget rs).length ≤ parts.length := by
  obtain ⟨rfl, hfits⟩ := h
  induction parts with
  | nil => exact Nat.le_refl 0
  | cons part parts ih =>
    obtain ⟨⟨flag, hpart⟩, hparts⟩ := List.forall_mem_cons.mp hfits
    calc (group budget (part ++ parts.flatten)).length
        ≤ (group budget parts.flatten).length + 1 := length_group_append_le hpart
      _ ≤ parts.length + 1 := Nat.succ_le_succ (ih hparts)

/-- No group is empty, since one is only closed if something is gathered. -/
theorem rows_ne_nil_of_mem_groupFrom {g : Group} (h : g ∈ groupFrom budget gathered used rs) :
    g.rows ≠ [] := by
  have hclose {rows : List Text} (hg : g ∈ Group.close rows) : g.rows ≠ [] := by
    cases rows with
    | nil => nomatch hg
    | cons row rows => rw [List.mem_singleton.mp hg]; exact List.cons_ne_nil row rows
  fun_induction groupFrom budget gathered used rs with
  | case1 => exact hclose h
  | case2 gathered used row size rest hover ih =>
    obtain hg | rfl | hg := by simpa only [List.mem_append, List.mem_cons] using h
    · exact hclose hg
    · exact List.cons_ne_nil row []
    · exact ih hg
  | case3 gathered used row size rest hfits hover ih =>
    exact (List.mem_append.mp h).elim hclose ih
  | case4 gathered used row size rest hfits hsum ih => exact ih h

theorem Group.HasSizes.fits {g : Group} (h : g.HasSizes budget part) (hne : g.rows ≠ []) :
    g.rows = part.map Prod.fst ∧ Fits budget part g.oversized := by
  obtain ⟨hrows, hmakes⟩ := h
  obtain ⟨hflag, hsum⟩ := hmakes 0
  refine ⟨hrows, ?_⟩
  cases hover : g.oversized with
  | true =>
    obtain ⟨row, size, rfl, hlt⟩ := hflag.mp hover
    exact .alone hlt
  | false => exact .within (fun hnil => hne (by rw [hrows, hnil]; rfl)) (hsum hover)

/-- The groups are a partition themselves. -/
theorem exists_partition_group (budget : Nat) (rs : List (Text × Nat)) :
    ∃ parts, IsPartition budget rs parts ∧ List.Forall₂
      (fun g part => g.rows = part.map Prod.fst ∧ Fits budget part g.oversized)
      (group budget rs) parts := by
  obtain ⟨parts, hflatten, hsizes⟩ := exists_sizes_groupFrom rs [] (Nat.zero_le budget)
  have hfits := ((List.forall₂_and_left _ _).mpr
    ⟨fun g hg => rows_ne_nil_of_mem_groupFrom hg, hsizes⟩).imp fun _ _ h => h.2.fits h.1
  refine ⟨parts, ⟨hflatten, fun part hpart => ?_⟩, hfits⟩
  obtain ⟨g, -, -, hpart⟩ := exists_of_forall₂ hfits hpart
  exact ⟨g.oversized, hpart⟩

/-- What fits can be cut in the same way under a larger budget. -/
theorem IsPartition.of_le {parts : List (List (Text × Nat))} (h : IsPartition budget rs parts)
    (hle : budget ≤ budget') : IsPartition budget' rs parts := by
  refine ⟨h.flatten, fun part hpart => ?_⟩
  obtain ⟨flag, hfits⟩ := h.fits part hpart
  cases hfits with
  | @alone row size hover =>
    by_cases hover' : budget' < size
    · exact ⟨true, .alone hover'⟩
    · exact ⟨false, .within (List.cons_ne_nil _ _) (by simpa using Nat.le_of_not_lt hover')⟩
  | within hne hsum => exact ⟨false, .within hne (hsum.trans hle)⟩

/-- More budget makes no more groups. -/
theorem length_group_antitone (rs : List (Text × Nat)) :
    Antitone fun budget => (group budget rs).length := by
  intro budget budget' hle
  obtain ⟨parts, hparts, hgroups⟩ := exists_partition_group budget rs
  calc (group budget' rs).length
      ≤ parts.length := length_group_le (hparts.of_le hle)
    _ = (group budget rs).length := hgroups.length_eq.symm

/-- A row without tokens joins what is gathered, and what follows a row over budget starts anew. -/
example : group 3 [(['a', '\n'], 3), (['\n'], 0), (['b', '\n'], 4), (['c'], 0)] =
    [⟨[['a', '\n'], ['\n']], false⟩, ⟨[['b', '\n']], true⟩, ⟨[['c']], false⟩] := by
  decide

/-! ## Candidates -/

variable {origin : Option Origin} {kind : Option String}

/-- The candidates that are made of groups, from an offset on. -/
def groupCandidates (origin : Option Origin) (kind : Option String) (start : Nat)
    (gs : List Group) : List Candidate :=
  List.zipWith (fun excerpt g => { excerpt, origin, oversized := g.oversized, kind })
    (Excerpt.consecutive start (gs.map Group.rows)) gs

theorem groupCandidates_cons (start : Nat) (g : Group) (gs : List Group) :
    groupCandidates origin kind start (g :: gs) =
      { excerpt := ⟨start, g.rows⟩, origin, oversized := g.oversized, kind } ::
        groupCandidates origin kind (start + g.rows.flatten.length) gs := rfl

theorem length_groupCandidates (start : Nat) (gs : List Group) :
    (groupCandidates origin kind start gs).length = gs.length := by
  rw [groupCandidates, List.length_zipWith, length_consecutive, List.length_map, Nat.min_self]

theorem text_groupCandidates (start : Nat) (gs : List Group) :
    ((groupCandidates origin kind start gs).flatMap fun c => c.excerpt.text) =
      (gs.flatMap Group.rows).flatten := by
  induction gs generalizing start with
  | nil => rfl
  | cons g gs ih =>
    rw [groupCandidates_cons, List.flatMap_cons, List.flatMap_cons, List.flatten_append, ih]
    rfl

theorem start_groupCandidates {start : Nat} {gs : List Group} {before after : List Candidate}
    {c : Candidate} (h : groupCandidates origin kind start gs = before ++ c :: after) :
    c.excerpt.start = start + (before.flatMap fun c => c.excerpt.text).length := by
  induction gs generalizing start before with
  | nil => exact absurd h.symm (List.append_ne_nil_of_right_ne_nil before (List.cons_ne_nil _ _))
  | cons g gs ih =>
    rw [groupCandidates_cons] at h
    cases before with
    | nil =>
      obtain ⟨rfl, -⟩ := List.cons_eq_cons.mp h
      rfl
    | cons first before =>
      obtain ⟨rfl, htail⟩ := List.cons_eq_cons.mp h
      rw [ih htail, List.flatMap_cons, List.length_append, Nat.add_assoc]
      rfl

theorem forall₂_groupCandidates (start : Nat) {gs : List Group} {parts : List (List (Text × Nat))}
    (h : List.Forall₂ (fun g part => g.rows = part.map Prod.fst ∧ Fits budget part g.oversized)
      gs parts) :
    List.Forall₂ (fun c part => c.excerpt.rows = part.map Prod.fst ∧ Fits budget part c.oversized)
      (groupCandidates origin kind start gs) parts := by
  induction h generalizing start with
  | nil => exact .nil
  | cons hg _ ih => exact .cons hg (ih _)

theorem isSplit_groupCandidates (budget start : Nat) {t : Text} (h : rs.map Prod.fst = rows t) :
    IsSplit budget start t rs (groupCandidates origin kind start (group budget rs)) := by
  obtain ⟨parts, hparts, hgroups⟩ := exists_partition_group budget rs
  refine ⟨?_, fun before c after => start_groupCandidates,
    ⟨parts, hparts, forall₂_groupCandidates start hgroups⟩, ?_⟩
  · rw [text_groupCandidates, flatMap_rows_group, h, flatten_rows]
  · intro parts' hparts'
    rw [length_groupCandidates]
    exact length_group_le hparts'

/-! ## Runs -/

theorem run_splitPlan (budget : Nat) (e : Excerpt) (s : Plan.Setting) :
    (splitPlan budget origin kind e).run s =
      (((Plan.measureAll [] e.rows).run s).1.map fun rs =>
          groupCandidates origin kind e.start (group budget rs),
        ((Plan.measureAll [] e.rows).run s).2) :=
  Plan.run_bind_done _ _ s

theorem read_of_measureAll {texts : List Text} {s : Plan.Setting}
    (h : ((Plan.measureAll [] texts).run s).1 = .ok rs) :
    rs = s.estimator.read texts ∧ rs.map Prod.fst = texts := by
  obtain ⟨htexts, rfl⟩ := Plan.gives_measureAll.mp (Plan.gives_of_run h)
  rw [List.reverse_nil, List.nil_append]
  refine ⟨?_, htexts⟩
  rw [Plan.readings_trace, htexts]

/-- A run of a split ends with one for the sizes that are read, unless it is cancelled by a signal
that is raised; a larger budget makes no more pieces. -/
theorem exists_isSplit (origin : Option Origin) (kind : Option String) (start : Nat) (t : Text)
    (s : Plan.Setting) :
    (∃ split : Nat → List Candidate,
      (∀ budget, ((splitPlan budget origin kind ⟨start, rows t⟩).run s).1 = .ok (split budget) ∧
        IsSplit budget start t (s.estimator.read (rows t)) (split budget)) ∧
      Antitone fun budget => (split budget).length) ∨
    ¬s.IsSilent ∧ ∀ budget,
      ((splitPlan budget origin kind ⟨start, rows t⟩).run s).1 = .error .cancelled ∧
      ∃ signal, ((splitPlan budget origin kind ⟨start, rows t⟩).run s).2.signal = some signal ∧
        signal.raised = true := by
  simp only [run_splitPlan]
  have horderly : (Plan.measureAll [] (rows t)).Orderly (fun _ => False) false := .measureAll [] _
  obtain ⟨rs, hrun⟩ | hrun | ⟨_, hstops, -⟩ := horderly.run s
  · obtain ⟨hread, hrows⟩ := read_of_measureAll hrun
    refine .inl
      ⟨fun budget => groupCandidates origin kind start (group budget rs), fun budget => ?_, ?_⟩
    · rw [hrun, ← hread]
      exact ⟨rfl, isSplit_groupCandidates budget start hrows⟩
    · simpa only [length_groupCandidates] using length_group_antitone rs
  · refine .inr ⟨horderly.not_isSilent_of_cancelled not_false hrun, fun budget => ?_⟩
    exact ⟨by rw [hrun]; rfl, horderly.raised_of_cancelled not_false hrun⟩
  · exact hstops.elim

end SourceIndex.Chunking
