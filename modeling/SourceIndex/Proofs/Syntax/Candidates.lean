import SourceIndex.Proofs.Syntax.Survival

/-! # Candidates of a tree

No two places of a tree have one path (`nodup_path_places`), so a place that is dropped because its path
was seen before was itself there before. Hence the candidates are exactly the places that are captured
for some pattern, if what is captured are places of the tree (`mem_candidates`). -/

namespace SourceIndex.Syntax

/-! ## Paths -/

-- Induction on the tree: a place of a tree lies below the path of the tree, and one of the trees in a
-- row below the path of one of these.
mutual

theorem isSuffix_path_of_mem_placesAt {path : List Nat} {before : List Tree} {p : Place} :
    ∀ {t : Tree}, p ∈ placesAt path before t → path <:+ p.path
  | .node label children, h => by
    rw [placesAt, List.mem_cons] at h
    rcases h with rfl | h
    · exact List.suffix_rfl
    · obtain ⟨i, -, hsuffix⟩ := exists_isSuffix_path_of_mem_placesIn h
      exact (List.suffix_cons i path).trans hsuffix

theorem exists_isSuffix_path_of_mem_placesIn {path : List Nat} {index : Nat} {before : List Tree}
    {p : Place} :
    ∀ {ts : List Tree}, p ∈ placesIn path index before ts → ∃ i ≥ index, i :: path <:+ p.path
  | t :: ts, h => by
    rw [placesIn, List.mem_append] at h
    rcases h with h | h
    · exact ⟨index, Nat.le_refl index, isSuffix_path_of_mem_placesAt h⟩
    · obtain ⟨i, hi, hsuffix⟩ := exists_isSuffix_path_of_mem_placesIn h
      exact ⟨i, Nat.le_of_succ_le hi, hsuffix⟩

end

mutual

theorem nodup_path_placesAt (path : List Nat) (before : List Tree) :
    ∀ t : Tree, ((placesAt path before t).map Place.path).Nodup
  | .node label children => by
    rw [placesAt, List.map_cons, List.nodup_cons]
    refine ⟨fun hmem => ?_, nodup_path_placesIn path 0 [] children⟩
    obtain ⟨p, hp, hpath⟩ := List.mem_map.mp hmem
    obtain ⟨i, -, hsuffix⟩ := exists_isSuffix_path_of_mem_placesIn hp
    have hlength := hsuffix.length_le
    rw [hpath, List.length_cons] at hlength
    exact Nat.not_succ_le_self _ hlength

theorem nodup_path_placesIn (path : List Nat) (index : Nat) (before : List Tree) :
    ∀ ts : List Tree, ((placesIn path index before ts).map Place.path).Nodup
  | [] => List.nodup_nil
  | t :: ts => by
    rw [placesIn, List.map_append, List.nodup_append]
    refine ⟨nodup_path_placesAt _ before t, nodup_path_placesIn path _ _ ts, ?_⟩
    rintro _ hfirst _ hrest rfl
    obtain ⟨p, hp, hpath⟩ := List.mem_map.mp hfirst
    obtain ⟨q, hq, hpath'⟩ := List.mem_map.mp hrest
    -- A place below a later child is not below this one.
    have hindex := isSuffix_path_of_mem_placesAt hp
    obtain ⟨i, hi, hsuffix⟩ := exists_isSuffix_path_of_mem_placesIn hq
    rw [hpath', ← hpath] at hsuffix
    have heq := (List.suffix_of_suffix_length_le hsuffix hindex (Nat.le_refl _)).eq_of_length rfl
    have hsame : i = index := (List.cons.inj heq).1
    omega

end

theorem nodup_path_places (t : Tree) : (t.places.map Place.path).Nodup :=
  nodup_path_placesAt [0] [] t

/-! ## Candidates -/

variable {engine : QueryEngine} {patterns : List String} {t : Tree} {p : Place}

theorem mem_distinctPlaces {seen : List (List Nat)} {ps : List Place}
    (hps : ∀ q ∈ ps, ∀ r ∈ ps, q.path = r.path → q = r) :
    p ∈ distinctPlaces seen ps ↔ p ∈ ps ∧ p.path ∉ seen := by
  fun_induction distinctPlaces seen ps with
  | case1 => simp
  | case2 seen q ps hseen ih =>
    rw [ih fun r hr r' hr' => hps r (List.mem_cons_of_mem q hr) r' (List.mem_cons_of_mem q hr'),
      List.mem_cons]
    have hq : q.path ∈ seen := by simpa using hseen
    constructor
    · exact And.imp_left .inr
    · rintro ⟨rfl | hp, hnot⟩
      · exact absurd hq hnot
      · exact ⟨hp, hnot⟩
  | case3 seen q ps hseen ih =>
    rw [List.mem_cons, List.mem_cons,
      ih fun r hr r' hr' => hps r (List.mem_cons_of_mem q hr) r' (List.mem_cons_of_mem q hr'),
      List.mem_cons, not_or]
    have hq : q.path ∉ seen := by simpa using hseen
    constructor
    · rintro (rfl | ⟨hp, -, hnot⟩)
      · exact ⟨.inl rfl, hq⟩
      · exact ⟨.inr hp, hnot⟩
    · rintro ⟨rfl | hp, hnot⟩
      · exact .inl rfl
      · by_cases hpath : p.path = q.path
        · exact .inl (hps p (List.mem_cons_of_mem q hp) q List.mem_cons_self hpath)
        · exact .inr ⟨hp, hpath, hnot⟩

/-- The candidates are the places that are captured for some pattern. -/
theorem mem_candidates (hengine : engine.CapturesNodes t) :
    p ∈ candidates engine patterns t ↔
      ∃ pattern ∈ patterns, p ∈ engine.captured pattern t := by
  rw [candidates, mem_distinctPlaces, List.mem_flatMap]
  · exact and_iff_left List.not_mem_nil
  · have hplaces : ∀ q ∈ patterns.flatMap fun pattern => engine.captured pattern t,
        q ∈ t.places := fun q hq => by
      obtain ⟨pattern, -, hq⟩ := List.mem_flatMap.mp hq
      exact mem_places_of_mem_captured hengine hq
    exact fun q hq r hr => List.inj_on_of_nodup_map (nodup_path_places t) (hplaces q hq)
      (hplaces r hr)

end SourceIndex.Syntax
