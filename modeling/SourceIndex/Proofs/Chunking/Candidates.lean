import SourceIndex.Chunking.Chunker
import SourceIndex.Proofs.Chunking.Tiling
import SourceIndex.Proofs.Chunking.Trace

/-! # The candidates of a document

A document is cut by plans within plans. The candidates of an excerpt tile it, whether it is kept or
split (`tiling_excerptPlan`, `tiling_splitPlan`), so those of a document are excerpts of its text
(`isOf_of_cutPlan`) and, with ascending breakpoints, tile its rows from the first line that is kept
(`tiling_cutPlan`). -/

namespace SourceIndex.Chunking

open Text
open Syntax (Breakpoint)

variable {budget : Nat} {rs : List (Text × Nat)} {cs : List Candidate} {e : Excerpt}

/-! ## Excerpts -/

theorem length_consecutive (start : Nat) (groups : List (List Text)) :
    (Excerpt.consecutive start groups).length = groups.length := by
  rw [← List.length_map Excerpt.rows, Excerpt.rows_consecutive]

/-- The candidates of a split are its groups, one after another. -/
theorem gives_splitPlan {origin : Option Origin} {kind : Option String} :
    (splitPlan budget origin kind e).Gives rs cs ↔
      rs.map Prod.fst = e.rows ∧
        cs = List.zipWith (fun excerpt g => { excerpt, origin, oversized := g.oversized, kind })
          (Excerpt.consecutive e.start ((group budget rs).map Group.rows)) (group budget rs) := by
  simp only [splitPlan, Plan.gives_bind, Plan.gives_measureAll, Plan.gives_done]
  constructor
  · rintro ⟨_, _, _, rfl, ⟨hrs, rfl⟩, rfl, rfl⟩
    exact ⟨by rwa [List.append_nil], by rw [List.append_nil]⟩
  · rintro ⟨hrs, rfl⟩
    exact ⟨rs, rs, [], (List.append_nil rs).symm, ⟨hrs, rfl⟩, rfl, rfl⟩

theorem tiling_splitPlan {origin : Option Origin} {kind : Option String}
    (h : (splitPlan budget origin kind e).Gives rs cs) :
    Tiling e.start e.rows (cs.map Candidate.excerpt) := by
  obtain ⟨hrs, rfl⟩ := gives_splitPlan.mp h
  have hexcerpts : ∀ (es : List Excerpt) (gs : List Group), es.length = gs.length →
      (List.zipWith (fun excerpt (g : Group) =>
        ({ excerpt, origin, oversized := g.oversized, kind } : Candidate)) es gs).map
          Candidate.excerpt = es := by
    intro es gs hlen
    rw [← List.map_uncurry_zip_eq_zipWith, List.map_map]
    exact List.map_fst_zip hlen.le
  have hrows : ((group budget rs).map Group.rows).flatten = e.rows := by
    rw [← hrs, ← flatMap_rows_group budget rs, List.flatMap_def]
  rw [hexcerpts _ _ (by rw [length_consecutive, List.length_map]), ← hrows]
  exact tiling_consecutive _ _

/-- An excerpt within budget is kept; any other is split. -/
theorem gives_excerptPlan {label : String} {kind : Option String} :
    (excerptPlan budget label kind e).Gives rs cs ↔
      ∃ n rest, rs = (e.text, n) :: rest ∧
        if n ≤ budget then rest = [] ∧ cs = [{ excerpt := e, kind }]
        else (splitPlan budget (some ⟨label, e.start⟩) kind e).Gives rest cs := by
  rw [excerptPlan, Plan.gives_measure]
  refine exists_congr fun n => exists_congr fun rest => and_congr_right fun _ => ?_
  split
  · exact Plan.gives_done
  · exact Iff.rfl

theorem tiling_excerptPlan {label : String} {kind : Option String}
    (h : (excerptPlan budget label kind e).Gives rs cs) :
    Tiling e.start e.rows (cs.map Candidate.excerpt) := by
  obtain ⟨n, rest, rfl, hcs⟩ := gives_excerptPlan.mp h
  split at hcs
  · obtain ⟨rfl, rfl⟩ := hcs
    exact .single e
  · exact tiling_splitPlan hcs

/-! ## Segments and paragraphs -/

def segmentPlan (budget : Nat) (segment : Option String × Excerpt) : Plan (List Candidate) :=
  .look <| if segment.2.rows.isEmpty then .done []
    else excerptPlan budget (segmentLabel segment.1) segment.1 segment.2

def oneParagraphPlan (budget : Nat) (e : Excerpt) : Plan (List Candidate) :=
  .look <| if isBlank e.text then .done [] else excerptPlan budget "paragraph" none e

theorem structuralPlan_eq (budget : Nat) (rows : List Text) (breakpoints : List Breakpoint) :
    structuralPlan budget rows breakpoints =
      .collect ((segments rows breakpoints).map (segmentPlan budget)) := rfl

theorem paragraphPlan_eq (budget : Nat) (rows : List Text) :
    paragraphPlan budget rows = .collect ((paragraphs 0 rows).map (oneParagraphPlan budget)) := rfl

theorem tiling_segmentPlan {segment : Option String × Excerpt}
    (h : (segmentPlan budget segment).Gives rs cs) :
    Tiling segment.2.start segment.2.rows (cs.map Candidate.excerpt) := by
  rw [segmentPlan, Plan.gives_look] at h
  split at h
  · rename_i hnil
    obtain ⟨rfl, rfl⟩ := Plan.gives_done.mp h
    rw [List.isEmpty_iff.mp hnil]
    exact .nil
  · exact tiling_excerptPlan h

theorem tiling_oneParagraphPlan (h : (oneParagraphPlan budget e).Gives rs cs) :
    Tiling e.start e.rows (cs.map Candidate.excerpt) := by
  rw [oneParagraphPlan, Plan.gives_look] at h
  split at h
  · rename_i hblank
    obtain ⟨rfl, rfl⟩ := Plan.gives_done.mp h
    refine .of_blank fun r hr => List.all_eq_true.mpr fun c hc => ?_
    exact List.all_eq_true.mp hblank c (List.mem_flatten_of_mem hr hc)
  · exact tiling_excerptPlan h

/-- If what a plan makes of an item tiles the item, what plans make of tiles is a tiling. -/
theorem tiling_collect {ι : Type} {items : List ι} {plan : ι → Plan (List Candidate)}
    (excerpt : ι → Excerpt) {pos : Nat} {rows : List Text}
    (hplan : ∀ {i rs cs}, (plan i).Gives rs cs →
      Tiling (excerpt i).start (excerpt i).rows (cs.map Candidate.excerpt))
    (hitems : Tiling pos rows (items.map excerpt))
    (h : (Plan.collect (items.map plan)).Gives rs cs) :
    Tiling pos rows (cs.map Candidate.excerpt) := by
  obtain ⟨outs, houts, -, rfl⟩ := Plan.gives_collect.mp h
  have hcs : (outs.flatMap Prod.snd).map Candidate.excerpt =
      (outs.map fun out => out.2.map Candidate.excerpt).flatten := by
    rw [List.flatMap_def, List.map_flatten, List.map_map]
    rfl
  rw [hcs]
  refine hitems.refine (List.forall₂_map_left_iff.mpr (List.forall₂_map_right_iff.mpr ?_))
  exact (List.forall₂_map_left_iff.mp houts).imp fun _ _ => hplan

theorem exists_of_forall₂ {α β : Type} {R : α → β → Prop} {as : List α} {bs : List β}
    (h : List.Forall₂ R as bs) {b : β} (hb : b ∈ bs) : ∃ a ∈ as, R a b := by
  induction h with
  | nil => exact absurd hb List.not_mem_nil
  | cons hab _ ih =>
    rcases List.mem_cons.mp hb with rfl | hb
    · exact ⟨_, List.mem_cons_self, hab⟩
    · obtain ⟨a, ha, hab⟩ := ih hb
      exact ⟨a, List.mem_cons_of_mem _ ha, hab⟩

theorem exists_of_mem_collect {ι : Type} {items : List ι} {plan : ι → Plan (List Candidate)}
    (h : (Plan.collect (items.map plan)).Gives rs cs) {k : Candidate} (hk : k ∈ cs) :
    ∃ i ∈ items, ∃ rs' cs', (plan i).Gives rs' cs' ∧ k ∈ cs' := by
  obtain ⟨outs, houts, -, rfl⟩ := Plan.gives_collect.mp h
  obtain ⟨out, hout, hk⟩ := List.mem_flatMap.mp hk
  obtain ⟨i, hi, hgives⟩ := exists_of_forall₂ (List.forall₂_map_left_iff.mp houts) hout
  exact ⟨i, hi, out.1, out.2, hgives, hk⟩

/-! ## Documents -/

variable {doc : Document} {bs : List Breakpoint}

theorem gives_cutPlan : (cutPlan budget doc bs).Gives rs cs ↔
    if Language.isProse doc.language then (paragraphPlan budget (rows doc.text)).Gives rs cs
    else if bs.isEmpty then (splitPlan budget none none (.whole doc.text)).Gives rs cs
    else (structuralPlan budget (rows doc.text) bs).Gives rs cs := by
  rw [cutPlan]
  split
  · exact Iff.rfl
  · rw [Plan.gives_look]
    split <;> exact Iff.rfl

/-- The first line that is kept of a text which is cut: that of the first breakpoint, if the text is
cut at breakpoints. -/
def cutFrom (doc : Document) (bs : List Breakpoint) : Nat :=
  if Language.isProse doc.language then 0 else (bs.head?.map Breakpoint.line).getD 0

/-- With ascending breakpoints, candidates tile the rows from the first line that is kept. -/
theorem tiling_cutPlan (hbs : bs.Pairwise fun b b' => b.line < b'.line)
    (h : (cutPlan budget doc bs).Gives rs cs) :
    Tiling ((rows doc.text).take (cutFrom doc bs)).flatten.length
      ((rows doc.text).drop (cutFrom doc bs)) (cs.map Candidate.excerpt) := by
  rw [gives_cutPlan] at h
  rw [cutFrom]
  split
  · rename_i hprose
    rw [if_pos hprose, paragraphPlan_eq] at h
    refine tiling_collect id tiling_oneParagraphPlan ?_ h
    rw [List.map_id]
    exact tiling_paragraphs 0 (rows doc.text)
  · rename_i hprose
    rw [if_neg hprose] at h
    cases bs with
    | nil => exact tiling_splitPlan h
    | cons b bs =>
      exact tiling_collect Prod.snd tiling_segmentPlan (tiling_segments hbs) h

/-- Whatever the order of the breakpoints, candidates are excerpts of the text. -/
theorem isOf_of_cutPlan (h : (cutPlan budget doc bs).Gives rs cs) :
    ∀ k ∈ cs, k.excerpt.IsOf doc.text := by
  intro k hk
  have hwhole := Excerpt.isOf_whole doc.text
  rw [gives_cutPlan] at h
  split at h
  · have htiling := tiling_collect id tiling_oneParagraphPlan
      (by rw [List.map_id]; exact tiling_paragraphs 0 (rows doc.text)) h
    exact hwhole.of_tiling htiling _ (List.mem_map_of_mem hk)
  · split at h
    · exact hwhole.of_tiling (tiling_splitPlan h) _ (List.mem_map_of_mem hk)
    · rw [structuralPlan_eq] at h
      obtain ⟨segment, hsegment, rs', cs', hgives, hk⟩ := exists_of_mem_collect h hk
      have htiling := tiling_segmentPlan hgives
      have hne : segment.2.rows ≠ [] := by
        rintro hnil
        rw [segmentPlan, Plan.gives_look, hnil, List.isEmpty_nil, if_pos rfl] at hgives
        rw [(Plan.gives_done.mp hgives).2] at hk
        exact List.not_mem_nil hk
      exact (isOf_of_mem_segments hsegment hne).of_tiling htiling _ (List.mem_map_of_mem hk)

/-- The candidates of a document: none of a blank one, the whole text if it fits, else what it is
cut into. -/
theorem gives_candidatePlan {contextLength : Nat} {find : Document → List Breakpoint} :
    (candidatePlan contextLength find doc).Gives rs cs ↔
      if isBlank doc.text then rs = [] ∧ cs = []
      else ∃ budget fit, budgets contextLength = .ok (budget, fit) ∧
        ∃ n rest, rs = (doc.text, n) :: rest ∧
          if n ≤ fit then rest = [] ∧ cs = [{ excerpt := .whole doc.text }]
          else (cutPlan budget doc (find doc)).Gives rest cs := by
  rw [candidatePlan]
  split
  · exact Plan.gives_done
  · rw [Plan.gives_look]
    cases budgets contextLength with
    | error cause => exact ⟨nofun, nofun⟩
    | ok limits =>
      obtain ⟨budget, fit⟩ := limits
      rw [Plan.gives_measure]
      constructor
      · rintro ⟨n, rest, hrs, h⟩
        refine ⟨budget, fit, rfl, n, rest, hrs, ?_⟩
        split at h
        · rw [if_pos ‹_›]; exact Plan.gives_done.mp h
        · rw [if_neg ‹_›]; exact h
      · rintro ⟨_, _, ⟨⟩, n, rest, hrs, h⟩
        refine ⟨n, rest, hrs, ?_⟩
        split at h
        · rw [if_pos ‹_›]; exact Plan.gives_done.mpr h
        · rw [if_neg ‹_›]; exact h

theorem isOf_of_candidatePlan {contextLength : Nat} {find : Document → List Breakpoint}
    (h : (candidatePlan contextLength find doc).Gives rs cs) :
    ∀ k ∈ cs, k.excerpt.IsOf doc.text := by
  rw [gives_candidatePlan] at h
  split at h
  · rw [h.2]
    exact fun _ hk => absurd hk List.not_mem_nil
  · obtain ⟨_, _, -, _, _, -, h⟩ := h
    split at h
    · rw [h.2]
      exact List.forall_mem_singleton.mpr (Excerpt.isOf_whole doc.text)
    · exact isOf_of_cutPlan h

end SourceIndex.Chunking
