import Mathlib.Data.List.Forall2
import SourceIndex.Embedding.Service
import SourceIndex.Proofs.Embedding.Lifecycle
import SourceIndex.Proofs.Embedding.Pairing

/-!
# A service runs its workload

Turns, lanes and the line for slots settle which event comes next, and nothing else: whatever a service
does, its workload goes on by events (`Service.GoesOn`). So what holds of all runs of a workload holds
of a service: no executor that it started is lost (`Service.isSound_generate`).
-/

namespace SourceIndex.Embedding.Service

/-- A service comes to another one by events of its workload. -/
def GoesOn (s s' : Service) : Prop :=
  s'.site = s.site ∧ ∃ events, s'.workload = s.workload.run s.factory events

variable {s s' s'' : Service} {b : Nat}

theorem GoesOn.of_eq (hsite : s'.site = s.site) (hworkload : s'.workload = s.workload) :
    s.GoesOn s' :=
  ⟨hsite, [], hworkload⟩

theorem GoesOn.factory_eq (h : s.GoesOn s') : s'.factory = s.factory := by
  unfold factory
  rw [h.1]

theorem GoesOn.trans (h : s.GoesOn s') (h' : s'.GoesOn s'') : s.GoesOn s'' := by
  obtain ⟨before, hbefore⟩ := h.2
  obtain ⟨after, hafter⟩ := h'.2
  refine ⟨h'.1.trans h.1, before ++ after, ?_⟩
  rw [hafter, hbefore, Workload.run_append, h.factory_eq]

theorem GoesOn.isSound (h : s.GoesOn s') (hsound : s.pool.IsSound s.factory) :
    s'.pool.IsSound s'.factory := by
  obtain ⟨events, hevents⟩ := h.2
  rw [h.factory_eq, pool, hevents]
  exact Workload.isSound_run hsound events

theorem goesOn_happen (e : Event) (s : Service) : s.GoesOn (s.happen e) :=
  ⟨rfl, [e], rfl⟩

theorem goesOn_push (turns : List Turn) (s : Service) : s.GoesOn (s.push turns) :=
  .of_eq rfl rfl

theorem goesOn_setLane (b : Nat) (lane : Lane) (s : Service) : s.GoesOn (s.setLane b lane) :=
  .of_eq rfl rfl

theorem goesOn_leave (t : Ticket) (s : Service) : s.GoesOn (s.leave t) := by
  rw [leave]
  split <;> exact (goesOn_setLane _ _ s).trans (goesOn_push _ _)

theorem goesOn_intervene (b : Nat) (s : Service) : s.GoesOn (s.intervene b) := by
  have hraise : s.GoesOn (if s.interventions.raiseAt = some s.submissions
      then s.happen (.raise b) else s) := by
    split
    · exact goesOn_happen _ s
    · exact .of_eq rfl rfl
  refine hraise.trans ?_
  rw [intervene]
  generalize (if s.interventions.raiseAt = some s.submissions then s.happen (.raise b) else s) = s
  split
  · exact goesOn_happen _ s
  · exact .of_eq rfl rfl

theorem goesOn_settle (t : Ticket) (fate : Fate) (s : Service) : s.GoesOn (s.settle t fate) :=
  (goesOn_happen _ s).trans (goesOn_leave t _)

theorem goesOn_submit (t : Ticket) (executor : Nat) (task : Task) (s : Service) :
    s.GoesOn (s.submit t executor task) := by
  have hcounted : s.GoesOn { s with submissions := s.submissions + 1 } := .of_eq rfl rfl
  refine hcounted.trans ?_
  rw [submit]
  generalize { s with submissions := s.submissions + 1 } = s
  split
  · have hheld : s.GoesOn { s with held := s.held ++ [t] } := .of_eq rfl rfl
    exact hheld.trans (goesOn_intervene _ _)
  · exact (goesOn_intervene _ s).trans (goesOn_settle t _ _)
  · exact (goesOn_intervene _ s).trans (goesOn_push _ _)
  · refine (goesOn_intervene t.batch s).trans ?_
    exact .of_eq rfl rfl

theorem goesOn_begin (t : Ticket) (s : Service) : s.GoesOn (s.begin t) := by
  refine (goesOn_happen (.begin t.batch t.item) s).trans ?_
  rw [begin]
  generalize s.happen (.begin t.batch t.item) = s
  split
  · exact goesOn_submit t _ _ s
  · exact goesOn_leave t s

theorem goesOn_enter (t : Ticket) (s : Service) : s.GoesOn (s.enter t) := by
  rw [enter]
  split
  · exact goesOn_setLane _ _ s
  · exact (goesOn_setLane _ _ s).trans (goesOn_begin t _)

theorem goesOn_count (t : Ticket) (s : Service) : s.GoesOn (s.count t) := by
  have hcounted (isOver : Bool) (lane lane' : Lane) :
      s.GoesOn (if isOver then (s.setLane t.batch lane).push [.finish t.batch]
        else s.setLane t.batch lane') := by
    split
    · exact (goesOn_setLane _ _ s).trans (goesOn_push _ _)
    · exact goesOn_setLane _ _ s
  unfold count
  split
  · exact .of_eq rfl rfl
  · exact hcounted _ _ _

theorem goesOn_take (turn : Turn) (s : Service) : s.GoesOn (s.take turn) := by
  cases turn with
  | enter t => exact goesOn_enter t s
  | proceed t => exact goesOn_begin t s
  | hear delay t fate =>
    cases delay with
    | zero => exact goesOn_settle t fate s
    | succ n => exact goesOn_push _ s
  | count t => exact goesOn_count t s
  | finish => exact .of_eq rfl rfl

theorem goesOn_wait? (h : s.wait? b = some s') : s.GoesOn s' := by
  have hlooks (ts : List Ticket) : ∀ s : Service,
      s.GoesOn (ts.foldl (fun s t => (s.happen (.look t.batch t.item)).leave t) s) := by
    induction ts with
    | nil => exact fun s => .of_eq rfl rfl
    | cons t ts ih =>
      intro s
      exact ((goesOn_happen _ s).trans (goesOn_leave t _)).trans (ih _)
  rw [wait?] at h
  dsimp only at h
  split at h
  · cases h
  · cases h
    have hheld : s.GoesOn { s with held := (s.held.partition (·.batch == b)).2 } := .of_eq rfl rfl
    exact (hheld.trans (goesOn_happen (.raise b) _)).trans (hlooks _ _)

theorem goesOn_drain (b fuel : Nat) (s : Service) : s.GoesOn (s.drain b fuel) := by
  induction fuel generalizing s with
  | zero => exact .of_eq rfl rfl
  | succ fuel ih =>
    rw [drain]
    split
    · rename_i turn queue _
      have hqueue : s.GoesOn { s with queue } := .of_eq rfl rfl
      dsimp only
      split
      · split
        · exact hqueue
        · exact hqueue.trans (ih _)
      · exact (hqueue.trans (goesOn_take turn _)).trans (ih _)
    · split
      · exact (goesOn_wait? ‹_›).trans (ih _)
      · exact .of_eq rfl rfl

/-- A batch is answered for once the workload has gone on from taking it in. -/
theorem exists_generate (passages : List Passage) (signal : Option Signal)
    (interventions : Interventions) (s : Service) : ∃ s', (s.happen (.call passages signal)).GoesOn s' ∧
      s.generate passages signal interventions = (s'.answer s.workload.batches.length, s') := by
  have hlane (lane : Lane) : (s.happen (.call passages signal)).GoesOn
      { s.happen (.call passages signal) with
        lanes := (s.happen (.call passages signal)).lanes ++ [lane]
        submissions := 0
        interventions } :=
    .of_eq rfl rfl
  unfold generate
  dsimp only
  split
  · exact ⟨_, hlane _, rfl⟩
  · exact ⟨_, ((hlane _).trans (goesOn_push _ _)).trans (goesOn_drain _ _ _), rfl⟩

/-- Giving a batch to the pool is a run of the workload. -/
theorem goesOn_generate (passages : List Passage) (signal : Option Signal)
    (interventions : Interventions) (s : Service) :
    s.GoesOn (s.generate passages signal interventions).2 := by
  obtain ⟨s', hgoes, hgenerate⟩ := exists_generate passages signal interventions s
  rw [hgenerate]
  exact (goesOn_happen (.call passages signal) s).trans hgoes

theorem GoesOn.exists_batch (h : s.GoesOn s') {batch : Batch}
    (hbatch : s.workload.batch? b = some batch) : ∃ batch', s'.workload.batch? b = some batch' ∧
      batch'.items.map Item.passage = batch.items.map Item.passage := by
  obtain ⟨-, events, hevents⟩ := h
  rw [hevents]
  generalize s.workload = w at hbatch
  clear hevents
  induction events generalizing w batch with
  | nil => exact ⟨batch, hbatch, rfl⟩
  | cons event events ih =>
    obtain ⟨batch', hbatch', hstep⟩ := Workload.exists_step (f := s.factory) hbatch event
    obtain ⟨batch'', hbatch'', htexts⟩ := ih (w.step s.factory event) hbatch'
    exact ⟨batch'', hbatch'', htexts.trans hstep.passages_eq⟩

theorem GoesOn.isPaired (h : s.GoesOn s') {batch : Batch}
    (hbatch : s.workload.batch? b = some batch) (hpaired : s.workload.IsPaired b) :
    s'.workload.IsPaired b := by
  obtain ⟨-, events, hevents⟩ := h
  rw [hevents]
  exact hpaired.run hbatch events

/-- The answer to a batch has a result for each passage, which is that of this passage. -/
theorem forall₂_of_generate {passages : List Passage} {signal : Option Signal}
    {interventions : Interventions} {rs : List Result}
    (h : (s.generate passages signal interventions).1 = .ok rs) :
    List.Forall₂ Result.IsOf rs passages := by
  obtain ⟨s', hgoes, hgenerate⟩ := exists_generate passages signal interventions s
  have hcall := s.workload.batch?_call passages signal
  obtain ⟨batch, hbatch, hpassages⟩ := hgoes.exists_batch hcall
  have hpaired := hgoes.isPaired hcall (Workload.isPaired_call passages signal)
  obtain rfl : batch.items.map Item.passage = passages := by
    rw [hpassages, List.map_map]
    exact List.map_id passages
  have hresults : rs = batch.items.map fun item => item.result?.getD (.notReady item.passage) := by
    rw [hgenerate, answer, hbatch] at h
    dsimp only at h
    cases hanswer : batch.answer? with
    | none => rw [hanswer] at h; exact (Except.ok.inj h).symm
    | some answer => rw [hanswer] at h; exact Batch.eq_map_of_answer (hanswer.trans (congrArg some h))
  rw [hresults, List.forall₂_map_left_iff, List.forall₂_map_right_iff, List.forall₂_same]
  intro item hitem
  obtain ⟨i, hget⟩ := List.mem_iff_getElem?.mp hitem
  cases hr : item.result? with
  | none => exact Result.isOf_notReady item.passage
  | some r =>
    obtain ⟨passage, progress⟩ := item
    obtain rfl := Item.result?_eq_some_iff.mp hr
    exact hpaired i passage r (Workload.item?_eq_some_iff.mpr ⟨batch, hbatch, hget⟩)

/-- Whatever the executors do with a batch, none that was started is lost: the pool holds it, or it is
shut down. -/
theorem isSound_generate (passages : List Passage) (signal : Option Signal)
    (interventions : Interventions) (h : s.pool.IsSound s.factory) :
    (s.generate passages signal interventions).2.pool.IsSound s.factory := by
  have hgoes := goesOn_generate passages signal interventions s
  have hsound := hgoes.isSound h
  rwa [hgoes.factory_eq] at hsound

end SourceIndex.Embedding.Service
