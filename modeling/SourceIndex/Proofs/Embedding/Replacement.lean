import SourceIndex.Proofs.Embedding.Lifecycle

/-!
# Executors in place of broken ones

When an executor breaks, each passage that it has hears of that in an event of its own, before or after
another executor was started in its place. Executors are numbered by their starts, so no two starts give
the same one. Once there is another one, the pool is past the broken executor for good (`Pool.IsPast`):
later failures of its texts leave the pool alone (`Workload.pool_step_of_breaks`), and no passage is
given to it (`Workload.executor?_of_submits`). So an executor is replaced at most once, and the one in
its place goes only by a failure of its own (`Workload.replacement_run`).
-/

namespace SourceIndex.Embedding

/-- A passage hears that the executor which has it is broken. -/
inductive Breaks (w : Workload) (e : Nat) : Event → Prop
  | intro {b i passage task told} : w.item? b i = some ⟨passage, .running e task⟩ →
      Breaks w e (.settle b i (.broke told))

/-- An executor is started on behalf of a broken one. -/
structure Replaces (f : Factory) (w : Workload) (e : Nat) (event : Event) : Prop where
  breaks : Breaks w e event
  starts : (w.step f event).pool.starts = w.pool.starts + 1
  succeeds : f (w.pool.starts + 1) = .ok ()

/-- A passage is given to an executor. -/
def Submits (f : Factory) (w : Workload) (e : Nat) (event : Event) : Prop :=
  ∃ b i passage task, w.item? b i ≠ some ⟨passage, .running e task⟩ ∧
    (w.step f event).item? b i = some ⟨passage, .running e task⟩

/-- An executor was replaced: the pool has a later one, or none. -/
structure Pool.IsPast (p : Pool) (e : Nat) : Prop where
  started : e ≤ p.starts
  later : ∀ e', p.executor? = some e' → e < e'

/-- What becomes of broken executors, at any time of a workload. -/
structure Workload.Replacement (f : Factory) (w : Workload) : Prop where
  /-- The first passage to hear of the break has the executor replaced, if another one can be
  started. -/
  replaced : ∀ e event, Breaks w e event → w.pool.IsReady e →
    f (w.pool.starts + 1) = .ok () → Replaces f w e event ∧
      (w.step f event).pool.IsReady (w.pool.starts + 1) ∧ e ∈ (w.step f event).pool.shut
  /-- A passage whose executor is not that of the pool leaves the pool alone. -/
  late : ∀ e event, Breaks w e event → ¬w.pool.IsReady e → (w.step f event).pool = w.pool
  /-- The executor of the pool goes by the end of the pool, or by a failure of its own passages. -/
  own : ∀ e event, w.pool.executor? = some e →
    (¬(w.step f event).pool.IsReady e ∨ (w.step f event).pool.shut ≠ w.pool.shut) →
    event = .dispose ∨ Breaks w e event
  once : ∀ e event, Replaces f w e event → ∀ later event',
    ¬Replaces f ((w.step f event).run f later) e event'
  submitted : ∀ e event, Replaces f w e event → ∀ later event',
    ¬Submits f ((w.step f event).run f later) e event'
  disposes : (w.step f .dispose).pool.stage = .disposed ∧ (w.step f .dispose).pool.executor? = none
  disposed : w.pool.stage = .disposed → ∀ later, (w.run f later).pool.starts = w.pool.starts ∧
    ∀ e event, ¬Replaces f (w.run f later) e event

namespace Pool

variable {f : Factory} {p p' : Pool} {e : Nat} {event : Event}

theorem IsPast.of_started (h : p.IsPast e) (hheld : p'.executor? = some (p.starts + 1))
    (hstarts : p'.starts = p.starts + 1) : p'.IsPast e := by
  refine ⟨hstarts ▸ Nat.le_succ_of_le h.started, fun e' he' => ?_⟩
  rw [hheld, Option.some.injEq] at he'
  exact he' ▸ Nat.lt_succ_of_le h.started

theorem IsPast.step (h : p.IsPast e) (hstep : Step f p event p') : p'.IsPast e := by
  cases hstep with
  | keep | setModel => exact ⟨h.started, h.later⟩
  | start | restart => exact h.of_started rfl rfl
  | startFailed | restartFailed => exact ⟨Nat.le_succ_of_le h.started, h.later⟩
  | dispose => exact ⟨h.started, nofun⟩

theorem IsPast.executor?_ne (h : p.IsPast e) : p.executor? ≠ some e := fun he =>
  Nat.lt_irrefl e (h.later e he)

theorem restart_of_ok (h : p.IsReady e) (hok : f (p.starts + 1) = .ok ()) :
    (p.restart f e).2 = { p with
      shut := p.shut ++ [e], starts := p.starts + 1, executor? := some (p.starts + 1) } := by
  rw [restart_of_isReady h, start_of_ok (p := { p with shut := p.shut ++ [e] }) hok]

end Pool

namespace Workload

variable {f : Factory} {w : Workload} {b i e : Nat} {event : Event}

theorem isPast_run (h : w.pool.IsPast e) (later : List Event) : (w.run f later).pool.IsPast e := by
  induction later generalizing w with
  | nil => exact h
  | cons event later ih => exact ih (h.step (pool_step event))

/-- Nothing but a restart comes of a break. -/
theorem pool_step_of_breaks (h : Breaks w e event) :
    (w.step f event).pool = (w.pool.restart f e).2 := by
  obtain ⟨hitem⟩ := h
  rw [step, settle, hitem]
  rfl

theorem isReady_of_replaces (h : Replaces f w e event) : w.pool.IsReady e := by
  by_contra hnot
  have hstarts := h.starts
  rw [pool_step_of_breaks h.breaks, Pool.restart_of_not_isReady hnot] at hstarts
  exact Nat.succ_ne_self _ hstarts.symm

theorem isPast_of_replaces (hsound : w.pool.IsSound f) (h : Replaces f w e event) :
    (w.step f event).pool.IsPast e := by
  have hready := isReady_of_replaces h
  obtain ⟨-, hle, -⟩ := hsound.held e hready.executor?
  rw [pool_step_of_breaks h.breaks, Pool.restart_of_ok hready h.succeeds]
  refine ⟨Nat.le_succ_of_le hle, fun e' he' => ?_⟩
  obtain rfl := Option.some.inj he'
  exact Nat.lt_succ_of_le hle

/-- A passage is given to the executor that the pool has. -/
theorem executor?_of_submits (h : Submits f w e event) : w.pool.executor? = some e := by
  obtain ⟨b, i, passage, task, hne, hitem'⟩ := h
  cases hitem : w.item? b i with
  | none =>
    obtain ⟨-, -, -, hprogress⟩ := exists_item_call hitem hitem'
    split at hprogress <;> cases hprogress
  | some item =>
    obtain ⟨passage', progress⟩ := item
    obtain ⟨progress', hprogress', hstep⟩ := exists_item_step (f := f) hitem event
    rw [hitem', Option.some.injEq, Item.mk.injEq] at hprogress'
    obtain ⟨rfl, rfl⟩ := hprogress'
    cases hstep with
    | keep => exact absurd hitem hne
    | start _ _ he => exact he

theorem pool_step_of_not_breaks {told : String} (he : w.pool.executor? = some e)
    (h : ¬Breaks w e (.settle b i (.broke told))) :
    (w.step f (.settle b i (.broke told))).pool = w.pool := by
  by_cases hrunning : ∃ passage e' task, w.item? b i = some ⟨passage, .running e' task⟩
  · obtain ⟨passage, e', task, hitem⟩ := hrunning
    have hnot : ¬w.pool.IsReady e' := by
      intro hready
      obtain rfl := Option.some.inj (he.symm.trans hready.executor?)
      exact h (.intro hitem)
    rw [pool_step_of_breaks (.intro hitem), Pool.restart_of_not_isReady hnot]
  · rw [step, settle]
    split
    · exact absurd ⟨_, _, _, ‹_›⟩ hrunning
    · rfl

/-- The executor of a pool is shut down or replaced when the pool is disposed of, or when a passage
hears of a break. -/
theorem breaks_of_pool_ne (hready : w.pool.IsReady e)
    (h : ¬(w.step f event).pool.IsReady e ∨ (w.step f event).pool.shut ≠ w.pool.shut) :
    event = .dispose ∨ Breaks w e event := by
  by_contra hnone
  obtain ⟨hdispose, hbreaks⟩ := not_or.mp hnone
  have hpool : (w.step f event).pool = w.pool ∨ ∃ name path, event = .setModel name path ∧
      (w.step f event).pool = w.pool.setModel name path := by
    by_cases hsettle : ∃ b i told, event = .settle b i (.broke told)
    · obtain ⟨b, i, told, rfl⟩ := hsettle
      exact .inl (pool_step_of_not_breaks hready.executor? hbreaks)
    · exact pool_step_of_ready event hready hdispose fun b i told heq => hsettle ⟨b, i, told, heq⟩
  have hkeep : (w.step f event).pool.IsReady e ∧
      (w.step f event).pool.shut = w.pool.shut := by
    rcases hpool with hpool | ⟨name, path, -, hpool⟩ <;> rw [hpool]
    · exact ⟨hready, rfl⟩
    · exact ⟨⟨hready.stage, hready.executor?⟩, rfl⟩
  rcases h with hheld | hshut
  · exact hheld hkeep.1
  · exact hshut hkeep.2

/-- In every course of events, from the start on. -/
theorem replacement_run (f : Factory) (model : ModelRef) (options : Options) (slots : Nat)
    (events : List Event) : (run f ⟨{ model, options, slots }, []⟩ events).Replacement f := by
  have hsound := isSound_run (w := ⟨{ model, options, slots }, []⟩)
    (Pool.isSound_fresh (f := f) model options slots) events
  generalize run f ⟨{ model, options, slots }, []⟩ events = w at hsound ⊢
  constructor
  · intro e event hbreaks hready hok
    have hpool := (pool_step_of_breaks hbreaks).trans (Pool.restart_of_ok hready hok)
    refine ⟨⟨hbreaks, by rw [hpool], hok⟩, by rw [hpool]; exact ⟨hready.stage, rfl⟩, ?_⟩
    rw [hpool]
    exact List.mem_append_right _ (List.mem_singleton.mpr rfl)
  · intro e event hbreaks hnot
    rw [pool_step_of_breaks hbreaks, Pool.restart_of_not_isReady hnot]
  · intro e event he h
    exact breaks_of_pool_ne ⟨hsound.linked.mp (by rw [he]; rfl), he⟩ h
  · intro e event h later event' h'
    have hpast := isPast_run (f := f) (isPast_of_replaces hsound h) later
    exact hpast.executor?_ne (isReady_of_replaces h').executor?
  · intro e event h later event' h'
    have hlater := (isPast_run (f := f) (isPast_of_replaces hsound h) later).later e
    exact Nat.lt_irrefl e (hlater (executor?_of_submits h'))
  · exact ⟨rfl, rfl⟩
  · intro hdisposed later
    obtain ⟨hstage, hstarts⟩ := run_of_disposed (f := f) hdisposed later
    refine ⟨hstarts, fun e event h => ?_⟩
    have hready := (isReady_of_replaces h).stage
    rw [hstage] at hready
    cases hready

/-- Two passages hear of one break, the second when a third is with the executor that was started. -/
def twoBreaks : List Event :=
  [.makeReady, .call (Passage.ofTexts [['a'], ['b'], ['c']]) none, .begin 0 0, .begin 0 1,
    .settle 0 0 (.broke "died"), .begin 0 2, .settle 0 1 (.broke "died")]

theorem replacement_run_twoBreaks :
    (run (fun _ => .ok ()) ⟨{ model := ⟨"m", ""⟩, slots := 3 }, []⟩ twoBreaks).Replacement
        (fun _ => .ok ()) ∧
      (run (fun _ => .ok ()) ⟨{ model := ⟨"m", ""⟩, slots := 3 }, []⟩ twoBreaks).pool =
        { model := ⟨"m", ""⟩, slots := 3, executor? := some 2, stage := .ready, starts := 2
          shut := [1] } :=
  ⟨replacement_run (fun _ => .ok ()) ⟨"m", ""⟩ {} 3 twoBreaks, rfl⟩

end Workload

end SourceIndex.Embedding
