import SourceIndex.Proofs.Embedding.Steps

/-!
# The life of a pool

The stage of a pool goes from idle over ready to disposed and never back (`Stage.Leads`). A pool holds
an executor exactly when it is ready: it is one that it started, and all others that it started are shut
down (`Pool.IsSound`). Once it is disposed of, no executor is started and no passage gets a vector
(`Workload.IsSpent`).
-/

namespace SourceIndex.Embedding

/-- Where an event may lead the stage of a pool. -/
inductive Stage.Leads : Event → Stage → Stage → Prop
  | stay (event stage) : Leads event stage stage
  | makeReady : Leads .makeReady .idle .ready
  | dispose (stage) : Leads .dispose stage .disposed

/-- A pool holds an executor exactly when it is ready. That executor was started, and all others that
were are shut down. -/
structure Pool.IsSound (f : Factory) (p : Pool) : Prop where
  linked : p.executor?.isSome ↔ p.stage = .ready
  held : ∀ e, p.executor? = some e → 0 < e ∧ e ≤ p.starts ∧ f e = .ok ()
  kept : ∀ e, 0 < e → e ≤ p.starts → f e = .ok () → p.executor? = some e ∨ e ∈ p.shut

/-- Nothing more comes of a workload, whatever happens: the pool is not made ready again, holds and
starts no executor, and the results that are still to come carry no vector. -/
structure Workload.IsSpent (f : Factory) (w : Workload) : Prop where
  refuses : ∀ later, ((w.run f later).pool.makeReady f).1 = .error .disposed
  stage : ∀ later, (w.run f later).pool.stage = .disposed
  executor? : ∀ later, (w.run f later).pool.executor? = none
  starts : ∀ later, (w.run f later).pool.starts = w.pool.starts
  vector? : ∀ later b i r, w.result? b i = none → (w.run f later).result? b i = some r →
    r.vector? = none

/-- What holds of a workload at any time. -/
structure Workload.Lifecycle (f : Factory) (w : Workload) : Prop where
  leads : ∀ event, Stage.Leads event w.pool.stage (w.step f event).pool.stage
  sound : w.pool.IsSound f
  /-- Executors in place of others have higher numbers. -/
  rises : ∀ event e e', w.pool.executor? = some e → (w.step f event).pool.executor? = some e' → e ≤ e'
  starts : w.pool.stage = .idle → f (w.pool.starts + 1) = .ok () →
    (w.pool.makeReady f).1 = .ok () ∧ (w.step f .makeReady).pool.IsReady (w.pool.starts + 1)
  /-- A pool that could not be made ready is as idle as before, and can be made ready later. -/
  retry : ∀ cause, (w.pool.makeReady f).1 = .error (.start cause) →
    (w.step f .makeReady).pool.stage = .idle ∧ (w.step f .makeReady).pool.executor? = none ∧
      (f (w.pool.starts + 2) = .ok () → ((w.step f .makeReady).pool.makeReady f).1 = .ok () ∧
        ((w.step f .makeReady).step f .makeReady).pool.IsReady (w.pool.starts + 2))
  disposes : (w.step f .dispose).pool.stage = .disposed ∧ (w.step f .dispose).IsSpent f
  spent : w.pool.stage = .disposed → w.IsSpent f

namespace Pool

variable {f : Factory} {p p' : Pool} {event : Event}

theorem IsSound.executor?_eq_none (h : p.IsSound f) (hstage : p.stage ≠ .ready) :
    p.executor? = none :=
  Option.not_isSome_iff_eq_none.mp fun hsome => hstage (h.linked.mp hsome)

theorem isSound_fresh (model : ModelRef) (options : Options) (slots : Nat) :
    ({ model, options, slots } : Pool).IsSound f :=
  ⟨iff_of_false nofun nofun, nofun, fun _ hpos hle => absurd hle (Nat.not_le_of_gt hpos)⟩

theorem IsSound.of_started (h : p.IsSound f) (hok : f (p.starts + 1) = .ok ())
    (hready : p'.IsReady (p.starts + 1)) (hstarts : p'.starts = p.starts + 1)
    (hshut : ∀ e, p.executor? = some e ∨ e ∈ p.shut → e ∈ p'.shut) : p'.IsSound f := by
  refine ⟨iff_of_true (by rw [hready.executor?]; rfl) hready.stage, ?_, ?_⟩
  · intro e he
    rw [hready.executor?, Option.some.injEq] at he
    subst he
    exact ⟨Nat.succ_pos _, Nat.le_of_eq hstarts.symm, hok⟩
  · intro e hpos hle he
    rw [hstarts] at hle
    rcases Nat.le_succ_iff.mp hle with hle | rfl
    · exact .inr (hshut e (h.kept e hpos hle he))
    · exact .inl hready.executor?

theorem IsSound.of_failed {cause : Fault} (h : p.IsSound f) (hfail : f (p.starts + 1) = .error cause)
    (hstage : p'.stage = p.stage) (hheld : p'.executor? = p.executor?)
    (hstarts : p'.starts = p.starts + 1) (hshut : p.shut ⊆ p'.shut) : p'.IsSound f := by
  refine ⟨by rw [hheld, hstage]; exact h.linked, ?_, ?_⟩
  · intro e he
    obtain ⟨hpos, hle, hok⟩ := h.held e (hheld ▸ he)
    exact ⟨hpos, by omega, hok⟩
  · intro e hpos hle he
    rw [hstarts] at hle
    rcases Nat.le_succ_iff.mp hle with hle | rfl
    · rw [hheld]
      exact (h.kept e hpos hle he).imp_right (@hshut e)
    · rw [hfail] at he
      cases he

theorem IsSound.step (h : p.IsSound f) (hstep : Step f p event p') : p'.IsSound f := by
  cases hstep with
  | keep | setModel => exact ⟨h.linked, h.held, h.kept⟩
  | start hidle hok =>
    refine h.of_started hok ⟨rfl, rfl⟩ rfl fun e he => he.resolve_left ?_
    rw [h.executor?_eq_none (by simp [hidle])]
    exact Option.not_mem_none e
  | startFailed _ hfail => exact h.of_failed hfail rfl rfl rfl (List.Subset.refl _)
  | @restart _ _ _ broken hready hok =>
    refine h.of_started hok ⟨hready.stage, rfl⟩ rfl fun e he => ?_
    rw [hready.executor?, Option.some.injEq] at he
    rcases he with rfl | he
    · exact List.mem_append_right _ (List.mem_singleton.mpr rfl)
    · exact List.mem_append_left _ he
  | restartFailed _ hfail => exact h.of_failed hfail rfl rfl rfl (List.subset_append_left _ _)
  | dispose =>
    refine ⟨iff_of_false nofun nofun, nofun, fun e hpos hle he => .inr ?_⟩
    rcases h.kept e hpos hle he with hheld | hshut
    · exact List.mem_append_right _ (Option.mem_toList.mpr hheld)
    · exact List.mem_append_left _ hshut

theorem Step.leads (hstep : Step f p event p') : Stage.Leads event p.stage p'.stage := by
  cases hstep with
  | keep | setModel | startFailed | restart | restartFailed => exact .stay _ _
  | start hidle => rw [hidle]; exact .makeReady
  | dispose => exact .dispose _

theorem IsSound.le_of_step (h : p.IsSound f) (hstep : Step f p event p') {e e' : Nat}
    (he : p.executor? = some e) (he' : p'.executor? = some e') : e ≤ e' := by
  obtain ⟨-, hle, -⟩ := h.held e he
  cases hstep with
  | keep | setModel | startFailed | restartFailed =>
    exact Nat.le_of_eq (Option.some.inj (he.symm.trans he'))
  | start | restart => cases he'; exact Nat.le_succ_of_le hle
  | dispose => cases he'

theorem Step.of_disposed (hstep : Step f p event p') (h : p.stage = .disposed) :
    p'.stage = .disposed ∧ p'.starts = p.starts := by
  cases hstep with
  | keep | setModel => exact ⟨h, rfl⟩
  | dispose => exact ⟨rfl, rfl⟩
  | start hidle | startFailed hidle => rw [h] at hidle; cases hidle
  | restart hready | restartFailed hready => have hstage := hready.stage; rw [h] at hstage; cases hstage

theorem makeReady_of_ok (hidle : p.stage = .idle) (hok : f (p.starts + 1) = .ok ()) :
    p.makeReady f = (.ok (), { p with
      starts := p.starts + 1, executor? := some (p.starts + 1), stage := .ready }) := by
  rw [makeReady, hidle]
  dsimp only
  rw [start_of_ok hok]

theorem makeReady_of_error {cause : Fault} (hidle : p.stage = .idle)
    (hfail : f (p.starts + 1) = .error cause) :
    p.makeReady f = (.error (.start cause), { p with starts := p.starts + 1 }) := by
  rw [makeReady, hidle]
  dsimp only
  rw [start_of_error hfail, hidle]

theorem exists_of_makeReady_eq_error {cause : Fault}
    (h : (p.makeReady f).1 = .error (.start cause)) :
    p.stage = .idle ∧ f (p.starts + 1) = .error cause := by
  cases hstage : p.stage with
  | ready | disposed => rw [makeReady, hstage] at h; cases h
  | idle =>
    refine ⟨rfl, ?_⟩
    cases hf : f (p.starts + 1) with
    | ok => rw [makeReady_of_ok hstage hf] at h; cases h
    | error cause' => rw [makeReady_of_error hstage hf] at h; cases h; rfl

/-- What an executor does for a pool that is disposed of counts for nothing. -/
theorem Settles.vector?_of_disposed {r : Result} {e : Nat} {passage : Passage} {fate : Fate}
    (hsettles : p.Settles f e passage fate (.ok r)) (h : p.stage = .disposed) : r.vector? = none := by
  cases hsettles with
  | returned hstage => exact absurd h hstage
  | dropped | raised | raisedLate | broke | withdrawn | revokedLate => rfl

end Pool

namespace Workload

variable {f : Factory} {w : Workload} {b i : Nat}

theorem vector?_step {r : Result} {event : Event} (hstage : w.pool.stage = .disposed)
    (h : w.result? b i = none) (h' : (w.step f event).result? b i = some r) : r.vector? = none := by
  rcases result?_step_cases h h' with ⟨_, rfl, -⟩ | hends
  · rfl
  · generalize hr : (Except.ok r : Except Crash Result) = ending at hends
    cases hends with
    | notReady | cancelled | givenUp => cases hr; rfl
    | settled _ _ hsettles => exact (hr ▸ hsettles).vector?_of_disposed hstage

theorem vector?_run {r : Result} (hstage : w.pool.stage = .disposed) (later : List Event)
    (h : w.result? b i = none) (h' : (w.run f later).result? b i = some r) : r.vector? = none := by
  induction later generalizing w with
  | nil => rw [run, List.foldl_nil, h] at h'; cases h'
  | cons event later ih =>
    cases hnow : (w.step f event).result? b i with
    | none => exact ih ((pool_step event).of_disposed hstage).1 hnow h'
    | some r' =>
      obtain ⟨text, hitem⟩ := result?_eq_some_iff.mp hnow
      have hlater := result?_eq_some_iff.mpr ⟨text, item?_run_of_ended (f := f) hitem later⟩
      have hsame : r' = r := Option.some.inj (hlater.symm.trans h')
      exact hsame ▸ vector?_step hstage h hnow

theorem run_of_disposed (h : w.pool.stage = .disposed) (later : List Event) :
    (w.run f later).pool.stage = .disposed ∧ (w.run f later).pool.starts = w.pool.starts := by
  induction later generalizing w with
  | nil => exact ⟨h, rfl⟩
  | cons event later ih =>
    obtain ⟨hstage, hstarts⟩ := (pool_step (f := f) event).of_disposed h
    obtain ⟨hstage', hstarts'⟩ := ih hstage
    exact ⟨hstage', hstarts'.trans hstarts⟩

theorem isSound_run (h : w.pool.IsSound f) (events : List Event) :
    (w.run f events).pool.IsSound f := by
  induction events generalizing w with
  | nil => exact h
  | cons event events ih => exact ih (h.step (pool_step event))

theorem isSpent (hsound : w.pool.IsSound f) (h : w.pool.stage = .disposed) : w.IsSpent f where
  refuses later := by rw [Pool.makeReady, (run_of_disposed h later).1]
  stage later := (run_of_disposed h later).1
  executor? later := by
    refine (isSound_run hsound later).executor?_eq_none ?_
    simp [(run_of_disposed h later).1]
  starts later := (run_of_disposed h later).2
  vector? later _ _ _ hnone hr := vector?_run h later hnone hr

/-- In every course of events, from the start on. -/
theorem lifecycle_run (f : Factory) (model : ModelRef) (options : Options) (slots : Nat)
    (events : List Event) : (run f ⟨{ model, options, slots }, []⟩ events).Lifecycle f := by
  have hsound := isSound_run (w := ⟨{ model, options, slots }, []⟩)
    (Pool.isSound_fresh (f := f) model options slots) events
  generalize run f ⟨{ model, options, slots }, []⟩ events = w at hsound ⊢
  constructor
  · exact fun event => (pool_step event).leads
  · exact hsound
  · exact fun event e e' he he' => hsound.le_of_step (pool_step event) he he'
  · intro hidle hok
    rw [step, Pool.makeReady_of_ok hidle hok]
    exact ⟨rfl, rfl, rfl⟩
  · intro cause h
    obtain ⟨hidle, hfail⟩ := Pool.exists_of_makeReady_eq_error h
    rw [step, Pool.makeReady_of_error hidle hfail]
    refine ⟨hidle, hsound.executor?_eq_none (by simp [hidle]), fun hok => ?_⟩
    have hnext := Pool.makeReady_of_ok (f := f) (p := { w.pool with starts := w.pool.starts + 1 })
      hidle hok
    rw [step, hnext]
    exact ⟨rfl, rfl, rfl⟩
  · exact ⟨rfl, isSpent (hsound.step (pool_step .dispose)) rfl⟩
  · exact isSpent hsound

/-- The first start fails and the second one succeeds. One of two passages has its vector before the
pool is disposed of; the other one is carried out when the pool is gone, and has none. -/
theorem lifecycle_run_disposed :
    let f : Factory := fun k => if k = 1 then .error ⟨"OSError", "no start"⟩ else .ok ()
    let w := run f ⟨{ model := ⟨"m", ""⟩, slots := 2 }, []⟩ [.makeReady, .makeReady,
      .call (Passage.ofTexts [['a'], ['b']]) none, .begin 0 0, .begin 0 1,
      .settle 0 0 (.returned (.ok [Binary.binary32.ofInt 1])), .dispose]
    (w.Lifecycle f ∧ w.pool.stage = .disposed ∧ w.pool.executor? = none ∧ w.pool.shut = [2]) ∧
      ((w.result? 0 0).bind Result.vector? = some [Binary.binary32.ofInt 1] ∧ w.result? 0 1 = none) ∧
      (w.step f (.settle 0 1 (.returned (.ok [Binary.binary32.ofInt 1])))).result? 0 1 =
        some ⟨{ file := [], path := [], index := 1, text := ['b'] }, none,
          some "Service not initialized", false⟩ :=
  ⟨⟨lifecycle_run _ ⟨"m", ""⟩ {} 2 [.makeReady, .makeReady, .call (Passage.ofTexts [['a'], ['b']]) none,
    .begin 0 0, .begin 0 1, .settle 0 0 (.returned (.ok [Binary.binary32.ofInt 1])), .dispose],
    rfl, rfl, rfl⟩, ⟨rfl, rfl⟩, rfl⟩

end Workload

end SourceIndex.Embedding
