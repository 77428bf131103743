import SourceIndex.Proofs.Embedding.Answers
import SourceIndex.Proofs.Embedding.Lifecycle

/-!
# Batches that are cancelled

A passage of a batch is given to an executor when it begins, unless the signal is raised by then, and a
signal that is raised stays raised (`Workload.IsRaised`). So the passages that no executor ever gets are
cancelled, and the others end by what their own tasks come to, or are given up (`Concludes`). This holds
as long as the pool keeps its executor: it has one that it did not shut down (`Pool.IsIntact`), is not
disposed of, and no executor breaks (`IsCalm`). What ends one passage leaves all others as they are, so
each has a result that is due to it alone (`Workload.cancellation_of_calm`).
-/

namespace SourceIndex.Embedding

/-- A look at the signal of a batch would find it raised. -/
def Workload.IsRaised (w : Workload) (b : Nat) : Prop :=
  ∃ batch, w.batch? b = some batch ∧ batch.look.1 = true

/-- A passage of a batch is given to an executor. -/
def SubmitsItem (f : Factory) (w : Workload) (b i : Nat) (event : Event) : Prop :=
  ∃ passage e task, w.item? b i = some ⟨passage, .waiting⟩ ∧
    (w.step f event).item? b i = some ⟨passage, .running e task⟩

/-- The pool itself ends a passage with the message that the operation was cancelled: the signal is
found raised when the passage begins or while an executor has it, or the executor reports it
cancelled. -/
structure GivesUp (f : Factory) (w : Workload) (b i : Nat) (event : Event) : Prop where
  before : w.result? b i = none
  after : ∃ r, (w.step f event).result? b i = some r ∧ r.isCancelled = true ∧
    r.message? = some "Operation cancelled" ∧ r.vector? = none
  cause : (event = .begin b i ∨ event = .look b i) ∧ w.IsRaised b ∨ event = .settle b i .withdrawn

/-- A pool has an executor to give tasks to, and not one that it shut down because it broke. -/
def Pool.IsIntact (p : Pool) : Prop :=
  ∃ e, p.IsReady e ∧ e ∉ p.shut

/-- A schedule neither disposes of the pool nor breaks an executor. -/
structure IsCalm (schedule : Nat → Event) : Prop where
  keeps : ∀ n, schedule n ≠ .dispose
  holds : ∀ n b i told, schedule n ≠ .settle b i (.broke told)

/-- The passage that an event happens to. -/
def Event.ticket? : Event → Option Ticket
  | .begin b i | .look b i | .settle b i _ => some ⟨b, i⟩
  | _ => none

/-- How a passage ends in a workload whose pool keeps its executor. -/
inductive Concludes (w : Workload) (b i : Nat) : Event → Result → Prop
  | skipped {passage} : w.item? b i = some ⟨passage, .waiting⟩ → w.IsRaised b →
      Concludes w b i (.begin b i) (.cancelled passage)
  | givenUp {passage e task} : w.item? b i = some ⟨passage, .running e task⟩ → w.IsRaised b →
      Concludes w b i (.look b i) (.cancelled passage)
  | withdrawn {passage e task} : w.item? b i = some ⟨passage, .running e task⟩ →
      Concludes w b i (.settle b i .withdrawn) (.cancelled passage)
  | returned {passage e task outcome r} : w.item? b i = some ⟨passage, .running e task⟩ →
      r.Tells passage outcome → Concludes w b i (.settle b i (.returned outcome)) r
  | raised {passage e task cause} : w.item? b i = some ⟨passage, .running e task⟩ →
      Concludes w b i (.settle b i (.raised cause)) (.failed passage cause.message)

/-- What comes of a batch whose signal may be raised at any time. -/
structure Workload.Cancellation (f : Factory) (w : Workload) (schedule : Nat → Event) (b : Nat)
    (passages : List Passage) : Prop where
  /-- A passage is given to an executor when it begins, as a task of its own, and only if the signal is
  not raised then. -/
  gate : ∀ n i, SubmitsItem f (w.follow f schedule n) b i (schedule n) →
    schedule n = .begin b i ∧ ¬(w.follow f schedule n).IsRaised b ∧
      ∃ passage e, passages[i]? = some passage ∧ (w.follow f schedule (n + 1)).item? b i =
        some ⟨passage, .running e ((w.follow f schedule n).pool.task passage)⟩
  closed : ∀ n m i, n ≤ m → (w.follow f schedule n).IsRaised b →
    ¬SubmitsItem f (w.follow f schedule m) b i (schedule m)
  own : ∀ n i r, (w.follow f schedule n).result? b i = some r →
    ∃ passage, passages[i]? = some passage ∧ r.IsOf passage
  skipped : ∀ n i r, (w.follow f schedule n).result? b i = some r →
    (∀ m, ¬SubmitsItem f (w.follow f schedule m) b i (schedule m)) → r.isCancelled = true
  /-- A passage that an executor got is cancelled, or has what its own task came to: the vector or the
  message of what was carried out, or what is told of a fault. -/
  submitted : ∀ n i r m, (w.follow f schedule n).result? b i = some r →
    SubmitsItem f (w.follow f schedule m) b i (schedule m) →
    r.isCancelled = true ∨ r.isCancelled = false ∧ ∃ k, m < k ∧ k < n ∧
      ((∃ outcome, schedule k = .settle b i (.returned outcome) ∧
        (∀ v, r.vector? = some v ↔ outcome = .ok v) ∧
          ∀ message, r.message? = some message ↔ outcome = .error message) ∨
        ∃ cause, schedule k = .settle b i (.raised cause) ∧ r.vector? = none ∧
          r.message? = some cause.message)
  cancelled : ∀ n i r, (w.follow f schedule n).result? b i = some r →
    (r.isCancelled = true ↔
      ∃ m, m < n ∧ GivesUp f (w.follow f schedule m) b i (schedule m)) ∧
    (r.isCancelled = true → r.message? = some "Operation cancelled" ∧ r.vector? = none)
  /-- A passage stays as it is unless something happens to it, whichever passages are cancelled
  meanwhile. -/
  apart : ∀ n (t : Ticket) item, (w.follow f schedule n).item? t.batch t.item = some item →
    (schedule n).ticket? ≠ some t →
    (w.follow f schedule (n + 1)).item? t.batch t.item = some item
  /-- A result stays, and the answer to the batch has a result for each passage. -/
  stays : ∀ n m i r, n ≤ m → (w.follow f schedule n).result? b i = some r →
    (w.follow f schedule m).result? b i = some r
  answer : ∀ n a, (w.follow f schedule n).answer? b = some a → ∃ rs, a = .ok rs ∧
    rs.length = passages.length ∧
      ∀ i r, rs[i]? = some r → (w.follow f schedule n).result? b i = some r
  returns : 0 < w.pool.slots → w.Fair f schedule b →
    ∃ a n, ∀ m, n ≤ m → (w.follow f schedule m).answer? b = some a

/-- A batch all of whose passages are still to begin, in a workload whose pool has an executor. -/
structure Workload.IsOpen (w : Workload) (b e : Nat) : Prop where
  ready : w.pool.IsReady e
  intact : e ∉ w.pool.shut
  batch : ∃ batch, w.batch? b = some batch
  waiting : ∀ i passage progress, w.item? b i = some ⟨passage, progress⟩ → progress = .waiting

/-- The executors of a pool are among those it started, and it holds none that it shut down. -/
structure Pool.Spares (p : Pool) : Prop where
  shut : ∀ e ∈ p.shut, e ≤ p.starts
  held : ∀ e, p.executor? = some e → e ≤ p.starts ∧ e ∉ p.shut

/-! ## Signals that stay raised -/

/-- Whatever an event makes of a signal, one that is raised stays so. -/
theorem Batch.Watches.look_of_raised {b : Nat} {event : Event} {batch : Batch}
    {signal : Option Signal} (h : batch.Watches b event signal) (hraised : batch.look.1 = true) :
    (Signal.look? signal).1 = true := by
  change (Signal.look? batch.signal).1 = true at hraised
  cases hsignal : batch.signal with
  | none => rw [hsignal] at hraised; nomatch hraised
  | some s =>
    rw [hsignal] at hraised
    cases h with
    | keep => rw [hsignal]; exact hraised
    | look =>
      have hlook : batch.look.2.signal = some s.look.2 := by rw [Batch.look, hsignal]; rfl
      rw [hlook, Signal.look?, Signal.look_eq_of_raised (Signal.raised_look hraised)]
    | raise =>
      have hraise : batch.raise.signal = some s.raise := by rw [Batch.raise, hsignal]; rfl
      rw [hraise, Signal.look?, Signal.look_eq_of_raised s.raised_raise]

/-- A pool gives up its executor when it shuts it down, if another one starts. -/
theorem Pool.Spares.step {f : Factory} {p p' : Pool} {event : Event} (hok : ∀ e, f e = .ok ())
    (h : p.Spares) (hstep : Step f p event p') : p'.Spares := by
  cases hstep with
  | keep | setModel => exact ⟨h.shut, h.held⟩
  | start =>
    refine ⟨fun e he => Nat.le_succ_of_le (h.shut e he), fun e hready => ?_⟩
    cases hready
    exact ⟨Nat.le_refl _, fun hshut => Nat.not_succ_le_self _ (h.shut _ hshut)⟩
  | @restart _ _ _ broken hbroken =>
    have hle : ∀ e ∈ p.shut ++ [broken], e ≤ p.starts := by
      intro e he
      rcases List.mem_append.mp he with he | he
      · exact h.shut e he
      · exact List.mem_singleton.mp he ▸ (h.held broken hbroken.executor?).1
    refine ⟨fun e he => Nat.le_succ_of_le (hle e he), fun e hready => ?_⟩
    cases hready
    exact ⟨Nat.le_refl _, fun hshut => Nat.not_succ_le_self _ (hle _ hshut)⟩
  | startFailed _ hfail | restartFailed _ hfail => rw [hok] at hfail; nomatch hfail
  | dispose =>
    refine ⟨fun e he => ?_, nofun⟩
    rcases List.mem_append.mp he with he | he
    · exact h.shut e he
    · exact (h.held e (Option.mem_toList.mp he)).1

namespace Workload

variable {f : Factory} {w : Workload} {b i e : Nat} {event : Event} {r : Result}

theorem IsRaised.step (h : w.IsRaised b) (event : Event) : (w.step f event).IsRaised b := by
  obtain ⟨batch, hbatch, hraised⟩ := h
  obtain ⟨batch', hbatch', hstep⟩ := exists_step (f := f) hbatch event
  exact ⟨batch', hbatch', hstep.watches.look_of_raised hraised⟩

theorem IsRaised.follow {schedule : Nat → Event} {n m : Nat} (hle : n ≤ m)
    (h : (w.follow f schedule n).IsRaised b) : (w.follow f schedule m).IsRaised b := by
  induction hle with
  | refl => exact h
  | step _ ih => exact ih.step _

/-! ## Submissions -/

theorem item?_begin_of_isRaised {passage : Passage} {task : Task} (h : w.IsRaised b)
    (hitem : w.item? b i = some ⟨passage, .waiting⟩) :
    (w.begin b i).item? b i ≠ some ⟨passage, .running e task⟩ := by
  obtain ⟨batch, hbatch, hraised⟩ := h
  have hitem' : batch.item? i = some ⟨passage, .waiting⟩ := by
    rwa [item?, hbatch] at hitem
  have hconclude (r : Result) :
      (batch.conclude i (.ok r)).item? i = some ⟨passage, .ended (.ok r)⟩ := by
    rw [Batch.item?_conclude, if_pos rfl, hitem']
    rfl
  have hended {g : Batch → Batch} {r : Result}
      (hg : (g batch).item? i = some ⟨passage, .ended (.ok r)⟩) :
      (w.modify b g).item? b i ≠ some ⟨passage, .running e task⟩ := by
    rw [item?, batch?_modify, if_pos rfl, hbatch, Option.map_some, Option.bind_some, hg]
    intro hrunning
    cases hrunning
  rw [begin, hbatch]
  dsimp only
  rw [hitem']
  dsimp only
  split
  · rw [hitem]
    intro hrunning
    cases hrunning
  · split
    · exact hended (hconclude (.notReady passage))
    · exact hended (hconclude (.cancelled passage))

/-- A passage is given to an executor when it begins, if the signal is not raised then. -/
theorem begins_of_submitsItem (h : SubmitsItem f w b i event) :
    event = .begin b i ∧ ¬w.IsRaised b ∧ ∃ passage e,
      (w.step f event).item? b i = some ⟨passage, .running e (w.pool.task passage)⟩ := by
  obtain ⟨passage, e, task, hitem, hitem'⟩ := h
  obtain ⟨progress', hprogress', hstep⟩ := exists_item_step (f := f) hitem event
  rw [hitem', Option.some.injEq, Item.mk.injEq] at hprogress'
  obtain ⟨-, rfl⟩ := hprogress'
  cases hstep with
  | start hevent =>
    subst hevent
    exact ⟨rfl, fun hraised => item?_begin_of_isRaised hraised hitem hitem', _, _, hitem'⟩

/-! ## What an event makes of a passage -/

/-- A passage stays as it is unless something happens to it. -/
theorem item?_step_of_ticket?_ne {item : Item} (hitem : w.item? b i = some item)
    (h : event.ticket? ≠ some ⟨b, i⟩) : (w.step f event).item? b i = some item := by
  obtain ⟨passage, progress⟩ := item
  obtain ⟨progress', hitem', hstep⟩ := exists_item_step (f := f) hitem event
  cases hstep with
  | keep => exact hitem'
  | start hevent =>
    subst hevent
    exact absurd rfl h
  | finish hends => cases hends <;> exact absurd rfl h

/-- A passage that ends while the pool keeps its executor. -/
theorem concludes_of_result? (hready : w.pool.IsReady e) (hshut : e ∉ w.pool.shut)
    (hbroke : ∀ told, event ≠ .settle b i (.broke told))
    (hrunning : ∀ passage e' task, w.item? b i = some ⟨passage, .running e' task⟩ → e' = e)
    (h : w.result? b i = none) (h' : (w.step f event).result? b i = some r) :
    Concludes w b i event r := by
  have he := hready.executor?
  have hdisposed : w.pool.stage ≠ .disposed := by rw [hready.stage]; nofun
  obtain ⟨_, -, hnone⟩ | hends := result?_step_cases h h'
  · rw [hready.isReady] at hnone
    nomatch hnone
  generalize hending : (Except.ok r : Except Crash Result) = ending at hends
  cases hends with
  | notReady _ hnone => nomatch hnone.symm.trans he
  | cancelled hbatch hitem hraised =>
    cases hending
    exact .skipped (item?_eq_some_iff.mpr ⟨_, hbatch, hitem⟩) ⟨_, hbatch, hraised⟩
  | givenUp hbatch hitem hraised =>
    cases hending
    exact .givenUp (item?_eq_some_iff.mpr ⟨_, hbatch, hitem⟩) ⟨_, hbatch, hraised⟩
  | settled hitem hallows hsettles =>
    obtain rfl := hrunning _ _ _ hitem
    cases hsettles with
    | returned _ htells => cases hending; exact .returned hitem htells
    | raised => cases hending; exact .raised hitem
    | withdrawn => cases hending; exact .withdrawn hitem
    | dropped hstage => exact absurd hstage hdisposed
    | raisedLate hnone | revokedLate hnone => nomatch hnone.symm.trans he
    | broke => exact absurd rfl (hbroke _)
    | brokeForGood | revoked => cases hending

/-! ## The course of a batch -/

section Course

variable {schedule : Nat → Event} {n m : Nat}

/-- The pool keeps its executor. -/
theorem pool_follow_of_isCalm (hcalm : IsCalm schedule) (hready : w.pool.IsReady e) (n : Nat) :
    (w.follow f schedule n).pool.IsReady e ∧
      (w.follow f schedule n).pool.shut = w.pool.shut := by
  induction n with
  | zero => exact ⟨hready, rfl⟩
  | succ n ih =>
    rw [follow]
    obtain heq | ⟨name, path, -, heq⟩ :=
      pool_step_of_ready (f := f) (schedule n) ih.1 (hcalm.keeps n) (hcalm.holds n) <;> rw [heq]
    · exact ih
    · exact ⟨⟨ih.1.stage, ih.1.executor?⟩, ih.2⟩

theorem result?_follow (hle : n ≤ m) (h : (w.follow f schedule n).result? b i = some r) :
    (w.follow f schedule m).result? b i = some r := by
  obtain ⟨passage, hitem⟩ := result?_eq_some_iff.mp h
  refine result?_eq_some_iff.mpr ⟨passage, ?_⟩
  induction hle with
  | refl => exact hitem
  | step _ ih => exact item?_step_of_ended ih _

/-- A batch without results is one whose results are paired. -/
theorem IsOpen.isPaired (h : w.IsOpen b e) : w.IsPaired b :=
  fun i passage _ hitem => nomatch h.waiting i passage _ hitem

theorem isOpen_call (passages : List Passage) (signal : Option Signal) (hready : w.pool.IsReady e)
    (hshut : e ∉ w.pool.shut) : (w.call passages signal).IsOpen w.batches.length e := by
  refine ⟨hready, hshut, ⟨_, batch?_call passages signal⟩, fun i passage progress hitem => ?_⟩
  rw [(of_item?_call hitem).2, if_pos hready.isReady]

/-- A passage waits until it is given to an executor, and is with that executor from then on. -/
theorem IsOpen.submitted_of_item? (h : w.IsOpen b e) (hcalm : IsCalm schedule) {passage : Passage}
    {progress : Progress} (hitem : (w.follow f schedule n).item? b i = some ⟨passage, progress⟩) :
    (progress = .waiting → ∀ m < n, ¬SubmitsItem f (w.follow f schedule m) b i (schedule m)) ∧
      ∀ e' task, progress = .running e' task →
        e' = e ∧ ∃ m < n, SubmitsItem f (w.follow f schedule m) b i (schedule m) := by
  induction n generalizing progress with
  | zero =>
    obtain rfl := h.waiting i passage progress hitem
    exact ⟨fun _ m hm => absurd hm (Nat.not_lt_zero m), nofun⟩
  | succ n ih =>
    obtain ⟨batch', hbatch', hitem'⟩ := item?_eq_some_iff.mp hitem
    obtain ⟨_, hbatch⟩ := h.batch
    obtain ⟨prior, hprior⟩ := exists_batch_follow f schedule hbatch n
    obtain ⟨_, hnext, hstep⟩ := exists_step (f := f) hprior (schedule n)
    obtain rfl := Option.some.inj (hbatch'.symm.trans hnext)
    obtain ⟨before, hbefore, hprogress⟩ := hstep.exists_prior hitem'
    have hbefore' := item?_eq_some_iff.mpr ⟨prior, hprior, hbefore⟩
    obtain ⟨hnever, hsubmitted⟩ := ih hbefore'
    cases hprogress with
    | keep =>
      refine ⟨fun hwait m hm => ?_, fun e' task hrun => ?_⟩
      · rcases Nat.lt_succ_iff_lt_or_eq.mp hm with hm | rfl
        · exact hnever hwait m hm
        · rintro ⟨_, _, _, -, hrunning⟩
          rw [← follow, hitem, hwait] at hrunning
          nomatch hrunning
      · obtain ⟨he, m, hm, hsubmits⟩ := hsubmitted e' task hrun
        exact ⟨he, m, Nat.lt_succ_of_lt hm, hsubmits⟩
    | start _ hwait he =>
      refine ⟨nofun, fun e' task hrun => ?_⟩
      rw [(pool_follow_of_isCalm hcalm h.ready n).1.executor?] at he
      cases he
      cases hrun
      exact ⟨rfl, n, Nat.lt_succ_self n, passage, _, _, hwait ▸ hbefore', hitem⟩
    | finish => exact ⟨nofun, nofun⟩

/-- A result that is there at some time came about before, by one event. -/
theorem exists_result?_step (hnone : w.result? b i = none)
    (h : (w.follow f schedule n).result? b i = some r) :
    ∃ m < n, (w.follow f schedule m).result? b i = none ∧
      (w.follow f schedule (m + 1)).result? b i = some r := by
  induction n with
  | zero => nomatch hnone.symm.trans h
  | succ n ih =>
    cases hnow : (w.follow f schedule n).result? b i with
    | none => exact ⟨n, Nat.lt_succ_self n, hnow, h⟩
    | some r' =>
      obtain rfl := Option.some.inj ((result?_follow (Nat.le_succ n) hnow).symm.trans h)
      obtain ⟨m, hm, hbefore, hafter⟩ := ih hnow
      exact ⟨m, Nat.lt_succ_of_lt hm, hbefore, hafter⟩

/-- A passage has its result by one event, from which the result stays. -/
theorem IsOpen.exists_concludes (h : w.IsOpen b e) (hcalm : IsCalm schedule)
    (hr : (w.follow f schedule n).result? b i = some r) :
    ∃ m < n, (w.follow f schedule m).result? b i = none ∧
      (w.follow f schedule (m + 1)).result? b i = some r ∧
      Concludes (w.follow f schedule m) b i (schedule m) r := by
  have hnone : w.result? b i = none := by
    by_contra hsome
    obtain ⟨r', hr'⟩ := Option.ne_none_iff_exists'.mp hsome
    obtain ⟨passage, hitem⟩ := result?_eq_some_iff.mp hr'
    nomatch h.waiting i passage _ hitem
  obtain ⟨m, hm, hbefore, hafter⟩ := exists_result?_step hnone hr
  obtain ⟨hready, hshut⟩ := pool_follow_of_isCalm (f := f) hcalm h.ready m
  refine ⟨m, hm, hbefore, hafter, ?_⟩
  refine concludes_of_result? hready (hshut ▸ h.intact) (hcalm.holds m b i) ?_ hbefore hafter
  exact fun passage e' task hitem => ((h.submitted_of_item? hcalm hitem).2 e' task rfl).1

theorem IsOpen.isCancelled_of_not_submitsItem (h : w.IsOpen b e) (hcalm : IsCalm schedule)
    (hr : (w.follow f schedule n).result? b i = some r)
    (hnever : ∀ m, ¬SubmitsItem f (w.follow f schedule m) b i (schedule m)) :
    r.isCancelled = true := by
  obtain ⟨k, -, -, -, hconcludes⟩ := h.exists_concludes hcalm hr
  generalize schedule k = event at hconcludes
  cases hconcludes with
  | skipped | givenUp | withdrawn => rfl
  | returned hitem | raised hitem =>
    obtain ⟨-, m, -, hsubmits⟩ := (h.submitted_of_item? hcalm hitem).2 _ _ rfl
    exact absurd hsubmits (hnever m)

/-- A passage is given to an executor before it is with one. -/
theorem IsOpen.lt_of_submitsItem {k : Nat} {passage : Passage} {e' : Nat} {task : Task}
    (h : w.IsOpen b e) (hcalm : IsCalm schedule)
    (hitem : (w.follow f schedule k).item? b i = some ⟨passage, .running e' task⟩)
    (hsubmits : SubmitsItem f (w.follow f schedule m) b i (schedule m)) : m < k := by
  obtain ⟨passage', _, _, hwaiting, -⟩ := hsubmits
  -- at `m` the passage waits, so that it was not given to an executor before, as it was before `k`
  have hnever := (h.submitted_of_item? hcalm hwaiting).1 rfl
  obtain ⟨-, l, hl, hsubmits'⟩ := (h.submitted_of_item? hcalm hitem).2 e' task rfl
  exact Nat.lt_of_le_of_lt (Nat.le_of_not_lt fun hlt => hnever l hlt hsubmits') hl

theorem IsOpen.result_of_submitsItem (h : w.IsOpen b e) (hcalm : IsCalm schedule)
    (hr : (w.follow f schedule n).result? b i = some r)
    (hsubmits : SubmitsItem f (w.follow f schedule m) b i (schedule m)) :
    r.isCancelled = true ∨ r.isCancelled = false ∧ ∃ k, m < k ∧ k < n ∧
      ((∃ outcome, schedule k = .settle b i (.returned outcome) ∧
        (∀ v, r.vector? = some v ↔ outcome = .ok v) ∧
          ∀ message, r.message? = some message ↔ outcome = .error message) ∨
        ∃ cause, schedule k = .settle b i (.raised cause) ∧ r.vector? = none ∧
          r.message? = some cause.message) := by
  obtain ⟨k, hk, -, -, hconcludes⟩ := h.exists_concludes hcalm hr
  generalize hevent : schedule k = event at hconcludes
  cases hconcludes with
  | skipped | givenUp | withdrawn => exact .inl rfl
  | returned hitem htells =>
    exact .inr ⟨htells.isCancelled, k, h.lt_of_submitsItem hcalm hitem hsubmits, hk,
      .inl ⟨_, hevent, htells.vector?, htells.message?⟩⟩
  | raised hitem =>
    exact .inr ⟨rfl, k, h.lt_of_submitsItem hcalm hitem hsubmits, hk, .inr ⟨_, hevent, rfl, rfl⟩⟩

theorem IsOpen.isCancelled_iff (h : w.IsOpen b e) (hcalm : IsCalm schedule)
    (hr : (w.follow f schedule n).result? b i = some r) :
    r.isCancelled = true ↔
      ∃ m, m < n ∧ GivesUp f (w.follow f schedule m) b i (schedule m) := by
  constructor
  · intro hcancelled
    obtain ⟨m, hm, hbefore, hafter, hconcludes⟩ := h.exists_concludes hcalm hr
    have hpaired := h.isPaired.follow f schedule h.batch.choose_spec (m + 1)
    refine ⟨m, hm, hbefore, ⟨r, hafter, hcancelled, ?_⟩, ?_⟩
    · obtain ⟨passage, hitem⟩ := result?_eq_some_iff.mp hafter
      exact (hpaired i passage r hitem).cancelled hcancelled
    · generalize schedule m = event at hconcludes ⊢
      cases hconcludes with
      | skipped _ hraised => exact .inl ⟨.inl rfl, hraised⟩
      | givenUp _ hraised => exact .inl ⟨.inr rfl, hraised⟩
      | withdrawn => exact .inr rfl
      | returned _ htells => nomatch htells.isCancelled.symm.trans hcancelled
      | raised => nomatch hcancelled
  · rintro ⟨m, hm, hgives⟩
    obtain ⟨r', hafter, hcancelled, -⟩ := hgives.after
    obtain rfl := Option.some.inj (hr.symm.trans (result?_follow (m := n) (n := m + 1) hm hafter))
    exact hcancelled

/-- There is no crash among the passages, as the pool keeps its executor. -/
theorem IsOpen.not_fatal (h : w.IsOpen b e) (hcalm : IsCalm schedule) {crash : Crash} :
    ¬Fatal f (w.follow f schedule n) b i (schedule n) crash := by
  intro hfatal
  generalize hevent : schedule n = event at hfatal
  cases hfatal with
  | restart => exact hcalm.holds n _ _ _ hevent
  | revoked hitem hshut =>
    obtain ⟨rfl, -⟩ := (h.submitted_of_item? hcalm hitem).2 _ _ rfl
    rw [(pool_follow_of_isCalm hcalm h.ready n).2] at hshut
    exact h.intact hshut

end Course

theorem spares_run (hok : ∀ e, f e = .ok ()) (h : w.pool.Spares) (events : List Event) :
    (w.run f events).pool.Spares := by
  induction events generalizing w with
  | nil => exact h
  | cons event events ih => exact ih (h.step hok (pool_step event))

/-- A pool that is ready is intact, unless the start of an executor failed. -/
theorem isIntact_run (hok : ∀ e, f e = .ok ()) (model : ModelRef) (options : Options) (slots : Nat)
    (events : List Event)
    (hready : (run f ⟨{ model, options, slots }, []⟩ events).pool.executor?.isSome) :
    (run f ⟨{ model, options, slots }, []⟩ events).pool.IsIntact := by
  have hspares : (run f ⟨{ model, options, slots }, []⟩ events).pool.Spares :=
    spares_run (w := ⟨{ model, options, slots }, []⟩) hok ⟨nofun, nofun⟩ events
  have hsound := isSound_run (w := ⟨{ model, options, slots }, []⟩)
    (Pool.isSound_fresh (f := f) model options slots) events
  obtain ⟨e, he⟩ := Option.isSome_iff_exists.mp hready
  exact ⟨e, ⟨hsound.linked.mp hready, he⟩, (hspares.held e he).2⟩

/-- Whatever the passages, the signal and the schedule, and however many passages are with an executor
at a time. -/
theorem cancellation_of_calm (f : Factory) (w : Workload) (passages : List Passage)
    (signal : Option Signal) (schedule : Nat → Event) (hintact : w.pool.IsIntact)
    (hcalm : IsCalm schedule) :
    (w.call passages signal).Cancellation f schedule w.batches.length passages := by
  obtain ⟨e, hready, hshut⟩ := hintact
  have hopen := isOpen_call (w := w) passages signal hready hshut
  constructor
  · intro n i hsubmits
    obtain ⟨hevent, hraised, passage, e', hitem⟩ := begins_of_submitsItem hsubmits
    obtain ⟨batch, hbatch, haccounts⟩ := exists_accounts f w passages signal schedule (n + 1)
    exact ⟨hevent, hraised, passage, e', haccounts.passages_getElem? hbatch hitem, hitem⟩
  · intro n m i hle hraised hsubmits
    obtain ⟨-, hnot, -⟩ := begins_of_submitsItem hsubmits
    exact hnot (hraised.follow hle)
  · intro n i r hr
    obtain ⟨passage, hitem⟩ := result?_eq_some_iff.mp hr
    obtain ⟨batch, hbatch, haccounts⟩ := exists_accounts f w passages signal schedule n
    have hpaired := hopen.isPaired.follow f schedule (batch?_call passages signal) n
    exact ⟨passage, haccounts.passages_getElem? hbatch hitem, hpaired i passage r hitem⟩
  · exact fun n i r hr hnever => hopen.isCancelled_of_not_submitsItem hcalm hr hnever
  · exact fun n i r m hr hsubmits => hopen.result_of_submitsItem hcalm hr hsubmits
  · intro n i r hr
    refine ⟨hopen.isCancelled_iff hcalm hr, fun hcancelled => ?_⟩
    obtain ⟨passage, hitem⟩ := result?_eq_some_iff.mp hr
    have hpaired := hopen.isPaired.follow f schedule (batch?_call passages signal) n
    exact (hpaired i passage r hitem).cancelled hcancelled
  · exact fun n t item hitem hticket => item?_step_of_ticket?_ne hitem hticket
  · exact fun n m i r hle hr => result?_follow hle hr
  · intro n a ha
    obtain ⟨batch, hbatch, haccounts⟩ := exists_accounts f w passages signal schedule n
    rw [answer?, hbatch, Option.bind_some] at ha
    cases a with
    | error crash =>
      obtain ⟨m, i, hfatal, -⟩ := haccounts.crashed crash (Batch.answer?_eq_error_iff.mp ha)
      exact absurd hfatal (hopen.not_fatal hcalm)
    | ok rs =>
      refine ⟨rs, rfl, ?_, fun i r hr => ?_⟩
      · rw [Batch.length_of_answer ha, ← haccounts.passages, List.length_map]
      · obtain ⟨passage, hitem⟩ := Batch.exists_item_of_answer ha hr
        exact result?_eq_some_iff.mpr ⟨passage, item?_eq_some_iff.mpr ⟨batch, hbatch, hitem⟩⟩
  · exact fun hslots hfair => exists_answer_of_fair f w passages signal hslots hfair

/-- A pool that has lost an executor, and holds another one. -/
def replaced : Workload :=
  run (fun _ => .ok ()) ⟨{ model := ⟨"m", ""⟩, slots := 3 }, []⟩
    [.makeReady, .call (Passage.ofTexts [['a']]) none, .begin 0 0, .settle 0 0 (.broke "died")]

/-- The signal is raised when three of four passages are with an executor: the first has its vector all
the same and the second its error, the third is given up, and the fourth is skipped. -/
def whileRaised : Nat → Event
  | 0 => .begin 1 0
  | 1 => .begin 1 1
  | 2 => .begin 1 2
  | 3 => .raise 1
  | 4 => .settle 1 0 (.returned (.ok [Binary.binary32.ofInt 1]))
  | 5 => .settle 1 1 (.returned (.error "cannot embed"))
  | 6 => .look 1 2
  | 7 => .begin 1 3
  | _ => .makeReady

theorem cancellation_of_calm_whileRaised :
    (replaced.call (Passage.ofTexts [['a'], ['b'], ['c'], ['d']]) (some {})).Cancellation
        (fun _ => .ok ()) whileRaised 1 (Passage.ofTexts [['a'], ['b'], ['c'], ['d']]) ∧
      ((replaced.call (Passage.ofTexts [['a'], ['b'], ['c'], ['d']]) (some {})).follow
        (fun _ => .ok ()) whileRaised 8).answer? 1 = some (.ok [
          ⟨⟨[], [], 0, ['a'], 0⟩, some [Binary.binary32.ofInt 1], none, false⟩,
          ⟨⟨[], [], 1, ['b'], 0⟩, none, some "cannot embed", false⟩,
          ⟨⟨[], [], 2, ['c'], 0⟩, none, some "Operation cancelled", true⟩,
          ⟨⟨[], [], 3, ['d'], 0⟩, none, some "Operation cancelled", true⟩]) := by
  have hintact : replaced.pool.IsIntact :=
    isIntact_run (fun _ => rfl) ⟨"m", ""⟩ {} 3
      [.makeReady, .call (Passage.ofTexts [['a']]) none, .begin 0 0, .settle 0 0 (.broke "died")] rfl
  have hcalm : IsCalm whileRaised := by
    constructor <;> intro n <;> unfold whileRaised <;> split <;> nofun
  exact ⟨cancellation_of_calm (fun _ => .ok ()) replaced (Passage.ofTexts [['a'], ['b'], ['c'], ['d']])
    (some {}) whileRaised hintact hcalm, rfl⟩

end Workload

end SourceIndex.Embedding
