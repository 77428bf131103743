import SourceIndex.Proofs.Embedding.Rank

/-!
# Workers that share the tasks of a pool

Several workers carry out the tasks of a pool. A passage comes to any of them, whatever model that
worker kept from before. As long as loads succeed and a name means one model, a worker does with a task
what a fresh one would do (`Worker.Serves.process`). So the answer to a batch is a map over its passages
(`Crew.run_answer`): the order of starts and ends does not show in it, nor who carried out what, and a
passage that fails takes no other along.
-/

namespace SourceIndex.Embedding

/-- The loads of a worker succeed, and what it keeps under a name is the model of that name. -/
structure Worker.Serves (models : String → Model) (w : Worker) : Prop where
  source : ∀ loads ref, w.source loads ref = .ok (models ref.name)
  cached : ∀ name model, w.cached = some (name, model) → model = models name

/-- A workload, its workers, and what they carried out. -/
structure Crew where
  workload : Workload
  workers : List Worker
  done : List ((Nat × Nat) × Except String Vec) := []

/-- What a crew can do next: let an event happen, have a worker carry out the task of a passage, or have
the pool hear of that. -/
inductive Move where
  | happen (event : Event)
  | work (worker batch item : Nat)
  | hear (batch item : Nat)

/-- A move that does not cancel a batch and shuts down no executor. What becomes of tasks is up to the
workers. -/
def Move.IsCalm (b : Nat) : Move → Prop
  | .happen .dispose | .happen (.settle ..) => False
  | .happen (.raise b') => b' ≠ b
  | _ => True

/-- A move that leaves the pool to its model. -/
def Move.KeepsModel : Move → Prop
  | .happen (.setModel ..) => False
  | _ => True

namespace Worker.Serves

variable {models : String → Model} {w : Worker}

theorem load (h : w.Serves models) (ref : ModelRef) :
    (w.load ref).1 = .ok (models ref.name) ∧ (w.load ref).2.Serves models := by
  have hcached : (w.load ref).2.cached = some (ref.name, models ref.name) := by
    simp only [Worker.load, release, h.source]
    rfl
  refine ⟨h.source w.loads ref, h.source, fun name model hkept => ?_⟩
  rw [hcached, Option.some.injEq, Prod.mk.injEq] at hkept
  exact hkept.2.symm.trans (congrArg models hkept.1)

theorem model (h : w.Serves models) (ref : ModelRef) :
    (w.model ref).1 = .ok (models ref.name) ∧ (w.model ref).2.Serves models := by
  rw [Worker.model]
  split
  · rename_i name model hcached
    split
    · rename_i hname
      exact ⟨congrArg _ (hname ▸ h.cached name model hcached), h⟩
    · exact h.load ref
  · exact h.load ref

/-- What a worker makes of a task does not depend on what it did before. -/
theorem process (h : w.Serves models) (task : Task) :
    (w.process task).1 = (if Text.isBlank task.text then .ok []
      else (vector (models task.model.name) task).mapError EmbedError.message) ∧
    (w.process task).2.Serves models := by
  rw [Worker.process]
  split
  · exact ⟨rfl, h⟩
  · obtain ⟨hmodel, hserves⟩ := h.model task.model
    have hembed : w.embed task =
        (vector (models task.model.name) task, (w.model task.model).2) := by
      rw [embed]
      generalize w.model task.model = out at hmodel
      obtain ⟨result, w'⟩ := out
      cases hmodel
      rfl
    rw [hembed]
    exact ⟨rfl, hserves⟩

end Worker.Serves

theorem Batch.look_of_not_rises {batch : Batch} (h : batch.signal.any Signal.rises = false) :
    batch.look = (false, batch) := by
  rw [look, Signal.look?_of_not_rises h]

namespace Crew

def call (passages : List Passage) (signal : Option Signal) (c : Crew) : Crew :=
  { c with workload := c.workload.call passages signal }

/-- A worker carries out the task of a passage, if the executor has it and it is not done yet. -/
def work (k b i : Nat) (c : Crew) : Crew :=
  match c.workload.item? b i, c.workers[k]?, c.done.lookup (b, i) with
  | some ⟨_, .running _ task⟩, some worker, none =>
    let (outcome, worker) := worker.process task
    { c with workers := c.workers.set k worker, done := ((b, i), outcome) :: c.done }
  | _, _, _ => c

/-- The pool hears of a task that was carried out. -/
def hear (f : Factory) (b i : Nat) (c : Crew) : Crew :=
  match c.done.lookup (b, i) with
  | some outcome => { c with workload := c.workload.step f (.settle b i (.returned outcome)) }
  | none => c

def step (f : Factory) (c : Crew) : Move → Crew
  | .happen event => { c with workload := c.workload.step f event }
  | .work k b i => c.work k b i
  | .hear b i => c.hear f b i

def run (f : Factory) (c : Crew) (moves : List Move) : Crew :=
  moves.foldl (step f) c

/-- A passage was begun with a task in the course of moves. -/
def Begun (f : Factory) (c : Crew) (b : Nat) (moves : List Move) (i : Nat) (passage : Passage)
    (task : Task) : Prop :=
  ∃ before, before ++ [.happen (.begin b i)] <+: moves ∧
    task = (c.run f before).workload.pool.task passage

/-- What a passage has come to is due to its own task, which was set up when the passage was begun: it
is what a fresh worker makes of that task. -/
inductive Due (source : ModelSource) (begun : Task → Prop) (passage : Passage)
    (told : Option (Except String Vec)) : Progress → Prop
  | waiting : told = none → Due source begun passage told .waiting
  | running {e task} : begun task →
      (∀ outcome, told = some outcome → outcome = (({ source } : Worker).process task).1) →
      Due source begun passage told (.running e task)
  | ended {task r} : begun task → r.Tells passage (({ source } : Worker).process task).1 →
      Due source begun passage told (.ended (.ok r))

/-- What holds of a crew and a batch as long as its moves are calm. -/
structure Serving (f : Factory) (models : String → Model) (source : ModelSource) (c : Crew)
    (b : Nat) (passages : List Passage) (moves : List Move) : Prop where
  ready : ∃ e, (c.run f moves).workload.pool.IsReady e
  slots : 0 < (c.run f moves).workload.pool.slots
  nonempty : (c.run f moves).workers ≠ []
  serves : ∀ w ∈ (c.run f moves).workers, w.Serves models
  batch : ∃ batch, (c.run f moves).workload.batch? b = some batch ∧
    batch.items.map Item.passage = passages ∧ batch.crash = none ∧
    batch.signal.any Signal.rises = false
  due : ∀ i passage progress, (c.run f moves).workload.item? b i = some ⟨passage, progress⟩ →
    Due source (c.Begun f b moves i passage) passage ((c.run f moves).done.lookup (b, i)) progress

section

variable {f : Factory} {models : String → Model} {source : ModelSource} {c : Crew} {b i : Nat}
  {passages : List Passage} {moves : List Move} {move : Move}

theorem run_concat (f : Factory) (c : Crew) (moves : List Move) (move : Move) :
    c.run f (moves ++ [move]) = (c.run f moves).step f move :=
  List.foldl_concat ..

theorem Begun.concat {passage : Passage} {task : Task} (h : c.Begun f b moves i passage task)
    (move : Move) :
    c.Begun f b (moves ++ [move]) i passage task := by
  obtain ⟨before, hprefix, htask⟩ := h
  exact ⟨before, hprefix.trans (List.prefix_append _ _), htask⟩

theorem Due.mono {begun begun' : Task → Prop} {passage : Passage} {told : Option (Except String Vec)}
    {progress : Progress} (h : Due source begun passage told progress)
    (hle : ∀ task, begun task → begun' task) : Due source begun' passage told progress := by
  cases h with
  | waiting hnone => exact .waiting hnone
  | running hbegun htold => exact .running (hle _ hbegun) htold
  | ended hbegun htells => exact .ended (hle _ hbegun) htells

/-- What a task that was carried out ends with is what a fresh worker makes of it. -/
theorem Serving.of_ends {event : Event} {ending : Except Crash Result}
    (h : Serving f models source c b passages moves)
    (hsettle : ∀ b' i fate, event = .settle b' i fate →
      ∃ outcome, fate = .returned outcome ∧ (c.run f moves).done.lookup (b', i) = some outcome)
    (hends : Ends f (c.run f moves).workload b i event ending) :
    ∃ passage e task r, (c.run f moves).workload.item? b i = some ⟨passage, .running e task⟩ ∧
      c.Begun f b moves i passage task ∧ ending = .ok r ∧
      r.Tells passage (({ source } : Worker).process task).1 := by
  obtain ⟨e, hready⟩ := h.ready
  obtain ⟨batch, hbatch, -, -, hsignal⟩ := h.batch
  have hlook {batch'} (hbatch' : (c.run f moves).workload.batch? b = some batch') :
      batch'.look.1 = false := by
    rw [hbatch, Option.some.injEq] at hbatch'
    subst hbatch'
    rw [Batch.look_of_not_rises hsignal]
  -- The pool keeps its executor and the signal stays down, so it was a worker.
  cases hends with
  | notReady _ hnone => nomatch hnone.symm.trans hready.executor?
  | cancelled hbatch' _ hraised | givenUp hbatch' _ hraised =>
    rw [hlook hbatch'] at hraised
    cases hraised
  | @settled passage e' task fate _ hitem _ hsettles =>
    obtain ⟨outcome, rfl, houtcome⟩ := hsettle b i fate rfl
    cases h.due i passage _ hitem with
    | running hbegun htold =>
      cases hsettles with
      | dropped hstage => nomatch hready.stage.symm.trans hstage
      | returned _ htells =>
        exact ⟨passage, e', task, _, hitem, hbegun, rfl, htold outcome houtcome ▸ htells⟩

/-- An event that neither disposes of the pool nor breaks its executor leaves it ready. -/
theorem Serving.isReady_step {event : Event} (h : Serving f models source c b passages moves)
    (hdispose : event ≠ .dispose) (hbroke : ∀ b i told, event ≠ .settle b i (.broke told)) :
    ∃ e, ((c.run f moves).workload.step f event).pool.IsReady e := by
  obtain ⟨e, hready⟩ := h.ready
  refine ⟨e, ?_⟩
  rcases Workload.pool_step_of_ready (f := f) event hready hdispose hbroke with
    hpool | ⟨_, _, -, hpool⟩ <;> rw [hpool] <;> exact ⟨hready.stage, hready.executor?⟩

/-- What a passage comes to by an event is due to its own task, if what it was before is. -/
theorem Serving.due_of_step {event : Event} {passage : Passage} {progress progress' : Progress}
    (h : Serving f models source c b passages moves)
    (hbegin : event = .begin b i → move = .happen (.begin b i))
    (hsettle : ∀ b' i fate, event = .settle b' i fate →
      ∃ outcome, fate = .returned outcome ∧ (c.run f moves).done.lookup (b', i) = some outcome)
    (hitem : (c.run f moves).workload.item? b i = some ⟨passage, progress⟩)
    (hstep : Progress.Step f (c.run f moves).workload b i passage event progress progress') :
    Due source (c.Begun f b (moves ++ [move]) i passage) passage
      ((c.run f moves).done.lookup (b, i)) progress' := by
  have hdue := h.due i passage progress hitem
  cases hstep with
  | keep => exact hdue.mono fun _ hbegun => hbegun.concat move
  | start hevent hwaiting he =>
    subst hwaiting
    cases hdue with
    | waiting hnone =>
      -- begun by this move, with the pool that the moves before it leave
      refine .running ⟨moves, ?_, rfl⟩ fun outcome htold => ?_
      · exact hbegin hevent ▸ List.prefix_rfl
      · rw [hnone] at htold
        cases htold
  | finish hends =>
    obtain ⟨passage', e', task, r, hitem', hbegun, rfl, htells⟩ := h.of_ends hsettle hends
    rw [hitem, Option.some.injEq, Item.mk.injEq] at hitem'
    obtain ⟨rfl, -⟩ := hitem'
    exact .ended (hbegun.concat move) htells

theorem Serving.of_event {event : Event} (h : Serving f models source c b passages moves)
    (hrun : c.run f (moves ++ [move]) =
      { c.run f moves with workload := (c.run f moves).workload.step f event })
    (hdispose : event ≠ .dispose) (hraise : event ≠ .raise b)
    (hbegin : ∀ i, event = .begin b i → move = .happen (.begin b i))
    (hsettle : ∀ b' i fate, event = .settle b' i fate →
      ∃ outcome, fate = .returned outcome ∧ (c.run f moves).done.lookup (b', i) = some outcome) :
    Serving f models source c b passages (moves ++ [move]) := by
  obtain ⟨batch, hbatch, hpassages, hcrash, hsignal⟩ := h.batch
  obtain ⟨batch', hbatch', hstep⟩ := Workload.exists_step (f := f) hbatch event
  constructor <;> simp only [hrun]
  · refine h.isReady_step hdispose fun b' i' told heq => ?_
    obtain ⟨_, hfate, -⟩ := hsettle b' i' _ heq
    cases hfate
  · rw [Workload.slots_step]
    exact h.slots
  · exact h.nonempty
  · exact h.serves
  · refine ⟨batch', hbatch', hstep.passages_eq.trans hpassages, ?_, ?_⟩
    · cases hstep with
      | keep | start => exact hcrash
      | finish _ hends =>
        obtain ⟨-, -, -, -, -, -, rfl, -⟩ := h.of_ends hsettle hends
        exact hcrash
    · have hwatches := hstep.watches
      generalize batch'.signal = signal at hwatches ⊢
      cases hwatches with
      | keep => exact hsignal
      | look => rw [Batch.look_of_not_rises hsignal]; exact hsignal
      | raise heq => exact absurd heq hraise
  · intro i passage progress' hitem'
    rw [Workload.item?, hbatch', Option.bind_some] at hitem'
    obtain ⟨progress, hprior, hprogress⟩ := hstep.exists_prior hitem'
    have hitem := Workload.item?_eq_some_iff.mpr ⟨batch, hbatch, hprior⟩
    exact h.due_of_step (hbegin i) hsettle hitem hprogress

theorem Serving.of_same (h : Serving f models source c b passages moves)
    (hrun : c.run f (moves ++ [move]) = c.run f moves) :
    Serving f models source c b passages (moves ++ [move]) := by
  constructor <;> rw [hrun]
  · exact h.ready
  · exact h.slots
  · exact h.nonempty
  · exact h.serves
  · exact h.batch
  · exact fun i passage progress hitem =>
      (h.due i passage progress hitem).mono fun _ hbegun => hbegun.concat move

theorem Serving.of_done {worker worker' : Worker} {k b' i' e : Nat} {passage : Passage} {task : Task}
    {outcome : Except String Vec} (h : Serving f models source c b passages moves)
    (hsource : ({ source } : Worker).Serves models)
    (hitem : (c.run f moves).workload.item? b' i' = some ⟨passage, .running e task⟩)
    (hworker : (c.run f moves).workers[k]? = some worker)
    (hprocess : worker.process task = (outcome, worker'))
    (hrun : c.run f (moves ++ [move]) = { c.run f moves with
      workers := (c.run f moves).workers.set k worker'
      done := ((b', i'), outcome) :: (c.run f moves).done }) :
    Serving f models source c b passages (moves ++ [move]) := by
  have hserves := h.serves worker (List.mem_of_getElem? hworker)
  obtain ⟨houtcome, hserves'⟩ := hserves.process task
  rw [hprocess] at houtcome hserves'
  constructor <;> simp only [hrun]
  · exact h.ready
  · exact h.slots
  · rw [ne_eq, List.set_eq_nil_iff]
    exact h.nonempty
  · intro w hw
    rcases List.mem_or_eq_of_mem_set hw with hw | rfl
    · exact h.serves w hw
    · exact hserves'
  · exact h.batch
  · intro i passage' progress hitem'
    have hdue := (h.due i passage' progress hitem').mono fun _ hbegun => hbegun.concat move
    by_cases hkey : (b, i) = (b', i')
    · -- the passage whose task was carried out; the executor still has it
      cases hkey
      rw [hitem, Option.some.injEq, Item.mk.injEq] at hitem'
      obtain ⟨rfl, rfl⟩ := hitem'
      rw [List.lookup_cons_self]
      cases hdue with
      | running hbegun =>
        refine .running hbegun fun outcome' htold => ?_
        cases htold
        exact houtcome.trans (hsource.process task).1.symm
    · rw [List.lookup_cons, beq_false_of_ne hkey]
      exact hdue

theorem Serving.step (h : Serving f models source c b passages moves)
    (hsource : ({ source } : Worker).Serves models) (hcalm : move.IsCalm b) :
    Serving f models source c b passages (moves ++ [move]) := by
  have hrun := run_concat f c moves move
  cases move with
  | happen event =>
    refine h.of_event hrun ?_ ?_ (fun _ heq => heq ▸ rfl) ?_
    · rintro rfl
      exact hcalm
    · rintro rfl
      exact hcalm rfl
    · rintro b' i fate rfl
      exact hcalm.elim
  | work k b' i =>
    rw [Crew.step, work] at hrun
    split at hrun
    · rename_i hitem hworker hnone
      exact h.of_done hsource hitem hworker rfl hrun
    · exact h.of_same hrun
  | hear b' i =>
    rw [Crew.step, hear] at hrun
    split at hrun
    · rename_i outcome houtcome
      refine h.of_event hrun nofun nofun nofun ?_
      rintro b'' i' fate ⟨⟩
      exact ⟨outcome, rfl, houtcome⟩
    · exact h.of_same hrun

theorem Serving.run {later : List Move} (h : Serving f models source c b passages moves)
    (hsource : ({ source } : Worker).Serves models) (hcalm : ∀ move ∈ later, move.IsCalm b) :
    Serving f models source c b passages (moves ++ later) := by
  induction later generalizing moves with
  | nil =>
    rw [List.append_nil]
    exact h
  | cons move later ih =>
    obtain ⟨hmove, hlater⟩ := List.forall_mem_cons.mp hcalm
    rw [List.append_cons]
    exact ih (h.step hsource hmove) hlater

theorem pool_step_of_isCalm {e : Nat} (hready : c.workload.pool.IsReady e)
    (hcalm : move.IsCalm b) (hkeeps : move.KeepsModel) :
    (c.step f move).workload.pool = c.workload.pool := by
  cases move with
  | happen event =>
    rcases Workload.pool_step_of_ready (f := f) event hready
      (by rintro rfl; exact hcalm) (by rintro _ _ _ rfl; exact hcalm) with hpool | ⟨_, _, rfl, -⟩
    · exact hpool
    · exact hkeeps.elim
  | work k b' i =>
    rw [Crew.step, work]
    split <;> rfl
  | hear b' i =>
    rw [Crew.step, hear]
    split
    · rename_i outcome _
      rcases Workload.pool_step_of_ready (f := f) (.settle b' i (.returned outcome)) hready
        nofun nofun with hpool | ⟨_, _, hmodel, -⟩
      · exact hpool
      · cases hmodel
    · rfl

theorem pool_run_of_isCalm {e : Nat} (hready : c.workload.pool.IsReady e)
    (hcalm : ∀ move ∈ moves, move.IsCalm b) (hkeeps : ∀ move ∈ moves, move.KeepsModel) :
    (c.run f moves).workload.pool = c.workload.pool := by
  induction moves generalizing c with
  | nil => rfl
  | cons move moves ih =>
    obtain ⟨hcalm, hcalms⟩ := List.forall_mem_cons.mp hcalm
    obtain ⟨hkeeps, hkeepss⟩ := List.forall_mem_cons.mp hkeeps
    have hpool := pool_step_of_isCalm (f := f) hready hcalm hkeeps
    exact (ih (hpool ▸ hready) hcalms hkeepss).trans hpool

/-- The answer to a batch has for each passage what a fresh worker makes of the task that the passage
was begun with. -/
theorem Serving.exists_task {answer : Except Crash (List Result)}
    (h : Serving f models source c b passages moves)
    (hanswer : (c.run f moves).workload.answer? b = some answer) :
    ∃ rs, answer = .ok rs ∧ rs.length = passages.length ∧ ∀ i passage, passages[i]? = some passage →
      ∃ task r, c.Begun f b moves i passage task ∧ rs[i]? = some r ∧
        r.Tells passage (({ source } : Worker).process task).1 := by
  obtain ⟨batch, hbatch, rfl, hcrash, -⟩ := h.batch
  rw [Workload.answer?, hbatch, Option.bind_some] at hanswer
  cases answer with
  | error crash =>
    rw [Batch.answer?_eq_error_iff, hcrash] at hanswer
    cases hanswer
  | ok rs =>
    refine ⟨rs, rfl, ?_, fun i passage htext => ?_⟩
    · rw [Batch.length_of_answer hanswer, List.length_map]
    · rw [List.getElem?_map, Option.map_eq_some_iff] at htext
      obtain ⟨⟨_, progress⟩, hitem, rfl⟩ := htext
      obtain ⟨r, hr, hprogress⟩ := Batch.exists_result_of_answer hanswer hitem
      cases hprogress
      cases h.due i _ _ (Workload.item?_eq_some_iff.mpr ⟨batch, hbatch, hitem⟩) with
      | ended hbegun htells => exact ⟨_, _, hbegun, hr, htells⟩

/-- While a batch is not over, the workers can bring it closer to its answer. -/
theorem Serving.exists_rank_lt (h : Serving f models source c b passages moves)
    (hrank : (c.run f moves).workload.rank b ≠ 0) :
    ∃ later, (∀ move ∈ later, move.IsCalm b ∧ move.KeepsModel) ∧
      (c.run f (moves ++ later)).workload.rank b < (c.run f moves).workload.rank b := by
  obtain ⟨batch, hbatch, -⟩ := h.batch
  rw [Workload.rank_eq hbatch] at hrank
  rcases Batch.exists_open hrank with ⟨i, passage, e, task, hget⟩ | ⟨i, passage, hget, hrunning⟩
  · have hitem := Workload.item?_eq_some_iff.mpr ⟨batch, hbatch, hget⟩
    cases houtcome : (c.run f moves).done.lookup (b, i) with
    | some outcome =>
      refine ⟨[.hear b i], List.forall_mem_singleton.mpr ⟨trivial, trivial⟩, ?_⟩
      rw [run_concat, Crew.step, hear, houtcome]
      exact Workload.rank_settle_lt (f := f) hitem rfl
    | none =>
      obtain ⟨worker, workers, hworkers⟩ := List.exists_cons_of_ne_nil h.nonempty
      have hworker : (c.run f moves).workers[0]? = some worker := by rw [hworkers]; rfl
      refine ⟨[.work 0 b i, .hear b i], ?_, ?_⟩
      · intro move hmem
        simp only [List.mem_cons, List.not_mem_nil, or_false] at hmem
        rcases hmem with rfl | rfl <;> exact ⟨trivial, trivial⟩
      · rw [List.append_cons, run_concat, run_concat, Crew.step, Crew.step, work, hitem, hworker,
          houtcome, hear]
        dsimp only
        rw [List.lookup_cons_self]
        exact Workload.rank_settle_lt (f := f) hitem rfl
  · refine ⟨[.happen (.begin b i)], List.forall_mem_singleton.mpr ⟨trivial, trivial⟩, ?_⟩
    rw [run_concat]
    exact Workload.rank_begin_lt (hrunning ▸ h.slots) hbatch hget

theorem Serving.exists_answer (h : Serving f models source c b passages moves)
    (hsource : ({ source } : Worker).Serves models) :
    ∃ later, (∀ move ∈ later, move.IsCalm b ∧ move.KeepsModel) ∧
      ((c.run f (moves ++ later)).workload.answer? b).isSome := by
  -- The moves that lower the rank are calm themselves, so the invariant holds behind them.
  generalize hn : (c.run f moves).workload.rank b = n
  induction n using Nat.strongRecOn generalizing moves with
  | ind n ih =>
    by_cases hrank : (c.run f moves).workload.rank b = 0
    · refine ⟨[], nofun, ?_⟩
      obtain ⟨batch, hbatch, -⟩ := h.batch
      rw [Workload.rank_eq hbatch] at hrank
      obtain ⟨answer, hanswer⟩ := Batch.exists_answer_of_rank_eq_zero hrank
        fun i passage crash hitem => by
          have hdue := h.due i passage _ (Workload.item?_eq_some_iff.mpr ⟨batch, hbatch, hitem⟩)
          cases hdue
      rw [List.append_nil, Workload.answer?, hbatch, Option.bind_some, hanswer]
      rfl
    · obtain ⟨later, hlater, hlt⟩ := h.exists_rank_lt hrank
      obtain ⟨rest, hrest, hanswer⟩ :=
        ih _ (hn ▸ hlt) (h.run hsource fun move hmem => (hlater move hmem).1) rfl
      refine ⟨later ++ rest, ?_, by rwa [← List.append_assoc]⟩
      intro move hmem
      rcases List.mem_append.mp hmem with hmem | hmem
      · exact hlater move hmem
      · exact hrest move hmem

theorem serving_call {signal : Option Signal} {e : Nat}
    (hready : c.workload.pool.IsReady e) (hslots : 0 < c.workload.pool.slots)
    (hnonempty : c.workers ≠ []) (hserves : ∀ w ∈ c.workers, w.Serves models)
    (hdone : ∀ i, c.done.lookup (c.workload.batches.length, i) = none)
    (hsignal : signal.any Signal.rises = false) :
    Serving f models source (c.call passages signal) c.workload.batches.length passages [] where
  ready := ⟨e, hready⟩
  slots := hslots
  nonempty := hnonempty
  serves := hserves
  batch := ⟨_, Workload.batch?_call passages signal, by rw [List.map_map]; exact List.map_id _, rfl,
    hsignal⟩
  due i passage progress hitem := by
    have hwaiting := (Workload.of_item?_call hitem).2
    rw [if_pos hready.isReady] at hwaiting
    exact hwaiting ▸ .waiting (hdone i)

end

/-- The answer to a batch is a map over its passages, for all assignments of passages to workers and all
orders of moves: the result of each is that of this passage, and tells what a fresh worker makes of it
with the model that the pool has when the passage is begun. And there is an answer as soon as the crew
goes on for long enough. -/
theorem run_answer (f : Factory) (models : String → Model) (source : ModelSource) (c : Crew)
    (passages : List Passage) (signal : Option Signal) (e : Nat) (moves : List Move)
    (hsource : ({ source } : Worker).Serves models) (hserves : ∀ w ∈ c.workers, w.Serves models)
    (hnonempty : c.workers ≠ []) (hready : c.workload.pool.IsReady e)
    (hslots : 0 < c.workload.pool.slots)
    (hdone : ∀ i, c.done.lookup (c.workload.batches.length, i) = none)
    (hsignal : signal.any Signal.rises = false)
    (hcalm : ∀ move ∈ moves, move.IsCalm c.workload.batches.length) :
    (∀ answer, ((c.call passages signal).run f moves).workload.answer? c.workload.batches.length =
        some answer → ∃ rs, answer = .ok rs ∧ rs.length = passages.length ∧
      ∀ i passage, passages[i]? = some passage → ∃ task r,
        (c.call passages signal).Begun f c.workload.batches.length moves i passage task ∧
        rs[i]? = some r ∧ r.passage = passage ∧ r.isCancelled = false ∧
        (∀ v, r.vector? = some v ↔ (({ source } : Worker).process task).1 = .ok v) ∧
        (∀ message, r.message? = some message ↔
          (({ source } : Worker).process task).1 = .error message) ∧
        ((∀ move ∈ moves, move.KeepsModel) →
          task = ⟨passage.text, c.workload.pool.model, c.workload.pool.options⟩)) ∧
    ∃ later, (∀ move ∈ later, move.IsCalm c.workload.batches.length ∧ move.KeepsModel) ∧
      (((c.call passages signal).run f (moves ++ later)).workload.answer?
        c.workload.batches.length).isSome := by
  have hserving : Serving f models source (c.call passages signal) c.workload.batches.length passages
      moves :=
    (serving_call hready hslots hnonempty hserves hdone hsignal).run hsource hcalm
  refine ⟨fun answer hanswer => ?_, hserving.exists_answer hsource⟩
  obtain ⟨rs, rfl, hlength, htasks⟩ := hserving.exists_task hanswer
  refine ⟨rs, rfl, hlength, fun i passage hpassage => ?_⟩
  obtain ⟨task, r, hbegun, hr, htells⟩ := htasks i passage hpassage
  refine ⟨task, r, hbegun, hr, htells.passage, htells.isCancelled, htells.vector?, htells.message?,
    fun hkeeps => ?_⟩
  obtain ⟨before, hprefix, rfl⟩ := hbegun
  have hsub : ∀ move ∈ before, move ∈ moves := fun move hmem =>
    hprefix.subset (List.mem_append_left _ hmem)
  have hpool : ((c.call passages signal).run f before).workload.pool = c.workload.pool :=
    pool_run_of_isCalm hready (fun move hmem => hcalm move (hsub move hmem))
      fun move hmem => hkeeps move (hsub move hmem)
  rw [hpool]
  rfl

/-- A model that has one number for each text, the length of its name, and cannot embed `b`. -/
def sampleModel (name : String) : Model := fun text =>
  if text = ['b'] then .error ⟨"RuntimeError", "cannot embed"⟩
  else .ok ⟨[1, 1], fun _ => Binary.binary32.ofInt name.length⟩

def sampleSource : ModelSource := fun _ ref => .ok (sampleModel ref.name)

/-- Two workers, the first of which keeps another model than the pool asks for. -/
def sample : Crew where
  workload := .started 2
  workers := [{ source := sampleSource, cached := some ("other", sampleModel "other") },
    { source := sampleSource }]

/-- The second worker fails with the second passage, before the first is done with the first passage. -/
def sampleMoves : List Move :=
  [.happen (.begin 0 0), .happen (.begin 0 1), .work 1 0 1, .work 0 0 0, .hear 0 1, .hear 0 0]

theorem run_answer_sample :
    ∃ rs, ((sample.call (Passage.ofTexts [['a'], ['b']]) none).run (fun _ => .ok ())
        sampleMoves).workload.answer? 0 = some (.ok rs) ∧
      rs = [⟨⟨[], [], 0, ['a'], 0⟩, some [Binary.binary32.ofInt 1], none, false⟩,
        ⟨⟨[], [], 1, ['b'], 0⟩, none, some "cannot embed", false⟩] ∧
      ∀ (i : Nat) passage, (Passage.ofTexts [['a'], ['b']])[i]? = some passage →
        ∃ r, rs[i]? = some r ∧ r.passage = passage ∧
          (∀ v, r.vector? = some v ↔ (({ source := sampleSource } : Worker).process
            ⟨passage.text, ⟨"m", ""⟩, {}⟩).1 = .ok v) ∧
          ∀ message, r.message? = some message ↔ (({ source := sampleSource } : Worker).process
            ⟨passage.text, ⟨"m", ""⟩, {}⟩).1 = .error message := by
  have hsource : ({ source := sampleSource } : Worker).Serves sampleModel :=
    ⟨fun _ _ => rfl, nofun⟩
  have hserves : ∀ w ∈ sample.workers, w.Serves sampleModel := by
    refine List.forall_mem_cons.mpr ⟨⟨fun _ _ => rfl, ?_⟩, List.forall_mem_singleton.mpr hsource⟩
    rintro name model ⟨⟩
    rfl
  have hcalm : ∀ move ∈ sampleMoves, move.IsCalm 0 ∧ move.KeepsModel := by
    simp [sampleMoves, Move.IsCalm, Move.KeepsModel]
  have hanswered : ((sample.call (Passage.ofTexts [['a'], ['b']]) none).run (fun _ => .ok ())
      sampleMoves).workload.answer? 0 = some (.ok [
        ⟨⟨[], [], 0, ['a'], 0⟩, some [Binary.binary32.ofInt 1], none, false⟩,
        ⟨⟨[], [], 1, ['b'], 0⟩, none, some "cannot embed", false⟩]) := by decide +kernel
  obtain ⟨hmap, -⟩ := run_answer (fun _ => .ok ()) sampleModel sampleSource sample
    (Passage.ofTexts [['a'], ['b']]) none 1 sampleMoves hsource hserves nofun ⟨rfl, rfl⟩ Nat.two_pos
    (fun _ => rfl) rfl fun move hmem => (hcalm move hmem).1
  obtain ⟨rs, hrs, -, htasks⟩ := hmap _ hanswered
  cases hrs
  refine ⟨_, hanswered, rfl, fun i passage hpassage => ?_⟩
  obtain ⟨task, r, -, hr, hsame, -, hvector, hmessage, htask⟩ := htasks i passage hpassage
  obtain rfl := htask fun move hmem => (hcalm move hmem).2
  exact ⟨r, hr, hsame, hvector, hmessage⟩

end Crew

end SourceIndex.Embedding
