import SourceIndex.Embedding.Workload
import Mathlib.Data.List.Basic

/-!
# What an event does

An event starts an executor, shuts executors down, or leaves the pool to its model (`Pool.Step`,
`Workload.pool_step`). Whatever happens, a batch keeps its passages: one of them may begin, or one may
end (`Batch.Step`), and nothing else does (`Workload.exists_step`). What ends a passage is an event of
its own (`Ends`). All that holds of pools and batches in the course of a run is shown by these cases,
without a look at `Workload.step`.
-/

namespace SourceIndex.Embedding

/-- A pool is ready, with an executor that tasks go to. -/
structure Pool.IsReady (p : Pool) (e : Nat) : Prop where
  stage : p.stage = .ready
  executor? : p.executor? = some e

/-- What an event makes of a pool. -/
inductive Pool.Step (f : Factory) (p : Pool) : Event → Pool → Prop
  | keep (event) : Step f p event p
  | setModel (name path) : Step f p (.setModel name path) (p.setModel name path)
  | start : p.stage = .idle → f (p.starts + 1) = .ok () →
      Step f p .makeReady
        { p with starts := p.starts + 1, executor? := some (p.starts + 1), stage := .ready }
  | startFailed {cause} : p.stage = .idle → f (p.starts + 1) = .error cause →
      Step f p .makeReady { p with starts := p.starts + 1 }
  | restart {b i told e} : p.IsReady e → f (p.starts + 1) = .ok () →
      Step f p (.settle b i (.broke told))
        { p with shut := p.shut ++ [e], starts := p.starts + 1, executor? := some (p.starts + 1) }
  | restartFailed {b i told e cause} : p.IsReady e → f (p.starts + 1) = .error cause →
      Step f p (.settle b i (.broke told))
        { p with shut := p.shut ++ [e], starts := p.starts + 1 }
  | dispose : Step f p .dispose p.dispose

/-- A result tells of the outcome of a task: of the vector, or of what is told where there is none. -/
structure Result.Tells (r : Result) (passage : Passage) (outcome : Except String Vec) : Prop where
  passage : r.passage = passage
  vector? : ∀ v, r.vector? = some v ↔ outcome = .ok v
  message? : ∀ message, r.message? = some message ↔ outcome = .error message
  isCancelled : r.isCancelled = false

/-- How a task of an executor ends by its fate. -/
inductive Pool.Settles (f : Factory) (p : Pool) (e : Nat) (passage : Passage) :
    Fate → Except Crash Result → Prop
  | returned {outcome r} : p.stage ≠ .disposed → r.Tells passage outcome →
      Settles f p e passage (.returned outcome) (.ok r)
  | dropped {outcome} : p.stage = .disposed →
      Settles f p e passage (.returned outcome) (.ok (.notReady passage))
  | raised {cause e'} : p.executor? = some e' →
      Settles f p e passage (.raised cause) (.ok (.failed passage cause.message))
  | raisedLate {cause} : p.executor? = none →
      Settles f p e passage (.raised cause) (.ok (.notReady passage))
  | broke {told} : (p.IsReady e → f (p.starts + 1) = .ok ()) →
      Settles f p e passage (.broke told) (.ok (.failed passage ("Worker failed: " ++ told)))
  | brokeForGood {told cause} : p.IsReady e → f (p.starts + 1) = .error cause →
      Settles f p e passage (.broke told) (.error (.restart cause))
  | withdrawn : Settles f p e passage .withdrawn (.ok (.cancelled passage))
  | revoked {e'} : p.executor? = some e' → Settles f p e passage .revoked (.error .revoked)
  | revokedLate : p.executor? = none → Settles f p e passage .revoked (.ok (.notReady passage))

/-- An event ends a passage of a batch: the pool has no executor for it, the signal is raised when it is
looked at, or the executor is done with it. -/
inductive Ends (f : Factory) (w : Workload) (b i : Nat) : Event → Except Crash Result → Prop
  | notReady {passage} : w.item? b i = some ⟨passage, .waiting⟩ → w.pool.executor? = none →
      Ends f w b i (.begin b i) (.ok (.notReady passage))
  | cancelled {batch passage} : w.batch? b = some batch → batch.item? i = some ⟨passage, .waiting⟩ →
      batch.look.1 = true → Ends f w b i (.begin b i) (.ok (.cancelled passage))
  | givenUp {batch passage e task} : w.batch? b = some batch →
      batch.item? i = some ⟨passage, .running e task⟩ → batch.look.1 = true →
      Ends f w b i (.look b i) (.ok (.cancelled passage))
  | settled {passage e task fate ending} : w.item? b i = some ⟨passage, .running e task⟩ →
      w.allows e fate = true → w.pool.Settles f e passage fate ending →
      Ends f w b i (.settle b i fate) ending

/-- What an event makes of the signal of a batch. -/
inductive Batch.Watches (b : Nat) (event : Event) (batch : Batch) : Option Signal → Prop
  | keep : Watches b event batch batch.signal
  | look : Watches b event batch batch.look.2.signal
  | raise : event = .raise b → Watches b event batch batch.raise.signal

/-- What an event makes of a batch. -/
inductive Batch.Step (f : Factory) (w : Workload) (b : Nat) (event : Event) (batch : Batch) :
    Batch → Prop
  | keep {signal} : batch.Watches b event signal → Step f w b event batch { batch with signal }
  | start {i passage e signal} : batch.Watches b event signal → event = .begin b i →
      batch.item? i = some ⟨passage, .waiting⟩ → w.pool.executor? = some e →
      Step f w b event batch
        ({ batch with signal }.advance i (.running e (w.pool.task passage)))
  | finish {i ending signal} : batch.Watches b event signal → Ends f w b i event ending →
      Step f w b event batch ({ batch with signal }.conclude i ending)

/-- What an event makes of a passage. -/
inductive Progress.Step (f : Factory) (w : Workload) (b i : Nat) (passage : Passage) (event : Event)
    (progress : Progress) : Progress → Prop
  | keep : Step f w b i passage event progress progress
  | start {e} : event = .begin b i → progress = .waiting → w.pool.executor? = some e →
      Step f w b i passage event progress (.running e (w.pool.task passage))
  | finish {ending} : Ends f w b i event ending → Step f w b i passage event progress (.ended ending)

/-- What is answered for a batch, once it is. -/
def Workload.answer? (w : Workload) (b : Nat) : Option (Except Crash (List Result)) :=
  (w.batch? b).bind Batch.answer?

/-- The result of a passage that has one. -/
def Workload.result? (w : Workload) (b i : Nat) : Option Result :=
  (w.item? b i).bind Item.result?

/-- A workload whose pool has started its first executor. -/
def Workload.started (slots : Nat) : Workload :=
  ⟨{ model := ⟨"m", ""⟩, slots, executor? := some 1, stage := .ready, starts := 1 }, []⟩

/-- Texts as the passages of one file. -/
def Passage.ofTexts (texts : List Text) : List Passage :=
  texts.mapIdx fun index text => { file := [], path := [], index, text }

theorem Result.tells_ofOutcome (passage : Passage) (outcome : Except String Vec) :
    (ofOutcome passage outcome).Tells passage outcome := by
  cases outcome with
  | ok v => exact ⟨rfl, by simp [ofOutcome], by simp [ofOutcome], rfl⟩
  | error message => exact ⟨rfl, by simp [ofOutcome, failed], by simp [ofOutcome, failed], rfl⟩

namespace Pool

variable {f : Factory} {p : Pool} {b i e : Nat}

theorem IsReady.isReady (h : p.IsReady e) : p.isReady = true := by
  rw [Pool.isReady, h.stage, h.executor?]
  rfl

theorem start_of_ok (h : f (p.starts + 1) = .ok ()) :
    p.start f = (.ok (), { p with starts := p.starts + 1, executor? := some (p.starts + 1) }) := by
  simp only [start, h]

theorem start_of_error {cause : Fault} (h : f (p.starts + 1) = .error cause) :
    p.start f = (.error cause, { p with starts := p.starts + 1 }) := by
  simp only [start, h]

theorem restart_of_not_isReady (h : ¬p.IsReady e) : p.restart f e = (.ok (), p) := by
  rw [restart, if_pos]
  by_contra hnone
  rw [not_or, not_not, not_not] at hnone
  exact h ⟨hnone.2, hnone.1⟩

theorem restart_of_isReady (h : p.IsReady e) :
    p.restart f e = { p with shut := p.shut ++ [e] }.start f := by
  rw [restart, if_neg]
  rw [not_or, not_not, not_not]
  exact ⟨h.executor?, h.stage⟩

theorem step_makeReady : Step f p .makeReady (p.makeReady f).2 := by
  rw [makeReady]
  split
  · exact .keep _
  · exact .keep _
  · rename_i hidle
    cases hf : f (p.starts + 1) with
    | ok => rw [start_of_ok hf]; exact .start hidle hf
    | error cause => rw [start_of_error hf]; exact .startFailed hidle hf

theorem step_restart (told : String) : Step f p (.settle b i (.broke told)) (p.restart f e).2 := by
  by_cases hready : p.IsReady e
  · rw [restart_of_isReady hready]
    cases hf : f (p.starts + 1) with
    | ok =>
      rw [start_of_ok (p := { p with shut := p.shut ++ [e] }) hf]
      exact .restart hready hf
    | error cause =>
      rw [start_of_error (p := { p with shut := p.shut ++ [e] }) hf]
      exact .restartFailed hready hf
  · rw [restart_of_not_isReady hready]
    exact .keep _

theorem settles_settle (passage : Passage) (fate : Fate) :
    p.Settles f e passage fate (p.settle f e passage fate).1 := by
  cases fate with
  | returned outcome =>
    rw [settle]
    split
    · exact .dropped ‹_›
    · exact .returned ‹_› (Result.tells_ofOutcome passage outcome)
  | raised cause =>
    cases he : p.executor? with
    | none => rw [settle, he]; exact .raisedLate he
    | some e' => rw [settle, he]; exact .raised he
  | broke told =>
    by_cases hready : p.IsReady e
    · cases hf : f (p.starts + 1) with
      | ok =>
        rw [settle, restart_of_isReady hready, start_of_ok (p := { p with shut := p.shut ++ [e] }) hf]
        exact .broke fun _ => hf
      | error cause =>
        rw [settle, restart_of_isReady hready,
          start_of_error (p := { p with shut := p.shut ++ [e] }) hf]
        exact .brokeForGood hready hf
    · rw [settle, restart_of_not_isReady hready]
      exact .broke fun h => absurd h hready
  | withdrawn => exact .withdrawn
  | revoked =>
    cases he : p.executor? with
    | none => rw [settle, he]; exact .revokedLate he
    | some e' => rw [settle, he]; exact .revoked he

end Pool

theorem Item.result?_eq_some_iff {item : Item} {r : Result} :
    item.result? = some r ↔ item.progress = .ended (.ok r) := by
  rw [result?]
  split <;> simp_all

namespace Batch

variable {batch : Batch} {i j : Nat}

theorem item?_advance (progress : Progress) :
    (batch.advance i progress).item? j =
      if i = j then (batch.item? j).map fun item => { item with progress } else batch.item? j := by
  rw [advance, item?, item?, List.getElem?_modify]
  split <;> simp

theorem items_conclude (ending : Except Crash Result) :
    (batch.conclude i ending).items = (batch.advance i (.ended ending)).items := by
  cases ending <;> rfl

theorem item?_signal (signal : Option Signal) :
    ({ batch with signal } : Batch).item? i = batch.item? i := rfl

theorem passages_advance (progress : Progress) :
    (batch.advance i progress).items.map Item.passage = batch.items.map Item.passage := by
  apply List.ext_getElem?
  intro j
  rw [advance, List.getElem?_map, List.getElem?_map, List.getElem?_modify]
  split
  · cases batch.items[j]? <;> rfl
  · simp

theorem item?_conclude (ending : Except Crash Result) :
    (batch.conclude i ending).item? j =
      if i = j then (batch.item? j).map fun item => { item with progress := .ended ending }
      else batch.item? j := by
  rw [item?, items_conclude]
  exact item?_advance _

theorem Step.exists_item {f : Factory} {w : Workload} {b : Nat} {event : Event} {batch' : Batch}
    {passage : Passage} {progress : Progress} (h : Step f w b event batch batch')
    (hitem : batch.item? i = some ⟨passage, progress⟩) : ∃ progress',
      batch'.item? i = some ⟨passage, progress'⟩ ∧
        Progress.Step f w b i passage event progress progress' := by
  cases h with
  | keep => exact ⟨progress, hitem, .keep⟩
  | @start j passage' e signal _ hevent hwaiting he =>
    rw [item?_advance]
    by_cases hj : j = i
    · subst hj
      rw [hwaiting, Option.some.injEq, Item.mk.injEq] at hitem
      obtain ⟨rfl, hprogress⟩ := hitem
      rw [if_pos rfl, item?_signal, hwaiting]
      exact ⟨_, rfl, .start hevent hprogress.symm he⟩
    · rw [if_neg hj]
      exact ⟨progress, hitem, .keep⟩
  | @finish j ending signal _ hends =>
    rw [item?_conclude]
    by_cases hj : j = i
    · subst hj
      rw [if_pos rfl, item?_signal, hitem]
      exact ⟨_, rfl, .finish hends⟩
    · rw [if_neg hj]
      exact ⟨progress, hitem, .keep⟩

theorem Step.exists_prior {f : Factory} {w : Workload} {b : Nat} {event : Event} {batch' : Batch}
    {passage : Passage} {progress' : Progress} (h : Step f w b event batch batch')
    (hitem' : batch'.item? i = some ⟨passage, progress'⟩) : ∃ progress,
      batch.item? i = some ⟨passage, progress⟩ ∧
        Progress.Step f w b i passage event progress progress' := by
  cases hitem : batch.item? i with
  | none =>
    have hnone : batch'.item? i = none := by
      cases h with
      | keep => exact hitem
      | start => rw [item?_advance, item?_signal, hitem]; exact ite_self _
      | finish => rw [item?_conclude, item?_signal, hitem]; exact ite_self _
    rw [hnone] at hitem'
    cases hitem'
  | some item =>
    obtain ⟨passage', progress⟩ := item
    obtain ⟨progress'', hitem'', hprogress⟩ := h.exists_item hitem
    rw [hitem', Option.some.injEq, Item.mk.injEq] at hitem''
    obtain ⟨rfl, rfl⟩ := hitem''
    exact ⟨progress, rfl, hprogress⟩

theorem Step.watches {f : Factory} {w : Workload} {b : Nat} {event : Event} {batch' : Batch}
    (h : Step f w b event batch batch') : batch.Watches b event batch'.signal := by
  cases h with
  | keep hwatches => exact hwatches
  | start hwatches => exact hwatches
  | @finish _ ending _ hwatches => cases ending <;> exact hwatches

theorem Step.passages_eq {f : Factory} {w : Workload} {b : Nat} {event : Event} {batch' : Batch}
    (h : Step f w b event batch batch') :
    batch'.items.map Item.passage = batch.items.map Item.passage := by
  cases h with
  | keep => rfl
  | start => exact passages_advance _
  | finish => rw [items_conclude]; exact passages_advance _

theorem answer?_eq_error_iff {crash : Crash} :
    batch.answer? = some (.error crash) ↔ batch.crash = some crash := by
  rw [answer?]
  cases batch.crash <;> simp

theorem answer?_eq_ok_iff {rs : List Result} : batch.answer? = some (.ok rs) ↔
    batch.crash = none ∧ batch.items.map Item.result? = rs.map some := by
  have hmapM (items : List Item) : ∀ rs,
      items.mapM Item.result? = some rs ↔ items.map Item.result? = rs.map some := by
    induction items with
    | nil => intro rs; cases rs <;> simp
    | cons item items ih =>
      intro rs
      simp only [List.mapM_cons, Option.bind_eq_bind, Option.bind_eq_some_iff, Option.pure_def,
        Option.some.injEq, ih]
      cases rs <;> simp
  rw [answer?]
  cases batch.crash with
  | some crash => simp
  | none => simp [hmapM]

theorem exists_result_of_answer {rs : List Result} {item : Item}
    (h : batch.answer? = some (.ok rs)) (hitem : batch.item? i = some item) :
    ∃ r, rs[i]? = some r ∧ item.progress = .ended (.ok r) := by
  have hmap := congrArg (·[i]?) (answer?_eq_ok_iff.mp h).2
  simp only [List.getElem?_map] at hmap
  rw [← item?, hitem, Option.map_some, eq_comm, Option.map_eq_some_iff] at hmap
  obtain ⟨r, hr, hresult⟩ := hmap
  exact ⟨r, hr, Item.result?_eq_some_iff.mp hresult.symm⟩

theorem exists_item_of_answer {rs : List Result} {r : Result}
    (h : batch.answer? = some (.ok rs)) (hr : rs[i]? = some r) :
    ∃ passage, batch.item? i = some ⟨passage, .ended (.ok r)⟩ := by
  have hmap := congrArg (·[i]?) (answer?_eq_ok_iff.mp h).2
  simp only [List.getElem?_map] at hmap
  rw [← item?, hr, Option.map_some, Option.map_eq_some_iff] at hmap
  obtain ⟨⟨passage, progress⟩, hitem, hresult⟩ := hmap
  cases Item.result?_eq_some_iff.mp hresult
  exact ⟨passage, hitem⟩

theorem eq_map_of_answer {rs : List Result} (h : batch.answer? = some (.ok rs)) :
    rs = batch.items.map fun item => item.result?.getD (.notReady item.passage) := by
  refine List.ext_getElem? fun i => ?_
  have hmap := congrArg (·[i]?) (answer?_eq_ok_iff.mp h).2
  simp only [List.getElem?_map] at hmap ⊢
  cases hitem : batch.items[i]? with
  | none => rw [hitem] at hmap; exact Option.map_eq_none_iff.mp hmap.symm
  | some item =>
    rw [hitem, Option.map_some, eq_comm, Option.map_eq_some_iff] at hmap
    obtain ⟨r, hr, hresult⟩ := hmap
    rw [hr, Option.map_some, ← hresult, Option.getD_some]

theorem length_of_answer {rs : List Result} (h : batch.answer? = some (.ok rs)) :
    rs.length = batch.items.length := by
  have hlength := congrArg List.length (answer?_eq_ok_iff.mp h).2
  rw [List.length_map, List.length_map] at hlength
  exact hlength.symm

end Batch

namespace Workload

variable {f : Factory} {w : Workload} {b i : Nat} {batch : Batch}

theorem batch?_modify (b' : Nat) (g : Batch → Batch) :
    (w.modify b g).batch? b' = if b = b' then (w.batch? b').map g else w.batch? b' := by
  rw [modify, batch?, batch?, List.getElem?_modify]
  split <;> simp

theorem item?_eq_some_iff {item : Item} :
    w.item? b i = some item ↔ ∃ batch, w.batch? b = some batch ∧ batch.item? i = some item :=
  Option.bind_eq_some_iff

theorem exists_item_of_ends {event : Event} {ending : Except Crash Result}
    (h : Ends f w b i event ending) : ∃ passage progress, w.item? b i = some ⟨passage, progress⟩ ∧
      ∀ ending', progress ≠ .ended ending' := by
  cases h with
  | notReady hitem => exact ⟨_, _, hitem, nofun⟩
  | cancelled hbatch hitem | givenUp hbatch hitem =>
    exact ⟨_, _, item?_eq_some_iff.mpr ⟨_, hbatch, hitem⟩, nofun⟩
  | settled hitem => exact ⟨_, _, hitem, nofun⟩

theorem exists_modify_begin (b i : Nat) : ∃ g, w.begin b i = w.modify b g := by
  have hkeep : ∃ g, w = w.modify b g := ⟨id, by rw [modify, List.modify_id]⟩
  rw [begin]
  split
  · exact hkeep
  · split
    · split
      · exact hkeep
      · split <;> exact ⟨_, rfl⟩
    · exact hkeep

theorem exists_modify_look (b i : Nat) : ∃ g, w.look b i = w.modify b g := by
  have hkeep : ∃ g, w = w.modify b g := ⟨id, by rw [modify, List.modify_id]⟩
  rw [look]
  split
  · exact hkeep
  · split
    · exact ⟨_, rfl⟩
    · exact hkeep

/-- An event starts an executor, shuts executors down, or leaves the pool to its model. -/
theorem pool_step (event : Event) : Pool.Step f w.pool event (w.step f event).pool := by
  cases event with
  | makeReady => exact Pool.step_makeReady
  | dispose => exact .dispose
  | setModel name path => exact .setModel name path
  | call | raise => exact .keep _
  | begin b i =>
    obtain ⟨g, hg⟩ := exists_modify_begin (w := w) b i
    rw [step, hg]
    exact .keep _
  | look b i =>
    obtain ⟨g, hg⟩ := exists_modify_look (w := w) b i
    rw [step, hg]
    exact .keep _
  | settle b i fate =>
    rw [step, settle]
    split
    · split
      · cases fate with
        | broke told => exact Pool.step_restart told
        | returned | raised | withdrawn | revoked => exact .keep _
      · exact .keep _
    · exact .keep _

/-- A pool that is ready stays as it is, up to its model, until it is disposed of or an executor
breaks. -/
theorem pool_step_of_ready {e : Nat} (event : Event) (hready : w.pool.IsReady e)
    (hdispose : event ≠ .dispose) (hbroke : ∀ b i told, event ≠ .settle b i (.broke told)) :
    (w.step f event).pool = w.pool ∨ ∃ name path, event = .setModel name path ∧
      (w.step f event).pool = w.pool.setModel name path := by
  have hstep := pool_step (f := f) (w := w) event
  generalize (w.step f event).pool = p at hstep ⊢
  cases hstep with
  | keep => exact .inl rfl
  | setModel name path => exact .inr ⟨name, path, rfl, rfl⟩
  | start hidle | startFailed hidle => rw [hready.stage] at hidle; cases hidle
  | restart | restartFailed => exact absurd rfl (hbroke _ _ _)
  | dispose => exact absurd rfl hdispose

theorem slots_step (event : Event) : (w.step f event).pool.slots = w.pool.slots := by
  have hstep := pool_step (f := f) (w := w) event
  generalize (w.step f event).pool = p at hstep ⊢
  cases hstep <;> rfl

theorem batch?_call (passages : List Passage) (signal : Option Signal) :
    (w.call passages signal).batch? w.batches.length = some
      { items := passages.map fun passage =>
          ⟨passage, if w.pool.isReady then .waiting else .ended (.ok (.notReady passage))⟩
        signal } :=
  List.getElem?_concat_length

/-- What there is of a passage when its batch is taken in. -/
theorem of_item?_call {passages : List Passage} {signal : Option Signal} {passage : Passage}
    {progress : Progress}
    (h : (w.call passages signal).item? w.batches.length i = some ⟨passage, progress⟩) :
    passages[i]? = some passage ∧
      progress = if w.pool.isReady then .waiting else .ended (.ok (.notReady passage)) := by
  rw [item?, batch?_call, Option.bind_some, Batch.item?, List.getElem?_map,
    Option.map_eq_some_iff] at h
  obtain ⟨passage', hget, heq⟩ := h
  obtain ⟨rfl, rfl⟩ := Item.mk.inj heq
  exact ⟨hget, rfl⟩

theorem length_batches_step {event : Event} (h : ∀ passages signal, event ≠ .call passages signal) :
    (w.step f event).batches.length = w.batches.length := by
  cases event with
  | makeReady | dispose | setModel => rfl
  | call passages signal => exact absurd rfl (h passages signal)
  | begin b i =>
    obtain ⟨g, hg⟩ := exists_modify_begin (w := w) b i
    rw [step, hg, modify, List.length_modify]
  | look b i =>
    obtain ⟨g, hg⟩ := exists_modify_look (w := w) b i
    rw [step, hg, modify, List.length_modify]
  | settle b i fate =>
    rw [step, settle]
    split
    · split
      · exact List.length_modify _ _ _
      · rfl
    · rfl
  | raise b => exact List.length_modify _ _ _

theorem exists_call {batch' : Batch} {event : Event} (h : w.batch? b = none)
    (h' : (w.step f event).batch? b = some batch') :
    ∃ passages signal, event = .call passages signal := by
  by_contra hcall
  push Not at hcall
  have hlength := length_batches_step (f := f) (w := w) hcall
  rw [batch?, List.getElem?_eq_none_iff, ← hlength] at h
  rw [batch?, List.getElem?_eq_none h] at h'
  cases h'

theorem exists_step_begin (h : w.batch? b = some batch) (b' i : Nat) :
    ∃ batch', (w.begin b' i).batch? b = some batch' ∧
      Batch.Step f w b (.begin b' i) batch batch' := by
  have hkeep : ∃ batch', w.batch? b = some batch' ∧ Batch.Step f w b (.begin b' i) batch batch' :=
    ⟨batch, h, .keep .keep⟩
  rw [begin]
  split
  · exact hkeep
  · rename_i other hother
    split
    · rename_i passage hitem
      split
      · exact hkeep
      · -- A passage of another batch leaves this one as it is.
        by_cases hb : b' = b
        · subst hb
          rw [hother, Option.some.injEq] at h
          subst h
          split
          · rename_i hnone
            refine ⟨_, by rw [batch?_modify, if_pos rfl, hother]; rfl, ?_⟩
            exact .finish .keep
              (.notReady (item?_eq_some_iff.mpr ⟨other, hother, hitem⟩) hnone)
          · rename_i e he
            refine ⟨_, by rw [batch?_modify, if_pos rfl, hother]; rfl, ?_⟩
            split
            · exact .finish .look (.cancelled hother hitem ‹_›)
            · exact .start .look rfl hitem he
        · split <;> exact ⟨batch, by rw [batch?_modify, if_neg hb, h], .keep .keep⟩
    · exact hkeep

theorem exists_step_look (h : w.batch? b = some batch) (b' i : Nat) :
    ∃ batch', (w.look b' i).batch? b = some batch' ∧
      Batch.Step f w b (.look b' i) batch batch' := by
  have hkeep : ∃ batch', w.batch? b = some batch' ∧ Batch.Step f w b (.look b' i) batch batch' :=
    ⟨batch, h, .keep .keep⟩
  rw [look]
  split
  · exact hkeep
  · rename_i other hother
    split
    · rename_i passage e task hitem
      by_cases hb : b' = b
      · subst hb
        rw [hother, Option.some.injEq] at h
        subst h
        refine ⟨_, by rw [batch?_modify, if_pos rfl, hother]; rfl, ?_⟩
        split
        · exact .finish .look (.givenUp hother hitem ‹_›)
        · exact .keep .look
      · exact ⟨batch, by rw [batch?_modify, if_neg hb, h], .keep .keep⟩
    · exact hkeep

theorem batch?_settle {passage : Passage} {e : Nat} {task : Task} {fate : Fate}
    (hitem : w.item? b i = some ⟨passage, .running e task⟩) (hallows : w.allows e fate = true)
    (b' : Nat) : (w.settle f b i fate).batch? b' =
      if b = b' then (w.batch? b').map (·.conclude i (w.pool.settle f e passage fate).1)
      else w.batch? b' := by
  rw [settle, hitem]
  dsimp only
  rw [if_pos hallows, batch?_modify]
  rfl

theorem exists_step_settle (h : w.batch? b = some batch) (b' i : Nat) (fate : Fate) :
    ∃ batch', (w.settle f b' i fate).batch? b = some batch' ∧
      Batch.Step f w b (.settle b' i fate) batch batch' := by
  have hkeep : ∃ batch', w.batch? b = some batch' ∧
      Batch.Step f w b (.settle b' i fate) batch batch' := ⟨batch, h, .keep .keep⟩
  by_cases hdone : ∃ passage e task, w.item? b' i = some ⟨passage, .running e task⟩ ∧ w.allows e fate
  · obtain ⟨passage, e, task, hitem, hallows⟩ := hdone
    rw [batch?_settle hitem hallows, h]
    by_cases hb : b' = b
    · subst hb
      rw [if_pos rfl]
      exact ⟨_, rfl, .finish .keep (.settled hitem hallows (Pool.settles_settle _ _))⟩
    · rw [if_neg hb]
      exact ⟨batch, rfl, .keep .keep⟩
  · rw [settle]
    split
    · rw [if_neg fun hallows => hdone ⟨_, _, _, ‹_›, hallows⟩]
      exact hkeep
    · exact hkeep

/-- An event keeps a batch, begins with one of its passages, or ends one. -/
theorem exists_step (h : w.batch? b = some batch) (event : Event) :
    ∃ batch', (w.step f event).batch? b = some batch' ∧ Batch.Step f w b event batch batch' := by
  cases event with
  | makeReady | dispose | setModel => exact ⟨batch, h, .keep .keep⟩
  | call passages signal =>
    obtain ⟨hlt, -⟩ := List.getElem?_eq_some_iff.mp h
    exact ⟨batch, (List.getElem?_append_left hlt).trans h, .keep .keep⟩
  | begin b' i => exact exists_step_begin h b' i
  | look b' i => exact exists_step_look h b' i
  | settle b' i fate => exact exists_step_settle h b' i fate
  | raise b' =>
    by_cases hb : b' = b
    · refine ⟨_, by rw [step, batch?_modify, if_pos hb, h]; rfl, ?_⟩
      exact .keep (.raise (congrArg _ hb))
    · exact ⟨batch, by rw [step, batch?_modify, if_neg hb, h], .keep .keep⟩

/-- An event keeps a passage where it is, begins with it, or ends it. -/
theorem exists_item_step {passage : Passage} {progress : Progress}
    (h : w.item? b i = some ⟨passage, progress⟩) (event : Event) :
    ∃ progress', (w.step f event).item? b i = some ⟨passage, progress'⟩ ∧
      Progress.Step f w b i passage event progress progress' := by
  obtain ⟨batch, hbatch, hitem⟩ := item?_eq_some_iff.mp h
  obtain ⟨batch', hbatch', hstep⟩ := exists_step (f := f) hbatch event
  obtain ⟨progress', hitem', hprogress⟩ := hstep.exists_item hitem
  exact ⟨progress', item?_eq_some_iff.mpr ⟨batch', hbatch', hitem'⟩, hprogress⟩

/-- A passage comes into being by a call, and waits unless the pool has no executor. -/
theorem exists_item_call {item : Item} {event : Event} (h : w.item? b i = none)
    (h' : (w.step f event).item? b i = some item) :
    ∃ passages signal, event = .call passages signal ∧ item.progress =
      if w.pool.isReady then .waiting else .ended (.ok (.notReady item.passage)) := by
  obtain ⟨batch', hbatch', hitem⟩ := item?_eq_some_iff.mp h'
  cases hbatch : w.batch? b with
  | none =>
    obtain ⟨passages, signal, rfl⟩ := exists_call hbatch hbatch'
    have hlength : b = w.batches.length := by
      obtain ⟨hlt, -⟩ := List.getElem?_eq_some_iff.mp hbatch'
      rw [step, call, List.length_append, List.length_singleton] at hlt
      exact Nat.le_antisymm (Nat.le_of_lt_succ hlt) (List.getElem?_eq_none_iff.mp hbatch)
    subst hlength
    rw [step, batch?_call, Option.some.injEq] at hbatch'
    subst hbatch'
    obtain ⟨passage, -, rfl⟩ := List.mem_map.mp (List.mem_of_getElem? hitem)
    exact ⟨passages, signal, rfl, rfl⟩
  | some batch =>
    have hnone : batch.item? i = none := by
      rw [item?, hbatch] at h
      exact h
    obtain ⟨batch'', hbatch'', hstep⟩ := exists_step (f := f) hbatch event
    rw [hbatch', Option.some.injEq] at hbatch''
    subst hbatch''
    obtain ⟨progress, hprior, -⟩ := hstep.exists_prior hitem
    rw [hnone] at hprior
    cases hprior

theorem result?_eq_some_iff {r : Result} :
    w.result? b i = some r ↔ ∃ passage, w.item? b i = some ⟨passage, .ended (.ok r)⟩ := by
  rw [result?, Option.bind_eq_some_iff]
  constructor
  · rintro ⟨⟨passage, progress⟩, hitem, hr⟩
    cases Item.result?_eq_some_iff.mp hr
    exact ⟨passage, hitem⟩
  · rintro ⟨passage, hitem⟩
    exact ⟨_, hitem, rfl⟩

/-- A result is that of a call without an executor, or of an event that ends its passage. -/
theorem result?_step_cases {r : Result} {event : Event} (h : w.result? b i = none)
    (h' : (w.step f event).result? b i = some r) :
    (∃ passage, r = .notReady passage ∧ w.pool.isReady = false) ∨ Ends f w b i event (.ok r) := by
  obtain ⟨passage', hitem'⟩ := result?_eq_some_iff.mp h'
  cases hitem : w.item? b i with
  | none =>
    obtain ⟨-, -, -, hprogress⟩ := exists_item_call hitem hitem'
    split at hprogress
    · cases hprogress
    · rename_i hready
      obtain rfl : r = .notReady passage' := by
        rw [Progress.ended.injEq, Except.ok.injEq] at hprogress
        exact hprogress
      exact .inl ⟨_, rfl, Bool.eq_false_iff.mpr hready⟩
  | some item =>
    obtain ⟨passage, progress⟩ := item
    obtain ⟨progress', hprogress', hstep⟩ := exists_item_step (f := f) hitem event
    rw [hitem', Option.some.injEq, Item.mk.injEq] at hprogress'
    obtain ⟨rfl, rfl⟩ := hprogress'
    cases hstep with
    | keep => rw [result?, hitem] at h; cases h
    | finish hends => exact .inr hends

/-- What has ended stays as it is. -/
theorem item?_step_of_ended {passage : Passage} {ending : Except Crash Result}
    (h : w.item? b i = some ⟨passage, .ended ending⟩) (event : Event) :
    (w.step f event).item? b i = some ⟨passage, .ended ending⟩ := by
  obtain ⟨progress', hitem', hstep⟩ := exists_item_step (f := f) h event
  cases hstep with
  | keep => exact hitem'
  | start _ hwaiting => cases hwaiting
  | finish hends =>
    obtain ⟨passage', progress, hitem, hne⟩ := exists_item_of_ends hends
    rw [h, Option.some.injEq, Item.mk.injEq] at hitem
    exact absurd hitem.2.symm (hne ending)

theorem item?_run_of_ended {passage : Passage} {ending : Except Crash Result}
    (h : w.item? b i = some ⟨passage, .ended ending⟩) (later : List Event) :
    (w.run f later).item? b i = some ⟨passage, .ended ending⟩ := by
  induction later generalizing w with
  | nil => exact h
  | cons event later ih => exact ih (item?_step_of_ended h event)

end Workload

end SourceIndex.Embedding
