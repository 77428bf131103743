import SourceIndex.Embedding.Host

/-!
# What a host keeps

The model for a task is the one that is kept, or that of a load (`Host.Gets`); nothing else changes the
registers of a context but letting go of it. So both registers are set or none is, and what is kept is
what the last load gave under the name recorded (`Host.IsSound`). Then a host does with a task what a
worker does that keeps model and name as one entry (`Host.process_eq`), and what it loads and records
can be told from the request and the name recorded before (`Host.keeps_run`).
-/

namespace SourceIndex.Embedding

/-- The task that a request needs a model for. -/
def Request.task? : Request → Option Task
  | .embed task => some task
  | .process task => if Text.isBlank task.text then none else some task
  | .dispose | .renew | .drop => none

def Report.ofOutcome : Except String Vec → Report
  | .ok vector => { vector := some vector }
  | .error message => { vector := none, error := some message }

namespace Host

/-- The worker that keeps what the registers hold. -/
def worker (h : Host) : Worker where
  source := h.source
  loads := h.loads
  cached := h.name?.bind fun name => h.model?.map fun model => (name, model)

/-- The load that a request brings about: that of its model, unless the name is recorded. -/
def attempt? (h : Host) (request : Request) : Option ModelRef :=
  (request.task?.map Task.model).filter fun ref => h.name? ≠ some ref.name

/-- The host behind a load, which has set both registers or none. -/
def loading (h : Host) (ref : ModelRef) : Host where
  source := h.source
  loads := h.loads ++ [ref]
  context := some {
    model := (h.source h.loads ref).toOption
    name := (h.source h.loads ref).toOption.map fun _ => ref.name }

/-- Both registers are set or none is, and a model that is kept is what the last load gave, which was
made under the name recorded. -/
structure IsSound (h : Host) : Prop where
  paired : h.model?.isSome = h.name?.isSome
  loaded : ∀ model, h.model? = some model → ∃ before ref, h.loads = before ++ [ref] ∧
    h.name? = some ref.name ∧ h.source before ref = .ok model

/-- The model for a task is the one that is kept under its name, or that of a load. -/
inductive Gets (h : Host) (ref : ModelRef) : Except Fault Model × Host → Prop
  | kept {model} : h.model? = some model → h.name? = some ref.name →
      Gets h ref (.ok model, { h with context := some h.current })
  | loaded : h.name? ≠ some ref.name → Gets h ref (h.source h.loads ref, h.loading ref)

/-- What holds of a host at any time, and of what it does next. -/
structure Keeps (h : Host) : Prop extends h.IsSound where
  loads : ∀ request, (h.step request).2.loads = h.loads ++ (h.attempt? request).toList
  name : ∀ request task, request.task? = some task → (h.step request).2.name? =
    if h.name? = some task.model.name ∨ (h.source h.loads task.model).isOk then
      some task.model.name
    else none
  released : ∀ request ∈ [Request.dispose, .renew, .drop], (h.step request).2.name? = none
  blank : ∀ task, Text.isBlank task.text = true →
    h.step (.process task) = (.reported { vector := some [] }, h)
  reports : ∀ task, ∃ report, (h.step (.process task)).1 = .reported report ∧
    report.vector.isSome = report.error.isNone
  worker : ∀ task, (h.process task).1 = .ofOutcome (h.worker.process task).1 ∧
    (h.process task).2.worker = (h.worker.process task).2

variable {h : Host} {ref : ModelRef} {task : Task} {request : Request}
  {out : Except Fault Model × Host}

/-! ## The model for a task -/

theorem load_eq (c : Context) : h.load c ref = (h.source h.loads ref, h.loading ref) := by
  rw [load, loading]
  dsimp only
  cases h.source h.loads ref <;> rfl

theorem IsSound.gets (hsound : h.IsSound) (ref : ModelRef) : h.Gets ref (h.model ref) := by
  rw [model]
  cases hmodel : h.current.model with
  | some model =>
    dsimp only
    split
    · exact .kept hmodel ‹_›
    · rw [load_eq]
      exact .loaded ‹_›
  | none =>
    dsimp only
    rw [load_eq]
    -- A name without a model would be taken for that of the model asked for.
    refine .loaded fun hname => ?_
    have hnone := hsound.paired
    rw [model?, hmodel, hname] at hnone
    cases hnone

theorem Gets.isSound (hgets : h.Gets ref out) (hsound : h.IsSound) : out.2.IsSound := by
  cases hgets with
  | kept => exact ⟨hsound.paired, hsound.loaded⟩
  | loaded =>
    refine ⟨Option.isSome_map.symm, fun model hkept => ?_⟩
    have hsource : h.source h.loads ref = .ok model := by
      rw [model?, current, loading, Option.getD_some] at hkept
      cases hresult : h.source h.loads ref with
      | ok =>
        rw [hresult] at hkept
        exact congrArg _ (Option.some.inj hkept)
      | error =>
        rw [hresult] at hkept
        cases hkept
    refine ⟨h.loads, ref, rfl, ?_, hsource⟩
    rw [name?, current, loading, Option.getD_some, hsource]
    rfl

theorem Gets.loads_eq (hgets : h.Gets ref out) :
    out.2.loads = h.loads ++ ((some ref).filter fun ref => h.name? ≠ some ref.name).toList := by
  cases hgets with
  | kept hmodel hname =>
    rw [Option.filter_some, if_neg (by simp [hname]), Option.toList_none, List.append_nil]
  | loaded hname =>
    rw [Option.filter_some, if_pos (decide_eq_true hname)]
    rfl

theorem Gets.name?_eq (hgets : h.Gets ref out) :
    out.2.name? =
      if h.name? = some ref.name ∨ (h.source h.loads ref).isOk then some ref.name else none := by
  cases hgets with
  | kept hmodel hname =>
    rw [if_pos (.inl hname)]
    exact hname
  | loaded hname =>
    rw [name?, current, loading, Option.getD_some]
    cases h.source h.loads ref with
    | ok =>
      rw [if_pos (.inr rfl)]
      rfl
    | error =>
      rw [if_neg (by simp [hname, Except.isOk, Except.toBool])]
      rfl

theorem Gets.worker_model (hgets : h.Gets ref out) :
    h.worker.model ref = (out.1, out.2.worker) := by
  cases hgets with
  | kept hmodel hname =>
    rw [Worker.model_of_cached (by rw [worker, hmodel, hname]; rfl)]
    rfl
  | loaded hname =>
    have hload : h.worker.model ref = h.worker.load ref := by
      rw [Worker.model]
      split
      · rename_i name model hcached
        rw [if_neg]
        rintro rfl
        cases hrecorded : h.name? <;> cases hkept : h.model? <;> simp_all [worker]
      · rfl
    rw [hload, Worker.load, Worker.release]
    dsimp only [worker, loading, name?, model?, current, Option.getD_some]
    cases h.source h.loads ref <;> rfl

/-! ## Requests -/

theorem isBlank_of_task? (htask : (Request.process task).task? = none) :
    Text.isBlank task.text = true := by
  rw [Request.task?] at htask
  split at htask
  · assumption
  · cases htask

theorem embed_snd (task : Task) : (h.embed task).2 = (h.model task.model).2 := by
  rw [embed]
  split <;> simp_all

theorem process_snd (hblank : Text.isBlank task.text = false) :
    (h.process task).2 = (h.model task.model).2 := by
  rw [process, hblank, if_neg Bool.false_ne_true, ← embed_snd]
  split <;> simp_all

/-- A request that needs a model leaves the host as getting the model does. -/
theorem step_snd_of_task? (htask : request.task? = some task) :
    (h.step request).2 = (h.model task.model).2 := by
  cases request with
  | embed task' =>
    cases htask
    rw [step, ← embed_snd]
    split <;> simp_all
  | process task' =>
    rw [Request.task?] at htask
    split at htask
    · cases htask
    · rename_i hblank
      cases htask
      exact process_snd (Bool.eq_false_iff.mpr hblank)
  | dispose | renew | drop => cases htask

theorem step_blank (hblank : Text.isBlank task.text = true) :
    h.step (.process task) = (.reported { vector := some [] }, h) := by
  rw [step, process, if_pos hblank]

theorem step_dispose (hsound : h.IsSound) :
    (h.step .dispose).2.model? = none ∧ (h.step .dispose).2.name? = none := by
  have hpaired := hsound.paired
  rw [model?, name?, current] at hpaired
  rw [model?, name?, current, step]
  cases hcontext : h.context with
  | none => exact ⟨rfl, rfl⟩
  | some c =>
    rw [hcontext, Option.getD_some] at hpaired
    rw [Option.map_some, Option.getD_some, Context.dispose]
    split
    · exact ⟨rfl, rfl⟩
    · rename_i hmodel
      rw [Option.not_isSome_iff_eq_none] at hmodel
      rw [hmodel, Option.isSome_none] at hpaired
      exact ⟨hmodel, Option.not_isSome_iff_eq_none.mp (Bool.eq_false_iff.mp hpaired.symm)⟩

theorem step_released (hsound : h.IsSound)
    (hrequest : request ∈ [Request.dispose, .renew, .drop]) :
    (h.step request).2.model? = none ∧ (h.step request).2.name? = none := by
  simp only [List.mem_cons, List.not_mem_nil, or_false] at hrequest
  rcases hrequest with rfl | rfl | rfl
  · exact step_dispose hsound
  · exact ⟨rfl, rfl⟩
  · exact ⟨rfl, rfl⟩

theorem step_loads (hsound : h.IsSound) (request : Request) :
    (h.step request).2.loads = h.loads ++ (h.attempt? request).toList := by
  rw [attempt?]
  cases htask : request.task? with
  | some task => rw [step_snd_of_task? htask, (hsound.gets task.model).loads_eq, Option.map_some]
  | none =>
    rw [Option.map_none, Option.filter_none, Option.toList_none, List.append_nil]
    cases request with
    | embed task => cases htask
    | process task => rw [step_blank (isBlank_of_task? htask)]
    | dispose | renew | drop => rfl

theorem isSound_of_released (hnone : h.model? = none ∧ h.name? = none) : h.IsSound := by
  obtain ⟨hmodel, hname⟩ := hnone
  refine ⟨by rw [hmodel, hname]; rfl, fun model hkept => ?_⟩
  rw [hmodel] at hkept
  cases hkept

theorem isSound_step (hsound : h.IsSound) (request : Request) : (h.step request).2.IsSound := by
  cases htask : request.task? with
  | some task =>
    rw [step_snd_of_task? htask]
    exact (hsound.gets task.model).isSound hsound
  | none =>
    cases request with
    | embed task => cases htask
    | process task =>
      rw [step_blank (isBlank_of_task? htask)]
      exact hsound
    | dispose | renew | drop => exact isSound_of_released (step_released hsound (by simp))

/-! ## One entry for model and name -/

theorem worker_embed (hsound : h.IsSound) (task : Task) :
    h.worker.embed task = ((h.embed task).1, (h.embed task).2.worker) := by
  rw [embed, Worker.embed, (hsound.gets task.model).worker_model]
  rcases h.model task.model with ⟨_ | _, h'⟩ <;> rfl

theorem process_eq (hsound : h.IsSound) (task : Task) :
    (h.process task).1 = .ofOutcome (h.worker.process task).1 ∧
      (h.process task).2.worker = (h.worker.process task).2 := by
  rw [process, Worker.process, worker_embed hsound]
  split
  · exact ⟨rfl, rfl⟩
  · rcases h.embed task with ⟨_ | _, h'⟩ <;> exact ⟨rfl, rfl⟩

theorem process_reports (hsound : h.IsSound) (task : Task) :
    (h.process task).1.vector.isSome = (h.process task).1.error.isNone := by
  rw [(process_eq hsound task).1]
  cases (h.worker.process task).1 <;> rfl

/-! ## Runs -/

theorem isSound_run (hsound : h.IsSound) (requests : List Request) : (h.run requests).IsSound := by
  induction requests generalizing h with
  | nil => exact hsound
  | cons request requests ih => exact ih (isSound_step hsound request)

/-- After any requests, model and name are kept together, each load is accounted for by a request whose
name was not recorded, and a task that is carried out gets a vector or an error. -/
theorem keeps_run (source : ModelSource) (requests : List Request) :
    (({ source } : Host).run requests).Keeps := by
  have hstart : ({ source } : Host).IsSound := isSound_of_released ⟨rfl, rfl⟩
  have hsound := isSound_run hstart requests
  exact {
    toIsSound := hsound
    loads := step_loads hsound
    name := fun _ task htask => step_snd_of_task? htask ▸ (hsound.gets task.model).name?_eq
    released := fun _ hrequest => (step_released hsound hrequest).2
    blank := fun _ hblank => step_blank hblank
    reports := fun task => ⟨_, rfl, process_reports hsound task⟩
    worker := process_eq hsound }

end Host

end SourceIndex.Embedding
