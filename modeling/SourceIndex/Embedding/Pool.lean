import SourceIndex.Embedding.Worker

/-! Pools hand tasks to an executor. A pool starts an executor when it is made ready, another one in
place of an executor that broke, and none once it is disposed of. -/

namespace SourceIndex.Embedding

/-- A passage of a file to be embedded: the file, its path, the number of the passage in the file, and
its text with the position where that starts. -/
structure Passage where
  file : Text
  path : Text
  index : Nat
  text : Text
  offset : Nat := 0
  deriving DecidableEq, Repr

/-- Where a pool stands in its life. -/
inductive Stage where
  | idle
  | ready
  | disposed
  deriving DecidableEq, Repr

/-- What starts executors: whether the start of a number succeeds. -/
abbrev Factory := Nat → Except Fault Unit

/-- A pool: the model and the options for its tasks, how many tasks it carries out at a time, the
executor that tasks go to, how many starts it has attempted, and the executors it has shut down, oldest
first. Executors are numbered from one by the order of their starts. -/
structure Pool where
  model : ModelRef
  options : Options := {}
  slots : Nat
  executor? : Option Nat := none
  stage : Stage := .idle
  starts : Nat := 0
  shut : List Nat := []

/-- Why a pool was not made ready. -/
inductive ReadyError where
  | disposed
  | start (cause : Fault)
  deriving DecidableEq, Repr

def ReadyError.message : ReadyError → String
  | .disposed => "EmbeddingWorkerPool has been disposed"
  | .start cause => cause.text

/-- How an executor is done with a task: it carried the task out, raised a fault, broke, reported that
the task was cancelled, or was shut down before it came to the task. -/
inductive Fate where
  | returned (outcome : Except String Vec)
  | raised (cause : Fault)
  | broke (text : String)
  | withdrawn
  | revoked

/-- What a passage gets from a pool: a vector, or what is told where there is none, and whether it was
cancelled. -/
structure Result where
  passage : Passage
  vector? : Option Vec
  message? : Option String
  isCancelled : Bool := false
  deriving DecidableEq, Repr

/-- What ends a task without a result: no executor could be started in place of a broken one, or the
task's executor was shut down while the pool went on. -/
inductive Crash where
  | restart (cause : Fault)
  | revoked
  deriving DecidableEq, Repr

namespace Result

def failed (passage : Passage) (message : String) : Result :=
  ⟨passage, none, some message, false⟩

def cancelled (passage : Passage) : Result :=
  ⟨passage, none, some "Operation cancelled", true⟩

def notReady (passage : Passage) : Result :=
  .failed passage "Service not initialized"

/-- The result of a task that was carried out. -/
def ofOutcome (passage : Passage) : Except String Vec → Result
  | .ok v => ⟨passage, some v, none, false⟩
  | .error message => .failed passage message

end Result

namespace Pool

/-- Whether batches are taken in. -/
def isReady (p : Pool) : Bool :=
  p.stage == .ready && p.executor?.isSome

/-- What a worker is told of a passage. -/
def task (passage : Passage) (p : Pool) : Task :=
  ⟨passage.text, p.model, p.options⟩

/-- Starts an executor for the tasks to come. -/
def start (f : Factory) (p : Pool) : Except Fault Unit × Pool :=
  let p := { p with starts := p.starts + 1 }
  match f p.starts with
  | .ok _ => (.ok (), { p with executor? := some p.starts })
  | .error cause => (.error cause, p)

def makeReady (f : Factory) (p : Pool) : Except ReadyError Unit × Pool :=
  match p.stage with
  | .ready => (.ok (), p)
  | .disposed => (.error .disposed, p)
  | .idle =>
    match p.start f with
    | (.ok _, p) => (.ok (), { p with stage := .ready })
    | (.error cause, p) => (.error (.start cause), p)

def dispose (p : Pool) : Pool :=
  { p with stage := .disposed, executor? := none, shut := p.shut ++ p.executor?.toList }

/-- Changes the model, and its path if one is given. -/
def setModel (name : String) (path : Option String) (p : Pool) : Pool :=
  { p with model := ⟨name, path.getD p.model.path⟩ }

/-- Starts an executor in place of a broken one, unless that was done already or the pool is disposed
of. -/
def restart (f : Factory) (broken : Nat) (p : Pool) : Except Fault Unit × Pool :=
  if p.executor? ≠ some broken ∨ p.stage ≠ .ready then (.ok (), p)
  else { p with shut := p.shut ++ [broken] }.start f

/-- How a task of an executor ends by its fate. Once the pool is disposed of, nothing that an executor
carried out counts. -/
def settle (f : Factory) (executor : Nat) (passage : Passage) (fate : Fate) (p : Pool) :
    Except Crash Result × Pool :=
  match fate with
  | .returned outcome =>
    (.ok (if p.stage = .disposed then .notReady passage else .ofOutcome passage outcome), p)
  | .raised cause =>
    (.ok (if p.executor?.isNone then .notReady passage else .failed passage cause.message), p)
  | .broke text =>
    let (result, p) := p.restart f executor
    ((result.map fun _ => .failed passage ("Worker failed: " ++ text)).mapError .restart, p)
  | .withdrawn => (.ok (.cancelled passage), p)
  | .revoked => (if p.executor?.isNone then .ok (.notReady passage) else .error .revoked, p)

end Pool

end SourceIndex.Embedding
