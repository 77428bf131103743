import SourceIndex.Embedding.Worker

/-! Hosts carry out tasks in a context. A context has two registers, one for a model and one for the
name that the model was loaded under. A host makes its context when a task first needs one, and may be
told to drop it or to take a new one. -/

namespace SourceIndex.Embedding

/-- The registers of a context. -/
structure Context where
  model : Option Model := none
  name : Option String := none

/-- A host: where its models come from, the loads it has attempted, oldest first, and its context. -/
structure Host where
  source : ModelSource
  loads : List ModelRef := []
  context : Option Context := none

/-- What is reported of a task: its vector, or what is told of its failure. -/
structure Report where
  vector : Option Vec
  error : Option String := none
  deriving DecidableEq, Repr

/-- What a host is asked for: to embed a text, to carry out a task and report of it, to let go of its
model, to take a new context, or to drop its context. -/
inductive Request where
  | embed (task : Task)
  | process (task : Task)
  | dispose
  | renew
  | drop

/-- What a host answers. -/
inductive Reply where
  | embedded (vector : Vec)
  | raised (error : EmbedError)
  | reported (report : Report)
  | done

def Context.release (c : Context) : Context :=
  { c with model := none, name := none }

/-- Clears the registers, if there is a model to let go of. -/
def Context.dispose (c : Context) : Context :=
  if c.model.isSome then c.release else c

namespace Host

/-- The context, which is new if there was none. -/
def current (h : Host) : Context :=
  h.context.getD {}

/-- The model that is kept. -/
def model? (h : Host) : Option Model :=
  h.current.model

/-- The name that is recorded. -/
def name? (h : Host) : Option String :=
  h.current.name

/-- Loads a model into the registers of a context; they are cleared if the load fails. -/
def load (h : Host) (c : Context) (ref : ModelRef) : Except Fault Model × Host :=
  let result := h.source h.loads ref
  let h := { h with loads := h.loads ++ [ref] }
  match result with
  | .ok model =>
    let c := { c with model := some model }
    (.ok model, { h with context := some { c with name := some ref.name } })
  | .error cause => (.error cause, { h with context := some { c with model := none, name := none } })

/-- The model of a task: the one that is kept, if it is recorded under the name asked for. Any other is
let go of before a load. -/
def model (h : Host) (ref : ModelRef) : Except Fault Model × Host :=
  let c := h.current
  match c.model with
  | some model =>
    if c.name = some ref.name then (.ok model, { h with context := some c })
    else h.load c.release ref
  | none => h.load c ref

def embed (h : Host) (task : Task) : Except EmbedError Vec × Host :=
  match h.model task.model with
  | (.error cause, h) => (.error (.load cause), h)
  | (.ok model, h) => (Worker.vector model task, h)

/-- Carries out a task and reports of it. No context is needed for a blank text. -/
def process (h : Host) (task : Task) : Report × Host :=
  if Text.isBlank task.text then ({ vector := some [] }, h)
  else
    match h.embed task with
    | (.ok vector, h) => ({ vector := some vector }, h)
    | (.error e, h) => ({ vector := none, error := some e.message }, h)

def step (h : Host) : Request → Reply × Host
  | .embed task =>
    match h.embed task with
    | (.ok vector, h) => (.embedded vector, h)
    | (.error e, h) => (.raised e, h)
  | .process task =>
    let (report, h) := h.process task
    (.reported report, h)
  | .dispose => (.done, { h with context := h.context.map Context.dispose })
  | .renew => (.done, { h with context := some {} })
  | .drop => (.done, { h with context := none })

/-- Does what is asked for, one request after another. -/
def run (h : Host) (requests : List Request) : Host :=
  requests.foldl (fun h request => (h.step request).2) h

end Host

end SourceIndex.Embedding
