import SourceIndex.Embedding.Model
import SourceIndex.Text.Blank

/-! Workers embed texts one at a time. A worker keeps the model it used last, and loads another one only
when a task asks for another name. -/

namespace SourceIndex.Embedding

/-- What a worker needs to know to embed a text. -/
structure Task where
  text : Text
  model : ModelRef
  options : Options := {}

/-- Why a text was not embedded. -/
inductive EmbedError where
  | load (cause : Fault)
  | encode (cause : Fault)
  | pooling (cause : PoolingError)
  deriving DecidableEq, Repr

def EmbedError.message : EmbedError → String
  | .load cause | .encode cause => cause.text
  | .pooling cause => cause.message

/-- A worker: the loads it has attempted, oldest first, and the model it keeps, with its name. -/
structure Worker where
  source : ModelSource
  loads : List ModelRef := []
  cached : Option (String × Model) := none

namespace Worker

def modelName? (w : Worker) : Option String :=
  w.cached.map Prod.fst

/-- Lets go of the model that is kept. -/
def release (w : Worker) : Worker :=
  { w with cached := none }

/-- Loads a model in place of the one that was kept. -/
def load (w : Worker) (ref : ModelRef) : Except Fault Model × Worker :=
  let w := w.release
  let result := w.source w.loads ref
  (result, { w with
    loads := w.loads ++ [ref]
    cached := result.toOption.map fun model => (ref.name, model) })

/-- The model of a task: the one that is kept if it has the name, else it is loaded. -/
def model (w : Worker) (ref : ModelRef) : Except Fault Model × Worker :=
  match w.cached with
  | some (name, model) => if name = ref.name then (.ok model, w) else w.load ref
  | none => w.load ref

/-- The vector that a model gives for a text. -/
def vector (model : Model) (task : Task) : Except EmbedError Vec :=
  match model task.text with
  | .error cause => .error (.encode cause)
  | .ok output => (pool Single.math task.options output).mapError .pooling

def embed (w : Worker) (task : Task) : Except EmbedError Vec × Worker :=
  match w.model task.model with
  | (.error cause, w) => (.error (.load cause), w)
  | (.ok model, w) => (vector model task, w)

/-- Carries out a task: its vector, or what is told of its failure. A blank text has the empty vector,
for which no model is needed. -/
def process (w : Worker) (task : Task) : Except String Vec × Worker :=
  if Text.isBlank task.text then (.ok [], w)
  else
    let (result, w) := w.embed task
    (result.mapError EmbedError.message, w)

@[simp] theorem modelName?_release (w : Worker) : w.release.modelName? = none := rfl

theorem model_of_cached {w : Worker} {ref : ModelRef} {m : Model}
    (h : w.cached = some (ref.name, m)) : w.model ref = (.ok m, w) := by
  simp [model, h]

end Worker

end SourceIndex.Embedding
