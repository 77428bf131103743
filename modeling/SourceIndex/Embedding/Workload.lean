import SourceIndex.Embedding.Pool
import SourceIndex.Signal

/-! Workloads: a pool and the batches of passages given to it. What can happen next is an event; which
of the possible events does is left open, so that a run of a workload is any list of events. -/

namespace SourceIndex.Embedding

/-- How far a passage of a batch has come. -/
inductive Progress where
  | waiting
  | running (executor : Nat) (task : Task)
  | ended (ending : Except Crash Result)

structure Item where
  passage : Passage
  progress : Progress := .waiting

/-- Passages given to a pool together, the signal that may cancel them, and the first crash among
them. -/
structure Batch where
  items : List Item
  signal : Option Signal := none
  crash : Option Crash := none

/-- A pool and its batches, oldest first. -/
structure Workload where
  pool : Pool
  batches : List Batch := []

/-- What can happen next. Batches, and the passages of a batch, are named by their positions. -/
inductive Event where
  | makeReady
  | dispose
  | setModel (name : String) (path : Option String)
  | call (passages : List Passage) (signal : Option Signal)
  | begin (batch item : Nat)
  | look (batch item : Nat)
  | settle (batch item : Nat) (fate : Fate)
  | raise (batch : Nat)

/-- The result of a passage that has one. -/
def Item.result? (item : Item) : Option Result :=
  match item.progress with
  | .ended (.ok r) => some r
  | _ => none

/-- Whether an executor has the passage. -/
def Item.isRunning (item : Item) : Bool :=
  match item.progress with
  | .running .. => true
  | _ => false

namespace Batch

/-- The item at a position. -/
def item? (b : Batch) (i : Nat) : Option Item :=
  b.items[i]?

/-- Sets how far a passage has come. -/
def advance (i : Nat) (progress : Progress) (b : Batch) : Batch :=
  { b with items := b.items.modify i fun item => { item with progress } }

/-- Ends a passage. -/
def conclude (i : Nat) (ending : Except Crash Result) (b : Batch) : Batch :=
  let b := b.advance i (.ended ending)
  match ending with
  | .ok _ => b
  | .error crash => { b with crash := b.crash <|> some crash }

def look (b : Batch) : Bool × Batch :=
  let (raised, signal) := Signal.look? b.signal
  (raised, { b with signal })

/-- Raises the signal, if there is one. -/
def raise (b : Batch) : Batch :=
  { b with signal := b.signal.map Signal.raise }

/-- How many passages executors have. -/
def runningCount (b : Batch) : Nat :=
  b.items.countP Item.isRunning

/-- What is answered for the batch: the first crash, or all results once there are as many as
passages. -/
def answer? (b : Batch) : Option (Except Crash (List Result)) :=
  match b.crash with
  | some crash => some (.error crash)
  | none => (b.items.mapM Item.result?).map .ok

end Batch

namespace Workload

def batch? (w : Workload) (b : Nat) : Option Batch :=
  w.batches[b]?

/-- The item of a batch. -/
def item? (w : Workload) (b i : Nat) : Option Item :=
  (w.batch? b).bind fun batch => batch.item? i

def modify (b : Nat) (g : Batch → Batch) (w : Workload) : Workload :=
  { w with batches := w.batches.modify b g }

/-- Takes in a batch; if the pool is not ready, that is the result of each passage. -/
def call (passages : List Passage) (signal : Option Signal) (w : Workload) : Workload :=
  let items := passages.map fun passage =>
    ⟨passage, if w.pool.isReady then .waiting else .ended (.ok (.notReady passage))⟩
  { w with batches := w.batches ++ [{ items, signal }] }

/-- Begins with a waiting passage while there is a slot for it: it goes to the executor unless the
signal is raised. -/
def begin (b i : Nat) (w : Workload) : Workload :=
  match w.batch? b with
  | none => w
  | some batch =>
    match batch.item? i with
    | some ⟨passage, .waiting⟩ =>
      if w.pool.slots ≤ batch.runningCount then w
      else
        match w.pool.executor? with
        | none => w.modify b (·.conclude i (.ok (.notReady passage)))
        | some e =>
          let (raised, batch) := batch.look
          w.modify b fun _ =>
            if raised then batch.conclude i (.ok (.cancelled passage))
            else batch.advance i (.running e (w.pool.task passage))
    | _ => w

/-- Looks at the signal while an executor has a passage, and gives the passage up if the signal is
raised. -/
def look (b i : Nat) (w : Workload) : Workload :=
  match w.batch? b with
  | none => w
  | some batch =>
    match batch.item? i with
    | some ⟨passage, .running ..⟩ =>
      let (raised, batch) := batch.look
      w.modify b fun _ => if raised then batch.conclude i (.ok (.cancelled passage)) else batch
    | _ => w

/-- Whether a fate can be that of a task: only an executor that was shut down revokes its tasks. -/
def allows (w : Workload) (executor : Nat) : Fate → Bool
  | .revoked => w.pool.shut.contains executor
  | _ => true

/-- Ends a passage that an executor has by its fate. -/
def settle (f : Factory) (b i : Nat) (fate : Fate) (w : Workload) : Workload :=
  match w.item? b i with
  | some ⟨passage, .running e _⟩ =>
    if w.allows e fate then
      let (ending, pool) := w.pool.settle f e passage fate
      { w with pool }.modify b (·.conclude i ending)
    else w
  | _ => w

/-- Lets an event happen; one that cannot happen changes nothing. -/
def step (f : Factory) (w : Workload) : Event → Workload
  | .makeReady => { w with pool := (w.pool.makeReady f).2 }
  | .dispose => { w with pool := w.pool.dispose }
  | .setModel name path => { w with pool := w.pool.setModel name path }
  | .call passages signal => w.call passages signal
  | .begin b i => w.begin b i
  | .look b i => w.look b i
  | .settle b i fate => w.settle f b i fate
  | .raise b => w.modify b Batch.raise

/-- Lets events happen one after another. -/
def run (f : Factory) (w : Workload) (events : List Event) : Workload :=
  events.foldl (step f) w

theorem run_append (f : Factory) (w : Workload) (before after : List Event) :
    w.run f (before ++ after) = (w.run f before).run f after :=
  List.foldl_append

end Workload

end SourceIndex.Embedding
