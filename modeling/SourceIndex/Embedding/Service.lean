import SourceIndex.Embedding.Workload

/-! Services: a workload together with a worker and executors, so that what happens next is settled.
Turns are taken from a queue in the order in which they came up. A passage takes a turn to enter, waits
in line while all slots are taken, hears of its fate some turns after that was known, and is counted in
the turn after its end. Only when no turn is left do passages that an executor holds look at the
signal. -/

namespace SourceIndex.Embedding

/-- What an executor does with a task: carries it out at once, keeps it without an end, refuses it, or
takes it and ends it by a fate of its own. -/
inductive Reception where
  | run
  | hold
  | refuse (fate : Fate)
  | answer (fate : Fate)

/-- An executor, as what it does with the task of each text. -/
abbrev Executor := Text → Reception

/-- Where executors come from: what the start of a number gives. -/
abbrev Site := Nat → Except Fault Executor

/-- A passage of a batch by its positions. -/
structure Ticket where
  batch : Nat
  item : Nat
  deriving DecidableEq, Repr

/-- What there is to do next. -/
inductive Turn where
  | enter (ticket : Ticket)
  | proceed (ticket : Ticket)
  | hear (delay : Nat) (ticket : Ticket) (fate : Fate)
  | count (ticket : Ticket)
  | finish (batch : Nat)

/-- The way of a batch to the executor: the free slots, the passages in line for one, how many passages
were counted, and whether the batch is over. -/
structure Lane where
  free : Nat
  line : List Nat := []
  counted : Nat := 0
  isOver : Bool := false

/-- What is done in the course of a submission: after so many of them the signal is raised, or the pool
is disposed of. -/
structure Interventions where
  raiseAt : Option Nat := none
  disposeAt : Option Nat := none

/-- A pool at work. -/
structure Service where
  site : Site
  worker : Worker
  workload : Workload
  lanes : List Lane := []
  queue : List Turn := []
  held : List Ticket := []
  submissions : Nat := 0
  interventions : Interventions := {}

namespace Service

def pool (s : Service) : Pool :=
  s.workload.pool

/-- Which starts succeed. -/
def factory (s : Service) : Factory :=
  fun k => (s.site k).map fun _ => ()

def push (turns : List Turn) (s : Service) : Service :=
  { s with queue := s.queue ++ turns }

/-- How many turns pass between a fate and the turn in which a passage hears of it; one that also
watches a signal hears of it one turn later. -/
def delay (s : Service) (t : Ticket) : Nat :=
  match s.workload.batch? t.batch with
  | some ⟨_, some _, _⟩ => 2
  | _ => 1

/-- Whether the executor that holds a passage was shut down. -/
def isRevoked (s : Service) (t : Ticket) : Bool :=
  match s.workload.item? t.batch t.item with
  | some ⟨_, .running e _⟩ => s.pool.shut.contains e
  | _ => false

/-- Lets an event happen. Passages that an executor held until it was shut down will hear of that. -/
def happen (e : Event) (s : Service) : Service :=
  let s := { s with workload := s.workload.step s.factory e }
  let (revoked, held) := s.held.partition s.isRevoked
  { s with held }.push (revoked.map fun t => .hear (s.delay t) t .revoked)

def setLane (b : Nat) (lane : Lane) (s : Service) : Service :=
  { s with lanes := s.lanes.set b lane }

def lane (s : Service) (b : Nat) : Lane :=
  s.lanes.getD b ⟨0, [], 0, true⟩

/-- Gives the slot of a passage that has ended to the first in line, and has the passage counted. -/
def leave (t : Ticket) (s : Service) : Service :=
  let lane := s.lane t.batch
  match lane.line with
  | [] => (s.setLane t.batch { lane with free := lane.free + 1 }).push [.count t]
  | i :: line => (s.setLane t.batch { lane with line }).push [.proceed ⟨t.batch, i⟩, .count t]

/-- Does what is to be done in the course of this submission. -/
def intervene (b : Nat) (s : Service) : Service :=
  let s := if s.interventions.raiseAt = some s.submissions then s.happen (.raise b) else s
  if s.interventions.disposeAt = some s.submissions then s.happen .dispose else s

/-- Ends a passage by its fate. -/
def settle (t : Ticket) (fate : Fate) (s : Service) : Service :=
  (s.happen (.settle t.batch t.item fate)).leave t

/-- Submits a task to an executor. -/
def submit (t : Ticket) (executor : Nat) (task : Task) (s : Service) : Service :=
  let s := { s with submissions := s.submissions + 1 }
  match ((s.site executor).map fun accept => accept task.text).toOption.getD .hold with
  | .hold => { s with held := s.held ++ [t] }.intervene t.batch
  | .refuse fate => (s.intervene t.batch).settle t fate
  | .answer fate =>
    let s := s.intervene t.batch
    s.push [.hear (s.delay t) t fate]
  | .run =>
    let s := s.intervene t.batch
    let (outcome, worker) := s.worker.process task
    { s with worker }.push [.hear (s.delay t) t (.returned outcome)]

/-- Begins with a passage that has a slot. -/
def begin (t : Ticket) (s : Service) : Service :=
  let s := s.happen (.begin t.batch t.item)
  match s.workload.item? t.batch t.item with
  | some ⟨_, .running e task⟩ => s.submit t e task
  | _ => s.leave t

/-- Takes a slot, or a place in line. -/
def enter (t : Ticket) (s : Service) : Service :=
  let lane := s.lane t.batch
  if lane.free = 0 then s.setLane t.batch { lane with line := lane.line ++ [t.item] }
  else (s.setLane t.batch { lane with free := lane.free - 1 }).begin t

/-- Counts a passage that has ended. A batch is over once all its passages are counted, or one that
crashed. -/
def count (t : Ticket) (s : Service) : Service :=
  let lane := { s.lane t.batch with counted := (s.lane t.batch).counted + 1 }
  match s.workload.batch? t.batch with
  | none => s
  | some batch =>
    let crashed := match batch.item? t.item with
      | some ⟨_, .ended (.error _)⟩ => true
      | _ => false
    if !lane.isOver && (crashed || lane.counted == batch.items.length) then
      (s.setLane t.batch { lane with isOver := true }).push [.finish t.batch]
    else s.setLane t.batch lane

def take (s : Service) : Turn → Service
  | .enter t => s.enter t
  | .proceed t => s.begin t
  | .hear 0 t fate => s.settle t fate
  | .hear (n + 1) t fate => s.push [.hear n t fate]
  | .count t => s.count t
  | .finish _ => s

/-- What happens when no turn is left: if the signal rises sooner or later, the held passages of the
batch look at it in order until they are given up. -/
def wait? (b : Nat) (s : Service) : Option Service :=
  let (mine, held) := s.held.partition (·.batch == b)
  let rises := ((s.workload.batch? b).bind Batch.signal).any Signal.rises
  if mine.isEmpty || !rises then none
  else
    let s := { s with held }
    some <| mine.foldl (fun s t => (s.happen (.look t.batch t.item)).leave t) (s.happen (.raise b))

/-- Takes turns until a batch is over; `fuel` bounds their number. -/
def drain (b : Nat) : Nat → Service → Service
  | 0, s => s
  | fuel + 1, s =>
    match s.queue with
    | turn :: queue =>
      let s := { s with queue }
      match turn with
      | .finish c => if c = b then s else drain b fuel s
      | turn => drain b fuel (s.take turn)
    | [] =>
      match s.wait? b with
      | some s => drain b fuel s
      | none => s

/-- More turns than there can be: a passage takes at most six, and a batch one. -/
def turnBound (s : Service) : Nat :=
  s.workload.batches.foldl (fun n batch => n + 8 * (batch.items.length + 1)) s.queue.length

/-- Takes turns until there is none; `fuel` bounds their number. -/
def exhaust : Nat → Service → Service
  | 0, s => s
  | fuel + 1, s =>
    match s.queue with
    | [] => s
    | turn :: queue => exhaust fuel ({ s with queue }.take turn)

/-- Takes all turns that there are. A batch that a crash has ended leaves some for its other
passages. -/
def rest (s : Service) : Service :=
  s.exhaust s.turnBound

/-- What is answered for a batch; a passage that has not ended counts as one that could not begin. -/
def answer (s : Service) (b : Nat) : Except Crash (List Result) :=
  match s.workload.batch? b with
  | none => .ok []
  | some batch => batch.answer?.getD (.ok (batch.items.map fun item =>
      item.result?.getD (.notReady item.passage)))

/-- Gives a batch of passages to the pool, and takes turns until it is over. -/
def generate (passages : List Passage) (signal : Option Signal) (interventions : Interventions)
    (s : Service) : Except Crash (List Result) × Service :=
  let b := s.workload.batches.length
  let s := s.happen (.call passages signal)
  let lane : Lane := { free := s.pool.slots }
  let s := { s with lanes := s.lanes ++ [lane], submissions := 0, interventions }
  if ((s.workload.batch? b).bind Batch.answer?).isSome then (s.answer b, s)
  else
    let s := s.push ((List.range passages.length).map fun i => .enter ⟨b, i⟩)
    let s := s.drain b s.turnBound
    (s.answer b, s)

def makeReady (s : Service) : Except ReadyError Unit × Service :=
  ((s.pool.makeReady s.factory).1, s.happen .makeReady)

def dispose (s : Service) : Service :=
  s.happen .dispose

/-- Uses the pool between making it ready and disposing of it. -/
def within {α : Type} (use : Service → α × Service) (s : Service) : Except ReadyError α × Service :=
  match s.makeReady with
  | (.error e, s) => (.error e, s)
  | (.ok _, s) =>
    let (a, s) := use s
    (.ok a, s.dispose)

end Service

end SourceIndex.Embedding
