import TransferLoad.Run.Reporter
import TransferLoad.Run.Worker

/-!
# The engine

All workers of a run on one clock. Time stands still while a worker can go on and then moves to the
next end of a wait; waits that end together end in the order in which they began. The reporter prints
its lines while time moves. When the run is cancelled, all waits end at once and no worker goes on:
first those that would have ended at that time anyway, then the others, each in the order in which
they began.
-/

namespace TransferLoad

structure Engine (ω : Type) where
  /-- Milliseconds since the start. -/
  now : Nat := 0
  shared : Shared ω
  workers : List Worker
  /-- The lines of progress so far, the latest first. -/
  console : List ProgressLine := []

namespace Engine

variable {ω : Type} [Writer ω]

/-- Workers start one after the other, in the order of the list. -/
def startAll (c : RunContext) : Shared ω → List Worker → Shared ω × List Worker
  | s, [] => (s, [])
  | s, w :: rest =>
    let (s, w) := w.start c s
    let (s, rest) := startAll c s rest
    (s, w :: rest)

def start (c : RunContext) (shared : Shared ω) (workers : List Worker) : Engine ω :=
  let (shared, workers) := startAll c shared workers
  { shared, workers }

end Engine

def Wait.endsBefore (first second : Wait) : Bool :=
  first.due < second.due || (first.due = second.due && first.order < second.order)

/-- The wait that ends first, with the position of its worker, which `index` positions precede. -/
def earliest? : (index : Nat) → List Worker → Option (Nat × Wait)
  | _, [] => none
  | index, w :: rest =>
    match w.wait, earliest? (index + 1) rest with
    | none, later => later
    | some wait, none => some (index, wait)
    | some wait, some (i, other) =>
      if other.endsBefore wait then some (i, other) else some (index, wait)

/-- The waits that have not ended, in the order in which they began, with the positions of their
workers. -/
def openWaits (workers : List Worker) : List (Nat × Wait) :=
  (workers.zipIdx.filterMap fun (w, index) => w.wait.map fun wait => (index, wait)).mergeSort
    fun first second => first.2.order ≤ second.2.order

/-- The open waits in the order in which a cancellation ends them. -/
def closingWaits (time : Nat) (workers : List Worker) : List (Nat × Wait) :=
  let (ending, others) := (openWaits workers).partition fun (_, wait) => wait.due ≤ time
  ending ++ others

namespace Engine

variable {ω : Type} [Writer ω]

/-- Moves the clock; the reporter prints what falls before. -/
def moveTo (reporter : Option Reporter) (time : Nat) (e : Engine ω) : Engine ω :=
  let lines := match reporter with
    | some r => r.linesUntil e.shared.tally e.console.length time
    | none => []
  { e with now := time, console := lines.reverse ++ e.console }

def update (e : Engine ω) (index : Nat) (step : Shared ω → Worker → Shared ω × Worker) : Engine ω :=
  match e.workers[index]? with
  | none => e
  | some w =>
    let (shared, w) := step e.shared w
    { e with shared, workers := e.workers.set index w }

def wake (c : RunContext) (reporter : Option Reporter) (e : Engine ω) (index : Nat) (wait : Wait) :
    Engine ω :=
  (e.moveTo reporter wait.due).update index fun s w => w.resume c wait.due wait.errand s

/-- Ends one wait after the other as long as there is one that ends before the run is cancelled. -/
def advance (c : RunContext) (reporter : Option Reporter) : (steps : Nat) → Engine ω → Engine ω
  | 0, e => e
  | steps + 1, e =>
    match earliest? 0 e.workers with
    | none => e
    | some (index, wait) =>
      if c.isLiveAt wait.due then advance c reporter steps (e.wake c reporter index wait) else e

def close (c : RunContext) (time : Nat) (e : Engine ω) (wait : Nat × Wait) : Engine ω :=
  e.update wait.1 fun s w => w.stop c time wait.2 s

def interrupt (c : RunContext) (reporter : Option Reporter) (e : Engine ω) (time : Nat) : Engine ω :=
  (closingWaits time e.workers).foldl (close c time) (e.moveTo reporter time)

/-- Cancels the run if a worker still waits. -/
def finish (c : RunContext) (reporter : Option Reporter) (e : Engine ω) : Engine ω :=
  match c.cancelAt with
  | none => e
  | some time => if e.workers.any (·.wait.isSome) then e.interrupt c reporter time else e

end Engine

/-- How many waits a worker can still end: at most two for each attempt that is left, one for a pause
and two for an answer. -/
def Worker.potential (w : Worker) : Nat :=
  match w.wait with
  | none => 0
  | some wait =>
    match wait.errand with
    | .pause => 2 * w.left + 1
    | .answer .. => 2 * w.left + 2

namespace Engine

variable {ω : Type} [Writer ω]

def potential (e : Engine ω) : Nat := (e.workers.map Worker.potential).foldr (· + ·) 0

def run (c : RunContext) (reporter : Option Reporter) (shared : Shared ω) (workers : List Worker) :
    Engine ω :=
  let e := start c shared workers
  (e.advance c reporter e.potential).finish c reporter

end Engine

end TransferLoad
