import TransferLoad.Artifact.Basic
import TransferLoad.FileTree
import TransferLoad.Provisioning

/-!
# Verification

The identifiers of an artifact are read back and the node is asked about each of them, a number of
them at a time. Answers are taken as they arrive: a lookup that takes no time is answered at once, the
others when their time has come, in the order in which they fall due.
-/

namespace TransferLoad

structure VerificationReport where
  total : Nat
  known : Nat := 0
  unknown : Nat := 0
  failed : Nat := 0
  samples : List String := []
  deriving Repr, DecidableEq

namespace VerificationReport

def render (r : VerificationReport) : String :=
  "=== VERIFICATION RESULTS ===\n" ++
    "Checked: " ++ toString r.total ++ "\n" ++
    "Known to node: " ++ toString r.known ++ "\n" ++
    "Unknown: " ++ toString r.unknown ++ "\n" ++
    "Lookup failures: " ++ toString r.failed ++
    String.join (r.samples.map fun sample => "\n  " ++ sample)

def maxSamples : Nat := 10

def checked (r : VerificationReport) : Nat := r.known + r.unknown + r.failed

/-- Takes one answer. -/
def take (r : VerificationReport) (identifier : String) : Except Failure TransferStatus → VerificationReport
  | .ok .known =>
    { r with
      known := r.known + 1
      samples := if r.samples.length < maxSamples then r.samples ++ [identifier] else r.samples }
  | .ok .unknown => { r with unknown := r.unknown + 1 }
  | .error _ => { r with failed := r.failed + 1 }

end VerificationReport

/-! ### Lookups under way -/

/-- A lookup whose answer is still to come. -/
structure Lookup where
  identifier : String
  answer : Except Failure TransferStatus
  due : Nat

inductive Ready where
  /-- It has not been asked yet. -/
  | fresh (identifier : String)
  | answered (identifier : String) (answer : Except Failure TransferStatus)

structure Checker where
  remaining : List String
  queue : List Ready := []
  /-- Lookups that wait, in the order in which they were asked. -/
  waiting : List Lookup := []
  report : VerificationReport
  journal : Journal

namespace Checker

/-- Starts further lookups as long as fewer than `width` are under way. -/
def fill (width : Nat) (v : Checker) : Checker :=
  let room := width - (v.queue.length + v.waiting.length)
  { v with
    remaining := v.remaining.drop room
    queue := v.queue ++ (v.remaining.take room).map .fresh }

def conclude (v : Checker) (identifier : String) (answer : Except Failure TransferStatus) : Checker :=
  let report := v.report.take identifier answer
  { v with
    report
    journal := if report.checked % 100 = 0
      then v.journal.notify (.checked report.checked report.total) else v.journal }

/-- The earliest time at which a waiting lookup is answered. -/
def nextDue (first : Lookup) (rest : List Lookup) : Nat :=
  rest.foldl (fun time lookup => min time lookup.due) first.due

/-- Lets the first lookup in the queue go on or, when the queue is empty, time. Without either there is
nothing left to do. -/
def step (client : Client) (width : Nat) (v : Checker) : Option Checker :=
  match v.queue, v.waiting with
  | .answered identifier answer :: queue, _ =>
    some (({ v with queue }.conclude identifier answer).fill width)
  | .fresh identifier :: queue, waiting =>
    let reply := client.status v.journal.calls v.journal.now identifier
    let v := { v with queue, journal := v.journal.note (.status identifier) }
    if reply.latency = 0 then some ((v.conclude identifier reply.answer).fill width)
    else
      let lookup := { identifier, answer := reply.answer, due := v.journal.now + reply.latency }
      some { v with waiting := waiting ++ [lookup] }
  | [], first :: rest =>
    let time := nextDue first rest
    let (answered, waiting) := (first :: rest).partition (·.due ≤ time)
    some { v with
      waiting
      queue := answered.map fun lookup => .answered lookup.identifier lookup.answer
      journal := v.journal.moveTo time }
  | [], [] => none

def loop (client : Client) (width : Nat) : (steps : Nat) → Checker → Checker
  | 0, v => v
  | steps + 1, v =>
    match v.step client width with
    | none => v
    | some v => loop client width steps v

end Checker

/-- Asks about every identifier, so many at a time and at least one. Each identifier is asked about,
perhaps waited for, and answered, which makes three steps at most. -/
def verifyIdentifiers (client : Client) (identifiers : List String) (concurrency : Nat)
    (j : Journal) : VerificationReport × Journal :=
  let width := max concurrency 1
  let v : Checker :=
    { remaining := identifiers, report := { total := identifiers.length }, journal := j }
  let v := (v.fill width).loop client width (3 * identifiers.length)
  (v.report, v.journal)

def verifyArtifact (client : Client) (files : FileTree) (path : String) (concurrency : Nat)
    (j : Journal) : Except Failure VerificationReport × Journal :=
  match files.read (Path.ofText path) with
  | .error cause => (.error (.io cause), j)
  | .ok bytes =>
    match Text.Utf8.decode bytes with
    | .error _ => (.error (.io .notText), j)
    | .ok contents =>
      let identifiers := readIdentifiers contents
      let (report, j) :=
        verifyIdentifiers client identifiers concurrency (j.notify (.verifying identifiers.length path))
      (.ok report, j)

end TransferLoad
