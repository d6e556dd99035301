import TransferLoad.Artifact.Basic
import TransferLoad.Client
import TransferLoad.Notice
import TransferLoad.Run.Recipient

/-!
# Workers

A worker makes transfers for one sender, one after the other, up to its quota. Each attempt picks a
recipient, draws the sender's next number, signs, and hands the bytes to the node. After the answer
the worker pauses for what is left of the pacing delay, counted from the start of the attempt; time
that an answer took beyond the delay is not made up for. A refused signature is followed by the next
attempt at the same instant.

All workers of a run share the counters, the artifact and the sequence numbers. A worker runs without
interruption until it has to wait, and pauses end at the first whole millisecond that is late enough.
-/

namespace TransferLoad

/-! ### What a run is given -/

structure RunContext where
  settings : RunSettings
  recipients : List Address
  recipients_pos : 0 < recipients.length
  client : Client
  signer : Signer
  /-- The time at which the run is cancelled, in milliseconds; at zero, before it starts. -/
  cancelAt : Option Nat := none

/-- Whether the run has not been cancelled at some time. -/
def RunContext.isLiveAt (c : RunContext) (time : Nat) : Bool := c.cancelAt.all (time < ·)

/-! ### What workers share -/

/-- One attempt, with the signed bytes or the refusal to sign. -/
structure Attempt where
  worker : Nat
  time : Nat
  intent : Intent
  signed : Except Failure SignedPayload

inductive Fate where
  | refused
  | accepted (identifier : String)
  | rejected (reason : String)
  | abandoned
  deriving Repr, DecidableEq

structure Settlement where
  worker : Nat
  time : Nat
  intent : Intent
  fate : Fate
  deriving DecidableEq

/-- What all workers of a run read and change. Lists of what has happened have the latest first. -/
structure Shared (ω : Type) where
  tally : Tally := {}
  sink : ResultSink ω
  /-- The counters of the senders, by position. -/
  counters : List SequenceCounter
  /-- How many waits have begun. -/
  waits : Nat := 0
  calls : List Call := []
  attempts : List Attempt := []
  settlements : List Settlement := []
  notices : List Notice := []

namespace Shared

variable {ω : Type}

def notify (s : Shared ω) (notice : Notice) : Shared ω := { s with notices := notice :: s.notices }

/-- Takes the next number of a sender. -/
def draw (s : Shared ω) (sender : Nat) : UInt64 × Shared ω :=
  let counter := s.counters.getD sender {}
  (counter.draw.1, { s with counters := s.counters.set sender counter.draw.2 })

end Shared

/-! ### One worker -/

/-- What a worker waits for. -/
inductive Errand where
  /-- The answer to an attempt that was started at some time. -/
  | answer (intent : Intent) (started : Nat) (outcome : SubmissionOutcome)
  | pause
  deriving DecidableEq

structure Wait where
  due : Nat
  /-- How many waits of the run had begun before. -/
  order : Nat
  errand : Errand
  deriving DecidableEq

structure Worker where
  summary : WorkerSummary
  /-- The position of the sender. -/
  sender : Nat
  key : Crypto.Ed25519.SigningKey
  selector : RecipientSelector
  /-- A worker that waits for nothing is finished. -/
  wait : Option Wait := none

namespace Worker

def address (w : Worker) : Address := ⟨w.key.publicKey⟩

def left (w : Worker) : Nat := w.summary.quota - w.summary.attempted

end Worker

/-- The end of a pause that fills up the pacing delay after an attempt, unless the attempt has already
taken that long. -/
def pauseEnd? (delay started now : Nat) : Option Nat :=
  if nanosOfMillis (now - started) < delay then
    some (millisCovering (nanosOfMillis started + delay))
  else none

section

variable {ω : Type} [Writer ω]

/-- Counts a failed attempt, and reports it as long as the limit is not reached. -/
def Shared.fail (c : RunContext) (s : Shared ω) (w : Worker) (sequence : UInt64) (reason : String) :
    Shared ω :=
  let s := { s with tally := s.tally.add .failed }
  if s.tally.errors ≤ c.settings.errorLogLimit.toNat then
    s.notify (.transferFailed w.summary.id w.address sequence reason)
  else s

/-- Counts an accepted transfer and writes its identifier down. A lost line is reported as long as the
limit is not reached. -/
def Shared.accept (c : RunContext) (s : Shared ω) (w : Worker) (identifier : String) : Shared ω :=
  let s := { s with tally := s.tally.add .sent }
  match s.sink.record identifier with
  | (.ok (), sink) => { s with sink }
  | (.error cause, sink) =>
    let s := { s with sink }
    if sink.unrecorded ≤ c.settings.errorLogLimit.toNat then
      s.notify (.identifierLost w.summary.id identifier (.io cause))
    else s

def Worker.failed (w : Worker) : Worker :=
  { w with summary := { w.summary with errors := w.summary.errors + 1 } }

def Worker.accepted (w : Worker) : Worker :=
  { w with summary := { w.summary with sent := w.summary.sent + 1 } }

def Shared.settle (s : Shared ω) (w : Worker) (time : Nat) (intent : Intent) (fate : Fate) : Shared ω :=
  { s with settlements := ⟨w.summary.id, time, intent, fate⟩ :: s.settlements }

def Worker.lose (c : RunContext) (now : Nat) (intent : Intent) (fate : Fate) (reason : String)
    (s : Shared ω) (w : Worker) : Shared ω × Worker :=
  ((s.settle w now intent fate).fail c w intent.sequence reason, w.failed)

def Worker.gain (c : RunContext) (now : Nat) (intent : Intent) (identifier : String)
    (s : Shared ω) (w : Worker) : Shared ω × Worker :=
  ((s.settle w now intent (.accepted identifier)).accept c w identifier, w.accepted)

def Worker.conclude (c : RunContext) (now : Nat) (intent : Intent) (outcome : SubmissionOutcome)
    (s : Shared ω) (w : Worker) : Shared ω × Worker :=
  match outcome with
  | .success identifier => w.gain c now intent identifier s
  | .failure reason => w.lose c now intent (.rejected reason) reason s

def Worker.await (w : Worker) (due : Nat) (errand : Errand) (s : Shared ω) : Shared ω × Worker :=
  ({ s with waits := s.waits + 1 }, { w with wait := some ⟨due, s.waits, errand⟩ })

def Worker.intend (c : RunContext) (s : Shared ω) (w : Worker) : Intent × Shared ω × Worker :=
  let picked := w.selector.pick w.summary.id w.summary.attempted c.recipients.length
  let recipient := c.recipients.get
    ⟨picked.1, w.selector.pick_lt c.recipients_pos w.summary.id w.summary.attempted⟩
  let (sequence, s) := s.draw w.sender
  let intent : Intent :=
    { sender := w.address, recipient, amount := c.settings.amount, feePrice := c.settings.feePrice
      sequence, chainId := c.settings.chainId }
  (intent, s, { w with
    selector := picked.2
    summary := { w.summary with attempted := w.summary.attempted + 1 } })

def Worker.prepare (c : RunContext) (now : Nat) (s : Shared ω) (w : Worker) :
    Attempt × Shared ω × Worker :=
  let (intent, s, w) := w.intend c s
  let attempt : Attempt := ⟨w.summary.id, now, intent, c.signer intent w.key⟩
  (attempt, { s with attempts := attempt :: s.attempts }, w)

def Shared.submit (s : Shared ω) (now : Nat) (payload : SignedPayload) : Shared ω :=
  { s with calls := ⟨now, .submission payload⟩ :: s.calls }

/-- Begins to pause after an answer, unless the worker can go on at once; says whether it can. -/
def Worker.rest (c : RunContext) (now started : Nat) (s : Shared ω) (w : Worker) :
    Bool × Shared ω × Worker :=
  match pauseEnd? c.settings.pacingDelay started now with
  | some due => (false, w.await due .pause s)
  | none => (true, s, w)

/-- Makes one attempt, and says whether the worker can go on at once. -/
def Worker.attempt (c : RunContext) (now : Nat) (s : Shared ω) (w : Worker) :
    Bool × Shared ω × Worker :=
  let (attempt, s, w) := w.prepare c now s
  match attempt.signed with
  | .error cause => (true, w.lose c now attempt.intent .refused cause.message s)
  | .ok payload =>
    let reply := c.client.submit s.calls now payload
    let outcome := SubmissionOutcome.ofAnswer reply.answer
    let s := s.submit now payload
    if reply.latency = 0 then
      let (s, w) := w.conclude c now attempt.intent outcome s
      w.rest c now now s
    else (false, w.await (now + reply.latency) (.answer attempt.intent now outcome) s)

/-- Goes on with a worker that does not wait, until it waits or has no attempts left. -/
def Worker.proceed (c : RunContext) (now : Nat) :
    (left : Nat) → Shared ω → Worker → Shared ω × Worker
  | 0, s, w => (s, { w with wait := none })
  | left + 1, s, w =>
    match w.attempt c now s with
    | (true, s, w) => proceed c now left s w
    | (false, s, w) => (s, w)

def Worker.resume (c : RunContext) (now : Nat) (errand : Errand) (s : Shared ω) (w : Worker) :
    Shared ω × Worker :=
  match errand with
  | .pause => w.proceed c now w.left s
  | .answer intent started outcome =>
    let (s, w) := w.conclude c now intent outcome s
    match w.rest c now started s with
    | (true, s, w) => w.proceed c now w.left s
    | (false, s, w) => (s, w)

/-- Ends a worker and marks it if it is cut short. -/
def Worker.cancelIf (w : Worker) (condition : Bool) : Worker :=
  { w with wait := none, summary := { w.summary with cancelled := condition } }

/-- Ends a worker that makes no more attempts because the run is cancelled. -/
def Worker.breakOff (w : Worker) : Worker := w.cancelIf (w.summary.attempted < w.summary.quota)

/-- Gives up a transfer that the node has not answered. -/
def Worker.abandon (c : RunContext) (now : Nat) (intent : Intent) (s : Shared ω) (w : Worker) :
    Shared ω × Worker :=
  let (s, w) := w.lose c now intent .abandoned "submission abandoned on shutdown" s
  (s, w.cancelIf true)

/-- The run is cancelled while a worker waits. An answer that arrives at that very time still counts;
otherwise the transfer is given up and counts as failed. -/
def Worker.stop (c : RunContext) (now : Nat) (wait : Wait) (s : Shared ω) (w : Worker) :
    Shared ω × Worker :=
  match wait.errand with
  | .pause => (s, w.breakOff)
  | .answer intent _ outcome =>
    if wait.due ≤ now then
      let (s, w) := w.conclude c now intent outcome s
      (s, w.breakOff)
    else w.abandon c now intent s

/-- A worker begins. When the run is cancelled before, only a worker without any work is not cut
short. -/
def Worker.start (c : RunContext) (s : Shared ω) (w : Worker) : Shared ω × Worker :=
  if c.isLiveAt 0 then w.proceed c 0 w.left s else (s, w.breakOff)

end

end TransferLoad
