import TransferLoad.Artifact.File
import TransferLoad.Run.Engine
import TransferLoad.Run.Quota

/-!
# A run from beginning to end

The settings are checked, the artifact is created, the budget is split over the workers, and the
workers run to their ends. A report of everything is written to the end of the artifact. Only what
goes wrong before the workers start is a failure of the run; whatever happens later is counted.
-/

namespace TransferLoad

structure RunInput where
  settings : RunSettings
  senders : List Account
  recipients : List Address
  client : Client
  signer : Signer := ed25519Signer
  cancelAt : Option Nat := none
  files : FileTree := {}
  startedAt : Text.Timestamp.Instant
  /-- Used where the settings fix no seed. -/
  freshSeed : UInt64 := 0

/-- Everything a run leaves behind. Lists of what has happened have the latest first. -/
structure RunRecord where
  result : Except Failure FinalReport
  senders : List Account
  files : FileTree
  calls : List Call := []
  attempts : List Attempt := []
  settlements : List Settlement := []
  console : List ProgressLine := []
  notices : List Notice := []

namespace RunInput

def header (r : RunInput) : RunHeader where
  label := r.settings.label
  startedAt := r.startedAt
  fields := [
    ("Senders", toString r.senders.length),
    ("Workers", toString r.settings.workers.toNat),
    ("Recipients", toString r.recipients.length),
    ("Chain ID", toString r.settings.chainId.toNat),
    ("Target TPS", toString r.settings.targetTps.toNat),
    ("Duration", toString r.settings.durationSecs.toNat ++ " seconds")]

def seed (r : RunInput) : UInt64 := r.settings.seed.getD r.freshSeed

/-- The worker with the given number and quota. Workers take the senders in turn. -/
def worker (r : RunInput) (hsenders : 0 < r.senders.length) (quota id : Nat) : Worker where
  summary := { id, quota }
  sender := id % r.senders.length
  key := (r.senders.get ⟨id % r.senders.length, Nat.mod_lt _ hsenders⟩).key
  selector := .ofPolicy r.settings.recipientPolicy r.seed id

def workers (r : RunInput) (hsenders : 0 < r.senders.length) : List Worker :=
  r.settings.plan.quotas.mapIdx fun id quota => r.worker hsenders quota id

def reporter (r : RunInput) : Reporter where
  planned := r.settings.plan.totalBudget
  targetTps := r.settings.targetTps
  period := r.settings.reportIntervalMs.toNat

/-- What is said before the workers start, the latest first. -/
def opening (r : RunInput) : List Notice :=
  .starting r.settings.workers.toNat r.senders.length r.settings.targetTps.toNat
      r.settings.durationSecs.toNat r.settings.plan.scheduled (r.settings.pacingDelay / 1000) ::
    if 0 < r.settings.plan.dropped then
      [.budgetRemainder r.settings.plan.dropped r.settings.plan.totalBudget r.settings.workers.toNat]
    else []

def report {ω : Type} (r : RunInput) (e : Engine ω) : FinalReport :=
  let actualTps := ratePerSecond e.shared.tally.sent (nanosOfMillis e.now)
  { sent := e.shared.tally.sent
    errors := e.shared.tally.errors
    planned := r.settings.plan.totalBudget
    scheduled := r.settings.plan.scheduled
    totalTime := nanosOfMillis e.now
    targetTps := r.settings.targetTps
    actualTps
    deviation := deviationPercent actualTps r.settings.targetTps
    interrupted := e.workers.any (·.summary.cancelled)
    unrecorded := e.shared.sink.unrecorded
    workers := e.workers.map (·.summary) }

def conclude {ω : Type} [Writer ω] (report : FinalReport) (shared : Shared ω) : Shared ω :=
  let shared := if 0 < report.unrecorded then
    shared.notify (.identifiersMissing report.unrecorded) else shared
  let (result, sink) := shared.sink.writeSummary report
  let shared := { shared with sink }
  let shared := match result with
    | .ok () => shared
    | .error cause => shared.notify (.summaryFailed (.io cause))
  shared.notify
    (.finished report.sent report.errors report.actualTps report.deviation report.interrupted)

def context (r : RunInput) (hrecipients : 0 < r.recipients.length) : RunContext where
  settings := r.settings
  recipients := r.recipients
  recipients_pos := hrecipients
  client := r.client
  signer := r.signer
  cancelAt := r.cancelAt

/-- What the workers share when they start writing into an artifact. -/
def shared {ω : Type} (r : RunInput) (sink : ResultSink ω) : Shared ω where
  sink
  counters := r.senders.map (·.sequence)
  notices := r.opening

/-- The workers of a run when all of them have come to their ends, whatever the artifact is written
to. -/
def engine {ω : Type} [Writer ω] (r : RunInput) (sink : ResultSink ω)
    (hsenders : 0 < r.senders.length) (hrecipients : 0 < r.recipients.length) : Engine ω :=
  Engine.run (r.context hrecipients) (some r.reporter) (r.shared sink) (r.workers hsenders)

def runInto (r : RunInput) (artifact : ArtifactFile) (files : FileTree)
    (hsenders : 0 < r.senders.length) (hrecipients : 0 < r.recipients.length) : RunRecord :=
  let e := r.engine artifact.sink hsenders hrecipients
  let report := r.report e
  let shared := conclude report e.shared
  { result := .ok report
    senders := List.zipWith (fun a counter => { a with sequence := counter }) r.senders shared.counters
    files := { artifact with sink := shared.sink }.close files
    calls := shared.calls
    attempts := shared.attempts
    settlements := shared.settlements
    console := e.console
    notices := shared.notices }

/-- A run that does not start. -/
def refusal (r : RunInput) (cause : Failure) (files : FileTree) : RunRecord :=
  { result := .error cause, senders := r.senders, files }

def run (r : RunInput) : RunRecord :=
  match r.settings.validate with
  | .error cause => r.refusal cause r.files
  | .ok () =>
    if hsenders : 0 < r.senders.length then
      if hrecipients : 0 < r.recipients.length then
        match ArtifactFile.create r.files r.settings.output r.header with
        | (.error cause, files) => r.refusal cause files
        | (.ok artifact, files) => r.runInto artifact files hsenders hrecipients
      else r.refusal (.invalidConfig "no recipient accounts") r.files
    else r.refusal (.invalidConfig "no sender accounts") r.files

end RunInput

end TransferLoad
