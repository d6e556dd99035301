import TransferLoad.Transfer

/-!
# Settings

What a run is configured with, the values used where nothing is configured, and the quantities that
follow from them. A product that would pass 64 bits stops at the largest such number.
-/

namespace TransferLoad

/-- The largest number of 64 bits. -/
def maxWord : Nat := UInt64.size - 1

inductive RecipientPolicy where
  /-- The recipients in turn, starting from the one at the worker's own position. -/
  | roundRobin
  /-- Drawn from a stream that belongs to the worker and the seed. -/
  | random
  deriving Repr, DecidableEq

/-- What becomes of the transfers that are left when the budget does not divide evenly. -/
inductive RemainderPolicy where
  | truncate
  /-- The first workers make one more each. -/
  | distribute
  deriving Repr, DecidableEq

structure RunSettings where
  targetTps : UInt64 := 500
  durationSecs : UInt64 := 30
  /-- Zero stands for one worker per sender. -/
  workers : UInt64 := 0
  chainId : UInt64 := 32382
  feePrice : Amount := 1000000000
  amount : Amount := 1000000000000
  output : String := "tx_hashes.txt"
  label : String := "Multi-Address Stress Test"
  recipientPolicy : RecipientPolicy := .roundRobin
  seed : Option UInt64 := none
  remainder : RemainderPolicy := .truncate
  errorLogLimit : UInt64 := 10
  reportIntervalMs : UInt64 := 1000
  deriving Repr, DecidableEq

structure PoolSettings where
  senders : UInt64 := 20
  recipients : UInt64 := 100
  deriving Repr, DecidableEq

structure FundingSettings where
  /-- The senders already hold funds; only their counters are looked up. -/
  skip : Bool := false
  funderKey : Option String := none
  fundAmount : Amount := 10000000000000000000000
  minBalance : Amount := 1000000000000000000
  timeoutSecs : UInt64 := 120
  pollIntervalSecs : UInt64 := 3
  deriving Repr, DecidableEq

structure LogSettings where
  level : String := "info"
  format : String := "pretty"
  deriving Repr, DecidableEq

structure Settings where
  rpcUrl : String := "http://127.0.0.1:8080"
  run : RunSettings := {}
  accounts : PoolSettings := {}
  funding : FundingSettings := {}
  log : LogSettings := {}
  metricsAddr : Option String := none
  deriving Repr, DecidableEq

/-! ### Derived quantities -/

/-- Nanoseconds in so many seconds. -/
def nanosOfSecs (seconds : UInt64) : Nat := 1_000_000_000 * seconds.toNat

/-- Nanoseconds in so many milliseconds. -/
def nanosOfMillis (milliseconds : Nat) : Nat := 1_000_000 * milliseconds

/-- The first whole millisecond at which so many nanoseconds have passed. -/
def millisCovering (nanoseconds : Nat) : Nat :=
  nanoseconds / 1_000_000 + if nanoseconds % 1_000_000 = 0 then 0 else 1

namespace RunSettings

/-- The transfers asked for: rate times seconds. -/
def totalBudget (s : RunSettings) : Nat := min (s.targetTps.toNat * s.durationSecs.toNat) maxWord

/-- Nanoseconds that each worker aims for between the starts of two transfers, so that all workers
together keep the target rate. -/
def pacingDelay (s : RunSettings) : Nat :=
  if s.targetTps = 0 then 0 else min (1_000_000_000 * s.workers.toNat / s.targetTps.toNat) maxWord

/-- What is wrong with the settings of a run, the first fault that is found. -/
inductive Fault where
  | noRate
  | noDuration
  | noWorkers
  | noOutput
  | noReportInterval
  deriving Repr, DecidableEq

def Fault.message : Fault → String
  | noRate => "target_tps must be > 0"
  | noDuration => "duration_secs must be > 0"
  | noWorkers => "workers must be > 0"
  | noOutput => "output path must not be empty"
  | noReportInterval => "report_interval_ms must be > 0"

def fault? (s : RunSettings) : Option Fault :=
  if s.targetTps = 0 then some .noRate
  else if s.durationSecs = 0 then some .noDuration
  else if s.workers = 0 then some .noWorkers
  else if s.output.isEmpty then some .noOutput
  else if s.reportIntervalMs = 0 then some .noReportInterval
  else none

def validate (s : RunSettings) : Except Failure Unit :=
  match s.fault? with
  | some fault => .error (.invalidConfig fault.message)
  | none => .ok ()

end RunSettings

namespace Settings

inductive Fault where
  | noSenders
  | noRecipients
  | noUrl
  | noPollInterval
  | run (fault : RunSettings.Fault)
  deriving Repr, DecidableEq

def Fault.message : Fault → String
  | noSenders => "senders must be > 0"
  | noRecipients => "recipients must be > 0"
  | noUrl => "rpc_url must not be empty"
  | noPollInterval => "funding.poll_interval_secs must be > 0"
  | run fault => fault.message

def resolveWorkers (s : Settings) : Settings :=
  if s.run.workers = 0 then { s with run := { s.run with workers := s.accounts.senders } } else s

def fault? (s : Settings) : Option Fault :=
  if s.accounts.senders = 0 then some .noSenders
  else if s.accounts.recipients = 0 then some .noRecipients
  else if Text.trim s.rpcUrl.toList = [] then some .noUrl
  else if s.funding.pollIntervalSecs = 0 then some .noPollInterval
  else s.run.fault?.map .run

/-- Fills in what depends on other settings and refuses what cannot be run. -/
def finalize (s : Settings) : Except Failure Settings :=
  match s.resolveWorkers.fault? with
  | some fault => .error (.invalidConfig fault.message)
  | none => .ok s.resolveWorkers

end Settings

end TransferLoad
