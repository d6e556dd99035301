import TransferLoad.Stats
import TransferLoad.Transfer

/-!
# Notices

What the program says about its work while it works: one constructor for each occasion. A notice has a
level, a fixed text and named values.
-/

namespace TransferLoad

inductive Level where
  | info
  | warn
  | error
  deriving Repr, DecidableEq

def Level.render : Level → String
  | info => "INFO"
  | warn => "WARN"
  | error => "ERROR"

inductive Detail where
  | text (s : String)
  | number (x : Float)

inductive Notice where
  -- during a run
  | budgetRemainder (dropped totalBudget workers : Nat)
  | starting (workers senders targetTps durationSecs scheduled delayMicros : Nat)
  | transferFailed (worker : Nat) (sender : Address) (sequence : UInt64) (reason : String)
  | identifierLost (worker : Nat) (identifier : String) (cause : Failure)
  | identifiersMissing (unrecorded : Nat)
  | summaryFailed (cause : Failure)
  | finished (sent errors : Nat) (actualTps deviation : Float) (interrupted : Bool)
  -- while the senders are provided for
  | funding (accounts : Nat) (amount : Amount) (funder : Address)
  | funded (count total : Nat)
  | balanceFailed (address : Address) (cause : Failure)
  | fundedSoFar (count total : Nat)
  | sequenceFailed (address : Address) (cause : Failure)
  | fundingSkipped
  | awaitingFunds
  | allFunded
  -- while an artifact is verified
  | verifying (count : Nat) (path : String)
  | checked (count total : Nat)

namespace Notice

def level : Notice → Level
  | transferFailed .. | identifierLost .. | identifiersMissing _ | balanceFailed .. | sequenceFailed .. =>
    .warn
  | summaryFailed _ => .error
  | _ => .info

def text : Notice → String
  | budgetRemainder .. => "budget does not divide evenly; remainder dropped"
  | starting .. => "starting transaction submission"
  | transferFailed .. => "failed to send transaction"
  | identifierLost .. => "failed to record identifier"
  | identifiersMissing _ => "some accepted identifiers are missing from the output file"
  | summaryFailed _ => "failed to write run summary"
  | finished .. => "transaction submission finished"
  | funding .. => "funding sender accounts"
  | funded count total => "funded " ++ toString count ++ "/" ++ toString total ++ " accounts"
  | balanceFailed .. => "failed to check balance"
  | fundedSoFar count total =>
    "verified " ++ toString count ++ "/" ++ toString total ++ " accounts funded"
  | sequenceFailed .. => "failed to get sequence"
  | fundingSkipped => "skipping funding phase"
  | awaitingFunds => "waiting for funding transactions to land"
  | allFunded => "all sender accounts funded"
  | verifying .. => "verifying recorded transactions"
  | checked count total => "checked " ++ toString count ++ "/" ++ toString total ++ " transactions"

def count (name : String) (n : Nat) : String × Detail := (name, .text (toString n))

def details : Notice → List (String × Detail)
  | budgetRemainder dropped totalBudget workers =>
    [count "dropped" dropped, count "total_budget" totalBudget, count "workers" workers]
  | starting workers senders targetTps durationSecs scheduled delayMicros =>
    [count "workers" workers, count "senders" senders, count "target_tps" targetTps,
     count "duration_secs" durationSecs, count "scheduled" scheduled, count "delay_us" delayMicros]
  | transferFailed worker sender sequence reason =>
    [count "worker" worker, ("sender", .text sender.render), count "sequence" sequence.toNat,
     ("error", .text reason)]
  | identifierLost worker identifier cause =>
    [count "worker" worker, ("identifier", .text identifier), ("error", .text cause.message)]
  | identifiersMissing unrecorded => [count "unrecorded" unrecorded]
  | summaryFailed cause => [("error", .text cause.message)]
  | finished sent errors actualTps deviation interrupted =>
    [count "sent" sent, count "errors" errors, ("actual_tps", .number actualTps),
     ("deviation_pct", .number deviation), ("interrupted", .text (toString interrupted))]
  | funding accounts amount funder =>
    [count "accounts" accounts, count "amount" amount.toNat, ("funder", .text funder.render)]
  | balanceFailed address cause | sequenceFailed address cause =>
    [("address", .text address.render), ("error", .text cause.message)]
  | verifying n path => [count "count" n, ("path", .text path)]
  | _ => []

end Notice

end TransferLoad
