import TransferLoad.Stats

/-!
# Reports

A line of progress while a run is under way, and the account of the whole run at its end.
-/

namespace TransferLoad

structure ProgressLine where
  snapshot : Snapshot
  planned : Nat
  targetTps : UInt64
  deriving Repr, DecidableEq

def ProgressLine.render (line : ProgressLine) : String :=
  "Progress: " ++ toString line.snapshot.tally.sent ++ "/" ++ toString line.planned ++
    " txs | Elapsed: " ++ Decimal.toPlaces 2 (floatSeconds line.snapshot.elapsed) ++
    "s | TPS: " ++ Decimal.toPlaces 2 line.snapshot.rate ++
    " | Target: " ++ toString line.targetTps.toNat ++
    " | Deviation: " ++ Decimal.toPlaces 1 (line.snapshot.deviation line.targetTps) ++
    "% | Errors: " ++ toString line.snapshot.tally.errors

structure WorkerSummary where
  id : Nat
  quota : Nat
  attempted : Nat := 0
  sent : Nat := 0
  errors : Nat := 0
  cancelled : Bool := false
  deriving Repr, DecidableEq

structure FinalReport where
  sent : Nat := 0
  errors : Nat := 0
  planned : Nat := 0
  scheduled : Nat := 0
  /-- Nanoseconds from start to end. -/
  totalTime : Nat := 0
  targetTps : UInt64 := 0
  actualTps : Float := 0
  deviation : Float := 0
  interrupted : Bool := false
  /-- Accepted transfers whose identifier could not be written down. -/
  unrecorded : Nat := 0
  workers : List WorkerSummary := []

def FinalReport.attempted (r : FinalReport) : Nat := r.sent + r.errors

def FinalReport.render (r : FinalReport) : String :=
  (if r.interrupted then "=== TEST INTERRUPTED ===\n" else "=== TEST COMPLETE ===\n") ++
    "Total Transactions Sent: " ++ toString r.sent ++ "/" ++ toString r.planned ++ "\n" ++
    "Total Errors: " ++ toString r.errors ++ "\n" ++
    "Total Time: " ++ Decimal.toPlaces 2 (floatSeconds r.totalTime) ++ " seconds\n" ++
    "Target TPS: " ++ toString r.targetTps.toNat ++ "\n" ++
    "Actual TPS: " ++ Decimal.toPlaces 2 r.actualTps ++ "\n" ++
    "Deviation: " ++ Decimal.toPlaces 2 r.deviation ++ "%"

end TransferLoad
