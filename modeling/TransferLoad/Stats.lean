import TransferLoad.Decimal.Places

/-!
# Counters and rates

A run counts what was sent and what failed. A snapshot adds the time since the start, from which
follow the rate of accepted transfers and its deviation from the target in percent.
-/

namespace TransferLoad

inductive OutcomeKind where
  | sent
  | failed
  deriving Repr, DecidableEq

structure Tally where
  sent : Nat := 0
  errors : Nat := 0
  deriving Repr, DecidableEq

def Tally.count (t : Tally) : OutcomeKind → Nat
  | .sent => t.sent
  | .failed => t.errors

def Tally.add (t : Tally) : OutcomeKind → Tally
  | .sent => { t with sent := t.sent + 1 }
  | .failed => { t with errors := t.errors + 1 }

def Tally.attempted (t : Tally) : Nat := t.sent + t.errors

/-- A count of at most 64 bits as the nearest double. -/
def floatOfCount (n : Nat) : Float := n.toUInt64.toFloat

/-- Nanoseconds as seconds: the whole seconds and the fraction are rounded apart. -/
def floatSeconds (nanoseconds : Nat) : Float :=
  floatOfCount (nanoseconds / 1_000_000_000) + floatOfCount (nanoseconds % 1_000_000_000) / 1000000000.0

/-- Events per second; zero as long as no time has passed. -/
def ratePerSecond (count : Nat) (nanoseconds : Nat) : Float :=
  let seconds := floatSeconds nanoseconds
  if seconds ≤ 0 then 0 else floatOfCount count / seconds

/-- How far a rate is off its target, in percent and with a sign; zero without a target. -/
def deviationPercent (rate : Float) (targetTps : UInt64) : Float :=
  if targetTps = 0 then 0
  else
    let target := targetTps.toFloat
    (rate - target) / target * 100.0

structure Snapshot where
  tally : Tally
  /-- Nanoseconds since the start. -/
  elapsed : Nat
  deriving Repr, DecidableEq

def Snapshot.rate (s : Snapshot) : Float := ratePerSecond s.tally.sent s.elapsed

def Snapshot.deviation (s : Snapshot) (targetTps : UInt64) : Float :=
  deviationPercent s.rate targetTps

end TransferLoad
