import TransferLoad.Report
import TransferLoad.Settings.Basic

/-!
# Progress

A reporter prints a line of progress at each whole multiple of its period that falls before the end of
what it watches.
-/

namespace TransferLoad

structure Reporter where
  planned : Nat
  targetTps : UInt64
  /-- Milliseconds between two lines. -/
  period : Nat
  deriving Repr, DecidableEq

namespace Reporter

/-- How many lines fall before a point in time. -/
def linesBefore (r : Reporter) (time : Nat) : Nat := (time - 1) / r.period

/-- The line at the multiple `k` of the period, with the counters as they are then. -/
def line (r : Reporter) (tally : Tally) (k : Nat) : ProgressLine :=
  { snapshot := { tally, elapsed := nanosOfMillis (k * r.period) }, planned := r.planned
    targetTps := r.targetTps }

/-- The lines that fall before a point in time when so many have been printed and the counters have
not moved since. -/
def linesUntil (r : Reporter) (tally : Tally) (printed time : Nat) : List ProgressLine :=
  (List.range (r.linesBefore time - printed)).map fun i => r.line tally (printed + i + 1)

/-- A change of a counter at some time, made so many times. -/
structure Change where
  time : Nat
  kind : OutcomeKind
  times : Nat := 1
  deriving Repr, DecidableEq

/-- The lines printed while the counters change at given times, up to the end. -/
def watch (r : Reporter) (finish : Nat) : Tally → (printed : Nat) → List Change → List ProgressLine
  | tally, printed, [] => r.linesUntil tally printed finish
  | tally, printed, change :: rest =>
    let lines := r.linesUntil tally printed (min change.time finish)
    lines ++ watch r finish (change.times.repeat (fun t => t.add change.kind) tally)
      (printed + lines.length) rest

end Reporter

end TransferLoad
