import TransferLoad.Settings.Basic

/-!
# Splitting the budget

Each worker gets an equal whole share of the budget. What is left over is dropped, or handed out one
by one to the first workers.
-/

namespace TransferLoad

structure QuotaPlan where
  totalBudget : Nat
  quotas : List Nat
  deriving Repr, DecidableEq

namespace QuotaPlan

def share (totalBudget workers : Nat) (policy : RemainderPolicy) (position : Nat) : Nat :=
  match policy with
  | .truncate => totalBudget / workers
  | .distribute =>
    if position < totalBudget % workers then totalBudget / workers + 1 else totalBudget / workers

def split (totalBudget workers : Nat) (policy : RemainderPolicy) : QuotaPlan where
  totalBudget := totalBudget
  quotas := (List.range workers).map (share totalBudget workers policy)

def scheduled (p : QuotaPlan) : Nat := p.quotas.foldr (· + ·) 0

/-- Transfers that no worker makes. -/
def dropped (p : QuotaPlan) : Nat := p.totalBudget - p.scheduled

end QuotaPlan

def RunSettings.plan (s : RunSettings) : QuotaPlan :=
  .split s.totalBudget s.workers.toNat s.remainder

end TransferLoad
