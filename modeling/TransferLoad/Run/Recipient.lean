import TransferLoad.Settings.Basic
import TransferLoad.Crypto.ChaCha

/-!
# Picking recipients

Going round, the attempt with number `j` of the worker with number `i` goes to recipient `i + j`,
counted in a circle. At random, each worker draws from a stream of its own, which the seed and the
worker's number determine; so what a worker picks does not depend on the other workers.
-/

namespace TransferLoad

inductive RecipientSelector where
  | roundRobin
  | random (stream : Crypto.ChaCha.Stream)

namespace RecipientSelector

def ofPolicy (policy : RecipientPolicy) (seed : UInt64) (worker : Nat) : RecipientSelector :=
  match policy with
  | .roundRobin => .roundRobin
  | .random => .random (.ofSeed (seed ^^^ UInt64.ofNat worker))

/-- The position of the recipient for an attempt, and the selector for the attempts after it. The sum
of worker and attempt is one of 64 bits. -/
def pick (s : RecipientSelector) (worker attempt recipients : Nat) : Nat × RecipientSelector :=
  match s with
  | roundRobin => ((worker + attempt) % UInt64.size % recipients, roundRobin)
  | random stream =>
    let (position, stream) := stream.below recipients
    (position, random stream)

theorem pick_lt {recipients : Nat} (hpositive : 0 < recipients) (s : RecipientSelector)
    (worker attempt : Nat) : (s.pick worker attempt recipients).1 < recipients := by
  cases s with
  | roundRobin => exact Nat.mod_lt _ hpositive
  | random stream => exact stream.below_lt hpositive

end RecipientSelector

end TransferLoad
