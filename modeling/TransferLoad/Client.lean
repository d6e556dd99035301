import TransferLoad.Transfer

/-!
# What a node answers

The program knows a node by its answers to four questions. A client is a rule that gives the answer to
a question, and the time it takes, from everything that was asked before and the time of asking; so
whatever a node does is one client, as long as it does the same again when everything is the same.

Times are whole milliseconds since the beginning.
-/

namespace TransferLoad

inductive TransferStatus where
  | known
  | unknown
  deriving Repr, DecidableEq

inductive Question where
  | submission (payload : SignedPayload)
  | sequence (account : Address)
  | balance (account : Address)
  | status (identifier : String)
  deriving DecidableEq

/-- A question with the time at which it was asked. -/
structure Call where
  time : Nat
  question : Question
  deriving DecidableEq

/-- An answer and the milliseconds it takes. -/
structure Reply (α : Type) where
  latency : Nat := 0
  answer : Except Failure α

/-- The earlier calls come with the latest one first. -/
structure Client where
  /-- Takes a signed transfer and gives the identifier under which the node knows it. -/
  submit : (earlier : List Call) → (now : Nat) → SignedPayload → Reply String
  sequence : (earlier : List Call) → (now : Nat) → Address → Reply UInt64
  balance : (earlier : List Call) → (now : Nat) → Address → Reply Amount
  status : (earlier : List Call) → (now : Nat) → (identifier : String) → Reply TransferStatus

/-- What became of a transfer that was sent, with the reason in words if it failed. -/
inductive SubmissionOutcome where
  | success (identifier : String)
  | failure (reason : String)
  deriving Repr, DecidableEq

def SubmissionOutcome.ofAnswer : Except Failure String → SubmissionOutcome
  | .ok identifier => .success identifier
  | .error cause => .failure cause.message

end TransferLoad
