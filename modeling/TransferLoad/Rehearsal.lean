import TransferLoad.Client

/-!
# A node that follows a script

For rehearsing a run, a node can be told beforehand how it will behave: how long each answer takes,
which transfers it turns down and why, and what it says about accounts and identifiers. Rules pick
transfers by sender, recipient and sequence number; the first rule that matches counts.
-/

namespace TransferLoad

/-- Which transfers a rule is about. What is left open does not matter. -/
structure TransferRule where
  /-- Position of the sender in the script's list. -/
  sender : Option Nat := none
  recipient : Option Nat := none
  sequences : Option (List Nat) := none
  /-- A modulus and the remainder that the sequence number has to leave. -/
  remainder : Option (Nat × Nat) := none
  deriving Repr, DecidableEq

structure NodeScript where
  senders : List Address := []
  recipients : List Address := []
  /-- Milliseconds until a transfer is answered, unless a rule says otherwise. -/
  latency : Nat := 0
  slow : List (TransferRule × Nat) := []
  /-- Bad signatures are turned down. -/
  verify : Bool := false
  /-- Transfers to turn down; without a cause, with a general one. -/
  fail : List (TransferRule × Option Failure) := []
  /-- Accepted amounts are added to the recipients' balances. -/
  credit : Bool := false
  identifiers : List (TransferRule × String) := []
  /-- By the text of the address. -/
  sequences : List (String × Except Failure UInt64) := []
  /-- By the text of the address, with the times from which the answers hold. -/
  balances : List (String × List (Nat × Except Failure Amount)) := []
  statuses : List (String × Except Failure TransferStatus) := []
  statusLatencies : List (String × Nat) := []

namespace TransferRule

def applies (r : TransferRule) (script : NodeScript) (i : Intent) : Bool :=
  r.sender.all (fun position => script.senders.idxOf? i.sender == some position) &&
    r.recipient.all (fun position => script.recipients.idxOf? i.recipient == some position) &&
    r.sequences.all (fun sequences => sequences.contains i.sequence.toNat) &&
    r.remainder.all fun (modulus, rest) => i.sequence.toNat % modulus == rest

def first? {α : Type} (rules : List (TransferRule × α)) (script : NodeScript) (i : Intent) : Option α :=
  (rules.find? fun rule => rule.1.applies script i).map Prod.snd

end TransferRule

namespace NodeScript

inductive Verdict where
  | accepted (identifier : String)
  | rejected (cause : Failure)
  | badSignature

def Verdict.answer : Verdict → Except Failure String
  | accepted identifier => .ok identifier
  | rejected cause => .error cause
  | badSignature => .error (.decode "bad signature")

def latencyOf (n : NodeScript) (i : Intent) : Nat :=
  (TransferRule.first? n.slow n i).getD n.latency

def rejection (i : Intent) : Failure :=
  .rpc 400 "rejected" ("rejected sequence " ++ toString i.sequence.toNat)

def verdict (n : NodeScript) (payload : SignedPayload) (e : Envelope) : Verdict :=
  if n.verify && !e.verify then .badSignature
  else
    match TransferRule.first? n.fail n e.intent with
    | some cause => .rejected (cause.getD (rejection e.intent))
    | none => .accepted ((TransferRule.first? n.identifiers n e.intent).getD payload.identifier)

def submit (n : NodeScript) (payload : SignedPayload) : Reply String :=
  match Envelope.decode payload.bytes with
  | .error cause => { answer := .error cause }
  | .ok e => { latency := n.latencyOf e.intent, answer := (n.verdict payload e).answer }

/-- What a call has added to the balance of an account by a given time. -/
def creditOf (n : NodeScript) (now : Nat) (account : Address) (call : Call) : Amount :=
  match call.question with
  | .submission payload =>
    match Envelope.decode payload.bytes with
    | .error _ => 0
    | .ok e =>
      match n.verdict payload e with
      | .accepted _ =>
        if e.intent.recipient = account ∧ call.time + n.latencyOf e.intent ≤ now then e.intent.amount
        else 0
      | _ => 0
  | _ => 0

def credits (n : NodeScript) (now : Nat) (account : Address) (calls : List Call) : Amount :=
  if n.credit then (calls.map (n.creditOf now account)).foldl (· + ·) 0 else 0

def balance (n : NodeScript) (calls : List Call) (now : Nat) (account : Address) :
    Except Failure Amount :=
  let steps := (n.balances.lookup account.render).getD []
  let scripted := ((steps.filter fun step => step.1 ≤ now).getLast?.map Prod.snd).getD (.ok 0)
  scripted.map (· + n.credits now account calls)

def client (n : NodeScript) : Client where
  submit _ _ payload := n.submit payload
  sequence _ _ account := { answer := (n.sequences.lookup account.render).getD (.ok 0) }
  balance calls now account := { answer := n.balance calls now account }
  status _ _ identifier :=
    { latency := (n.statusLatencies.lookup identifier).getD 0
      answer := (n.statuses.lookup identifier).getD (.ok .unknown) }

/-- What has become, by a given time, of a transfer that was sent at another. -/
def progress (n : NodeScript) (payload : SignedPayload) (e : Envelope) (sent now : Nat) : String :=
  if now < sent + n.latencyOf e.intent then "pending"
  else
    match n.verdict payload e with
    | .accepted _ => "accepted"
    | .rejected _ => "rejected"
    | .badSignature => "bad signature"

end NodeScript

/-! ### Signers for rehearsals -/

/-- Puts a transfer into an envelope without a signature. -/
def unsignedSigner : Signer := fun intent _ =>
  .ok (.ofBytes (Envelope.encode { intent, publicKey := intent.sender.raw, signature := [] }))

/-- Refuses the given sequence numbers and leaves the others to another signer. -/
def refusingSigner (refused : List Nat) (signer : Signer) : Signer := fun intent key =>
  if refused.contains intent.sequence.toNat then
    .error (.signing ("refused " ++ toString intent.sequence.toNat))
  else signer intent key

end TransferLoad
