import TransferLoad.Client
import TransferLoad.Notice
import TransferLoad.Settings.Basic

/-!
# Provisioning

Before a run, each sender needs funds and the right sequence number. A funder sends every sender the
same amount, one transfer after the other; then the balances are read in rounds until all senders hold
enough in one and the same round, or too much time has passed; at last each counter is set to what the
node says. A sender about whom the node cannot say anything keeps its counter.
-/

namespace TransferLoad

/-- How far the conversation with the node has come. Lists have the latest first. -/
structure Journal where
  /-- Milliseconds since the beginning. -/
  now : Nat := 0
  calls : List Call := []
  notices : List Notice := []

namespace Journal

def notify (j : Journal) (notice : Notice) : Journal := { j with notices := notice :: j.notices }

def note (j : Journal) (question : Question) : Journal :=
  { j with calls := ⟨j.now, question⟩ :: j.calls }

def moveTo (j : Journal) (time : Nat) : Journal := { j with now := time }

def ask {α : Type} (j : Journal) (question : Question) (reply : List Call → Nat → Reply α) :
    Except Failure α × Journal :=
  let reply := reply j.calls j.now
  (reply.answer, (j.note question).moveTo (j.now + reply.latency))

/-- Asks about several accounts at once; the answers come in the order of the accounts, with the time
the slowest of them takes. -/
def askEach {α : Type} (question : Address → Question)
    (reply : List Call → Nat → Address → Reply α) :
    List Address → Journal → List (Address × Except Failure α) × Nat × Journal
  | [], j => ([], 0, j)
  | account :: rest, j =>
    let first := reply j.calls j.now account
    let (answers, latency, j) := askEach question reply rest (j.note (question account))
    ((account, first.answer) :: answers, max first.latency latency, j)

/-- Asks about several accounts and waits until all answers are there. -/
def askAll {α : Type} (j : Journal) (question : Address → Question)
    (reply : List Call → Nat → Address → Reply α) (accounts : List Address) :
    List (Address × Except Failure α) × Journal :=
  let (answers, latency, j) := askEach question reply accounts j
  (answers, j.moveTo (j.now + latency))

end Journal

structure Provisioning where
  client : Client
  signer : Signer := ed25519Signer
  run : RunSettings

namespace Provisioning

/-! ### Sending funds -/

def fundingIntent (p : Provisioning) (funder : Account) (amount : Amount) (recipient : Address) :
    Intent where
  sender := funder.address
  recipient := recipient
  amount := amount
  feePrice := p.run.feePrice
  sequence := funder.sequence.next
  chainId := p.run.chainId

/-- Says how far funding has come, at every tenth sender and at the last. -/
def noteFunded (j : Journal) (count total : Nat) : Journal :=
  if count % 10 = 0 ∨ count = total then j.notify (.funded count total) else j

/-- Sends the amount to the remaining senders; `done` of them have it already. The first failure ends
it. -/
def fundRest (p : Provisioning) (amount : Amount) (total : Nat) :
    (done : Nat) → List Account → Account → Journal → Except Failure Unit × Account × Journal
  | _, [], funder, j => (.ok (), funder, j)
  | done, sender :: rest, funder, j =>
    let intent := p.fundingIntent funder amount sender.address
    let funder := funder.draw.2
    match p.signer intent funder.key with
    | .error cause =>
      (.error (.funding ("failed to sign funding tx: " ++ cause.message)), funder, j)
    | .ok payload =>
      match j.ask (.submission payload) fun calls now => p.client.submit calls now payload with
      | (.error cause, j) =>
        (.error (.funding ("failed to send funding tx: " ++ cause.message)), funder, j)
      | (.ok _, j) => fundRest p amount total (done + 1) rest funder (noteFunded j (done + 1) total)

/-- Sends the amount to every sender, starting from the number that the node gives for the funder. -/
def fundSenders (p : Provisioning) (funder : Account) (senders : List Account) (amount : Amount)
    (j : Journal) : Except Failure Unit × Account × Journal :=
  match j.ask (.sequence funder.address) fun calls now => p.client.sequence calls now funder.address with
  | (.error cause, j) =>
    (.error (.funding ("failed to get funder sequence: " ++ cause.message)), funder, j)
  | (.ok start, j) =>
    p.fundRest amount senders.length 0 senders (funder.resetSequence start)
      (j.notify (.funding senders.length amount funder.address))

/-! ### Waiting for funds -/

def isFunded (minBalance : Amount) : Except Failure Amount → Bool
  | .ok balance => minBalance ≤ balance
  | .error _ => false

def noteBalanceFailures (j : Journal) (answers : List (Address × Except Failure Amount)) : Journal :=
  answers.foldl
    (fun j answer => match answer.2 with
      | .ok _ => j
      | .error cause => j.notify (.balanceFailed answer.1 cause)) j

/-- Looks at all balances once and counts the accounts that hold enough. -/
def pollBalances (p : Provisioning) (accounts : List Address) (minBalance : Amount) (j : Journal) :
    Nat × Journal :=
  let (answers, j) := j.askAll .balance p.client.balance accounts
  let funded := answers.countP fun answer => isFunded minBalance answer.2
  (funded, (noteBalanceFailures j answers).notify (.fundedSoFar funded accounts.length))

/-- The first whole millisecond at which a pause of so many nanoseconds is over. -/
def pauseOver (now nanoseconds : Nat) : Nat := millisCovering (nanosOfMillis now + nanoseconds)

/-- Rounds of looking at the balances, with a pause after each, until all accounts hold enough in one of them
or one ends too late. Without pauses there may be no such round, and then no result. -/
def awaitRounds? (p : Provisioning) (accounts : List Address) (minBalance : Amount)
    (maxWait pollInterval started : Nat) (j : Journal) : Option (Except Failure Unit × Journal) :=
  let (funded, j) := p.pollBalances accounts minBalance j
  if funded = accounts.length then some (.ok (), j)
  else
    let waited := nanosOfMillis (j.now - started)
    if maxWait < waited then some (.error (.fundingTimeout funded accounts.length waited), j)
    else
      p |>.awaitRounds? accounts minBalance maxWait pollInterval started
        (j.moveTo (pauseOver j.now pollInterval))
partial_fixpoint

/-- Waits until all accounts hold enough in one round. Only a wait without pauses might never end, and for it a
timeout stands in. Settings that are accepted have pauses, so no provisioning that is configured comes to it. -/
def awaitFunds (p : Provisioning) (accounts : List Address) (minBalance : Amount)
    (maxWait pollInterval : Nat) (j : Journal) : Except Failure Unit × Journal :=
  (p.awaitRounds? accounts minBalance maxWait pollInterval j.now j).getD
    (.error (.fundingTimeout 0 accounts.length 0), j)

/-! ### Counters -/

/-- Sets the counters to the answers, in the order of the accounts. -/
def applySequences : List Account → List (Address × Except Failure UInt64) → Journal →
    List Account × Journal
  | account :: accounts, (address, answer) :: answers, j =>
    let (account, j) := match answer with
      | .ok next => (account.resetSequence next, j)
      | .error cause => (account, j.notify (.sequenceFailed address cause))
    let (accounts, j) := applySequences accounts answers j
    (account :: accounts, j)
  | accounts, _, j => (accounts, j)

def syncSequences (p : Provisioning) (accounts : List Account) (j : Journal) : List Account × Journal :=
  let (answers, j) := j.askAll .sequence p.client.sequence (accounts.map (·.address))
  applySequences accounts answers j

/-! ### All of it -/

def fund (p : Provisioning) (funding : FundingSettings) (senders : List Account) (j : Journal) :
    Except Failure Unit × Journal :=
  match funding.funderKey with
  | none => (.error (.invalidConfig "funder key is required unless funding is skipped"), j)
  | some key =>
    match Account.ofSecretText key with
    | .error cause => (.error cause, j)
    | .ok funder =>
      match p.fundSenders funder senders funding.fundAmount j with
      | (.error cause, _, j) => (.error cause, j)
      | (.ok (), _, j) =>
        match p.awaitFunds (senders.map (·.address)) funding.minBalance
            (nanosOfSecs funding.timeoutSecs) (nanosOfSecs funding.pollIntervalSecs)
            (j.notify .awaitingFunds) with
        | (.error cause, j) => (.error cause, j)
        | (.ok (), j) => (.ok (), j.notify .allFunded)

def provision (p : Provisioning) (funding : FundingSettings) (senders : List Account) (j : Journal) :
    Except Failure Unit × List Account × Journal :=
  let (result, j) :=
    if funding.skip then (.ok (), j.notify .fundingSkipped) else p.fund funding senders j
  match result with
  | .error cause => (.error cause, senders, j)
  | .ok () =>
    let (senders, j) := p.syncSequences senders j
    (.ok (), senders, j)

end Provisioning

end TransferLoad
