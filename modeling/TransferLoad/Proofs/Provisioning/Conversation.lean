import Mathlib
import TransferLoad.Provisioning

/-!
# What program and node say to each other

A journal holds the questions only, but a client gives its answers by rule, so the whole conversation can
be read off the journal. Each phase of provisioning adds its part at the end: one exchange for the
funder's number, one payment after the other, the rounds in which balances are read, and at last one
lookup for each sender. Notices are no part of it.
-/

namespace TransferLoad

/-- A question with the answer to it. -/
inductive Exchange where
  | submission (payload : SignedPayload) (answer : Except Failure String)
  | sequence (account : Address) (answer : Except Failure UInt64)
  | balance (account : Address) (answer : Except Failure Amount)
  | status (identifier : String) (answer : Except Failure TransferStatus)

namespace Client

/-- A call with the answer that the client gives to it after the earlier ones. -/
def exchange (client : Client) (earlier : List Call) (call : Call) : Exchange :=
  match call.question with
  | .submission payload => .submission payload (client.submit earlier call.time payload).answer
  | .sequence account => .sequence account (client.sequence earlier call.time account).answer
  | .balance account => .balance account (client.balance earlier call.time account).answer
  | .status identifier => .status identifier (client.status earlier call.time identifier).answer

/-- All exchanges in order, from calls that have the latest first. -/
def conversation (client : Client) : List Call → List Exchange
  | [] => []
  | call :: earlier => client.conversation earlier ++ [client.exchange earlier call]

/-- From one journal to another, the client was asked and answered just this. -/
def Talk (client : Client) (j : Journal) (said : List Exchange) (j' : Journal) : Prop :=
  client.conversation j'.calls = client.conversation j.calls ++ said

variable {client : Client} {j j' j'' : Journal} {said more : List Exchange}

theorem Talk.silence (hcalls : j'.calls = j.calls) : client.Talk j [] j' := by
  rw [Talk, hcalls, List.append_nil]

theorem Talk.trans (hfirst : client.Talk j said j') (hsecond : client.Talk j' more j'') :
    client.Talk j (said ++ more) j'' := by
  rw [Talk, hsecond, hfirst, List.append_assoc]

/-- Words that are no calls, before or after, do not count. -/
theorem Talk.congr {k k' : Journal} (htalk : client.Talk j said j') (hstart : k.calls = j.calls)
    (hend : k'.calls = j'.calls) : client.Talk k said k' := by
  rw [Talk, hstart, hend]
  exact htalk

theorem talk_ask (client : Client) {α : Type} {question : Question} {reply : List Call → Nat → Reply α}
    {result : Except Failure α} (hask : j.ask question reply = (result, j')) :
    result = (reply j.calls j.now).answer ∧
      client.Talk j [client.exchange j.calls ⟨j.now, question⟩] j' := by
  cases hask
  exact ⟨rfl, rfl⟩

end Client

/-! ### Questions about several accounts -/

section Several

variable {α : Type} {question : Address → Question}
  {reply : List Call → Nat → Address → Reply α} {exchange : Address → Except Failure α → Exchange}

theorem Journal.talk_askEach (client : Client)
    (hsame : ∀ earlier time account,
      client.exchange earlier ⟨time, question account⟩ = exchange account (reply earlier time account).answer)
    (accounts : List Address) (j : Journal) :
    ∃ answers, (askEach question reply accounts j).1 = accounts.zip answers ∧
      answers.length = accounts.length ∧
      client.Talk j (List.zipWith exchange accounts answers) (askEach question reply accounts j).2.2 := by
  induction accounts generalizing j with
  | nil => exact ⟨[], rfl, rfl, .silence rfl⟩
  | cons account rest ih =>
    obtain ⟨answers, hanswers, hlength, htalk⟩ := ih (j.note (question account))
    refine ⟨(reply j.calls j.now account).answer :: answers, ?_, ?_, ?_⟩
    · rw [List.zip_cons_cons, ← hanswers]
      rfl
    · rw [List.length_cons, List.length_cons, hlength]
    · have hfirst : client.Talk j [exchange account (reply j.calls j.now account).answer]
          (j.note (question account)) := by
        rw [← hsame]
        rfl
      exact hfirst.trans htalk

/-- Asking about several accounts at once is one exchange for each of them, in order. -/
theorem Journal.talk_askAll (client : Client)
    (hsame : ∀ earlier time account,
      client.exchange earlier ⟨time, question account⟩ = exchange account (reply earlier time account).answer)
    {accounts : List Address} {j j' : Journal} {results : List (Address × Except Failure α)}
    (hask : j.askAll question reply accounts = (results, j')) :
    ∃ answers, results = accounts.zip answers ∧ answers.length = accounts.length ∧
      client.Talk j (List.zipWith exchange accounts answers) j' := by
  obtain ⟨answers, hanswers, hlength, htalk⟩ := talk_askEach client hsame accounts j
  cases hask
  exact ⟨answers, hanswers, hlength, htalk⟩

end Several

namespace Provisioning

variable {p : Provisioning} {j j' : Journal} {said : List Exchange}

/-! ### Payments -/

/-- The funder's payment of the amount to an account, signed with the funder's key and accepted. -/
def Payment (p : Provisioning) (funder : Account) (amount : Amount) (recipient : Address)
    (exchange : Exchange) : Prop :=
  ∃ intent payload identifier, exchange = .submission payload (.ok identifier) ∧
    p.signer intent funder.key = .ok payload ∧
    intent.sender = funder.address ∧ intent.recipient = recipient ∧ intent.amount = amount

theorem calls_noteFunded (j : Journal) (count total : Nat) : (noteFunded j count total).calls = j.calls := by
  unfold noteFunded
  split <;> rfl

/-- Funding that comes through is one accepted payment for each sender, in order. -/
theorem payments_of_fundRest {amount : Amount} {total done : Nat} {senders : List Account}
    {funder funder' : Account}
    (hfund : p.fundRest amount total done senders funder j = (.ok (), funder', j')) :
    ∃ payments, p.client.Talk j payments j' ∧
      List.Forall₂ (fun sender => p.Payment funder amount sender.address) senders payments := by
  induction senders generalizing done funder j with
  | nil =>
    cases hfund
    exact ⟨[], .silence rfl, .nil⟩
  | cons sender rest ih =>
    unfold fundRest at hfund
    dsimp only at hfund
    split at hfund
    · cases hfund
    · rename_i payload hsigned
      split at hfund
      · cases hfund
      · rename_i identifier j₁ hask
        obtain ⟨hidentifier, htalk⟩ := Client.talk_ask p.client hask
        obtain ⟨payments, hrest, hpayments⟩ := ih hfund
        refine ⟨.submission payload (.ok identifier) :: payments, ?_, .cons ?_ hpayments⟩
        · rw [hidentifier]
          exact htalk.trans (hrest.congr (calls_noteFunded _ _ _).symm rfl)
        · exact ⟨_, payload, identifier, rfl, hsigned, rfl, rfl, rfl⟩

theorem payments_of_fundSenders {amount : Amount} {senders : List Account} {funder funder' : Account}
    (hfund : p.fundSenders funder senders amount j = (.ok (), funder', j')) :
    ∃ start payments, p.client.Talk j (.sequence funder.address (.ok start) :: payments) j' ∧
      List.Forall₂ (fun sender => p.Payment funder amount sender.address) senders payments := by
  unfold fundSenders at hfund
  split at hfund
  · cases hfund
  · rename_i start j₁ hask
    obtain ⟨hstart, htalk⟩ := Client.talk_ask p.client hask
    obtain ⟨payments, hrest, hpayments⟩ := payments_of_fundRest hfund
    refine ⟨start, payments, ?_, hpayments⟩
    rw [hstart]
    exact htalk.trans (hrest.congr rfl rfl)

/-! ### Rounds of looking at balances -/

/-- The balance of an account was asked for. -/
def Looked (account : Address) (exchange : Exchange) : Prop :=
  ∃ answer, exchange = .balance account answer

/-- The balance of an account was read, and it was enough. -/
def Landed (minBalance : Amount) (account : Address) (exchange : Exchange) : Prop :=
  ∃ balance, exchange = .balance account (.ok balance) ∧ minBalance ≤ balance

theorem calls_noteBalanceFailures (j : Journal) (answers : List (Address × Except Failure Amount)) :
    (noteBalanceFailures j answers).calls = j.calls := by
  unfold noteBalanceFailures
  induction answers generalizing j with
  | nil => rfl
  | cons answer rest ih =>
    rw [List.foldl_cons, ih]
    split <;> rfl

theorem forall₂_looked (accounts : List Address) {answers : List (Except Failure Amount)}
    (hlength : answers.length = accounts.length) :
    List.Forall₂ Looked accounts (List.zipWith Exchange.balance accounts answers) := by
  induction accounts generalizing answers with
  | nil => exact .nil
  | cons account rest ih =>
    obtain ⟨answer, answers, rfl⟩ := List.exists_cons_of_length_eq_add_one hlength
    exact .cons ⟨answer, rfl⟩ (ih (Nat.succ.inj hlength))

theorem forall₂_landed {minBalance : Amount} (accounts : List Address)
    {answers : List (Except Failure Amount)} (hlength : answers.length = accounts.length)
    (hfunded : ∀ answer ∈ accounts.zip answers, isFunded minBalance answer.2 = true) :
    List.Forall₂ (Landed minBalance) accounts (List.zipWith Exchange.balance accounts answers) := by
  induction accounts generalizing answers with
  | nil => exact .nil
  | cons account rest ih =>
    obtain ⟨answer, answers, rfl⟩ := List.exists_cons_of_length_eq_add_one hlength
    rw [List.zip_cons_cons, List.forall_mem_cons] at hfunded
    obtain ⟨hfirst, hrest⟩ := hfunded
    refine .cons ?_ (ih (Nat.succ.inj hlength) hrest)
    cases answer with
    | error cause => exact absurd hfirst Bool.false_ne_true
    | ok balance => exact ⟨balance, rfl, of_decide_eq_true hfirst⟩

/-- A round asks for each balance once, and counts all accounts only if all of them hold enough. -/
theorem round_of_pollBalances {accounts : List Address} {minBalance : Amount} {funded : Nat}
    (hpoll : p.pollBalances accounts minBalance j = (funded, j')) :
    ∃ round, p.client.Talk j round j' ∧ List.Forall₂ Looked accounts round ∧
      (funded = accounts.length → List.Forall₂ (Landed minBalance) accounts round) := by
  unfold pollBalances at hpoll
  rcases hask : j.askAll .balance p.client.balance accounts with ⟨results, j₁⟩
  obtain ⟨answers, rfl, hlength, htalk⟩ :=
    Journal.talk_askAll p.client (fun _ _ _ => rfl) hask
  rw [hask] at hpoll
  cases hpoll
  refine ⟨_, htalk.congr rfl (calls_noteBalanceFailures _ _), forall₂_looked accounts hlength, fun hall => ?_⟩
  refine forall₂_landed accounts hlength (List.countP_eq_length.mp ?_)
  rw [hall, List.length_zip, hlength, Nat.min_self]

/-- Rounds in which the balance of every account is asked for, and a last one in which all are enough. -/
def Polling (minBalance : Amount) (accounts : List Address) (said : List Exchange) : Prop :=
  ∃ (rounds : List (List Exchange)) (last : List Exchange), said = rounds.flatten ++ last ∧
    (∀ round ∈ rounds, List.Forall₂ Looked accounts round) ∧ List.Forall₂ (Landed minBalance) accounts last

theorem Polling.cons {minBalance : Amount} {accounts : List Address} {round : List Exchange}
    (hpolling : Polling minBalance accounts said) (hlooked : List.Forall₂ Looked accounts round) :
    Polling minBalance accounts (round ++ said) := by
  obtain ⟨rounds, last, rfl, hrounds, hlast⟩ := hpolling
  refine ⟨round :: rounds, last, ?_, List.forall_mem_cons.mpr ⟨hlooked, hrounds⟩, hlast⟩
  rw [List.flatten_cons, List.append_assoc]

theorem polling_of_awaitRounds? {accounts : List Address} {minBalance : Amount}
    {maxWait pollInterval started : Nat}
    (hwait : p.awaitRounds? accounts minBalance maxWait pollInterval started j = some (.ok (), j')) :
    ∃ said, p.client.Talk j said j' ∧ Polling minBalance accounts said := by
  refine awaitRounds?.partial_correctness p accounts minBalance maxWait pollInterval started
    (fun j r => r.1 = .ok () → ∃ said, p.client.Talk j said r.2 ∧ Polling minBalance accounts said)
    ?_ j (.ok (), j') hwait rfl
  intro later ih j r hround hok
  rcases hpoll : p.pollBalances accounts minBalance j with ⟨funded, j₁⟩
  obtain ⟨round, htalk, hlooked, hlanded⟩ := round_of_pollBalances hpoll
  rw [hpoll] at hround
  dsimp only at hround
  split at hround
  · rename_i hall
    cases hround
    exact ⟨round, htalk, [], round, rfl, fun _ hnone => (List.not_mem_nil hnone).elim, hlanded hall⟩
  · split at hround
    · cases hround
      cases hok
    · obtain ⟨said, hmore, hpolling⟩ := ih _ _ hround hok
      exact ⟨round ++ said, htalk.trans (hmore.congr rfl rfl), hpolling.cons hlooked⟩

theorem polling_of_awaitFunds {accounts : List Address} {minBalance : Amount} {maxWait pollInterval : Nat}
    (hwait : p.awaitFunds accounts minBalance maxWait pollInterval j = (.ok (), j')) :
    ∃ said, p.client.Talk j said j' ∧ Polling minBalance accounts said := by
  unfold awaitFunds at hwait
  cases hrounds : p.awaitRounds? accounts minBalance maxWait pollInterval j.now j with
  | none =>
    rw [hrounds] at hwait
    cases hwait
  | some result =>
    rw [hrounds, Option.getD_some] at hwait
    rw [hwait] at hrounds
    exact polling_of_awaitRounds? hrounds

/-! ### Counters -/

/-- The account after its number was looked up: a failure leaves it as it was. -/
def settled (account : Account) : Except Failure UInt64 → Account
  | .ok next => account.resetSequence next
  | .error _ => account

theorem applySequences_zip {accounts : List Account} {answers : List (Except Failure UInt64)}
    (hlength : answers.length = accounts.length) (j : Journal) :
    (applySequences accounts ((accounts.map (·.address)).zip answers) j).1 =
        List.zipWith settled accounts answers ∧
      (applySequences accounts ((accounts.map (·.address)).zip answers) j).2.calls = j.calls := by
  induction accounts generalizing answers j with
  | nil => exact ⟨rfl, rfl⟩
  | cons account rest ih =>
    obtain ⟨answer, answers, rfl⟩ := List.exists_cons_of_length_eq_add_one hlength
    cases answer with
    | ok next =>
      obtain ⟨haccounts, hcalls⟩ := ih (Nat.succ.inj hlength) j
      exact ⟨congrArg (account.resetSequence next :: ·) haccounts, hcalls⟩
    | error cause =>
      obtain ⟨haccounts, hcalls⟩ := ih (Nat.succ.inj hlength) (j.notify (.sequenceFailed account.address cause))
      exact ⟨congrArg (account :: ·) haccounts, hcalls⟩

/-- Looking up the counters is one lookup for each account, in order, and sets each to its own answer. -/
theorem lookups_of_syncSequences (p : Provisioning) (accounts : List Account) (j : Journal) :
    ∃ answers, answers.length = accounts.length ∧
      (p.syncSequences accounts j).1 = List.zipWith settled accounts answers ∧
      p.client.Talk j (List.zipWith Exchange.sequence (accounts.map (·.address)) answers)
        (p.syncSequences accounts j).2 := by
  rcases hask : j.askAll .sequence p.client.sequence (accounts.map (·.address)) with ⟨results, j₁⟩
  obtain ⟨answers, rfl, hlength, htalk⟩ :=
    Journal.talk_askAll p.client (fun _ _ _ => rfl) hask
  rw [List.length_map] at hlength
  obtain ⟨haccounts, hcalls⟩ := applySequences_zip hlength j₁
  refine ⟨answers, hlength, ?_, ?_⟩
  · rw [syncSequences, hask]
    exact haccounts
  · rw [syncSequences, hask]
    exact htalk.congr rfl hcalls

end Provisioning

end TransferLoad
