import TransferLoad.Proofs.Provisioning.Conversation
import TransferLoad.Proofs.Run.Pacing
import TransferLoad.Proofs.Settings.InOrder

/-!
# How provisioning ends

Provisioning fails before the first counter is touched, or it comes to the lookups, of which each decides
about one counter only. So its outcome can be read off the conversation: what was said before the lookups,
and one lookup for each sender. How long the lookups take does not matter, since all of them are asked
before any answer is used, and the answers are used in the order of the senders.
-/

namespace TransferLoad

/-- The client with other times for its lookups of numbers, and the same answers. -/
def Client.retimed (client : Client) (latency : List Call → Nat → Address → Nat) : Client :=
  { client with
    sequence := fun earlier now account =>
      { latency := latency earlier now account, answer := (client.sequence earlier now account).answer } }

namespace Provisioning

variable {p : Provisioning} {j j' : Journal} {accounts : List Address} {minBalance : Amount}
  {maxWait pollInterval started : Nat}

/-! ### Waiting comes to an end -/

theorem awaitRounds?_of_funded (hpoll : p.pollBalances accounts minBalance j = (accounts.length, j')) :
    p.awaitRounds? accounts minBalance maxWait pollInterval started j = some (.ok (), j') := by
  rw [awaitRounds?, hpoll]
  exact if_pos rfl

theorem awaitRounds?_of_late {funded : Nat} (hpoll : p.pollBalances accounts minBalance j = (funded, j'))
    (hfew : funded ≠ accounts.length) (hlate : maxWait < nanosOfMillis (j'.now - started)) :
    p.awaitRounds? accounts minBalance maxWait pollInterval started j =
      some (.error (.fundingTimeout funded accounts.length (nanosOfMillis (j'.now - started))), j') := by
  rw [awaitRounds?, hpoll]
  dsimp only
  rw [if_neg hfew, if_pos hlate]

theorem awaitRounds?_of_early {funded : Nat} (hpoll : p.pollBalances accounts minBalance j = (funded, j'))
    (hfew : funded ≠ accounts.length) (hearly : nanosOfMillis (j'.now - started) ≤ maxWait) :
    p.awaitRounds? accounts minBalance maxWait pollInterval started j =
      p.awaitRounds? accounts minBalance maxWait pollInterval started
        (j'.moveTo (pauseOver j'.now pollInterval)) := by
  rw [awaitRounds?, hpoll]
  dsimp only
  rw [if_neg hfew, if_neg (Nat.not_lt.mpr hearly)]

theorem now_noteBalanceFailures (j : Journal) (answers : List (Address × Except Failure Amount)) :
    (noteBalanceFailures j answers).now = j.now := by
  unfold noteBalanceFailures
  induction answers generalizing j with
  | nil => rfl
  | cons answer rest ih =>
    rw [List.foldl_cons, ih]
    split <;> rfl

theorem now_askEach {α : Type} (question : Address → Question)
    (reply : List Call → Nat → Address → Reply α) (accounts : List Address) (j : Journal) :
    (Journal.askEach question reply accounts j).2.2.now = j.now := by
  induction accounts generalizing j with
  | nil => rfl
  | cons account rest ih => exact ih (j.note (question account))

theorem now_le_pollBalances (p : Provisioning) (accounts : List Address) (minBalance : Amount) (j : Journal) :
    j.now ≤ (p.pollBalances accounts minBalance j).2.now := by
  have hnow : (p.pollBalances accounts minBalance j).2.now =
      (Journal.askEach .balance p.client.balance accounts j).2.2.now +
        (Journal.askEach .balance p.client.balance accounts j).2.1 :=
    now_noteBalanceFailures _ _
  rw [hnow, now_askEach]
  exact Nat.le_add_right _ _

theorem now_lt_pauseOver (now : Nat) (hpause : 0 < pollInterval) : now < pauseOver now pollInterval := by
  by_contra hle
  have hcovered := millisCovering_le_iff.mp (Nat.not_lt.mp hle)
  omega

/-- A wait with pauses between its rounds ends, since every round brings it nearer to its time limit. -/
theorem awaitRounds?_isSome (hpause : 0 < pollInterval) (j : Journal) :
    (p.awaitRounds? accounts minBalance maxWait pollInterval started j).isSome := by
  obtain ⟨rest, hrest⟩ : ∃ rest, rest = maxWait + started + 1 - j.now := ⟨_, rfl⟩
  induction rest using Nat.strong_induction_on generalizing j with
  | _ rest ih =>
    rcases hpoll : p.pollBalances accounts minBalance j with ⟨funded, j'⟩
    have hnow : j.now ≤ j'.now := by
      have hle := p.now_le_pollBalances accounts minBalance j
      rwa [hpoll] at hle
    by_cases hall : funded = accounts.length
    · rw [awaitRounds?_of_funded (hall ▸ hpoll)]
      rfl
    · by_cases hlate : maxWait < nanosOfMillis (j'.now - started)
      · rw [awaitRounds?_of_late hpoll hall hlate]
        rfl
      · rw [awaitRounds?_of_early hpoll hall (Nat.not_lt.mp hlate)]
        have hlater : j'.now < pauseOver j'.now pollInterval := now_lt_pauseOver j'.now hpause
        refine ih _ ?_ (j'.moveTo (pauseOver j'.now pollInterval)) rfl
        have htime : (j'.moveTo (pauseOver j'.now pollInterval)).now = pauseOver j'.now pollInterval := rfl
        unfold nanosOfMillis at hlate
        omega

theorem awaitRounds?_eq_awaitFunds (hpause : 0 < pollInterval) (j : Journal) :
    p.awaitRounds? accounts minBalance maxWait pollInterval j.now j =
      some (p.awaitFunds accounts minBalance maxWait pollInterval j) := by
  have hends : (p.awaitRounds? accounts minBalance maxWait pollInterval j.now j).isSome :=
    awaitRounds?_isSome hpause j
  obtain ⟨ending, hending⟩ := Option.isSome_iff_exists.mp hends
  rw [awaitFunds, hending, Option.getD_some]

/-- With settings that are accepted, every wait ends by itself. -/
theorem awaitRounds?_of_finalize {s fit : Settings} (hfit : s.finalize = .ok fit) (j : Journal) :
    let pollInterval := nanosOfSecs fit.funding.pollIntervalSecs
    p.awaitRounds? accounts minBalance maxWait pollInterval j.now j =
      some (p.awaitFunds accounts minBalance maxWait pollInterval j) := by
  obtain ⟨-, horder⟩ := Settings.finalize_eq_ok_iff.mp hfit
  have hinterval : 0 < fit.funding.pollIntervalSecs.toNat := toNat_pos_of_ne_zero horder.pollInterval
  exact awaitRounds?_eq_awaitFunds (Nat.mul_pos (by decide : 0 < 1_000_000_000) hinterval) j

/-! ### Funding -/

/-- What comes before the lookups. -/
def prepare (p : Provisioning) (funding : FundingSettings) (senders : List Account) (j : Journal) :
    Except Failure Unit × Journal :=
  if funding.skip then (.ok (), j.notify .fundingSkipped) else p.fund funding senders j

variable {funding : FundingSettings} {senders : List Account}

theorem provision_of_error {cause : Failure} (hprepare : p.prepare funding senders j = (.error cause, j')) :
    p.provision funding senders j = (.error cause, senders, j') := by
  unfold provision
  rw [← prepare, hprepare]

theorem provision_of_ok (hprepare : p.prepare funding senders j = (.ok (), j')) :
    p.provision funding senders j = (.ok (), p.syncSequences senders j') := by
  unfold provision
  rw [← prepare, hprepare]

/-- What is said until the senders hold their funds: the funder's number, a payment to each sender, and
rounds of looking until all balances are enough in one of them. -/
def Prepared (p : Provisioning) (funding : FundingSettings) (senders : List Account)
    (said : List Exchange) : Prop :=
  ∃ key funder start payments polling,
    funding.funderKey = some key ∧ Account.ofSecretText key = .ok funder ∧
    said = .sequence funder.address (.ok start) :: payments ++ polling ∧
    List.Forall₂ (fun sender => p.Payment funder funding.fundAmount sender.address) senders payments ∧
    Polling funding.minBalance (senders.map (·.address)) polling

theorem prepared_of_fund (hfund : p.fund funding senders j = (.ok (), j')) :
    ∃ said, p.client.Talk j said j' ∧ p.Prepared funding senders said := by
  unfold fund at hfund
  split at hfund
  · cases hfund
  · rename_i key hkey
    split at hfund
    · cases hfund
    · rename_i funder hfunder
      split at hfund
      · cases hfund
      · rename_i funder' j₁ hsent
        split at hfund
        · cases hfund
        · rename_i j₂ hwait
          cases hfund
          obtain ⟨start, payments, htalk, hpayments⟩ := payments_of_fundSenders hsent
          obtain ⟨polling, hmore, hpolling⟩ := polling_of_awaitFunds hwait
          exact ⟨_, htalk.trans (hmore.congr rfl rfl), key, funder, start, payments, polling, hkey, hfunder,
            rfl, hpayments, hpolling⟩

theorem said_of_prepare (hprepare : p.prepare funding senders j = (.ok (), j')) :
    ∃ said, p.client.Talk j said j' ∧ if funding.skip then said = [] else p.Prepared funding senders said := by
  unfold prepare at hprepare
  cases hskip : funding.skip with
  | true =>
    rw [hskip, if_pos rfl] at hprepare
    cases hprepare
    exact ⟨[], .silence rfl, rfl⟩
  | false =>
    rw [hskip, if_neg Bool.false_ne_true] at hprepare
    exact prepared_of_fund hprepare

/-! ### Lookups that take other times -/

def retimed (p : Provisioning) (latency : List Call → Nat → Address → Nat) : Provisioning :=
  { p with client := p.client.retimed latency }

variable {latency : List Call → Nat → Address → Nat}

theorem fundRest_retimed (amount : Amount) (total done : Nat) (senders : List Account) (funder : Account)
    (j : Journal) : (p.retimed latency).fundRest amount total done senders funder j =
      p.fundRest amount total done senders funder j := by
  induction senders generalizing done funder j with
  | nil => rfl
  | cons sender rest ih =>
    unfold fundRest
    simp only [ih]
    rfl

/-- Funding asks for one number only, that of the funder. -/
theorem fund_retimed
    (hfirst : ∀ account, latency j.calls j.now account = (p.client.sequence j.calls j.now account).latency) :
    (p.retimed latency).fund funding senders j = p.fund funding senders j := by
  have hask : ∀ account,
      (j.ask (.sequence account) fun calls now => (p.retimed latency).client.sequence calls now account) =
        j.ask (.sequence account) fun calls now => p.client.sequence calls now account := by
    intro account
    simp only [Journal.ask, retimed, Client.retimed, hfirst]
  have hsend : ∀ funder amount, (p.retimed latency).fundSenders funder senders amount j =
      p.fundSenders funder senders amount j := by
    intro funder amount
    simp only [fundSenders, hask, fundRest_retimed]
  have hwait : (p.retimed latency).awaitFunds = p.awaitFunds := by with_unfolding_all rfl
  simp only [fund, hsend, hwait]

theorem prepare_retimed (hfirst : funding.skip = false → ∀ account,
      latency j.calls j.now account = (p.client.sequence j.calls j.now account).latency) :
    (p.retimed latency).prepare funding senders j = p.prepare funding senders j := by
  unfold prepare
  cases hskip : funding.skip with
  | true => rfl
  | false => rw [if_neg Bool.false_ne_true, if_neg Bool.false_ne_true, fund_retimed (hfirst hskip)]

theorem askEach_retimed (latency : List Call → Nat → Address → Nat) (client : Client) (accounts : List Address)
    (j : Journal) :
    (Journal.askEach .sequence (client.retimed latency).sequence accounts j).1 =
      (Journal.askEach .sequence client.sequence accounts j).1 := by
  induction accounts generalizing j with
  | nil => rfl
  | cons account rest ih => exact congrArg (_ :: ·) (ih (j.note (.sequence account)))

theorem syncSequences_retimed (p : Provisioning) (accounts : List Account) (j : Journal) :
    ((p.retimed latency).syncSequences accounts j).1 = (p.syncSequences accounts j).1 := by
  have hsame : ∀ earlier time account, p.client.exchange earlier ⟨time, .sequence account⟩ =
      .sequence account (p.client.sequence earlier time account).answer := fun _ _ _ => rfl
  obtain ⟨answers, hanswers, hlength, -⟩ := Journal.talk_askEach p.client hsame (accounts.map (·.address)) j
  rw [List.length_map] at hlength
  have hresults := askEach_retimed latency p.client (accounts.map (·.address)) j
  rw [hanswers] at hresults
  simp only [syncSequences, Journal.askAll, retimed, hresults, hanswers, (applySequences_zip hlength _).1]

/-! ### The outcome -/

/-- Provisioning that fails leaves all counters as they were. When it comes through, everything that was said
before the lookups is what funding takes, or nothing if funding is skipped; then each sender is looked up once,
and its counter is set to its own answer, or stays if there is none. Skipping cannot fail. Only the funder's
lookup can make a difference by the time that it takes: the others may come back in any order. -/
theorem provision_outcome (p : Provisioning) (funding : FundingSettings) (senders : List Account) (j : Journal) :
    let outcome := p.provision funding senders j
    (∀ cause, outcome.1 = .error cause → outcome.2.1 = senders) ∧
    (outcome.1 = .ok () → ∃ prepared answers,
      p.client.Talk j (prepared ++ List.zipWith Exchange.sequence (senders.map (·.address)) answers)
        outcome.2.2 ∧
      (if funding.skip then prepared = [] else p.Prepared funding senders prepared) ∧
      answers.length = senders.length ∧
      outcome.2.1 = List.zipWith settled senders answers) ∧
    (funding.skip = true → outcome.1 = .ok ()) ∧
    ∀ latency,
      (funding.skip = false →
        ∀ account, latency j.calls j.now account = (p.client.sequence j.calls j.now account).latency) →
      ((p.retimed latency).provision funding senders j).1 = outcome.1 ∧
        ((p.retimed latency).provision funding senders j).2.1 = outcome.2.1 := by
  intro outcome
  rcases hprepare : p.prepare funding senders j with ⟨cause | done, j'⟩
  · have houtcome : outcome = (.error cause, senders, j') := provision_of_error hprepare
    rw [houtcome]
    refine ⟨fun _ _ => rfl, nofun, fun hskip => ?_, fun latency hfirst => ?_⟩
    · rw [prepare, if_pos hskip] at hprepare
      cases hprepare
    · rw [provision_of_error ((prepare_retimed hfirst).trans hprepare)]
      exact ⟨rfl, rfl⟩
  · have houtcome : outcome = (.ok (), p.syncSequences senders j') := provision_of_ok hprepare
    rw [houtcome]
    refine ⟨nofun, fun _ => ?_, fun _ => rfl, fun latency hfirst => ?_⟩
    · obtain ⟨prepared, htalk, hprepared⟩ := said_of_prepare hprepare
      obtain ⟨answers, hlength, haccounts, hlookups⟩ := lookups_of_syncSequences p senders j'
      exact ⟨prepared, answers, htalk.trans hlookups, hprepared, hlength, haccounts⟩
    · rw [provision_of_ok ((prepare_retimed hfirst).trans hprepare)]
      exact ⟨rfl, syncSequences_retimed p senders j'⟩

/-! ### A small case -/

/-- A node that shows funds from the second round on and gives no number at the ninth question. -/
def slowNode : Client where
  submit _ _ _ := { latency := 2, answer := .ok "paid" }
  sequence earlier _ _ :=
    { latency := 3, answer := if earlier.length = 8 then .error (.http "no answer") else .ok 7 }
  balance earlier _ _ := { latency := 1, answer := .ok (if earlier.length < 5 then 0 else 1) }
  status _ _ _ := { answer := .ok .unknown }

def small : Provisioning := { client := slowNode, signer := fun _ _ => .ok ⟨[], ""⟩, run := {} }

/-- The key of 32 zeros. -/
def zeroKey : String := String.ofList (List.replicate 64 '0')

def smallFunding : FundingSettings where
  funderKey := some zeroKey
  fundAmount := 1
  minBalance := 1
  timeoutSecs := 5
  pollIntervalSecs := 1

def smallSenders : List Account := [⟨.ofSeed [1], ⟨5⟩⟩, ⟨.ofSeed [2], ⟨6⟩⟩]

/-- The calls up to the last payment, the latest first. -/
def smallPayments : List Call :=
  [⟨5, .submission ⟨[], ""⟩⟩, ⟨3, .submission ⟨[], ""⟩⟩,
    ⟨0, .sequence (Account.ofSeed (List.replicate 32 0)).address⟩]

/-- Funding takes two payments and two rounds of two questions each. -/
theorem fund_small : ∃ j, small.fund smallFunding smallSenders {} = (.ok (), j) ∧ j.calls.length = 7 := by
  have hsecret : Account.secretOfText zeroKey = .ok (List.replicate 32 0) := by decide +kernel
  have hkey : Account.ofSecretText zeroKey = .ok (.ofSeed (List.replicate 32 0)) := by
    rw [Account.ofSecretText, hsecret]
  obtain ⟨funder, notices, hsent⟩ : ∃ funder notices,
      small.fundSenders (.ofSeed (List.replicate 32 0)) smallSenders 1 {} =
        (.ok (), funder, ⟨7, smallPayments, notices⟩) :=
    ⟨_, _, rfl⟩
  let poll := small.pollBalances (smallSenders.map (·.address)) 1
  let first := poll (Journal.notify ⟨7, smallPayments, notices⟩ .awaitingFunds)
  let second := poll (first.2.moveTo (pauseOver first.2.now (nanosOfSecs 1)))
  have hfirst : poll (Journal.notify ⟨7, smallPayments, notices⟩ .awaitingFunds) = (0, first.2) := rfl
  have hsecond : poll (first.2.moveTo (pauseOver first.2.now (nanosOfSecs 1))) = (2, second.2) := rfl
  have hwait : small.awaitFunds (smallSenders.map (·.address)) 1 (nanosOfSecs 5) (nanosOfSecs 1)
      (Journal.notify ⟨7, smallPayments, notices⟩ .awaitingFunds) = (.ok (), second.2) := by
    have hearly : nanosOfMillis (8 - 7) ≤ nanosOfSecs 5 := by decide
    unfold awaitFunds
    change (small.awaitRounds? _ _ _ _ 7 _).getD _ = _
    rw [awaitRounds?_of_early hfirst (by decide) hearly, awaitRounds?_of_funded hsecond, Option.getD_some]
  refine ⟨second.2.notify .allFunded, ?_, rfl⟩
  simp only [fund, smallFunding, hkey, hsent, hwait]

/-- The first sender takes over the number that the node gives, and the second keeps its own. Without a key
for the funder, both keep theirs. -/
theorem provision_outcome_small :
    (small.provision smallFunding smallSenders {}).1 = .ok () ∧
      (∃ prepared answers,
        small.client.Talk {} (prepared ++ List.zipWith Exchange.sequence (smallSenders.map (·.address)) answers)
          (small.provision smallFunding smallSenders {}).2.2 ∧
        small.Prepared smallFunding smallSenders prepared ∧
        (small.provision smallFunding smallSenders {}).2.1 = List.zipWith settled smallSenders answers) ∧
      (small.provision smallFunding smallSenders {}).2.1.map (·.sequence.next) = [7, 6] ∧
      (small.provision { smallFunding with funderKey := none } smallSenders {}).2.1 = smallSenders := by
  obtain ⟨j, hfund, hcalls⟩ := fund_small
  have hok := provision_of_ok (show small.prepare smallFunding smallSenders {} = (.ok (), j) from hfund)
  obtain ⟨-, hcompleted, -, -⟩ := provision_outcome small smallFunding smallSenders {}
  obtain ⟨prepared, answers, htalk, hprepared, -, haccounts⟩ := hcompleted (congrArg Prod.fst hok)
  obtain ⟨hfailed, -, -, -⟩ := provision_outcome small { smallFunding with funderKey := none } smallSenders {}
  refine ⟨congrArg Prod.fst hok, ⟨prepared, answers, htalk, hprepared, haccounts⟩, ?_, hfailed _ rfl⟩
  rw [hok]
  simp [syncSequences, Journal.askAll, Journal.askEach, applySequences, small, smallSenders, slowNode,
    Journal.note, hcalls, Account.resetSequence, SequenceCounter.reset]

end Provisioning

end TransferLoad
