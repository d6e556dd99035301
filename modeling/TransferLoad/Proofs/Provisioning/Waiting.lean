import TransferLoad.Proofs.Provisioning.Outcome
import TransferLoad.Proofs.Run.PacingAccuracy

/-!
# When a wait for funds ends

With a client that gives balances at once, the rounds of a wait begin at times that are known beforehand,
and each looks at all accounts anew. So the wait ends with the first round in which all accounts hold enough,
if no round before it began too late, and else with the first round that began too late. Nothing that an
account held in another round counts, and neither does a lookup that failed in another round.
-/

namespace TransferLoad

/-- The answers about the balances of some accounts, all asked for at one time, each after the ones before. -/
def Client.balances (client : Client) (now : Nat) : List Call → List Address → List (Except Failure Amount)
  | _, [] => []
  | earlier, account :: rest =>
    (client.balance earlier now account).answer ::
      client.balances now (⟨now, .balance account⟩ :: earlier) rest

/-- Calls for the balances of some accounts, the latest first. -/
def balanceCalls (now : Nat) (accounts : List Address) : List Call :=
  (accounts.map fun account => ⟨now, .balance account⟩).reverse

/-- A client whose answers about balances take no time. -/
def Client.ShowsAtOnce (client : Client) : Prop :=
  ∀ earlier now account, (client.balance earlier now account).latency = 0

namespace Provisioning

theorem isFunded_iff {minBalance : Amount} {answer : Except Failure Amount} :
    isFunded minBalance answer = true ↔ ∃ balance, answer = .ok balance ∧ minBalance ≤ balance := by
  cases answer with
  | error cause => simp [isFunded]
  | ok balance => simp [isFunded]

/-! ### One round -/

theorem length_balances (client : Client) (now : Nat) (earlier : List Call) (accounts : List Address) :
    (client.balances now earlier accounts).length = accounts.length := by
  induction accounts generalizing earlier with
  | nil => rfl
  | cons account rest ih => exact congrArg (· + 1) (ih _)

theorem askEach_balances {client : Client} (hprompt : client.ShowsAtOnce) (accounts : List Address) (j : Journal) :
    let asked := Journal.askEach .balance client.balance accounts j
    asked.1.map Prod.snd = client.balances j.now j.calls accounts ∧ asked.2.1 = 0 ∧
      asked.2.2.calls = balanceCalls j.now accounts ++ j.calls := by
  induction accounts generalizing j with
  | nil => exact ⟨rfl, rfl, rfl⟩
  | cons account rest ih =>
    obtain ⟨hanswers, hlatency, hcalls⟩ := ih (j.note (.balance account))
    refine ⟨congrArg (_ :: ·) hanswers, ?_, ?_⟩
    · change max _ _ = 0
      rw [hlatency, hprompt, Nat.max_self]
    · rw [balanceCalls, List.map_cons, List.reverse_cons, List.append_assoc]
      exact hcalls

variable {p : Provisioning}

/-- A round counts the answers of its own time, and is over at once. -/
theorem pollBalances_at_once (hprompt : p.client.ShowsAtOnce) (accounts : List Address) (minBalance : Amount)
    (j : Journal) : ∃ j', p.pollBalances accounts minBalance j =
        ((p.client.balances j.now j.calls accounts).countP (isFunded minBalance), j') ∧
      j'.now = j.now ∧ j'.calls = balanceCalls j.now accounts ++ j.calls := by
  obtain ⟨hanswers, hlatency, hcalls⟩ := askEach_balances hprompt accounts j
  refine ⟨(p.pollBalances accounts minBalance j).2, Prod.ext ?_ rfl, ?_, ?_⟩
  · rw [← hanswers, List.countP_map]
    rfl
  · refine (now_noteBalanceFailures _ _).trans ?_
    change (Journal.askEach .balance p.client.balance accounts j).2.2.now +
      (Journal.askEach .balance p.client.balance accounts j).2.1 = j.now
    rw [now_askEach, hlatency, Nat.add_zero]
  · exact (calls_noteBalanceFailures _ _).trans hcalls

/-! ### All rounds -/

/-- A wait for funds: whose balances count and how much they should hold, the time limit and the pauses in
nanoseconds, and what came before. -/
structure Wait where
  provisioning : Provisioning
  accounts : List Address
  minBalance : Amount
  maxWait : Nat
  pollInterval : Nat
  begun : Journal

namespace Wait

/-- How the wait ends, if it ends. -/
def ending? (w : Wait) : Option (Except Failure Unit × Journal) :=
  w.provisioning.awaitRounds? w.accounts w.minBalance w.maxWait w.pollInterval w.begun.now w.begun

def outcome (w : Wait) : Except Failure Unit × Journal :=
  w.provisioning.awaitFunds w.accounts w.minBalance w.maxWait w.pollInterval w.begun

/-- The milliseconds from the beginning of the wait to that of a round, the first of which has number zero. -/
def delay (w : Wait) (round : Nat) : Nat := round * millisCovering w.pollInterval

def roundTime (w : Wait) (round : Nat) : Nat := w.begun.now + w.delay round

/-- The calls before a round, the latest first. -/
def callsBefore (w : Wait) : (round : Nat) → List Call
  | 0 => w.begun.calls
  | round + 1 => balanceCalls (w.roundTime round) w.accounts ++ w.callsBefore round

/-- What the client says in a round, account by account. -/
def answers (w : Wait) (round : Nat) : List (Except Failure Amount) :=
  w.provisioning.client.balances (w.roundTime round) (w.callsBefore round) w.accounts

/-- In this round, all lookups succeed and show enough. -/
def Full (w : Wait) (round : Nat) : Prop :=
  ∀ answer ∈ w.answers round, ∃ balance, answer = .ok balance ∧ w.minBalance ≤ balance

/-- The accounts that hold enough in this round. -/
def funded (w : Wait) (round : Nat) : Nat := (w.answers round).countP (isFunded w.minBalance)

/-- Nanoseconds from the beginning of the wait to that of a round. -/
def waited (w : Wait) (round : Nat) : Nat := nanosOfMillis (w.delay round)

/-- The round begins later than the wait may last. -/
def Late (w : Wait) (round : Nat) : Prop := w.maxWait < w.waited round

/-- No round before this one ends the wait. -/
def GoesOnUntil (w : Wait) (round : Nat) : Prop := ∀ earlier < round, ¬ w.Full earlier ∧ ¬ w.Late earlier

variable {w : Wait} {round : Nat}

theorem full_iff : w.Full round ↔ w.funded round = w.accounts.length := by
  have hlength : (w.answers round).length = w.accounts.length := length_balances ..
  rw [← hlength, funded, List.countP_eq_length]
  exact forall₂_congr fun _ _ => isFunded_iff.symm

instance : Decidable (w.Full round) := decidable_of_iff _ full_iff.symm

instance : Decidable (w.Late round) := Nat.decLt _ _

instance : Decidable (w.GoesOnUntil round) := inferInstanceAs (Decidable (∀ earlier < round, _ ∧ _))

theorem funded_lt (hshort : ¬ w.Full round) : w.funded round < w.accounts.length := by
  have hle : w.funded round ≤ w.accounts.length :=
    List.countP_le_length.trans_eq (length_balances ..)
  exact lt_of_le_of_ne hle fun heq => hshort (full_iff.mpr heq)

theorem pauseOver_roundTime (w : Wait) (round : Nat) :
    pauseOver (w.roundTime round) w.pollInterval = w.roundTime (round + 1) := by
  rw [pauseOver, millisCovering_add, roundTime, roundTime, delay, delay, Nat.succ_mul, Nat.add_assoc]

/-- Rounds are at least a millisecond apart. -/
theorem le_delay (hpause : 0 < w.pollInterval) (round : Nat) : round ≤ w.delay round := by
  have hstep : 0 < millisCovering w.pollInterval := by
    have hcovered := le_nanosOfMillis_millisCovering w.pollInterval
    unfold nanosOfMillis at hcovered
    omega
  exact Nat.le_mul_of_pos_right round hstep

/-- Some round is late at last. -/
theorem exists_late (hpause : 0 < w.pollInterval) : ∃ round, w.Late round := by
  refine ⟨w.maxWait + 1, ?_⟩
  have hdelay : w.maxWait + 1 ≤ w.delay (w.maxWait + 1) := le_delay hpause _
  unfold Late waited nanosOfMillis
  omega

/-- The first late round is late by one pause at most, up to the millisecond in which the pause ends. -/
theorem waited_le (hlate : w.Late round) (hfirst : ∀ earlier < round, ¬ w.Late earlier) :
    w.waited round ≤ w.maxWait + w.pollInterval + 1_000_000 := by
  cases round with
  | zero =>
    rw [Late, waited, delay, Nat.zero_mul] at hlate
    exact absurd hlate (Nat.not_lt_zero _)
  | succ before =>
    have hbefore : w.waited before ≤ w.maxWait := Nat.not_lt.mp (hfirst before (Nat.lt_succ_self _))
    have hpause := nanosOfMillis_millisCovering_lt w.pollInterval
    have hwaited : w.waited (before + 1) =
        w.waited before + nanosOfMillis (millisCovering w.pollInterval) := by
      unfold waited delay nanosOfMillis
      ring
    omega

/-- There is a first round that is full or late. -/
theorem exists_last_round (hpause : 0 < w.pollInterval) :
    ∃ round, w.GoesOnUntil round ∧ (w.Full round ∨ w.Late round) := by
  classical
  obtain ⟨late, hlate⟩ := exists_late hpause
  have hsome : ∃ round, w.Full round ∨ w.Late round := ⟨late, .inr hlate⟩
  exact ⟨Nat.find hsome, fun _ hless => not_or.mp (Nat.find_min hsome hless), Nat.find_spec hsome⟩

/-- Only one round can be the last. -/
theorem last_round_unique {other : Nat} (hgoes : w.GoesOnUntil round) (hlast : w.Full round ∨ w.Late round)
    (hgoes' : w.GoesOnUntil other) (hlast' : w.Full other ∨ w.Late other) : round = other := by
  rcases Nat.lt_trichotomy round other with hbefore | heq | hafter
  · exact absurd hlast (not_or.mpr (hgoes' round hbefore))
  · exact heq
  · exact absurd hlast' (not_or.mpr (hgoes other hafter))

/-- This is how the journal stands when the given round has been the last. -/
structure EndsWith (w : Wait) (round : Nat) (j : Journal) : Prop where
  now_eq : j.now = w.roundTime round
  calls_eq : j.calls = w.callsBefore (round + 1)

/-- The time that such a journal shows is the one that a timeout would report. -/
theorem waited_eq {j : Journal} (hends : w.EndsWith round j) :
    w.waited round = nanosOfMillis (j.now - w.begun.now) := by
  rw [hends.now_eq, roundTime, Nat.add_sub_cancel_left, waited]

section AtOnce

variable (hprompt : w.provisioning.client.ShowsAtOnce)
include hprompt

/-- A round that begins as the wait has it counts its own answers, and asks nothing else. -/
theorem pollBalances_round {j : Journal} (hnow : j.now = w.roundTime round) (hcalls : j.calls = w.callsBefore round) :
    ∃ j', w.provisioning.pollBalances w.accounts w.minBalance j = (w.funded round, j') ∧
      w.EndsWith round j' := by
  obtain ⟨j', hpoll, hnow', hcalls'⟩ := pollBalances_at_once hprompt w.accounts w.minBalance j
  rw [hnow, hcalls] at hpoll hcalls'
  exact ⟨j', hpoll, hnow'.trans hnow, hcalls'⟩

/-- As long as no round is full or late, the wait goes on, from one round to the next. -/
theorem reaches_round (round : Nat) (hgoes : w.GoesOnUntil round) :
    ∃ j j', w.ending? =
        w.provisioning.awaitRounds? w.accounts w.minBalance w.maxWait w.pollInterval w.begun.now j ∧
      w.provisioning.pollBalances w.accounts w.minBalance j = (w.funded round, j') ∧ w.EndsWith round j' := by
  induction round with
  | zero =>
    have hnow : w.begun.now = w.roundTime 0 := by rw [roundTime, delay, Nat.zero_mul, Nat.add_zero]
    obtain ⟨j', hpoll, hends⟩ := pollBalances_round hprompt hnow rfl
    exact ⟨w.begun, j', rfl, hpoll, hends⟩
  | succ round ih =>
    obtain ⟨j, j', hwait, hpoll, hends⟩ := ih fun earlier hless => hgoes earlier (Nat.lt_succ_of_lt hless)
    obtain ⟨hshort, hearly⟩ := hgoes round (Nat.lt_succ_self round)
    rw [Late, waited_eq hends, Nat.not_lt] at hearly
    have hnow : (j'.moveTo (pauseOver j'.now w.pollInterval)).now = w.roundTime (round + 1) := by
      rw [hends.now_eq, pauseOver_roundTime]
      rfl
    obtain ⟨j'', hnext, hends'⟩ := pollBalances_round hprompt hnow hends.calls_eq
    exact ⟨_, j'', hwait.trans (awaitRounds?_of_early hpoll (funded_lt hshort).ne hearly), hnext, hends'⟩

theorem ending?_of_full (hgoes : w.GoesOnUntil round) (hfull : w.Full round) :
    ∃ j, w.ending? = some (.ok (), j) ∧ w.EndsWith round j := by
  obtain ⟨j, j', hwait, hpoll, hends⟩ := reaches_round hprompt round hgoes
  rw [full_iff.mp hfull] at hpoll
  exact ⟨j', hwait.trans (awaitRounds?_of_funded hpoll), hends⟩

theorem ending?_of_late (hgoes : w.GoesOnUntil round) (hshort : ¬ w.Full round) (hlate : w.Late round) :
    ∃ j, w.ending? =
        some (.error (.fundingTimeout (w.funded round) w.accounts.length (w.waited round)), j) ∧
      w.EndsWith round j := by
  obtain ⟨j, j', hwait, hpoll, hends⟩ := reaches_round hprompt round hgoes
  rw [Late, waited_eq hends] at hlate
  rw [waited_eq hends]
  exact ⟨j', hwait.trans (awaitRounds?_of_late hpoll (funded_lt hshort).ne hlate), hends⟩

end AtOnce

theorem outcome_of_ending? (hpause : 0 < w.pollInterval) {ending : Except Failure Unit × Journal}
    (hending : w.ending? = some ending) : w.outcome = ending :=
  Option.some.inj ((awaitRounds?_eq_awaitFunds hpause w.begun).symm.trans hending)

/-- A wait with pauses ends. It comes through with the first round in which all accounts hold enough, if none
before it began too late, and nothing but such a round lets it come through. Else it ends with the first round
that began too late, and reports that round's own count of funded accounts, which some account is missing from,
and its own time, which is over the limit by one pause and one millisecond at most. -/
theorem awaitFunds_ends (w : Wait) (hpause : 0 < w.pollInterval) (hprompt : w.provisioning.client.ShowsAtOnce) :
    ∃ round result j, w.ending? = some (result, j) ∧ w.outcome = (result, j) ∧ w.EndsWith round j ∧
      w.GoesOnUntil round ∧
      (w.Full round ∧ result = .ok () ∨
        ¬ w.Full round ∧ w.Late round ∧
          result = .error (.fundingTimeout (w.funded round) w.accounts.length (w.waited round)) ∧
          w.funded round < w.accounts.length ∧ w.maxWait < w.waited round ∧
          w.waited round ≤ w.maxWait + w.pollInterval + 1_000_000) ∧
      (result = .ok () ↔ ∃ full, w.Full full ∧ ∀ earlier < full, ¬ w.Late earlier) := by
  obtain ⟨round, hgoes, hlast⟩ := exists_last_round hpause
  by_cases hfull : w.Full round
  · obtain ⟨j, hending, hends⟩ := ending?_of_full hprompt hgoes hfull
    exact ⟨round, .ok (), j, hending, outcome_of_ending? hpause hending, hends, hgoes, .inl ⟨hfull, rfl⟩,
      fun _ => ⟨round, hfull, fun earlier hless => (hgoes earlier hless).2⟩, fun _ => rfl⟩
  · have hlate : w.Late round := hlast.resolve_left hfull
    obtain ⟨j, hending, hends⟩ := ending?_of_late hprompt hgoes hfull hlate
    refine ⟨round, _, j, hending, outcome_of_ending? hpause hending, hends, hgoes,
      .inr ⟨hfull, hlate, rfl, funded_lt hfull, hlate, waited_le hlate fun earlier hless => (hgoes earlier hless).2⟩,
      nofun, ?_⟩
    rintro ⟨full, hfull', htimely⟩
    rcases Nat.lt_trichotomy full round with hbefore | rfl | hafter
    · exact absurd hfull' (hgoes full hbefore).1
    · exact absurd hfull' hfull
    · exact absurd hlate (htimely round hafter)

/-- Two accounts, of which the first holds enough at once, is then out of reach, and holds enough again from the
third round on, when the second does as well. -/
def flickering (maxWait : Nat) : Wait where
  provisioning :=
    { client :=
        { slowNode with
          balance := fun earlier _ _ =>
            { answer := match earlier.length with
                | 1 | 3 => .ok 0
                | 2 => .error (.http "no answer")
                | _ => .ok 1 } }
      run := {} }
  accounts := smallSenders.map (·.address)
  minBalance := 1
  maxWait := maxWait
  pollInterval := nanosOfSecs 1
  begun := {}

/-- With enough time the wait comes through in the third round, with less it is over after the second. -/
theorem awaitFunds_ends_flickering :
    (flickering (nanosOfSecs 5)).outcome.1 = .ok () ∧ (flickering (nanosOfSecs 5)).outcome.2.now = 2000 ∧
      (flickering (nanosOfMillis 999)).outcome.1 = .error (.fundingTimeout 0 2 (nanosOfSecs 1)) := by
  have hprompt : ∀ maxWait, (flickering maxWait).provisioning.client.ShowsAtOnce := fun _ _ _ _ => rfl
  obtain ⟨round, result, j, -, houtcome, hends, hgoes, hlast, -⟩ :=
    awaitFunds_ends (flickering (nanosOfSecs 5)) (by decide) (hprompt _)
  obtain ⟨round', result', j', -, houtcome', -, hgoes', hlast', -⟩ :=
    awaitFunds_ends (flickering (nanosOfMillis 999)) (by decide) (hprompt _)
  obtain rfl : round = 2 :=
    last_round_unique hgoes (hlast.imp And.left (·.2.1)) (by decide) (.inl (by decide))
  obtain rfl : round' = 1 :=
    last_round_unique hgoes' (hlast'.imp And.left (·.2.1)) (by decide) (.inr (by decide))
  rw [houtcome, houtcome']
  refine ⟨?_, hends.now_eq, ?_⟩
  · exact (hlast.resolve_right fun hlate => hlate.1 (by decide)).2
  · exact (hlast'.resolve_left fun hfull => absurd hfull.1 (by decide)).2.2.1

end Wait

end Provisioning

end TransferLoad
