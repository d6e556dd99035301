import TransferLoad.Proofs.Provisioning.Outcome

/-!
# Payments to the senders

The funder pays one sender after the other, with one number for each, and stops at the first payment that
cannot be signed or is not accepted. So the position of that payment says everything: the payments before it
were all made, those after it were never tried, and the funder's counter stands behind its number.
-/

namespace TransferLoad

namespace Journal

/-- The journal without its notices. -/
def quiet (j : Journal) : Journal := { j with notices := [] }

/-- Notices make no difference to a question and its answer. -/
theorem ask_quiet {α : Type} {j j' : Journal} (hquiet : j.quiet = j') (question : Question)
    (reply : List Call → Nat → Reply α) :
    (j.ask question reply).1 = (j'.ask question reply).1 ∧
      (j.ask question reply).2.quiet = (j'.ask question reply).2 := by
  subst hquiet
  exact ⟨rfl, rfl⟩

end Journal

namespace Client

/-- Submits transfers one at a time, each when the answer to the one before is there. -/
def submitInTurn (client : Client) (payloads : List SignedPayload) (j : Journal) : Journal :=
  payloads.foldl
    (fun j payload => (j.ask (.submission payload) fun calls now => client.submit calls now payload).2) j

theorem submitInTurn_concat (client : Client) (payloads : List SignedPayload) (payload : SignedPayload)
    (j : Journal) : client.submitInTurn (payloads ++ [payload]) j =
      ((client.submitInTurn payloads j).ask (.submission payload)
        fun calls now => client.submit calls now payload).2 :=
  List.foldl_concat ..

/-- What was asked, the latest first: the transfers in turn, and nothing else. -/
theorem questions_submitInTurn (client : Client) (payloads : List SignedPayload) (j : Journal) :
    (client.submitInTurn payloads j).calls.map (·.question) =
      (payloads.map .submission).reverse ++ j.calls.map (·.question) := by
  induction payloads generalizing j with
  | nil => rfl
  | cons payload rest ih =>
    refine (ih _).trans ?_
    rw [List.map_cons, List.reverse_cons, List.append_assoc]
    rfl

end Client

namespace Provisioning

theorem quiet_noteFunded (j : Journal) (count total : Nat) : (noteFunded j count total).quiet = j.quiet := by
  unfold noteFunded
  split <;> rfl

/-! ### One payment -/

section Payment

variable {p : Provisioning} {amount : Amount} {total done : Nat} {sender funder : Account}
  {rest : List Account} {j j' : Journal} {cause : Failure} {payload : SignedPayload} {identifier : String}

theorem fundRest_of_refused
    (hsigned : p.signer (p.fundingIntent funder amount sender.address) funder.key = .error cause) :
    p.fundRest amount total done (sender :: rest) funder j =
      (.error (.funding ("failed to sign funding tx: " ++ cause.message)), funder.draw.2, j) := by
  rw [fundRest, show funder.draw.2.key = funder.key from rfl, hsigned]

theorem fundRest_of_rejected
    (hsigned : p.signer (p.fundingIntent funder amount sender.address) funder.key = .ok payload)
    (hask : (j.ask (.submission payload) fun calls now => p.client.submit calls now payload) =
      (.error cause, j')) :
    p.fundRest amount total done (sender :: rest) funder j =
      (.error (.funding ("failed to send funding tx: " ++ cause.message)), funder.draw.2, j') := by
  rw [fundRest, show funder.draw.2.key = funder.key from rfl, hsigned]
  dsimp only
  rw [hask]

theorem fundRest_of_paid
    (hsigned : p.signer (p.fundingIntent funder amount sender.address) funder.key = .ok payload)
    (hask : (j.ask (.submission payload) fun calls now => p.client.submit calls now payload) =
      (.ok identifier, j')) :
    p.fundRest amount total done (sender :: rest) funder j =
      p.fundRest amount total (done + 1) rest funder.draw.2 (noteFunded j' (done + 1) total) := by
  rw [fundRest, show funder.draw.2.key = funder.key from rfl, hsigned]
  dsimp only
  rw [hask]

end Payment

/-! ### All payments -/

/-- A payout is to be made: who pays whom, how much each, and what came before. -/
structure Payout where
  provisioning : Provisioning
  funder : Account
  senders : List Account
  amount : Amount
  begun : Journal

namespace Payout

def outcome (w : Payout) : Except Failure Unit × Account × Journal :=
  w.provisioning.fundSenders w.funder w.senders w.amount w.begun

/-- What the client says about the funder's next number. -/
def lookup (w : Payout) : Except Failure UInt64 × Journal :=
  w.begun.ask (.sequence w.funder.address) fun calls now =>
    w.provisioning.client.sequence calls now w.funder.address

/-- The payment to the sender at a position, if the funder's numbers begin at `start`. -/
def intent (w : Payout) (start : UInt64) (position : Nat) (sender : Account) : Intent where
  sender := w.funder.address
  recipient := sender.address
  amount := w.amount
  feePrice := w.provisioning.run.feePrice
  sequence := start + UInt64.ofNat position
  chainId := w.provisioning.run.chainId

def intents (w : Payout) (start : UInt64) : List Intent := w.senders.mapIdx (w.intent start)

def signed (w : Payout) (start : UInt64) : List (Except Failure SignedPayload) :=
  (w.intents start).map fun intent => w.provisioning.signer intent w.funder.key

/-- The payments before a position, as far as they can be signed. -/
def payloads (w : Payout) (start : UInt64) (position : Nat) : List SignedPayload :=
  ((w.signed start).take position).filterMap Except.toOption

/-- The journal when the payments before a position have been made. -/
def paid (w : Payout) (start : UInt64) (position : Nat) : Journal :=
  w.provisioning.client.submitInTurn (w.payloads start position) w.lookup.2.quiet

/-- What goes wrong with the payment at a position, in words, if all payments before it have been made. -/
def failure? (w : Payout) (start : UInt64) (position : Nat) : Option String :=
  match (w.signed start)[position]? with
  | none => none
  | some (.error cause) => some ("failed to sign funding tx: " ++ cause.message)
  | some (.ok payload) =>
    let j := w.paid start position
    match (w.provisioning.client.submit j.calls j.now payload).answer with
    | .error cause => some ("failed to send funding tx: " ++ cause.message)
    | .ok _ => none

/-- Nothing goes wrong before a position. -/
def PaysUntil (w : Payout) (start : UInt64) (position : Nat) : Prop :=
  ∀ earlier < position, w.failure? start earlier = none

variable {w : Payout} {start : UInt64} {position : Nat}

theorem signed_getElem? (w : Payout) (start : UInt64) (hinside : position < w.senders.length) :
    (w.signed start)[position]? =
      some (w.provisioning.signer (w.intent start position w.senders[position]) w.funder.key) := by
  simp only [signed, intents, List.getElem?_map, List.getElem?_mapIdx, List.getElem?_eq_getElem hinside,
    Option.map_some]

theorem payloads_succ_of_ok {payload : SignedPayload}
    (hsigned : (w.signed start)[position]? = some (.ok payload)) :
    w.payloads start (position + 1) = w.payloads start position ++ [payload] := by
  rw [payloads, List.take_add_one, hsigned, List.filterMap_append]
  rfl

theorem payloads_succ_of_error {cause : Failure}
    (hsigned : (w.signed start)[position]? = some (.error cause)) :
    w.payloads start (position + 1) = w.payloads start position := by
  rw [payloads, List.take_add_one, hsigned, List.filterMap_append]
  exact List.append_nil _

theorem paid_succ {payload : SignedPayload} (hsigned : (w.signed start)[position]? = some (.ok payload)) :
    w.paid start (position + 1) = ((w.paid start position).ask (.submission payload)
      fun calls now => w.provisioning.client.submit calls now payload).2 := by
  rw [paid, payloads_succ_of_ok hsigned, Client.submitInTurn_concat]
  rfl

/-! ### Numbers -/

/-- The funder when so many numbers have been drawn. -/
def payer (w : Payout) (start : UInt64) (drawn : Nat) : Account :=
  w.funder.resetSequence (start + UInt64.ofNat drawn)

theorem draw_payer (w : Payout) (start : UInt64) (drawn : Nat) :
    (w.payer start drawn).draw.2 = w.payer start (drawn + 1) := by
  have hnext : start + UInt64.ofNat drawn + 1 = start + UInt64.ofNat (drawn + 1) := by
    rw [UInt64.ofNat_add, ← UInt64.add_assoc]
    rfl
  rw [payer, payer, ← hnext]
  rfl

theorem next_payer {drawn : Nat} (hfits : start.toNat + drawn < 2 ^ 64) :
    (w.payer start drawn).sequence.next.toNat = start.toNat + drawn := by
  change (start + UInt64.ofNat drawn).toNat = _
  rw [UInt64.toNat_add, UInt64.toNat_ofNat']
  omega

theorem numbers_intents (hfits : start.toNat + w.senders.length < 2 ^ 64) :
    (w.intents start).map (·.sequence.toNat) = List.range' start.toNat w.senders.length := by
  refine List.ext_getElem (by simp [intents]) fun position hleft hright => ?_
  rw [List.length_range'] at hright
  simp only [intents, List.getElem_map, List.getElem_mapIdx, List.getElem_range', intent, Nat.one_mul]
  exact next_payer (w := w) (by omega)

/-! ### From one position to the next -/

/-- A payment that nothing goes wrong with is signed and accepted. -/
theorem accepted_of_failure?_eq_none (hless : position < w.senders.length)
    (hnone : w.failure? start position = none) : ∃ payload identifier,
      (w.signed start)[position]? = some (.ok payload) ∧
      ((w.paid start position).ask (.submission payload) fun calls now =>
        w.provisioning.client.submit calls now payload) = (.ok identifier, w.paid start (position + 1)) := by
  have hsigned := w.signed_getElem? start hless
  rw [failure?, hsigned] at hnone
  rcases hsign : w.provisioning.signer _ _ with cause | payload
  · rw [hsign] at hnone
    cases hnone
  · rw [hsign] at hnone hsigned
    refine ⟨payload, ?_⟩
    dsimp only at hnone
    split at hnone
    · cases hnone
    · rename_i identifier hanswer
      exact ⟨identifier, hsigned, Prod.ext hanswer (paid_succ hsigned).symm⟩

/-- As long as nothing goes wrong, payments go on from one sender to the next. -/
theorem reaches_position (hlookup : w.lookup.1 = .ok start) (position : Nat)
    (hpays : w.PaysUntil start position) (hle : position ≤ w.senders.length) :
    ∃ j, j.quiet = w.paid start position ∧
      w.outcome = w.provisioning.fundRest w.amount w.senders.length position (w.senders.drop position)
        (w.payer start position) j := by
  induction position with
  | zero =>
    refine ⟨w.lookup.2.notify (.funding w.senders.length w.amount w.funder.address), rfl, ?_⟩
    rw [outcome, fundSenders, ← lookup, ← Prod.mk.eta (p := w.lookup), hlookup, payer,
      show start + UInt64.ofNat 0 = start from UInt64.add_zero start]
    rfl
  | succ position ih =>
    obtain ⟨j, hquiet, houtcome⟩ := ih (fun earlier hless => hpays earlier (Nat.lt_succ_of_lt hless))
      (Nat.le_of_lt hle)
    obtain ⟨payload, identifier, hsigned, hask⟩ :=
      accepted_of_failure?_eq_none hle (hpays position (Nat.lt_succ_self _))
    obtain ⟨hanswer, hthen⟩ := Journal.ask_quiet hquiet (.submission payload)
      fun calls now => w.provisioning.client.submit calls now payload
    rw [hask] at hanswer hthen
    dsimp only at hanswer
    rw [w.signed_getElem? start hle, Option.some_inj] at hsigned
    refine ⟨noteFunded _ (position + 1) w.senders.length, (quiet_noteFunded _ _ _).trans hthen, ?_⟩
    rw [houtcome, List.drop_eq_getElem_cons hle,
      fundRest_of_paid hsigned (Prod.ext hanswer rfl), draw_payer]

/-! ### The end -/

theorem outcome_of_complete (hlookup : w.lookup.1 = .ok start) (hpays : w.PaysUntil start w.senders.length) :
    w.outcome.1 = .ok () ∧ w.outcome.2.1 = w.payer start w.senders.length ∧
      w.outcome.2.2.quiet = w.paid start w.senders.length := by
  obtain ⟨j, hquiet, houtcome⟩ := reaches_position hlookup _ hpays (Nat.le_refl _)
  rw [List.drop_length, fundRest] at houtcome
  rw [houtcome]
  exact ⟨rfl, rfl, hquiet⟩

/-- The payment that goes wrong is the last one that was tried, and it has taken a number. -/
theorem outcome_of_failure (hlookup : w.lookup.1 = .ok start) (hpays : w.PaysUntil start position)
    (hless : position < w.senders.length) {message : String}
    (hfails : w.failure? start position = some message) :
    w.outcome.1 = .error (.funding message) ∧ w.outcome.2.1 = w.payer start (position + 1) ∧
      w.outcome.2.2.quiet = w.paid start (position + 1) := by
  obtain ⟨j, hquiet, houtcome⟩ := reaches_position hlookup _ hpays hless.le
  have hsigned := w.signed_getElem? start hless
  rw [List.drop_eq_getElem_cons hless] at houtcome
  rw [failure?, hsigned] at hfails
  rcases hsign : w.provisioning.signer _ _ with cause | payload
  · rw [hsign] at hfails hsigned
    cases hfails
    rw [houtcome, fundRest_of_refused hsign, draw_payer, paid, payloads_succ_of_error hsigned]
    exact ⟨rfl, rfl, hquiet⟩
  · rw [hsign] at hfails hsigned
    dsimp only at hfails
    split at hfails
    · rename_i cause hanswer
      cases hfails
      obtain ⟨hanswer', hthen⟩ := Journal.ask_quiet hquiet (.submission payload)
        fun calls now => w.provisioning.client.submit calls now payload
      rw [houtcome, fundRest_of_rejected hsign (Prod.ext (hanswer'.trans hanswer) rfl), draw_payer, paid_succ hsigned]
      exact ⟨rfl, rfl, hthen⟩
    · cases hfails

/-! ### What was asked -/

/-- The payments before a position that nothing goes wrong before were all signed. -/
theorem payloads_eq_of_paysUntil (hpays : w.PaysUntil start position) (hle : position ≤ w.senders.length) :
    (w.payloads start position).map .ok = (w.signed start).take position := by
  induction position with
  | zero => rfl
  | succ position ih =>
    have hbefore := ih (fun earlier hless => hpays earlier (Nat.lt_succ_of_lt hless)) (Nat.le_of_lt hle)
    obtain ⟨payload, -, hsigned, -⟩ := accepted_of_failure?_eq_none hle (hpays position (Nat.lt_succ_self _))
    rw [payloads_succ_of_ok hsigned, List.map_append, hbefore, List.take_add_one, hsigned]
    rfl

/-- The funder's number was asked for, then this many of the payments were submitted in turn, and nothing else
was asked. -/
def Submits (w : Payout) (start : UInt64) (count : Nat) : Prop :=
  ∃ payloads, payloads.length = count ∧ payloads.map .ok = (w.signed start).take count ∧
    w.outcome.2.2.quiet = w.provisioning.client.submitInTurn payloads w.lookup.2.quiet ∧
    w.outcome.2.2.calls.map (·.question) =
      (payloads.map .submission).reverse ++ .sequence w.funder.address :: w.begun.calls.map (·.question)

theorem submits_of_paid (hquiet : w.outcome.2.2.quiet = w.paid start position) {count : Nat}
    (hpayloads : (w.payloads start position).map .ok = (w.signed start).take count)
    (hle : count ≤ w.senders.length) : w.Submits start count := by
  have hlength := congrArg List.length hpayloads
  rw [List.length_map, List.length_take, signed, List.length_map, intents, List.length_mapIdx,
    Nat.min_eq_left hle] at hlength
  refine ⟨w.payloads start position, hlength, hpayloads, hquiet, ?_⟩
  have hcalls : w.outcome.2.2.quiet.calls = (w.paid start position).calls := by rw [hquiet]
  change w.outcome.2.2.quiet.calls.map _ = _
  rw [hcalls, paid, Client.questions_submitInTurn]
  rfl

/-- The payment that goes wrong was submitted if it was signed, and not if it was not. -/
theorem submits_of_failure (hlookup : w.lookup.1 = .ok start) (hpays : w.PaysUntil start position)
    (hless : position < w.senders.length) {message : String}
    (hfails : w.failure? start position = some message) :
    (∃ payload, (w.signed start)[position]? = some (.ok payload)) ∧ w.Submits start (position + 1) ∨
      (∃ cause, (w.signed start)[position]? = some (.error cause)) ∧ w.Submits start position := by
  obtain ⟨-, -, hquiet⟩ := outcome_of_failure hlookup hpays hless hfails
  have hbefore := payloads_eq_of_paysUntil hpays hless.le
  have hsigned := w.signed_getElem? start hless
  rcases hsign : w.provisioning.signer _ _ with cause | payload
  · rw [hsign] at hsigned
    rw [← payloads_succ_of_error hsigned] at hbefore
    exact .inr ⟨⟨cause, hsigned⟩, submits_of_paid hquiet hbefore hless.le⟩
  · rw [hsign] at hsigned
    refine .inl ⟨⟨payload, hsigned⟩, submits_of_paid hquiet ?_ hless⟩
    rw [payloads_succ_of_ok hsigned, List.map_append, hbefore, List.take_add_one, hsigned]
    rfl

/-! ### The senders -/

/-- A payment needs no more of its sender than the address. -/
theorem fundRest_of_addresses (p : Provisioning) (amount : Amount) (total done : Nat) {senders others : List Account}
    (hsame : others.map (·.address) = senders.map (·.address)) (funder : Account) (j : Journal) :
    p.fundRest amount total done others funder j = p.fundRest amount total done senders funder j := by
  induction senders generalizing others done funder j with
  | nil => rw [List.map_eq_nil_iff.mp hsame]
  | cons sender rest ih =>
    obtain ⟨other, others, rfl, hother, hrest⟩ := List.map_eq_cons_iff.mp hsame
    unfold fundRest
    simp only [hother, ih _ hrest]

theorem outcome_of_addresses {others : List Account}
    (hsame : others.map (·.address) = w.senders.map (·.address)) :
    { w with senders := others }.outcome = w.outcome := by
  have hlength : others.length = w.senders.length := by simpa using congrArg List.length hsame
  simp only [outcome, fundSenders, hlength, fundRest_of_addresses _ _ _ _ hsame]

/-- Provisioning that begins with this payout hands the senders on as they were: it is over, or the lookups
begin with them. -/
theorem provision_of_outcome {funding : FundingSettings} {key : String} (hskip : funding.skip = false)
    (hkey : funding.funderKey = some key) (hfunder : Account.ofSecretText key = .ok w.funder)
    (hamount : funding.fundAmount = w.amount) :
    let provision := w.provisioning.provision funding w.senders w.begun
    (∀ cause, w.outcome.1 = .error cause → provision = (.error cause, w.senders, w.outcome.2.2)) ∧
    (w.outcome.1 = .ok () → (∃ cause j, provision = (.error cause, w.senders, j)) ∨
      ∃ j, provision = (.ok (), w.provisioning.syncSequences w.senders j)) := by
  intro provision
  have hprepare : w.provisioning.prepare funding w.senders w.begun =
      w.provisioning.fund funding w.senders w.begun := by
    rw [prepare, if_neg (Bool.eq_false_iff.mp hskip)]
  refine ⟨fun cause hfailed => provision_of_error ?_, fun _ => ?_⟩
  · rw [hprepare, fund, hkey]
    dsimp only
    rw [hfunder]
    dsimp only
    rw [hamount, ← outcome, ← Prod.mk.eta (p := w.outcome), hfailed]
  · rcases hended : w.provisioning.prepare funding w.senders w.begun with ⟨cause | done, j⟩
    · exact .inl ⟨cause, j, provision_of_error hended⟩
    · exact .inr ⟨j, provision_of_ok hended⟩

/-- All senders are paid. -/
structure Completes (w : Payout) (start : UInt64) : Prop where
  pays : w.PaysUntil start w.senders.length
  result : w.outcome.1 = .ok ()
  submits : w.Submits start w.senders.length
  counter : w.outcome.2.1.sequence.next.toNat = start.toNat + w.senders.length

/-- The payment at a position is the first that goes wrong. It was submitted if it was signed, and not if it was
not; its number is used up in both cases. -/
structure StopsAt (w : Payout) (start : UInt64) (position : Nat) : Prop where
  inside : position < w.senders.length
  pays : w.PaysUntil start position
  result : ∃ message, w.failure? start position = some message ∧ w.outcome.1 = .error (.funding message)
  submits :
    (∃ payload, (w.signed start)[position]? = some (.ok payload)) ∧ w.Submits start (position + 1) ∨
      (∃ cause, (w.signed start)[position]? = some (.error cause)) ∧ w.Submits start position
  counter : w.outcome.2.1.sequence.next.toNat = start.toNat + position + 1

theorem completes (hlookup : w.lookup.1 = .ok start) (hfits : start.toNat + w.senders.length < 2 ^ 64)
    (hpays : w.PaysUntil start w.senders.length) : w.Completes start := by
  obtain ⟨hresult, hfunder, hquiet⟩ := outcome_of_complete hlookup hpays
  refine ⟨hpays, hresult, submits_of_paid hquiet (payloads_eq_of_paysUntil hpays le_rfl) le_rfl, ?_⟩
  rw [hfunder, next_payer hfits]

theorem stopsAt (hlookup : w.lookup.1 = .ok start) (hfits : start.toNat + w.senders.length < 2 ^ 64)
    (hpays : w.PaysUntil start position) (hinside : position < w.senders.length)
    (hfails : w.failure? start position ≠ none) : w.StopsAt start position := by
  obtain ⟨message, hmessage⟩ := Option.ne_none_iff_exists'.mp hfails
  obtain ⟨hresult, hfunder, -⟩ := outcome_of_failure hlookup hpays hinside hmessage
  refine ⟨hinside, hpays, ⟨message, hmessage, hresult⟩, submits_of_failure hlookup hpays hinside hmessage, ?_⟩
  rw [hfunder, next_payer (by omega), Nat.add_assoc]

/-- If something goes wrong, there is a position at which it does so first. -/
theorem exists_first_failure (hfails : ¬ w.PaysUntil start w.senders.length) :
    ∃ position < w.senders.length, w.PaysUntil start position ∧ w.failure? start position ≠ none := by
  classical
  have hsome : ∃ position, position < w.senders.length ∧ w.failure? start position ≠ none := by
    simpa [PaysUntil] using hfails
  obtain ⟨hinside, hfirst⟩ := Nat.find_spec hsome
  refine ⟨Nat.find hsome, hinside, fun earlier hless => ?_, hfirst⟩
  by_contra hearlier
  exact Nat.find_min hsome hless ⟨hless.trans hinside, hearlier⟩

/-- Without a number for the funder nothing is paid. With one, the payments carry it and the numbers after it.
They are made one at a time, in the order of the senders, up to the first that cannot be signed or is not
accepted, and none after it is tried. Only a payout without such a payment succeeds. The counters of the senders
play no part, and stay as they are. -/
theorem fundSenders_outcome (w : Payout) :
    (∀ cause, w.lookup.1 = .error cause →
      w.outcome = (.error (.funding ("failed to get funder sequence: " ++ cause.message)), w.funder, w.lookup.2) ∧
      w.outcome.2.2.calls = ⟨w.begun.now, .sequence w.funder.address⟩ :: w.begun.calls) ∧
    (∀ start, w.lookup.1 = .ok start → start.toNat + w.senders.length < 2 ^ 64 →
      (w.intents start).map (·.sequence.toNat) = List.range' start.toNat w.senders.length ∧
      (w.outcome.1 = .ok () ↔ ∀ position < w.senders.length, w.failure? start position = none) ∧
      (w.Completes start ∨ ∃ position, w.StopsAt start position)) ∧
    (∀ others, others.map (·.address) = w.senders.map (·.address) →
      { w with senders := others }.outcome = w.outcome) ∧
    ∀ funding key, funding.skip = false → funding.funderKey = some key →
      Account.ofSecretText key = .ok w.funder → funding.fundAmount = w.amount →
      let provision := w.provisioning.provision funding w.senders w.begun
      (∀ cause, w.outcome.1 = .error cause → provision = (.error cause, w.senders, w.outcome.2.2)) ∧
      (w.outcome.1 = .ok () → (∃ cause j, provision = (.error cause, w.senders, j)) ∨
        ∃ j, provision = (.ok (), w.provisioning.syncSequences w.senders j)) := by
  refine ⟨fun cause hlookup => ?_, fun start hlookup hfits => ⟨numbers_intents hfits, ?_⟩,
    fun others hsame => outcome_of_addresses hsame,
    fun funding key hskip hkey hfunder hamount => provision_of_outcome hskip hkey hfunder hamount⟩
  · have houtcome : w.outcome =
        (.error (.funding ("failed to get funder sequence: " ++ cause.message)), w.funder, w.lookup.2) := by
      rw [outcome, fundSenders, ← lookup, ← Prod.mk.eta (p := w.lookup), hlookup]
    rw [houtcome]
    exact ⟨rfl, rfl⟩
  · by_cases hpays : w.PaysUntil start w.senders.length
    · have hdone := completes hlookup hfits hpays
      exact ⟨⟨fun _ => hpays, fun _ => hdone.result⟩, .inl hdone⟩
    · obtain ⟨position, hinside, hbefore, hfails⟩ := exists_first_failure hpays
      have hstop := stopsAt hlookup hfits hbefore hinside hfails
      obtain ⟨message, -, hresult⟩ := hstop.result
      refine ⟨⟨fun hok => ?_, fun hnone => absurd hnone hpays⟩, .inr ⟨position, hstop⟩⟩
      rw [hresult] at hok
      cases hok

/-- Three senders, and a node that accepts the first payment only. -/
def sparing : Payout where
  provisioning :=
    { client :=
        { slowNode with
          submit := fun earlier _ _ =>
            { latency := 2
              answer := if earlier.length < 2 then .ok "paid" else .error (.http "no answer") } }
      signer := fun _ _ => .ok ⟨[], ""⟩
      run := {} }
  funder := .ofSeed []
  senders := ⟨.ofSeed [3], {}⟩ :: smallSenders
  amount := 1
  begun := {}

/-- The second payment takes the number 8 and is refused, and the third is not tried. -/
theorem fundSenders_outcome_sparing :
    sparing.StopsAt 7 1 ∧ sparing.outcome.2.1.sequence.next.toNat = 9 ∧
      sparing.outcome.1 = .error (.funding "failed to send funding tx: HTTP error: no answer") := by
  obtain ⟨-, hpaid, -, -⟩ := fundSenders_outcome sparing
  obtain ⟨-, -, hend⟩ := hpaid 7 rfl (by decide)
  have hfirst : sparing.failure? 7 0 = none := rfl
  have hsecond : sparing.failure? 7 1 = some "failed to send funding tx: HTTP error: no answer" := rfl
  have hstop : sparing.StopsAt 7 1 := by
    rcases hend with hdone | ⟨position, hstop⟩
    · exact absurd (hdone.pays 1 (by decide)) (by rw [hsecond]; exact nofun)
    · obtain ⟨message, hmessage, -⟩ := hstop.result
      rcases Nat.lt_trichotomy position 1 with hbefore | heq | hafter
      · obtain rfl : position = 0 := Nat.lt_one_iff.mp hbefore
        exact absurd (hfirst.symm.trans hmessage) nofun
      · exact heq ▸ hstop
      · exact absurd ((hstop.pays 1 hafter).symm.trans hsecond) nofun
  obtain ⟨message, hmessage, hresult⟩ := hstop.result
  obtain rfl : _ = message := Option.some_inj.mp (hsecond.symm.trans hmessage)
  exact ⟨hstop, hstop.counter, hresult⟩

end Payout

end Provisioning

end TransferLoad
