import TransferLoad.Proofs.Json.Grammar
import TransferLoad.Proofs.Json.Record
import TransferLoad.Proofs.Provisioning.Conversation
import TransferLoad.Proofs.RemoteNode.Responses

/-!
# The next number of an account

A node reports the number that an account used last, either under the account's number or in the account
itself, and the account itself is asked for exactly if the node does not give numbers. The next number is one
more than the reported one. Only after the last number of 64 bits there is none, and that number comes again.
Counters that are set by these answers go on behind what the node reports.
-/

namespace TransferLoad

open Net (Request Response ExchangeError)

/-! ### Bodies of answers -/

/-- A body holds a JSON value with the number of an account's last transfer. -/
def SaysLastUsed (body : Bytes) (used : UInt64) : Prop :=
  ∃ json r value, Json.Spells body json ∧ Json.IsRecord ["nonce"] json r ∧ r.field 0 = some value ∧
    Json.IsWord value used

theorem lastUsedOfBody?_eq_some_iff {body : Bytes} {used : UInt64} :
    lastUsedOfBody? body = some used ↔ SaysLastUsed body used := by
  simp only [lastUsedOfBody?, Option.bind_eq_bind, Option.bind_eq_some_iff, Json.parse?_eq_some_iff,
    Json.record?_eq_some_iff, Json.required?_eq_some_iff, Json.word?_eq_some_iff, SaysLastUsed]
  constructor
  · rintro ⟨json, hjson, r, hr, value, hvalue, hword⟩
    exact ⟨json, r, value, hjson, hr, hvalue, hword⟩
  · rintro ⟨json, r, value, hjson, hr, hvalue, hword⟩
    exact ⟨json, hjson, r, hr, value, hvalue, hword⟩

/-- A body holds a JSON value with an account, of which the balance and the number may be missing. -/
def AccountView.SaidBy (view : AccountView) (body : Bytes) : Prop :=
  ∃ json r, Json.Spells body json ∧ Json.IsRecord ["balance_atomic", "nonce"] json r ∧
    Json.IsGivenOr (fun value text => value = .text (some text)) "" (r.field 0) view.balance ∧
    Json.IsGivenOr Json.IsWord 0 (r.field 1) view.lastUsed

theorem AccountView.ofBody?_eq_some_iff {body : Bytes} {view : AccountView} :
    AccountView.ofBody? body = some view ↔ view.SaidBy body := by
  obtain ⟨balance, lastUsed⟩ := view
  simp only [AccountView.ofBody?, Option.bind_eq_bind, Option.bind_eq_some_iff, Option.pure_def,
    Option.some.injEq, AccountView.mk.injEq, AccountView.SaidBy, Json.parse?_eq_some_iff,
    Json.record?_eq_some_iff, Json.withDefault?_eq_some_iff (fun _ _ => Json.string?_eq_some_iff),
    Json.withDefault?_eq_some_iff (fun _ _ => Json.word?_eq_some_iff)]
  constructor
  · rintro ⟨json, hjson, r, hr, balance', hbalance, used, hused, rfl, rfl⟩
    exact ⟨json, r, hjson, hr, hbalance, hused⟩
  · rintro ⟨json, r, hjson, hr, hbalance, hused⟩
    exact ⟨json, hjson, r, hr, balance, hbalance, lastUsed, hused, rfl, rfl⟩

/-! ### Successors -/

/-- A number is one more than another, which is impossible only after the last one. -/
def Succeeds (used next : UInt64) : Prop :=
  next.toNat = used.toNat + 1 ∨ used.toNat + 1 = UInt64.size ∧ next = used

theorem succeeds_nextAfter (used : UInt64) : Succeeds used (nextAfter used) := by
  have hused := used.toNat_lt
  by_cases hlast : used.toNat + 1 = UInt64.size
  · right
    refine ⟨hlast, ?_⟩
    have hmin : min (used.toNat + 1) (UInt64.size - 1) = used.toNat := by omega
    rw [nextAfter, hmin, UInt64.ofNat_toNat]
  · left
    have hsize : UInt64.size = 2 ^ 64 := rfl
    have hmin : min (used.toNat + 1) (UInt64.size - 1) = used.toNat + 1 := by omega
    rw [nextAfter, hmin, UInt64.toNat_ofNat_of_lt' (by omega)]

/-! ### Answers -/

theorem map_eq_ok_iff {α β : Type} {answer : Except Failure α} {f : α → β} {b : β} :
    f <$> answer = .ok b ↔ ∃ a, answer = .ok a ∧ f a = b := by
  cases answer <;> simp

theorem Net.Response.read_eq_ok_iff {α : Type} {ofBody? : Bytes → Option α} {r : Response} {a : α} :
    r.read ofBody? = .ok a ↔ ∃ body, r.content? = some body ∧ ofBody? body = some a := by
  rw [← Option.bind_eq_some_iff]
  unfold Response.read
  cases r.content?.bind ofBody? <;> simp

theorem Net.Response.sequence_eq_ok_iff {r : Response} {next : UInt64} :
    r.sequence = .ok next ↔ r.isSuccess = true ∧
      ∃ used, (∃ body, r.content? = some body ∧ SaysLastUsed body used) ∧ nextAfter used = next := by
  simp only [Response.sequence, ← lastUsedOfBody?_eq_some_iff, ← Net.Response.read_eq_ok_iff]
  cases r.isSuccess with
  | false => simp
  | true => simp [map_eq_ok_iff]

theorem Net.Response.isNotFound_of_isSuccess {r : Response} (hsuccess : r.isSuccess = true) :
    r.isNotFound = false := by
  unfold Response.isSuccess at hsuccess
  unfold Response.isNotFound
  simp at hsuccess ⊢
  omega

theorem Net.Response.account?_eq_ok_some_iff {r : Response} {view : AccountView} :
    r.account? = .ok (some view) ↔
      r.isSuccess = true ∧ ∃ body, r.content? = some body ∧ view.SaidBy body := by
  simp only [← AccountView.ofBody?_eq_some_iff, ← Net.Response.read_eq_ok_iff]
  unfold Response.account?
  cases hsuccess : r.isSuccess with
  | false => cases r.isNotFound <;> simp
  | true => simp [Net.Response.isNotFound_of_isSuccess hsuccess, map_eq_ok_iff]

theorem Net.Response.sequenceOfAccount_eq_ok_iff {r : Response} {address : Address} {next : UInt64} :
    r.sequenceOfAccount address = .ok next ↔
      ∃ view : AccountView, r.account? = .ok (some view) ∧ nextAfter view.lastUsed = next := by
  unfold Response.sequenceOfAccount
  rcases r.account? with cause | _ | view <;> simp

theorem Net.Response.sequenceOfAccount_of_notFound {r : Response} (hstatus : r.isNotFound = true)
    (address : Address) : r.sequenceOfAccount address =
      .error (.rpc 404 "account_not_found" ("account " ++ address.render ++ " not found; fund it first")) := by
  simp [Net.Response.sequenceOfAccount, Net.Response.account?, hstatus]

namespace RemoteNode

/-! ### Lookups -/

section Lookup

variable (n : RemoteNode) (now : Nat) (earlier : List Request) (account : Address)

/-- The response that decides an account's number reports the number that was used last. -/
inductive Reports (used : UInt64) : Prop
  | number {response : Response} {body : Bytes} (hreply : (n.numberReply now earlier account).1 = .ok response)
      (hsuccess : response.isSuccess = true) (hbody : response.content? = some body)
      (hgives : SaysLastUsed body used)
  | account {response : Response} {body : Bytes} {view : AccountView}
      (hmissing : n.NumberMissing now earlier account)
      (hreply : (n.accountReply now (n.numberReply now earlier account).2 account).1 = .ok response)
      (hsuccess : response.isSuccess = true) (hbody : response.content? = some body)
      (hgives : view.SaidBy body) (hused : view.lastUsed = used)

variable {n now earlier account}

theorem known_of_success {response : Response} (hreply : (n.numberReply now earlier account).1 = .ok response)
    (hsuccess : response.isSuccess = true) : ¬ n.NumberMissing now earlier account := by
  rintro ⟨response', hreply', hstatus⟩
  obtain rfl := Except.ok.inj (hreply.symm.trans hreply')
  rw [Net.Response.isNotFound_of_isSuccess hsuccess] at hstatus
  cases hstatus

/-- The response that decides reports one number only. -/
theorem Reports.unique {used used' : UInt64} (hreports : n.Reports now earlier account used)
    (hreports' : n.Reports now earlier account used') : used = used' := by
  cases hreports with
  | number hreply hsuccess hbody hgives =>
    cases hreports' with
    | number hreply' _ hbody' hgives' =>
      obtain rfl := Except.ok.inj (hreply.symm.trans hreply')
      obtain rfl := Option.some.inj (hbody.symm.trans hbody')
      rw [← lastUsedOfBody?_eq_some_iff] at hgives hgives'
      exact Option.some.inj (hgives.symm.trans hgives')
    | account hmissing => exact absurd hmissing (known_of_success hreply hsuccess)
  | account hmissing hreply _ hbody hgives hused =>
    cases hreports' with
    | number hreply' hsuccess' => exact absurd hmissing (known_of_success hreply' hsuccess')
    | account _ hreply' _ hbody' hgives' hused' =>
      obtain rfl := Except.ok.inj (hreply.symm.trans hreply')
      obtain rfl := Option.some.inj (hbody.symm.trans hbody')
      rw [← AccountView.ofBody?_eq_some_iff] at hgives hgives'
      obtain rfl := Option.some.inj (hgives.symm.trans hgives')
      exact hused.symm.trans hused'

theorem sequence_of_reports {used : UInt64} (hreports : n.Reports now earlier account used) :
    (n.sequence now earlier account).1 = .ok (nextAfter used) := by
  cases hreports with
  | number hreply hsuccess hbody hgives =>
    have hstatus := Net.Response.isNotFound_of_isSuccess hsuccess
    rw [(sequence_of_answered hreply hstatus).1]
    exact Net.Response.sequence_eq_ok_iff.mpr ⟨hsuccess, used, ⟨_, hbody, hgives⟩, rfl⟩
  | account hmissing hreply hsuccess hbody hgives hused =>
    have haccount := Net.Response.account?_eq_ok_some_iff.mpr ⟨hsuccess, _, hbody, hgives⟩
    rw [(sequence_of_missing hmissing).1, ask_of_response hreply, ← hused]
    exact Net.Response.sequenceOfAccount_eq_ok_iff.mpr ⟨_, haccount, rfl⟩

theorem reports_of_sequence {next : UInt64} (hnext : (n.sequence now earlier account).1 = .ok next) :
    ∃ used, n.Reports now earlier account used ∧ nextAfter used = next := by
  obtain ⟨cause, hreply⟩ | hmissing | ⟨reply, hreply, hstatus⟩ := n.numberReply_cases now earlier account
  · rw [(sequence_of_unanswered hreply).1] at hnext
    cases hnext
  · rw [(sequence_of_missing hmissing).1] at hnext
    cases hreply : (n.accountReply now (n.numberReply now earlier account).2 account).1 with
    | error cause =>
      rw [ask_of_unanswered hreply] at hnext
      cases hnext
    | ok response =>
      rw [ask_of_response hreply] at hnext
      obtain ⟨view, haccount, hview⟩ := Net.Response.sequenceOfAccount_eq_ok_iff.mp hnext
      obtain ⟨hsuccess, body, hbody, hgives⟩ := Net.Response.account?_eq_ok_some_iff.mp haccount
      exact ⟨view.lastUsed, .account hmissing hreply hsuccess hbody hgives rfl, hview⟩
  · rw [(sequence_of_answered hreply hstatus).1] at hnext
    obtain ⟨hsuccess, used, ⟨body, hbody, hgives⟩, hused⟩ := Net.Response.sequence_eq_ok_iff.mp hnext
    exact ⟨used, .number hreply hsuccess hbody hgives, hused⟩

variable (n now earlier account)

/-- What looking up an account's next number comes to, with the requests for it. -/
structure LookedUp (result : Except Failure UInt64 × List Request) : Prop where
  asked : ∀ request, Net.firstRequest? .get (n.endpoint ("account/" ++ account.render)) none = some request →
    ((∃ newer, result.2 = newer ++ request :: (n.numberReply now earlier account).2) ↔
      n.NumberMissing now earlier account)
  asked_once : ¬ n.NumberMissing now earlier account → result.2 = (n.numberReply now earlier account).2
  answered : (∃ next, result.1 = .ok next) ↔ ∃ used, n.Reports now earlier account used
  unused : ∀ next, result.1 = .ok next → ∃ used, n.Reports now earlier account used ∧ Succeeds used next
  unknown : n.NumberMissing now earlier account →
    (∃ response, (n.accountReply now (n.numberReply now earlier account).2 account).1 = .ok response ∧
      response.isNotFound = true) →
    result.1 =
      .error (.rpc 404 "account_not_found" ("account " ++ account.render ++ " not found; fund it first"))

theorem requests_of_known (hknown : ¬ n.NumberMissing now earlier account) :
    (n.sequence now earlier account).2 = (n.numberReply now earlier account).2 := by
  obtain ⟨cause, hreply⟩ | hmissing | ⟨reply, hreply, hstatus⟩ := n.numberReply_cases now earlier account
  · rw [(sequence_of_unanswered hreply).1]
  · exact absurd hmissing hknown
  · rw [(sequence_of_answered hreply hstatus).1]

theorem lookedUp_sequence : n.LookedUp now earlier account (n.sequence now earlier account) where
  asked := by
    intro request hfirst
    constructor
    · rintro ⟨newer, hmade⟩
      by_contra hknown
      rw [n.requests_of_known now earlier account hknown] at hmade
      have hlength := congrArg List.length hmade
      simp at hlength
      omega
    · intro hmissing
      rw [(sequence_of_missing hmissing).1, requests_of_ask]
      exact n.transport.requests_of_fetch now hfirst _
  asked_once := n.requests_of_known now earlier account
  answered := by
    constructor
    · rintro ⟨next, hnext⟩
      obtain ⟨used, hreports, -⟩ := reports_of_sequence hnext
      exact ⟨used, hreports⟩
    · rintro ⟨used, hreports⟩
      exact ⟨_, sequence_of_reports hreports⟩
  unused := by
    intro next hnext
    obtain ⟨used, hreports, rfl⟩ := reports_of_sequence hnext
    exact ⟨used, hreports, succeeds_nextAfter used⟩
  unknown := by
    rintro hmissing ⟨response, hreply, hstatus⟩
    rw [(sequence_of_missing hmissing).1, ask_of_response hreply]
    exact Net.Response.sequenceOfAccount_of_notFound hstatus account

end Lookup

end RemoteNode

/-! ### Counters -/

namespace Provisioning

/-- The calls before the lookup of an account, the latest first. -/
def callsBefore (accounts : List Account) (j : Journal) (i : Nat) : List Call :=
  ((accounts.take i).map fun account => ⟨j.now, .sequence account.address⟩).reverse ++ j.calls

theorem callsBefore_succ (account : Account) (rest : List Account) (j : Journal) (i : Nat) :
    callsBefore (account :: rest) j (i + 1) = callsBefore rest (j.note (.sequence account.address)) i := by
  simp [callsBefore, Journal.note]

theorem applySequences_getElem? (reply : List Call → Nat → Address → Reply UInt64) (accounts : List Account)
    (j j' : Journal) (i : Nat) :
    (applySequences accounts (Journal.askEach .sequence reply (accounts.map (·.address)) j).1 j').1[i]? =
      accounts[i]?.map fun account =>
        settled account (reply (callsBefore accounts j i) j.now account.address).answer := by
  induction accounts generalizing j j' i with
  | nil => rfl
  | cons account rest ih =>
    have hfirst : ∃ j'', (applySequences (account :: rest)
        (Journal.askEach .sequence reply ((account :: rest).map (·.address)) j).1 j').1 =
          settled account (reply j.calls j.now account.address).answer ::
            (applySequences rest (Journal.askEach .sequence reply (rest.map (·.address))
              (j.note (.sequence account.address))).1 j'').1 := by
      change ∃ j'', (applySequences (account :: rest) ((account.address, _) :: _) j').1 = _
      cases (reply j.calls j.now account.address).answer with
      | ok next => exact ⟨j', rfl⟩
      | error cause => exact ⟨j'.notify (.sequenceFailed account.address cause), rfl⟩
    obtain ⟨j'', hfirst⟩ := hfirst
    rw [hfirst]
    cases i with
    | zero => rfl
    | succ i =>
      rw [List.getElem?_cons_succ, List.getElem?_cons_succ, ih, callsBefore_succ]
      rfl

/-- Each account is looked up once and keeps its number unless there is an answer. -/
theorem syncSequences_getElem? (p : Provisioning) (accounts : List Account) (j : Journal) (i : Nat) :
    (p.syncSequences accounts j).1[i]? = accounts[i]?.map fun account =>
      settled account (p.client.sequence (callsBefore accounts j i) j.now account.address).answer := by
  rw [syncSequences, Journal.askAll]
  exact applySequences_getElem? _ _ _ _ _

end Provisioning

namespace RemoteNode

theorem answer_client_sequence (n : RemoteNode) (calls : List Call) (now : Nat) (account : Address) :
    (n.client.sequence calls now account).answer = (n.sequence now (n.requestsOf calls) account).1 := by
  simp only [client]

/-- The next number of an account is one more than what the node reports, whether the account's number is asked
for or the account itself, and there is no next number without such a report. After a lookup of several
accounts each counter goes on behind the report on its account, or as before without one. Only the last
number of all is given out again. -/
theorem numbers_follow_reports (n : RemoteNode) :
    (∀ now earlier account, n.LookedUp now earlier account (n.sequence now earlier account)) ∧
    ∀ signer run accounts j i account, accounts[i]? = some account →
      ∃ account', (Provisioning.syncSequences ⟨n.client, signer, run⟩ accounts j).1[i]? = some account' ∧
        account'.key = account.key ∧
        ((∃ used, n.Reports j.now (n.requestsOf (Provisioning.callsBefore accounts j i)) account.address used ∧
            Succeeds used account'.draw.1) ∨
          (∀ used, ¬ n.Reports j.now (n.requestsOf (Provisioning.callsBefore accounts j i)) account.address used) ∧
            account'.draw.1 = account.draw.1) := by
  refine ⟨n.lookedUp_sequence, ?_⟩
  intro signer run accounts j i account haccount
  rw [Provisioning.syncSequences_getElem?, haccount, Option.map_some]
  generalize Provisioning.callsBefore accounts j i = calls
  have hlookup := n.lookedUp_sequence j.now (n.requestsOf calls) account.address
  refine ⟨_, rfl, ?_⟩
  rw [answer_client_sequence]
  cases hnext : (n.sequence j.now (n.requestsOf calls) account.address).1 with
  | ok next => exact ⟨rfl, Or.inl (hlookup.unused next hnext)⟩
  | error cause =>
    refine ⟨rfl, Or.inr ⟨fun used hreports => ?_, rfl⟩⟩
    have hok := sequence_of_reports hreports
    rw [hnext] at hok
    cases hok

/-- The account of 32 zeros. -/
def zeroAddress : Address := ⟨⟨List.replicate 32 0, by decide⟩⟩

/-- A node that says the last number of all has been used. -/
def exhausted : RemoteNode :=
  constant { status := 200, body := some (Text.Utf8.encode "\x7b\"nonce\":18446744073709551615\x7d") }

/-- A node that knows nothing. -/
def ignorant : RemoteNode := constant { status := 404 }

/-- A node that does not answer. -/
def silent : RemoteNode where
  baseUrl := "http://node"
  transport _ _ _ := none

theorem not_reports_silent (now : Nat) (earlier : List Request) (account : Address) (used : UInt64) :
    ¬ silent.Reports now earlier account used := by
  obtain ⟨cause, hcause⟩ : ∃ cause, (silent.numberReply now earlier account).1 = .error cause :=
    silent.transport.fetch_of_unanswered now fun _ => rfl
  intro hreports
  have hok := sequence_of_reports hreports
  rw [(sequence_of_unanswered hcause).1] at hok
  cases hok

/-- The last number of all is reported as used and given out again, an account that nobody knows has no number,
and a counter goes on as before when the node does not answer. -/
theorem numbers_follow_reports_small :
    (exhausted.Reports 0 [] zeroAddress 18446744073709551615 ∧
      (exhausted.sequence 0 [] zeroAddress).1 = .ok 18446744073709551615) ∧
    (∃ text, (ignorant.sequence 0 [] zeroAddress).1 = .error (.rpc 404 "account_not_found" text)) ∧
    ∃ account', (Provisioning.syncSequences ⟨silent.client, ed25519Signer, {}⟩ [⟨.ofSeed [1], ⟨5⟩⟩] {}).1[0]? =
      some account' ∧ account'.draw.1 = 5 := by
  have hnumber : CanBeAsked ("nonce/" ++ zeroAddress.render) := by decide +kernel
  have haccount : CanBeAsked ("account/" ++ zeroAddress.render) := by decide +kernel
  have hbody : lastUsedOfBody? (Text.Utf8.encode "\x7b\"nonce\":18446744073709551615\x7d") =
      some 18446744073709551615 := by decide +kernel
  have hreports : exhausted.Reports 0 [] zeroAddress 18446744073709551615 :=
    .number (fetch_constant rfl hnumber 0 []) rfl rfl (lastUsedOfBody?_eq_some_iff.mp hbody)
  have hmissing : ignorant.NumberMissing 0 [] zeroAddress := ⟨_, fetch_constant rfl hnumber 0 [], rfl⟩
  refine ⟨⟨hreports, ?_⟩, ?_, ?_⟩
  · obtain ⟨hlooked, -⟩ := numbers_follow_reports exhausted
    obtain ⟨next, hnext⟩ := (hlooked 0 [] zeroAddress).answered.mpr ⟨_, hreports⟩
    obtain ⟨used, hused, hsucceeds⟩ := (hlooked 0 [] zeroAddress).unused next hnext
    obtain rfl := hused.unique hreports
    rw [hnext]
    obtain hlarger | ⟨-, rfl⟩ := hsucceeds
    · have hbound := next.toNat_lt
      rw [hlarger] at hbound
      exact absurd hbound (by decide)
    · rfl
  · obtain ⟨hlooked, -⟩ := numbers_follow_reports ignorant
    exact ⟨_, (hlooked 0 [] zeroAddress).unknown hmissing ⟨_, fetch_constant rfl haccount 0 _, rfl⟩⟩
  · obtain ⟨-, hsynced⟩ := numbers_follow_reports silent
    obtain ⟨account', haccount', -, hnumbers⟩ := hsynced ed25519Signer {} [⟨.ofSeed [1], ⟨5⟩⟩] {} 0 _ rfl
    refine ⟨account', haccount', ?_⟩
    obtain ⟨used, hreports', -⟩ | ⟨-, hsame⟩ := hnumbers
    · exact absurd hreports' (not_reports_silent _ _ _ used)
    · exact hsame

end RemoteNode

end TransferLoad
