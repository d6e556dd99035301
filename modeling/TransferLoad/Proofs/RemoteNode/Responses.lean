import TransferLoad.Proofs.Net.Exchange
import TransferLoad.RemoteNode

/-!
# The response that decides

A question to a node is decided by one final response. It is the response to the one URL that is asked, but
an account's number is decided by the account itself if the node does not give numbers.
-/

namespace TransferLoad

open Net (Request Response ExchangeError)

namespace RemoteNode

variable (n : RemoteNode) (now : Nat) (earlier : List Request)

/-! ### Numbers of accounts -/

/-- What comes of asking for an account's number, with the requests for it. -/
def numberReply (account : Address) : Except ExchangeError Response × List Request :=
  n.transport.fetch now earlier .get (n.endpoint ("nonce/" ++ account.render))

/-- What comes of asking for an account, with the requests for it. -/
def accountReply (account : Address) : Except ExchangeError Response × List Request :=
  n.transport.fetch now earlier .get (n.endpoint ("account/" ++ account.render))

/-- The node does not say the number of an account. -/
def NumberMissing (account : Address) : Prop :=
  ∃ response, (n.numberReply now earlier account).1 = .ok response ∧ response.isNotFound = true

/-- The response that a question comes to in the end. -/
def response : Question → Except ExchangeError Response
  | .submission payload =>
    (n.transport.fetch now earlier .post (n.endpoint "tx/raw") (some (submissionBody payload))).1
  | .sequence account =>
    match n.numberReply now earlier account with
    | (.error cause, _) => .error cause
    | (.ok response, made) =>
      if response.isNotFound then (n.accountReply now made account).1 else .ok response
  | .balance account => (n.accountReply now earlier account).1
  | .status identifier => (n.transport.fetch now earlier .get (n.endpoint ("tx/" ++ bareIdentifier identifier))).1

variable {n now earlier} {account : Address} {response : Response}

theorem requests_of_ask {α : Type} (path : String) (read : Response → Except Failure α) :
    (n.ask now earlier path read).2 = (n.transport.fetch now earlier .get (n.endpoint path)).2 := by
  unfold ask
  split
  · rename_i hfetch
    rw [hfetch]
  · rename_i hfetch
    rw [hfetch]

theorem ask_of_response {α : Type} {path : String} {read : Response → Except Failure α}
    (hresponse : (n.transport.fetch now earlier .get (n.endpoint path)).1 = .ok response) :
    (n.ask now earlier path read).1 = read response := by
  unfold ask
  split
  · rename_i hfetch
    rw [hfetch] at hresponse
    cases hresponse
  · rename_i hfetch
    rw [hfetch] at hresponse
    cases hresponse
    rfl

theorem ask_of_unanswered {α : Type} {path : String} {read : Response → Except Failure α} {cause : ExchangeError}
    (hunanswered : (n.transport.fetch now earlier .get (n.endpoint path)).1 = .error cause) :
    (n.ask now earlier path read).1 = .error (.http cause.message) := by
  unfold ask
  split
  · rename_i hfetch
    rw [hfetch] at hunanswered
    cases hunanswered
    rfl
  · rename_i hfetch
    rw [hfetch] at hunanswered
    cases hunanswered

/-- Without a number of its own, an account is asked for. -/
theorem sequence_of_missing (hmissing : n.NumberMissing now earlier account) :
    n.sequence now earlier account = n.ask now (n.numberReply now earlier account).2
      ("account/" ++ account.render) (Net.Response.sequenceOfAccount account) ∧
    n.response now earlier (.sequence account) =
      (n.accountReply now (n.numberReply now earlier account).2 account).1 := by
  obtain ⟨reply, hreply, hstatus⟩ := hmissing
  rcases hfetch : n.numberReply now earlier account with ⟨result, made⟩
  rw [hfetch] at hreply
  obtain rfl : result = .ok reply := hreply
  constructor
  · unfold sequence
    rw [← numberReply, hfetch]
    exact if_pos hstatus
  · unfold RemoteNode.response
    dsimp only
    rw [hfetch]
    exact if_pos hstatus

/-- Any other reply to the question for a number is the final one. -/
theorem sequence_of_answered (hreply : (n.numberReply now earlier account).1 = .ok response)
    (hstatus : response.isNotFound = false) :
    n.sequence now earlier account = (response.sequence, (n.numberReply now earlier account).2) ∧
    n.response now earlier (.sequence account) = .ok response := by
  rcases hfetch : n.numberReply now earlier account with ⟨result, made⟩
  rw [hfetch] at hreply
  obtain rfl : result = .ok response := hreply
  constructor
  · unfold sequence
    rw [← numberReply, hfetch]
    simp [hstatus]
  · unfold RemoteNode.response
    dsimp only
    rw [hfetch]
    simp [hstatus]

theorem sequence_of_unanswered {cause : ExchangeError}
    (hreply : (n.numberReply now earlier account).1 = .error cause) :
    n.sequence now earlier account =
      (.error (.http cause.message), (n.numberReply now earlier account).2) ∧
    n.response now earlier (.sequence account) = .error cause := by
  rcases hfetch : n.numberReply now earlier account with ⟨result, made⟩
  rw [hfetch] at hreply
  obtain rfl : result = .error cause := hreply
  constructor
  · unfold sequence
    rw [← numberReply, hfetch]
  · unfold RemoteNode.response
    dsimp only
    rw [hfetch]

/-- A question for a number is left open, or the account is asked for, or there is an answer. -/
theorem numberReply_cases (n : RemoteNode) (now : Nat) (earlier : List Request) (account : Address) :
    (∃ cause, (n.numberReply now earlier account).1 = .error cause) ∨ n.NumberMissing now earlier account ∨
      ∃ response, (n.numberReply now earlier account).1 = .ok response ∧ response.isNotFound = false := by
  cases hreply : (n.numberReply now earlier account).1 with
  | error cause => exact Or.inl ⟨cause, rfl⟩
  | ok response =>
    cases hstatus : response.isNotFound with
    | true => exact Or.inr (Or.inl ⟨response, hreply, hstatus⟩)
    | false => exact Or.inr (Or.inr ⟨response, rfl, hstatus⟩)

/-! ### A node of one answer -/

/-- A node that answers everything in the same way. -/
def constant (response : Response) : RemoteNode where
  baseUrl := "http://node"
  transport _ _ _ := some response

/-- A path under a plain URL can be asked. -/
def CanBeAsked (path : String) : Prop :=
  (Net.firstRequest? .get ((constant { status := 200 }).endpoint path) none).isSome = true

instance (path : String) : Decidable (CanBeAsked path) := inferInstanceAs (Decidable (_ = _))

theorem fetch_constant (hlocation : response.location = none) {path : String} (hpath : CanBeAsked path)
    (now : Nat) (earlier : List Request) :
    ((constant response).transport.fetch now earlier .get ((constant response).endpoint path)).1 =
      .ok response := by
  obtain ⟨request, hfirst⟩ := Option.isSome_iff_exists.mp hpath
  exact congrArg Prod.fst (Net.Transport.fetch_of_response _ now hfirst rfl hlocation)

end RemoteNode

end TransferLoad
