import TransferLoad.Proofs.Json.Grammar
import TransferLoad.Proofs.Json.Record
import TransferLoad.Proofs.RemoteNode.Responses
import TransferLoad.Proofs.Text.Utf8

/-!
# What is kept of a refusal

Whatever a node is asked, a final response that is neither a success nor the news that something does not
exist fails the question with the status of the response and with what its body says. A body with a record
of a code and a message stands for these, and a fixed word stands for each of them that it leaves out; any
other body stands for itself. So what is lost of a body is lost because the body gives neither of the two.
-/

namespace TransferLoad

open Net (Request Response)
open Text.Utf8 (encode decodeLossy)

/-! ### Bodies of refusals -/

/-- A body holds a JSON value with a code, a message, both or neither. -/
def Rejection.SaidBy (said : Rejection) (body : Bytes) : Prop :=
  ∃ json r, Json.Spells body json ∧ Json.IsRecord ["code", "message"] json r ∧
    Json.IsOptionalText r.inOrder (r.field 0) said.code ∧ Json.IsOptionalText r.inOrder (r.field 1) said.text

theorem Rejection.ofBody?_eq_some_iff {body : Bytes} {said : Rejection} :
    Rejection.ofBody? body = some said ↔ said.SaidBy body := by
  obtain ⟨code, text⟩ := said
  simp only [Rejection.ofBody?, Option.bind_eq_bind, Option.bind_eq_some_iff, Option.pure_def,
    Option.some.injEq, Rejection.mk.injEq, Rejection.SaidBy, Json.parse?_eq_some_iff,
    Json.record?_eq_some_iff, Json.optional?_string?_eq_some_iff]
  constructor
  · rintro ⟨json, hjson, r, hr, code', hcode, text', htext, rfl, rfl⟩
    exact ⟨json, r, hjson, hr, hcode, htext⟩
  · rintro ⟨json, r, hjson, hr, hcode, htext⟩
    exact ⟨json, hjson, r, hr, code, hcode, text, htext, rfl, rfl⟩

/-- A body says one thing only. -/
theorem Rejection.SaidBy.unique {body : Bytes} {said said' : Rejection} (hsaid : said.SaidBy body)
    (hsaid' : said'.SaidBy body) : said = said' := by
  rw [← Rejection.ofBody?_eq_some_iff] at hsaid hsaid'
  exact Option.some.inj (hsaid.symm.trans hsaid')

/-- A body that has a place for a code and a message and gives neither. -/
def SaysNothing (body : Bytes) : Prop := Rejection.SaidBy ⟨none, none⟩ body

/-- A code or a text that is reported comes from a body: as one that the body gives, or as all of the body. -/
def Bytes.KeptIn (body : Bytes) (code text : String) : Prop :=
  (∃ said : Rejection, said.SaidBy body ∧ (said.code = some code ∨ said.text = some text)) ∨
    text = decodeLossy body

/-- What is reported of a body: the code and the text that it gives, with a fixed word for each that it
leaves out, or else the body itself. -/
structure Bytes.ReportedAs (body : Bytes) (code text : String) : Prop where
  of_said : ∀ said : Rejection, said.SaidBy body →
    code = said.code.getD "unknown" ∧ text = said.text.getD "request failed"
  of_other : (∀ said : Rejection, ¬ said.SaidBy body) → code = "http_error" ∧ text = decodeLossy body

/-- Only a body that says nothing is not kept. -/
theorem Bytes.ReportedAs.kept {body : Bytes} {code text : String} (hreported : body.ReportedAs code text)
    (hgives : ¬ SaysNothing body) : body.KeptIn code text := by
  by_cases hsaid : ∃ said : Rejection, said.SaidBy body
  · obtain ⟨said, hsaid⟩ := hsaid
    obtain ⟨hcode, htext⟩ := hreported.of_said said hsaid
    left
    refine ⟨said, hsaid, ?_⟩
    obtain ⟨_ | given, _ | given'⟩ := said
    · exact absurd hsaid hgives
    · exact Or.inr (congrArg some htext.symm)
    · exact Or.inl (congrArg some hcode.symm)
    · exact Or.inl (congrArg some hcode.symm)
  · right
    exact (hreported.of_other (by simpa using hsaid)).2

theorem Net.Response.rejection_eq (r : Response) : ∃ code text, r.rejection = .rpc r.status code text ∧
    Bytes.ReportedAs (r.content?.getD []) code text := by
  unfold Response.rejection
  dsimp only
  cases hsaid : Rejection.ofBody? (r.content?.getD []) with
  | none =>
    refine ⟨_, _, rfl, fun said hgiven => ?_, fun _ => ⟨rfl, rfl⟩⟩
    rw [← Rejection.ofBody?_eq_some_iff, hsaid] at hgiven
    cases hgiven
  | some said =>
    have hgiven := Rejection.ofBody?_eq_some_iff.mp hsaid
    refine ⟨_, _, rfl, fun said' hgiven' => ?_, fun hother => absurd hgiven (hother said)⟩
    rw [hgiven.unique hgiven']
    exact ⟨rfl, rfl⟩

/-! ### Questions -/

/-- That something does not exist is an answer to this question. -/
def Question.allowsMissing : Question → Bool
  | .submission _ => false
  | _ => true

namespace RemoteNode

variable (n : RemoteNode) (now : Nat) (earlier : List Request)

/-- A question has no answer, for a cause. -/
def FailsBy (cause : Failure) : Question → Prop
  | .submission payload => (n.submit now earlier payload).1 = .error cause
  | .sequence account => (n.sequence now earlier account).1 = .error cause
  | .balance account => (n.balance now earlier account).1 = .error cause
  | .status identifier => (n.status now earlier identifier).1 = .error cause

variable {n now earlier} {question : Question} {response : Response}

theorem account?_of_refused (hrefused : response.isSuccess = false) (hmissing : response.isNotFound = false) :
    response.account? = .error response.rejection := by
  simp [Net.Response.account?, hrefused, hmissing]

/-- A final response that refuses fails its question. -/
theorem failsBy_of_refused (hresponse : n.response now earlier question = .ok response)
    (hrefused : response.isSuccess = false)
    (hmissing : question.allowsMissing = true → response.isNotFound = false) :
    n.FailsBy now earlier response.rejection question := by
  cases question with
  | submission payload =>
    change (n.submit now earlier payload).1 = _
    unfold submit
    split
    · rename_i hfetch
      simp only [RemoteNode.response, hfetch] at hresponse
      cases hresponse
    · rename_i hfetch
      simp only [RemoteNode.response, hfetch] at hresponse
      cases hresponse
      simp [Net.Response.submission, hrefused]
  | sequence account =>
    have hknown := hmissing rfl
    change (n.sequence now earlier account).1 = _
    obtain ⟨cause, hreply⟩ | hmissing' | ⟨reply, hreply, hstatus⟩ := n.numberReply_cases now earlier account
    · rw [(sequence_of_unanswered hreply).2] at hresponse
      cases hresponse
    · obtain ⟨hsequence, hfinal⟩ := sequence_of_missing hmissing'
      rw [hfinal] at hresponse
      rw [hsequence, ask_of_response hresponse]
      simp [Net.Response.sequenceOfAccount, account?_of_refused hrefused hknown]
    · obtain ⟨hsequence, hfinal⟩ := sequence_of_answered hreply hstatus
      rw [hfinal] at hresponse
      cases hresponse
      rw [hsequence]
      simp [Net.Response.sequence, hrefused]
  | balance account =>
    change (n.balance now earlier account).1 = _
    rw [balance, ask_of_response hresponse, Net.Response.balance, account?_of_refused hrefused (hmissing rfl)]
  | status identifier =>
    have hknown := hmissing rfl
    change (n.status now earlier identifier).1 = _
    rw [status, ask_of_response hresponse]
    simp [Net.Response.transferStatus, hknown, hrefused]

/-- A refusal is reported with its status and with what its body gives of a code and a text, or with the body
itself; the fixed words stand alone only for a body that has a place for the two and gives neither. -/
theorem refusal_kept (n : RemoteNode) (now : Nat) (earlier : List Request) (question : Question)
    {response : Response} (hresponse : n.response now earlier question = .ok response)
    (hrefused : response.isSuccess = false)
    (hmissing : question.allowsMissing = true → response.isNotFound = false) :
    ∃ code text, n.FailsBy now earlier (.rpc response.status code text) question ∧
      Bytes.ReportedAs (response.content?.getD []) code text ∧
      (Bytes.KeptIn (response.content?.getD []) code text ∨
        SaysNothing (response.content?.getD []) ∧ code = "unknown" ∧ text = "request failed") := by
  have hfails := failsBy_of_refused hresponse hrefused hmissing
  obtain ⟨code, text, hrejection, hreported⟩ := response.rejection_eq
  refine ⟨code, text, hrejection ▸ hfails, hreported, ?_⟩
  by_cases hgives : SaysNothing (response.content?.getD [])
  · exact Or.inr ⟨hgives, hreported.of_said _ hgives⟩
  · exact Or.inl (hreported.kept hgives)

/-- A refusal with a code and a text. -/
def staleBody : String := "\x7b\"code\":\"nonce_too_low\",\"message\":\"stale nonce\"\x7d"

/-- A refusal with a text of another name. -/
def fullBody : String := "\x7b\"error\":\"full\"\x7d"

/-- A node that refuses everything with the same body. -/
def refusing (body : String) : RemoteNode := constant { status := 400, body := some (encode body) }

theorem response_refusing (body : String) :
    (refusing body).response 0 [] (.status "0xab") = .ok { status := 400, body := some (encode body) } := by
  have hpath : CanBeAsked ("tx/" ++ bareIdentifier "0xab") := by decide +kernel
  exact fetch_constant rfl hpath 0 []

theorem refusal_kept_stale : ∃ code text,
    (refusing staleBody).FailsBy 0 [] (.rpc 400 code text) (.status "0xab") ∧
      code = "nonce_too_low" ∧ text = "stale nonce" := by
  have hsaid : Rejection.SaidBy ⟨some "nonce_too_low", some "stale nonce"⟩ (encode staleBody) :=
    Rejection.ofBody?_eq_some_iff.mp (by decide +kernel)
  obtain ⟨code, text, hfails, hreported, -⟩ :=
    refusal_kept (refusing staleBody) 0 [] (.status "0xab") (response_refusing staleBody) rfl (fun _ => rfl)
  exact ⟨code, text, hfails, hreported.of_said _ hsaid⟩

/-- A body that gives neither a code nor a text is lost, though it is not empty. -/
theorem refusal_lost :
    (refusing fullBody).response 0 [] (.status "0xab") =
        .ok { status := 400, body := some (encode fullBody) } ∧
      encode fullBody ≠ [] ∧
      ¬ ∃ code text, (refusing fullBody).FailsBy 0 [] (.rpc 400 code text) (.status "0xab") ∧
        Bytes.KeptIn (encode fullBody) code text := by
  have hresponse := response_refusing fullBody
  have hgives : SaysNothing (encode fullBody) := Rejection.ofBody?_eq_some_iff.mp (by decide +kernel)
  refine ⟨hresponse, by decide, ?_⟩
  rintro ⟨code, text, hfails, hkept⟩
  obtain ⟨_, _, hrejection, hreported⟩ := Response.rejection_eq ⟨400, none, some (encode fullBody)⟩
  obtain ⟨rfl, rfl⟩ := hreported.of_said _ hgives
  have hfails' := failsBy_of_refused hresponse rfl (fun _ => rfl)
  rw [hrejection] at hfails'
  cases hfails.symm.trans hfails'
  rcases hkept with ⟨said, hsaid, hgiven⟩ | hbody
  · obtain rfl := hsaid.unique hgives
    simp at hgiven
  · revert hbody
    decide +kernel

end RemoteNode

end TransferLoad
