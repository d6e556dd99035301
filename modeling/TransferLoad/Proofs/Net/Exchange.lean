import TransferLoad.Net.Exchange

/-!
# What fetching asks

Fetching begins with one request, if the URL names a place that can be asked, and all that it asks is put
before the earlier requests. A response that leads nowhere is the final one.
-/

namespace TransferLoad.Net

/-- The request that fetching a URL begins with, if there is anything to ask. -/
def firstRequest? (method : Method) (url : String) (body : Option Bytes) : Option Request := do
  let found ← Url.parse? url
  let shown := if found.hasHost then found.withoutCredentials else found
  let location := Reference.ofUrl shown
  if shown.hasHost ∧ shown.isFetchable ∧ location.canBeAsked then
    some { method, location := location.withoutFragment, body }
  else none

namespace Transport

variable (t : Transport) (now : Nat)

/-- All that following asks is put before the earlier requests, and the request itself comes first. -/
theorem requests_of_follow (origin : String) (left : Nat) (earlier : List Request) (request : Request) :
    ∃ newer, (t.follow now origin left earlier request).2 = newer ++ request :: earlier := by
  fun_induction follow t now origin left earlier request with
  | case6 earlier request made response _ next _ left url _ _ ih =>
    obtain ⟨newer, hmade⟩ := ih
    exact ⟨newer ++ [next], by rw [hmade, List.append_assoc, List.singleton_append]⟩
  | _ => exact ⟨[], rfl⟩

/-- Fetching begins with its first request, and without one it fails at once. -/
theorem fetch_cases (earlier : List Request) (method : Method) (url : String) (body : Option Bytes) :
    (∃ cause, firstRequest? method url body = none ∧ t.fetch now earlier method url body = (.error cause, earlier)) ∨
    ∃ request origin, firstRequest? method url body = some request ∧
      t.fetch now earlier method url body = t.follow now origin maxRedirects earlier request := by
  unfold firstRequest? fetch
  cases Url.parse? url with
  | none => exact Or.inl ⟨_, rfl, rfl⟩
  | some found =>
    rw [Option.bind_eq_bind, Option.bind_some]
    dsimp only
    generalize (if found.hasHost = true then found.withoutCredentials else found) = shown
    split
    · exact Or.inr ⟨_, _, rfl, rfl⟩
    · exact Or.inl ⟨_, rfl, rfl⟩

variable {method : Method} {url : String} {body : Option Bytes} {request : Request} {earlier : List Request}

theorem fetch_of_first (hfirst : firstRequest? method url body = some request) (earlier : List Request) :
    ∃ origin, t.fetch now earlier method url body = t.follow now origin maxRedirects earlier request := by
  obtain ⟨cause, hnone, -⟩ | ⟨request', origin, hsome, hfetch⟩ := t.fetch_cases now earlier method url body
  · rw [hfirst] at hnone
    cases hnone
  · obtain rfl := Option.some.inj (hfirst.symm.trans hsome)
    exact ⟨origin, hfetch⟩

theorem requests_of_fetch (hfirst : firstRequest? method url body = some request) (earlier : List Request) :
    ∃ newer, (t.fetch now earlier method url body).2 = newer ++ request :: earlier := by
  obtain ⟨origin, hfetch⟩ := t.fetch_of_first now hfirst earlier
  rw [hfetch]
  exact t.requests_of_follow now origin _ _ _

/-- A response that leads nowhere is the final one. -/
theorem fetch_of_response {response : Response} (hfirst : firstRequest? method url body = some request)
    (hresponse : t now earlier request = some response) (hlocation : response.location = none) :
    t.fetch now earlier method url body = (.ok response, request :: earlier) := by
  obtain ⟨origin, hfetch⟩ := t.fetch_of_first now hfirst earlier
  have hredirect : request.redirect? response = none := by simp [Request.redirect?, hlocation]
  rw [hfetch]
  unfold follow
  rw [hresponse]
  dsimp only
  rw [hredirect]

theorem fetch_of_unanswered (hunanswered : ∀ request, t now earlier request = none) :
    ∃ cause, (t.fetch now earlier method url body).1 = .error cause := by
  obtain ⟨cause, -, hfetch⟩ | ⟨request, origin, -, hfetch⟩ := t.fetch_cases now earlier method url body
  · rw [hfetch]
    exact ⟨cause, rfl⟩
  · rw [hfetch]
    unfold follow
    rw [hunanswered]
    exact ⟨_, rfl⟩

end Transport

end TransferLoad.Net
