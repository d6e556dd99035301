import TransferLoad.Net.Reference

/-!
# Requests and responses

A transport is a rule that gives the response to a request, if there is one, from everything that was
asked before and the time of asking. Fetching asks it once, and again for each redirect: a redirect that
names a place which can be asked is followed, up to a number of times, and any other response is the
final one.
-/

namespace TransferLoad.Net

inductive Method where
  | get
  | post
  deriving Repr, DecidableEq

def Method.render : Method → String
  | get => "GET"
  | post => "POST"

structure Request where
  method : Method
  location : Reference
  /-- A JSON text that is sent along. -/
  body : Option Bytes := none
  deriving Repr, DecidableEq

structure Response where
  status : Nat
  /-- Where a redirect leads. -/
  location : Option String := none
  /-- Without a value, the body breaks off before its announced end. -/
  body : Option Bytes := some []
  deriving Repr, DecidableEq

/-- The earlier requests come with the latest one first. -/
abbrev Transport := (now : Nat) → (earlier : List Request) → Request → Option Response

/-- Why there is no response, or not all of it. -/
inductive ExchangeError where
  /-- There is nothing to ask, by a text that is no URL or by one that cannot be fetched. -/
  | notFetchable (url : Option String)
  | unanswered (url : String)
  | tooManyRedirects (url : String)
  | brokenBody
  deriving Repr, DecidableEq

def ExchangeError.message : ExchangeError → String
  | notFetchable none => "builder error"
  | notFetchable (some url) => "builder error for url (" ++ url ++ ")"
  | unanswered url => "error sending request for url (" ++ url ++ ")"
  | tooManyRedirects url => "error following redirect for url (" ++ url ++ ")"
  | brokenBody => "error decoding response body"

namespace Response

def isSuccess (r : Response) : Bool := 200 ≤ r.status && r.status < 300

def isNotFound (r : Response) : Bool := r.status = 404

/-- The body; two statuses never have one. -/
def content? (r : Response) : Option Bytes := if r.status = 204 ∨ r.status = 304 then some [] else r.body

end Response

/-! ### Redirects -/

/-- The request that a redirect calls for, at a given place. The older redirects and `303` turn
everything into a plain request, `307` and `308` keep what was asked. -/
def Request.redirected (r : Request) (status : Nat) (location : Reference) : Option Request :=
  if status = 301 ∨ status = 302 ∨ status = 303 then some { method := .get, location }
  else if status = 307 ∨ status = 308 then some { r with location }
  else none

/-- The place that a response redirects a request to, if it names one that can be asked. -/
def Request.redirect? (r : Request) (response : Response) : Option Request := do
  let text ← response.location
  let reference ← Reference.parse? text.toList
  let base ← Reference.parse? r.location.renderChars
  let place := base.resolve reference
  if place.canBeAsked then r.redirected response.status place.withoutFragment else none

/-- Redirects that are followed for one request. -/
def maxRedirects : Nat := 10

/-- The URL that a place has when somebody is told about it. -/
def Reference.shown (r : Reference) : String := ((Url.parse? r.render).map Url.render).getD r.render

namespace Transport

/-- Asks, and goes on asking where redirects lead to, up to `left` times. The requests that were made
are put before the earlier ones. `origin` is the URL that everything began with. -/
def follow (t : Transport) (now : Nat) (origin : String) :
    (left : Nat) → (earlier : List Request) → Request → Except ExchangeError Response × List Request
  | left, earlier, request =>
    let made := request :: earlier
    match t now earlier request with
    | none => (.error (.unanswered origin), made)
    | some response =>
      match request.redirect? response with
      | none => (.ok response, made)
      | some next =>
        match left with
        | 0 =>
          if (Url.parse? next.location.render).isSome then
            (.error (.tooManyRedirects request.location.shown), made)
          else (.error (.notFetchable origin), made)
        | left + 1 =>
          match Url.parse? next.location.render with
          | none => (.error (.notFetchable origin), made)
          | some url =>
            if url.isFetchable then follow t now origin left made next
            else (.error (.notFetchable url.render), made)

def fetch (t : Transport) (now : Nat) (earlier : List Request) (method : Method) (url : String)
    (body : Option Bytes := none) : Except ExchangeError Response × List Request :=
  match Url.parse? url with
  | none => (.error (.notFetchable none), earlier)
  | some found =>
    let shown := if found.hasHost then found.withoutCredentials else found
    let location := Reference.ofUrl shown
    if shown.hasHost ∧ shown.isFetchable ∧ location.canBeAsked then
      t.follow now shown.render maxRedirects earlier { method, location := location.withoutFragment, body }
    else (.error (.notFetchable shown.render), earlier)

end Transport

end TransferLoad.Net
