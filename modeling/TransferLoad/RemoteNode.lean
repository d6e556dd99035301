import TransferLoad.Client
import TransferLoad.Json.Record
import TransferLoad.Net.Exchange
import TransferLoad.Text.Blank
import TransferLoad.Text.Numeral

/-!
# A node behind a URL

A node answers questions under one base URL, in JSON. What a response means is read off its status and
its body alone: not found is an answer to some questions, any other refusal is a failure that keeps what
the node said, and only a body that has the fields of a good answer is taken for one.

A node that does not say the next number of an account at once is asked for the account itself.
-/

namespace TransferLoad

open Net (Request Response Transport ExchangeError)

/-! ### Bodies -/

structure Rejection where
  code : Option String
  text : Option String
  deriving Repr, DecidableEq

def Rejection.ofBody? (body : Bytes) : Option Rejection := do
  let r ← (← Json.parse? body).record? ["code", "message"]
  return { code := ← r.optional? 0 Json.string?, text := ← r.optional? 1 Json.string? }

structure AccountView where
  balance : String
  /-- The number of the account's last transfer. -/
  lastUsed : UInt64
  deriving Repr, DecidableEq

def AccountView.ofBody? (body : Bytes) : Option AccountView := do
  let r ← (← Json.parse? body).record? ["balance_atomic", "nonce"]
  return { balance := ← r.withDefault? 0 "" Json.string?, lastUsed := ← r.withDefault? 1 0 Json.word? }

/-- The number of an account's last transfer. -/
def lastUsedOfBody? (body : Bytes) : Option UInt64 := do
  (← (← Json.parse? body).record? ["nonce"]).required? 0 Json.word?

/-- The identifier that a node gives a transfer, if it gives one. -/
def identifierOfBody? (body : Bytes) : Option String := do
  let r ← (← Json.parse? body).record? ["tx_hash"]
  (← r.optional? 0 Json.string?)

/-! ### Meanings of responses -/

/-- The number after one that was used; the last number has none after it. -/
def nextAfter (used : UInt64) : UInt64 := UInt64.ofNat (min (used.toNat + 1) (UInt64.size - 1))

/-- The balance in a text with underscores anywhere between, before and behind the digits. -/
def readBalance (text : String) : Except Failure Amount :=
  match text.toList.filter (· ≠ '_') with
  | [] => .ok 0
  | digits =>
    match Text.readNat ((1 <<< 128) - 1) digits with
    | .ok n => .ok (BitVec.ofNat 128 n)
    | .error cause => .error (.decode ("invalid balance format: " ++ cause.message))

namespace Net.Response

/-- The failure that a refusal is reported as: with the code and the text that it gives, or else with
its whole body. -/
def rejection (r : Response) : Failure :=
  let body := r.content?.getD []
  match Rejection.ofBody? body with
  | some said => .rpc r.status (said.code.getD "unknown") (said.text.getD "request failed")
  | none => .rpc r.status "http_error" (Text.Utf8.decodeLossy body)

def read {α : Type} (ofBody? : Bytes → Option α) (r : Response) : Except Failure α :=
  match r.content?.bind ofBody? with
  | some a => .ok a
  | none => .error (.http ExchangeError.brokenBody.message)

/-- An account, unless there is none. -/
def account? (r : Response) : Except Failure (Option AccountView) :=
  if r.isNotFound then .ok none
  else if r.isSuccess then some <$> r.read AccountView.ofBody?
  else .error r.rejection

/-- The next number of an account by its last one. -/
def sequence (r : Response) : Except Failure UInt64 :=
  if r.isSuccess then nextAfter <$> r.read lastUsedOfBody? else .error r.rejection

def sequenceOfAccount (address : Address) (r : Response) : Except Failure UInt64 :=
  match r.account? with
  | .error cause => .error cause
  | .ok (some account) => .ok (nextAfter account.lastUsed)
  | .ok none =>
    .error (.rpc 404 "account_not_found" ("account " ++ address.render ++ " not found; fund it first"))

/-- The balance of an account; an account that the node does not know has nothing. -/
def balance (r : Response) : Except Failure Amount :=
  match r.account? with
  | .error cause => .error cause
  | .ok none => .ok 0
  | .ok (some account) => readBalance account.balance

/-- The identifier of a transfer that was taken: the node's, or else the transfer's own. -/
def submission (payload : SignedPayload) (r : Response) : Except Failure String :=
  if r.isSuccess then .ok ((r.content?.bind identifierOfBody?).getD payload.identifier)
  else .error r.rejection

def transferStatus (r : Response) : Except Failure TransferStatus :=
  if r.isNotFound then .ok .unknown else if r.isSuccess then .ok .known else .error r.rejection

end Net.Response

/-! ### Questions -/

structure RemoteNode where
  baseUrl : String
  transport : Transport
  /-- Milliseconds until a question is answered. -/
  latency : (earlier : List Call) → (now : Nat) → Question → Nat := fun _ _ _ => 0

namespace RemoteNode

def endpoint (n : RemoteNode) (path : String) : String :=
  let base := (n.baseUrl.toList.reverse.dropWhile (· = '/')).reverse
  String.ofList (base ++ '/' :: path.toList.dropWhile (· = '/'))

/-- An identifier without the marks in front. -/
def bareIdentifier (identifier : String) : String :=
  String.ofList (Text.dropRepeated ['0', 'x'] identifier.toList)

/-- The text in which a transfer is sent. -/
def submissionBody (payload : SignedPayload) : Bytes :=
  Text.Utf8.encode ("\x7b\"payload\":\"" ++ payload.hex ++ "\"\x7d")

def ask {α : Type} (n : RemoteNode) (now : Nat) (earlier : List Request) (path : String)
    (read : Response → Except Failure α) : Except Failure α × List Request :=
  match n.transport.fetch now earlier .get (n.endpoint path) with
  | (.error cause, made) => (.error (.http cause.message), made)
  | (.ok response, made) => (read response, made)

def sequence (n : RemoteNode) (now : Nat) (earlier : List Request) (account : Address) :
    Except Failure UInt64 × List Request :=
  match n.transport.fetch now earlier .get (n.endpoint ("nonce/" ++ account.render)) with
  | (.error cause, made) => (.error (.http cause.message), made)
  | (.ok response, made) =>
    if response.isNotFound then
      n.ask now made ("account/" ++ account.render) (Response.sequenceOfAccount account)
    else (response.sequence, made)

def balance (n : RemoteNode) (now : Nat) (earlier : List Request) (account : Address) :
    Except Failure Amount × List Request :=
  n.ask now earlier ("account/" ++ account.render) Response.balance

def status (n : RemoteNode) (now : Nat) (earlier : List Request) (identifier : String) :
    Except Failure TransferStatus × List Request :=
  n.ask now earlier ("tx/" ++ bareIdentifier identifier) Response.transferStatus

def submit (n : RemoteNode) (now : Nat) (earlier : List Request) (payload : SignedPayload) :
    Except Failure String × List Request :=
  match n.transport.fetch now earlier .post (n.endpoint "tx/raw") (some (submissionBody payload)) with
  | (.error cause, made) => (.error (.http cause.message), made)
  | (.ok response, made) => (response.submission payload, made)

/-! ### As a client -/

def requestsAfter (n : RemoteNode) (call : Call) (earlier : List Request) : List Request :=
  match call.question with
  | .submission payload => (n.submit call.time earlier payload).2
  | .sequence account => (n.sequence call.time earlier account).2
  | .balance account => (n.balance call.time earlier account).2
  | .status identifier => (n.status call.time earlier identifier).2

def requestsOf (n : RemoteNode) (calls : List Call) : List Request := calls.foldr n.requestsAfter []

def client (n : RemoteNode) : Client where
  submit calls now payload :=
    { latency := n.latency calls now (.submission payload)
      answer := (n.submit now (n.requestsOf calls) payload).1 }
  sequence calls now account :=
    { latency := n.latency calls now (.sequence account)
      answer := (n.sequence now (n.requestsOf calls) account).1 }
  balance calls now account :=
    { latency := n.latency calls now (.balance account)
      answer := (n.balance now (n.requestsOf calls) account).1 }
  status calls now identifier :=
    { latency := n.latency calls now (.status identifier)
      answer := (n.status now (n.requestsOf calls) identifier).1 }

end RemoteNode

end TransferLoad
