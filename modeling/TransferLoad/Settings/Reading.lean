import TransferLoad.Decimal.Shortest
import TransferLoad.Decimal.Reading
import TransferLoad.Failure
import TransferLoad.Settings.Basic
import TransferLoad.Settings.Tree

/-!
# Reading settings from a tree

Each setting has a type and is read from whatever value stands under its name, as far as the value can
be understood that way: numbers and words for switches, numerals in texts for numbers, numbers as
texts. A value that cannot be understood is reported with the path to it and its source.

A group of settings is a table, or an array of its members in order. Members that are not there keep
their defaults, and names that mean nothing are passed over.
-/

namespace TransferLoad

namespace SettingTree

abbrev Read (α : Type) := SettingTree → Except ConfigError α

/-! ### Complaints -/

/-- A value as a complaint about its type names it. -/
def describe : SettingTree → String
  | .scalar _ .nothing => "unit value"
  | .scalar _ (.boolean value) => "boolean `" ++ toString value ++ "`"
  | .scalar _ (.integer value) => "64-bit integer `" ++ toString value ++ "`"
  | .scalar _ (.real value) => "floating point `" ++ Decimal.toText value ++ "`"
  | .scalar _ (.text value) => "string " ++ Text.Quoted.text value
  | .table .. => "map"
  | .array .. => "sequence"

def mismatch (t : SettingTree) (expected : String) : ConfigError :=
  .mismatch t.describe expected none t.source

/-- The text of a double with a point, where it has digits. -/
def pointedText (x : Decimal.Binary) : String :=
  let text := Decimal.toText x
  if x.isFinite && !text.contains '.' then text ++ ".0" else text

/-- A value as a complaint about a group names it. -/
def describePlain : SettingTree → String
  | .scalar _ (.integer value) => "integer `" ++ toString value ++ "`"
  | .scalar _ (.real value) => "floating point `" ++ pointedText value ++ "`"
  | t => t.describe

def under (name : String) : ConfigError → ConfigError
  | .mismatch found expected key origin =>
    let path := match key with
      | none => name
      | some key => if key.toList.head? = some '[' then name ++ key else name ++ "." ++ key
    .mismatch found expected (some path) origin
  | cause => cause

def atPosition (position : Nat) : ConfigError → ConfigError
  | .mismatch found expected key origin =>
    .mismatch found expected (some ("[" ++ toString position ++ "]" ++ key.getD "")) origin
  | cause => cause

/-! ### Single settings -/

def readSwitch : Read Bool := fun t =>
  match t with
  | .scalar _ (.boolean value) => .ok value
  | .scalar _ (.integer value) => .ok (value != 0)
  | .scalar _ (.real value) => .ok !value.isZero
  | .scalar source (.text value) =>
    let word := Text.lowercase value
    if ["1", "true", "on", "yes"].contains word then .ok true
    else if ["0", "false", "off", "no"].contains word then .ok false
    else .error ((SettingTree.scalar source (.text word)).mismatch "a boolean")
  | _ => .error (t.mismatch "a boolean")

/-- A number of 64 bits without a sign. -/
def readWord : Read UInt64 := fun t =>
  match t with
  | .scalar _ (.boolean value) => .ok (if value then 1 else 0)
  | .scalar _ (.integer value) =>
    if 0 ≤ value then .ok (UInt64.ofNat value.toNat)
    else .error (t.mismatch "an unsigned 64 bit or less integer")
  | .scalar _ (.real value) => .ok (UInt64.ofNat (Decimal.saturatedNat value))
  | .scalar _ (.text value) =>
    let word := Text.lowercase value
    if ["true", "on", "yes"].contains word then .ok 1
    else if ["false", "off", "no"].contains word then .ok 0
    else
      match Text.readNat maxWord value.toList with
      | .ok n => .ok (UInt64.ofNat n)
      | .error _ => .error (t.mismatch "an integer")
  | _ => .error (t.mismatch "an integer")

def readText : Read String := fun t =>
  match t with
  | .scalar _ (.boolean value) => .ok (toString value)
  | .scalar _ (.integer value) => .ok (toString value)
  | .scalar _ (.real value) => .ok (Decimal.toText value)
  | .scalar _ (.text value) => .ok value
  | _ => .error (t.mismatch "a string")

/-- Nothing stands for no value. -/
def readOptional {α : Type} (read : Read α) : Read (Option α) := fun t =>
  match t with
  | .scalar _ .nothing => .ok none
  | t => (read t).map some

/-- Numbers of 128 bits have no form in a source. -/
def readAmount : Read Amount := fun _ => .error (.other "u128 is not supported")

/-- One of several named choices, given by its name or by a table with the name as its only entry. -/
def readChoice {α : Type} (typeName : String) (choices : List (String × α)) : Read α := fun t =>
  let choose := fun name =>
    match choices.find? fun choice => Text.lowercase choice.1 = Text.lowercase name with
    | some choice => .ok choice.2
    | none => .error (.other ("enum " ++ typeName ++ " does not have variant constructor " ++ name))
  match t with
  | .scalar _ (.text name) => choose name
  | .table _ [(name, _)] => choose name
  | _ =>
    .error (.other ("value of enum " ++ typeName ++
      " should be represented by either string or table with exactly one key"))

/-! ### Groups -/

/-- A member of a group: its name, and how its value changes the group. -/
structure Member (γ : Type) where
  name : String
  read : SettingTree → γ → Except ConfigError γ

def member {γ α : Type} (name : String) (read : Read α) (store : γ → α → γ) : Member γ where
  name
  read t group := (read t).map (store group)

def readEntries {γ : Type} (members : List (Member γ)) (group : γ) :
    List (String × SettingTree) → Except ConfigError γ
  | [] => .ok group
  | (name, value) :: rest =>
    match members.find? (·.name = name) with
    | none => readEntries members group rest
    | some m =>
      match m.read value group with
      | .ok group => readEntries members group rest
      | .error cause => .error (under name cause)

def readItems {γ : Type} (group : γ) :
    (position : Nat) → List (Member γ) → List SettingTree → Except ConfigError γ
  | position, m :: members, value :: rest =>
    match m.read value group with
    | .ok group => readItems group (position + 1) members rest
    | .error cause => .error (atPosition position cause)
  | _, _, _ => .ok group

def readGroup {γ : Type} (typeName : String) (members : List (Member γ)) (default : γ) : Read γ :=
  fun t =>
    match t with
    | .table _ entries => readEntries members default entries
    | .array _ items => readItems default 0 members items
    | t =>
      .error (.other ("invalid type: " ++ t.describePlain ++ ", expected struct " ++ typeName))

end SettingTree

/-! ### The settings -/

open SettingTree

def RunSettings.members : List (Member RunSettings) := [
  member "target_tps" readWord fun s value => { s with targetTps := value },
  member "duration_secs" readWord fun s value => { s with durationSecs := value },
  member "workers" readWord fun s value => { s with workers := value },
  member "chain_id" readWord fun s value => { s with chainId := value },
  member "fee_price" readAmount fun s value => { s with feePrice := value },
  member "amount" readAmount fun s value => { s with amount := value },
  member "output" readText fun s value => { s with output := value },
  member "label" readText fun s value => { s with label := value },
  member "recipient_policy"
    (readChoice "RecipientPolicy"
      [("round-robin", RecipientPolicy.roundRobin), ("random", RecipientPolicy.random)])
    fun s value => { s with recipientPolicy := value },
  member "seed" (readOptional readWord) fun s value => { s with seed := value },
  member "remainder"
    (readChoice "RemainderPolicy"
      [("truncate", RemainderPolicy.truncate), ("distribute", RemainderPolicy.distribute)])
    fun s value => { s with remainder := value },
  member "error_log_limit" readWord fun s value => { s with errorLogLimit := value },
  member "report_interval_ms" readWord fun s value => { s with reportIntervalMs := value }]

def PoolSettings.members : List (Member PoolSettings) := [
  member "senders" readWord fun s value => { s with senders := value },
  member "recipients" readWord fun s value => { s with recipients := value }]

def FundingSettings.members : List (Member FundingSettings) := [
  member "skip" readSwitch fun s value => { s with skip := value },
  member "funder_key" (readOptional readText) fun s value => { s with funderKey := value },
  member "fund_amount" readAmount fun s value => { s with fundAmount := value },
  member "min_balance" readAmount fun s value => { s with minBalance := value },
  member "timeout_secs" readWord fun s value => { s with timeoutSecs := value },
  member "poll_interval_secs" readWord fun s value => { s with pollIntervalSecs := value }]

def LogSettings.members : List (Member LogSettings) := [
  member "level" readText fun s value => { s with level := value },
  member "format" readText fun s value => { s with format := value }]

def Settings.members : List (Member Settings) := [
  member "rpc_url" readText fun s value => { s with rpcUrl := value },
  member "run" (readGroup "RunConfig" RunSettings.members {}) fun s value => { s with run := value },
  member "accounts" (readGroup "AccountsConfig" PoolSettings.members {})
    fun s value => { s with accounts := value },
  member "funding" (readGroup "FundingConfig" FundingSettings.members {})
    fun s value => { s with funding := value },
  member "log" (readGroup "LogConfig" LogSettings.members {}) fun s value => { s with log := value },
  member "metrics_addr" (readOptional readText) fun s value => { s with metricsAddr := value }]

def Settings.ofTree : Read Settings := readGroup "StressConfig" Settings.members {}

end TransferLoad
