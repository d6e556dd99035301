import TransferLoad.Settings.Load

/-!
# The settings, one by one

Every setting has a kind, a place in the tables of a source, a variable of the environment, and a value in
the settings that a run is configured with. The catalogue names them all: settings with the same values for
everything in it are the same settings.
-/

namespace TransferLoad

/-! ### Kinds of values -/

inductive SettingKind where
  /-- A number of 64 bits without a sign. -/
  | word
  | amount
  | text
  | switch
  | recipients
  | remainder
  deriving Repr, DecidableEq

def RecipientPolicy.name : RecipientPolicy → String
  | roundRobin => "round-robin"
  | random => "random"

def RemainderPolicy.name : RemainderPolicy → String
  | truncate => "truncate"
  | distribute => "distribute"

namespace SettingKind

abbrev Value : SettingKind → Type
  | word => UInt64
  | amount => Amount
  | text => String
  | switch => Bool
  | recipients => RecipientPolicy
  | remainder => RemainderPolicy

/-- A value in a file. -/
def scalar : (κ : SettingKind) → κ.Value → Scalar
  | word, n => .integer n.toNat
  | amount, n => .integer n.toNat
  | text, s => .text s
  | switch, b => .boolean b
  | recipients, p => .text p.name
  | remainder, p => .text p.name

/-- A value in a variable of the environment, or behind an option. -/
def render : (κ : SettingKind) → κ.Value → String
  | word, n => toString n.toNat
  | amount, n => toString n.toNat
  | text, s => s
  | switch, b => toString b
  | recipients, p => p.name
  | remainder, p => p.name

def read : (κ : SettingKind) → SettingTree.Read κ.Value
  | word => SettingTree.readWord
  | amount => SettingTree.readAmount
  | text => SettingTree.readText
  | switch => SettingTree.readSwitch
  | recipients =>
    SettingTree.readChoice "RecipientPolicy"
      [("round-robin", RecipientPolicy.roundRobin), ("random", RecipientPolicy.random)]
  | remainder =>
    SettingTree.readChoice "RemainderPolicy"
      [("truncate", RemainderPolicy.truncate), ("distribute", RemainderPolicy.distribute)]

/-- A scalar stands for a value, whatever source it came from. -/
def Reads (κ : SettingKind) (x : Scalar) (v : κ.Value) : Prop :=
  ∀ source, κ.read (.scalar source x) = .ok v

variable {κ : SettingKind}

/-- What a source holds for a value stands for that value; only amounts have no form in a source. -/
theorem reads_scalar (hκ : κ ≠ .amount) (v : κ.Value) : κ.Reads (κ.scalar v) v := by
  intro source
  cases κ with
  | word =>
    change SettingTree.readWord (.scalar source (.integer (v.toNat : Int))) = .ok v
    simp [SettingTree.readWord]
  | amount => exact absurd rfl hκ
  | text => rfl
  | switch => rfl
  | recipients => cases v <;> rfl
  | remainder => cases v <;> rfl

theorem ne_nothing_of_reads {x : Scalar} {v : κ.Value} (hreads : κ.Reads x v) : x ≠ .nothing := by
  rintro rfl
  have hread := hreads none
  cases κ <;> cases hread

/-- Where a setting may have no value, a scalar that stands for a value gives it that value. -/
theorem readOptional_of_reads {x : Scalar} {v : κ.Value} (hreads : κ.Reads x v) (source : Option String) :
    SettingTree.readOptional κ.read (.scalar source x) = .ok (some v) := by
  have hread := hreads source
  cases x with
  | nothing => exact absurd rfl (ne_nothing_of_reads hreads)
  | _ =>
    rw [SettingTree.readOptional, hread]
    · rfl
    · nofun

end SettingKind

/-! ### The settings of a group -/

section Groups

variable {κ : SettingKind}

inductive RunSetting : SettingKind → Type
  | targetTps : RunSetting .word
  | durationSecs : RunSetting .word
  | workers : RunSetting .word
  | chainId : RunSetting .word
  | feePrice : RunSetting .amount
  | amount : RunSetting .amount
  | output : RunSetting .text
  | label : RunSetting .text
  | recipientPolicy : RunSetting .recipients
  | seed : RunSetting .word
  | remainder : RunSetting .remainder
  | errorLogLimit : RunSetting .word
  | reportIntervalMs : RunSetting .word

def RunSetting.name : RunSetting κ → String
  | targetTps => "target_tps"
  | durationSecs => "duration_secs"
  | workers => "workers"
  | chainId => "chain_id"
  | feePrice => "fee_price"
  | amount => "amount"
  | output => "output"
  | label => "label"
  | recipientPolicy => "recipient_policy"
  | seed => "seed"
  | remainder => "remainder"
  | errorLogLimit => "error_log_limit"
  | reportIntervalMs => "report_interval_ms"

def RunSetting.value : RunSetting κ → RunSettings → Option κ.Value
  | targetTps, s => some s.targetTps
  | durationSecs, s => some s.durationSecs
  | workers, s => some s.workers
  | chainId, s => some s.chainId
  | feePrice, s => some s.feePrice
  | amount, s => some s.amount
  | output, s => some s.output
  | label, s => some s.label
  | recipientPolicy, s => some s.recipientPolicy
  | seed, s => s.seed
  | remainder, s => some s.remainder
  | errorLogLimit, s => some s.errorLogLimit
  | reportIntervalMs, s => some s.reportIntervalMs

inductive PoolSetting : SettingKind → Type
  | senders : PoolSetting .word
  | recipients : PoolSetting .word

def PoolSetting.name : PoolSetting κ → String
  | senders => "senders"
  | recipients => "recipients"

def PoolSetting.value : PoolSetting κ → PoolSettings → Option κ.Value
  | senders, s => some s.senders
  | recipients, s => some s.recipients

inductive FundingSetting : SettingKind → Type
  | skip : FundingSetting .switch
  | funderKey : FundingSetting .text
  | fundAmount : FundingSetting .amount
  | minBalance : FundingSetting .amount
  | timeoutSecs : FundingSetting .word
  | pollIntervalSecs : FundingSetting .word

def FundingSetting.name : FundingSetting κ → String
  | skip => "skip"
  | funderKey => "funder_key"
  | fundAmount => "fund_amount"
  | minBalance => "min_balance"
  | timeoutSecs => "timeout_secs"
  | pollIntervalSecs => "poll_interval_secs"

def FundingSetting.value : FundingSetting κ → FundingSettings → Option κ.Value
  | skip, s => some s.skip
  | funderKey, s => s.funderKey
  | fundAmount, s => some s.fundAmount
  | minBalance, s => some s.minBalance
  | timeoutSecs, s => some s.timeoutSecs
  | pollIntervalSecs, s => some s.pollIntervalSecs

inductive LogSetting : SettingKind → Type
  | level : LogSetting .text
  | format : LogSetting .text

def LogSetting.name : LogSetting κ → String
  | level => "level"
  | format => "format"

def LogSetting.value : LogSetting κ → LogSettings → Option κ.Value
  | level, s => some s.level
  | format, s => some s.format

/-! ### All settings -/

inductive Setting : SettingKind → Type
  | rpcUrl : Setting .text
  | run {κ : SettingKind} (k : RunSetting κ) : Setting κ
  | accounts {κ : SettingKind} (k : PoolSetting κ) : Setting κ
  | funding {κ : SettingKind} (k : FundingSetting κ) : Setting κ
  | log {κ : SettingKind} (k : LogSetting κ) : Setting κ
  | metricsAddr : Setting .text

namespace Setting

/-- The name of the group a setting belongs to, and its own name. -/
def place : Setting κ → Option String × String
  | rpcUrl => (none, "rpc_url")
  | run k => (some "run", k.name)
  | accounts k => (some "accounts", k.name)
  | funding k => (some "funding", k.name)
  | log k => (some "log", k.name)
  | metricsAddr => (none, "metrics_addr")

/-- The value of a setting; none where a setting that may have no value has none. -/
def value : Setting κ → Settings → Option κ.Value
  | rpcUrl, s => some s.rpcUrl
  | run k, s => k.value s.run
  | accounts k, s => k.value s.accounts
  | funding k, s => k.value s.funding
  | log k, s => k.value s.log
  | metricsAddr, s => s.metricsAddr

/-- The path of a setting, with a point between the names. -/
def path (k : Setting κ) : String :=
  match k.place with
  | (some group, name) => group ++ "." ++ name
  | (none, name) => name

/-- The variable for a setting, such as `IPPAN_STRESS__RUN__TARGET_TPS`. -/
def variableName (k : Setting κ) : String :=
  let upper := fun (name : String) => String.ofList (name.toList.map Char.toUpper)
  match k.place with
  | (some group, name) => "IPPAN_STRESS__" ++ upper group ++ "__" ++ upper name
  | (none, name) => "IPPAN_STRESS__" ++ upper name

/-! ### Names -/

/-- The variable for a setting means its path. -/
theorem path?_variableName (k : Setting κ) : Environment.path? k.variableName = some k.path := by
  cases k with
  | rpcUrl => decide +kernel
  | run k => cases k <;> decide +kernel
  | accounts k => cases k <;> decide +kernel
  | funding k => cases k <;> decide +kernel
  | log k => cases k <;> decide +kernel
  | metricsAddr => decide +kernel

/-- The names of the groups. -/
def groups : List String := ["run", "accounts", "funding", "log"]

/-- What a path is read as: a name, or a name in a group. -/
theorem readPath_path (k : Setting κ) :
    SettingTree.readPath k.path =
      match k.place with
      | (some group, name) => (group, [.child name])
      | (none, name) => (name, []) := by
  cases k with
  | rpcUrl => rfl
  | run k => cases k <;> rfl
  | accounts k => cases k <;> rfl
  | funding k => cases k <;> rfl
  | log k => cases k <;> rfl
  | metricsAddr => rfl

/-- Names are in lower case. -/
theorem lowercase_name (k : Setting κ) : Text.lowercase k.place.2 = k.place.2 := by
  cases k with
  | rpcUrl => rfl
  | run k => cases k <;> rfl
  | accounts k => cases k <;> rfl
  | funding k => cases k <;> rfl
  | log k => cases k <;> rfl
  | metricsAddr => rfl

theorem group_of_place {k : Setting κ} {group name : String} (hplace : k.place = (some group, name)) :
    group ∈ groups := by
  cases k <;> cases hplace <;> simp [groups]

/-- No setting has the name of a group. -/
theorem not_mem_groups {k : Setting κ} {name : String} (hplace : k.place = (none, name)) : name ∉ groups := by
  cases k <;> cases hplace <;> decide

theorem readPath_group {group : String} (hgroup : group ∈ groups) : SettingTree.readPath group = (group, []) := by
  simp only [groups, List.mem_cons, List.not_mem_nil, or_false] at hgroup
  rcases hgroup with rfl | rfl | rfl | rfl <;> rfl

theorem lowercase_group {group : String} (hgroup : group ∈ groups) : Text.lowercase group = group := by
  simp only [groups, List.mem_cons, List.not_mem_nil, or_false] at hgroup
  rcases hgroup with rfl | rfl | rfl | rfl <;> rfl

/-- All settings, each with its kind. -/
def all : List ((κ : SettingKind) × Setting κ) := [
  ⟨_, rpcUrl⟩,
  ⟨_, run .targetTps⟩, ⟨_, run .durationSecs⟩, ⟨_, run .workers⟩, ⟨_, run .chainId⟩, ⟨_, run .feePrice⟩,
  ⟨_, run .amount⟩, ⟨_, run .output⟩, ⟨_, run .label⟩, ⟨_, run .recipientPolicy⟩, ⟨_, run .seed⟩,
  ⟨_, run .remainder⟩, ⟨_, run .errorLogLimit⟩, ⟨_, run .reportIntervalMs⟩,
  ⟨_, accounts .senders⟩, ⟨_, accounts .recipients⟩,
  ⟨_, funding .skip⟩, ⟨_, funding .funderKey⟩, ⟨_, funding .fundAmount⟩, ⟨_, funding .minBalance⟩,
  ⟨_, funding .timeoutSecs⟩, ⟨_, funding .pollIntervalSecs⟩,
  ⟨_, log .level⟩, ⟨_, log .format⟩,
  ⟨_, metricsAddr⟩]

theorem find?_path (k : Setting κ) : all.find? (·.2.path = k.path) = some ⟨κ, k⟩ := by
  cases k with
  | rpcUrl => rfl
  | run k => cases k <;> rfl
  | accounts k => cases k <;> rfl
  | funding k => cases k <;> rfl
  | log k => cases k <;> rfl
  | metricsAddr => rfl

/-- A path belongs to one setting only. -/
theorem eq_of_path_eq {κ' : SettingKind} {k : Setting κ} {j : Setting κ'} (hpath : k.path = j.path) :
    (⟨κ, k⟩ : (κ : SettingKind) × Setting κ) = ⟨κ', j⟩ := by
  have hfound := find?_path k
  rw [hpath, find?_path j] at hfound
  exact (Option.some.inj hfound).symm

theorem eq_of_place_eq {κ' : SettingKind} {k : Setting κ} {j : Setting κ'} (hplace : k.place = j.place) :
    (⟨κ, k⟩ : (κ : SettingKind) × Setting κ) = ⟨κ', j⟩ :=
  eq_of_path_eq (by rw [path, path, hplace])

end Setting

/-! ### The catalogue is complete -/

theorem RunSetting.eq_of_value_eq {s t : RunSettings}
    (hvalue : ∀ {κ} (k : RunSetting κ), k.value s = k.value t) : s = t := by
  obtain ⟨⟩ := s
  obtain ⟨⟩ := t
  rw [RunSettings.mk.injEq]
  exact ⟨Option.some.inj (hvalue targetTps), Option.some.inj (hvalue durationSecs),
    Option.some.inj (hvalue workers), Option.some.inj (hvalue chainId), Option.some.inj (hvalue feePrice),
    Option.some.inj (hvalue amount), Option.some.inj (hvalue output), Option.some.inj (hvalue label),
    Option.some.inj (hvalue recipientPolicy), hvalue seed, Option.some.inj (hvalue remainder),
    Option.some.inj (hvalue errorLogLimit), Option.some.inj (hvalue reportIntervalMs)⟩

/-- Settings that agree in every setting are the same. -/
theorem Setting.eq_of_value_eq {s t : Settings} (hvalue : ∀ {κ} (k : Setting κ), k.value s = k.value t) :
    s = t := by
  obtain ⟨rpcUrl, run, ⟨senders, recipients⟩, ⟨skip, funderKey, fundAmount, minBalance, timeout, poll⟩,
    ⟨level, format⟩, metricsAddr⟩ := s
  obtain ⟨rpcUrl', run', ⟨senders', recipients'⟩, ⟨skip', funderKey', fundAmount', minBalance', timeout', poll'⟩,
    ⟨level', format'⟩, metricsAddr'⟩ := t
  obtain rfl : rpcUrl = rpcUrl' := Option.some.inj (hvalue .rpcUrl)
  obtain rfl : run = run' := RunSetting.eq_of_value_eq fun k => hvalue (.run k)
  obtain rfl : senders = senders' := Option.some.inj (hvalue (.accounts .senders))
  obtain rfl : recipients = recipients' := Option.some.inj (hvalue (.accounts .recipients))
  obtain rfl : skip = skip' := Option.some.inj (hvalue (.funding .skip))
  obtain rfl : funderKey = funderKey' := hvalue (.funding .funderKey)
  obtain rfl : fundAmount = fundAmount' := Option.some.inj (hvalue (.funding .fundAmount))
  obtain rfl : minBalance = minBalance' := Option.some.inj (hvalue (.funding .minBalance))
  obtain rfl : timeout = timeout' := Option.some.inj (hvalue (.funding .timeoutSecs))
  obtain rfl : poll = poll' := Option.some.inj (hvalue (.funding .pollIntervalSecs))
  obtain rfl : level = level' := Option.some.inj (hvalue (.log .level))
  obtain rfl : format = format' := Option.some.inj (hvalue (.log .format))
  obtain rfl : metricsAddr = metricsAddr' := hvalue .metricsAddr
  rfl

end Groups

end TransferLoad
