import TransferLoad.Proofs.Command.Arguments
import TransferLoad.Proofs.Text.Numeral

/-!
# Settings as options

Many settings have an option of the command that runs. An option that is used sets its setting and leaves the
others as they are; two settings can be switched one way only. Where an option is not used, a variable of the
environment may act for it.
-/

namespace TransferLoad

open Command

variable {κ : SettingKind}

/-! ### The options of settings -/

/-- The value of a setting that is read behind its option. A switch has nothing behind it. -/
def SettingKind.ofOption? : (κ : SettingKind) → String → Option κ.Value
  | word, s => word? s
  | amount, s => amount? s
  | text, s => some s
  | switch, _ => some true
  | recipients, s => policy? s
  | remainder, _ => some RemainderPolicy.distribute

/-- What stands behind the option of a setting; a switch has nothing behind it. -/
def SettingKind.behind (κ : SettingKind) (v : κ.Value) : Option String :=
  if κ = .switch ∨ κ = .remainder then none else some (κ.render v)

namespace Setting

def option? : Setting κ → Option String
  | rpcUrl => some "rpc"
  | run .targetTps => some "tps"
  | run .durationSecs => some "duration"
  | run .workers => some "workers"
  | run .chainId => some "chain-id"
  | run .feePrice => some "fee-price"
  | run .amount => some "amount"
  | run .output => some "output"
  | run .label => none
  | run .recipientPolicy => some "recipient-policy"
  | run .seed => some "seed"
  | run .remainder => some "distribute-remainder"
  | run .errorLogLimit => none
  | run .reportIntervalMs => none
  | accounts .senders => some "senders"
  | accounts .recipients => some "recipients"
  | funding .skip => some "skip-funding"
  | funding .funderKey => some "funder-key"
  | funding .fundAmount => none
  | funding .minBalance => none
  | funding .timeoutSecs => none
  | funding .pollIntervalSecs => none
  | log .level => some "log-level"
  | log .format => some "log-format"
  | metricsAddr => some "metrics-addr"

/-- An option can set the setting to the value: a switch turns one way only, a path is not empty, and the log
has two formats. -/
def Settable : Setting κ → κ.Value → Prop
  | run .remainder, policy => policy = .distribute
  | run .output, path => path ≠ ""
  | funding .skip, skip => skip = true
  | log .format, format => format ∈ ["pretty", "json"]
  | _, _ => True

/-- What acts for the option of a setting when it is not used. -/
def fallback (environment : Given) : Setting κ → Option κ.Value
  | rpcUrl => environment.lookup "RPC_URL"
  | funding .funderKey => environment.lookup "IPPAN_FUNDER_KEY"
  | _ => none

/-- The value of a setting in the options of a run, if they have one. -/
def ofOptions? : Setting κ → RunOptions → Option κ.Value
  | rpcUrl, o => o.rpcUrl
  | run .targetTps, o => o.targetTps
  | run .durationSecs, o => o.durationSecs
  | run .workers, o => o.workers
  | run .chainId, o => o.chainId
  | run .feePrice, o => o.feePrice
  | run .amount, o => o.amount
  | run .output, o => o.output
  | run .label, _ => none
  | run .recipientPolicy, o => o.recipientPolicy
  | run .seed, o => o.seed
  | run .remainder, o => if o.distributeRemainder then some RemainderPolicy.distribute else none
  | run .errorLogLimit, _ => none
  | run .reportIntervalMs, _ => none
  | accounts .senders, o => o.senders
  | accounts .recipients, o => o.recipients
  | funding .skip, o => if o.skipFunding then some true else none
  | funding .funderKey, o => o.funderKey
  | funding .fundAmount, _ => none
  | funding .minBalance, _ => none
  | funding .timeoutSecs, _ => none
  | funding .pollIntervalSecs, _ => none
  | log .level, o => o.logLevel
  | log .format, o => o.logFormat
  | metricsAddr, o => o.metricsAddr

/-- Options go over settings one by one. -/
theorem value_applyTo (k : Setting κ) (o : RunOptions) (s : Settings) :
    k.value (o.applyTo s) = (k.ofOptions? o).or (k.value s) := by
  have hgetD : ∀ {α : Type} (given : Option α) (before : α), some (given.getD before) = given.or (some before) :=
    fun given before => by cases given <;> rfl
  cases k with
  | rpcUrl => exact hgetD _ _
  | run k =>
    cases k with
    | seed => rfl
    | label => rfl
    | errorLogLimit => rfl
    | reportIntervalMs => rfl
    | remainder =>
      simp only [value, RunSetting.value, RunOptions.applyTo, ofOptions?]
      split <;> rfl
    | _ => exact hgetD _ _
  | accounts k => cases k <;> exact hgetD _ _
  | funding k =>
    cases k with
    | skip =>
      simp only [value, FundingSetting.value, RunOptions.applyTo, ofOptions?]
      cases o.skipFunding <;> rfl
    | _ => rfl
  | log k => cases k <;> exact hgetD _ _
  | metricsAddr => rfl

/-- A setting is read behind its option. -/
theorem ofOptions?_ofValues (k : Setting κ) (value? : String → Option String) :
    k.ofOptions? (.ofValues value?) = (k.option?.bind value?).bind κ.ofOption? := by
  have hswitch : ∀ {α : Type} (given : Option String) (v : α),
      (if given.isSome = true then some v else none) = given.bind fun _ => some v :=
    fun given v => by cases given <;> rfl
  cases k with
  | rpcUrl => exact (Option.bind_fun_some _).symm
  | run k =>
    cases k with
    | output => exact (Option.bind_fun_some _).symm
    | remainder => exact hswitch _ _
    | _ => rfl
  | accounts k => cases k <;> rfl
  | funding k =>
    cases k with
    | skip => exact hswitch _ _
    | funderKey => exact (Option.bind_fun_some _).symm
    | _ => rfl
  | log k => cases k <;> exact (Option.bind_fun_some _).symm
  | metricsAddr => exact (Option.bind_fun_some _).symm

/-! ### What is read is what was written -/

theorem readNat_word (n : UInt64) : Text.readNat maxWord (toString n.toNat).toList = .ok n.toNat :=
  Text.readNat_toString (Nat.le_of_lt_succ n.toNat_lt)

theorem readNat_amount (n : Amount) : Text.readNat ((1 <<< 128) - 1) (toString n.toNat).toList = .ok n.toNat :=
  Text.readNat_toString (Nat.le_of_lt_succ n.isLt)

/-- A value comes back from behind an option that can set it. -/
theorem ofOption?_behind {k : Setting κ} {v : κ.Value} (hsettable : k.Settable v) :
    κ.ofOption? ((κ.behind v).getD "") = some v := by
  cases κ with
  | word =>
    change (Text.readNat maxWord (toString v.toNat).toList).toOption.map UInt64.ofNat = some v
    rw [readNat_word, Except.toOption, Option.map_some, UInt64.ofNat_toNat]
  | amount =>
    change (Text.readNat ((1 <<< 128) - 1) (toString v.toNat).toList).toOption.map (BitVec.ofNat 128) = some v
    rw [readNat_amount, Except.toOption, Option.map_some, BitVec.ofNat_toNat, BitVec.setWidth_eq]
  | text => rfl
  | switch =>
    cases k with
    | run k => cases k
    | accounts k => cases k
    | funding k =>
      cases k
      exact congrArg some hsettable.symm
    | log k => cases k
  | recipients => cases v <;> rfl
  | remainder =>
    cases k with
    | run k =>
      cases k
      exact congrArg some hsettable.symm
    | accounts k => cases k
    | funding k => cases k
    | log k => cases k

/-- The command that runs has the option of a setting and accepts what can stand behind it. -/
theorem accepts_behind {k : Setting κ} {v : κ.Value} {name : String} (hsettable : k.Settable v)
    (hoption : k.option? = some name) :
    ∃ spec, Subcommand.run.option? name = some spec ∧
      match κ.behind v with
      | none => spec.kind = none
      | some text => ∃ kind, spec.kind = some kind ∧ kind.accepts text = true := by
  have hword : ∀ n : UInt64, ValueKind.word.accepts (toString n.toNat) = true := fun n => by
    rw [ValueKind.accepts, readNat_word]
    rfl
  have hamount : ∀ n : Amount, ValueKind.amount.accepts (toString n.toNat) = true := fun n => by
    rw [ValueKind.accepts, readNat_amount]
    rfl
  cases k with
  | rpcUrl => cases hoption; exact ⟨_, rfl, _, rfl, rfl⟩
  | run k =>
    cases k with
    | output =>
      have hpath : SettingKind.text.render v ≠ "" := hsettable
      cases hoption
      exact ⟨_, rfl, _, rfl, by simpa [ValueKind.accepts] using hpath⟩
    | recipientPolicy => cases hoption; exact ⟨_, rfl, _, rfl, by cases v <;> rfl⟩
    | remainder => cases hoption; exact ⟨_, rfl, rfl⟩
    | label => cases hoption
    | errorLogLimit => cases hoption
    | reportIntervalMs => cases hoption
    | feePrice => cases hoption; exact ⟨_, rfl, _, rfl, hamount v⟩
    | amount => cases hoption; exact ⟨_, rfl, _, rfl, hamount v⟩
    | _ => cases hoption; exact ⟨_, rfl, _, rfl, hword v⟩
  | accounts k => cases k <;> cases hoption <;> exact ⟨_, rfl, _, rfl, hword v⟩
  | funding k =>
    cases k with
    | skip => cases hoption; exact ⟨_, rfl, rfl⟩
    | funderKey => cases hoption; exact ⟨_, rfl, _, rfl, rfl⟩
    | _ => cases hoption
  | log k =>
    cases k with
    | level => cases hoption; exact ⟨_, rfl, _, rfl, rfl⟩
    | format => cases hoption; exact ⟨_, rfl, _, rfl, List.contains_iff_mem.mpr hsettable⟩
  | metricsAddr => cases hoption; exact ⟨_, rfl, _, rfl, rfl⟩

theorem find?_option {k : Setting κ} {name : String} (hoption : k.option? = some name) :
    all.find? (·.2.option? = some name) = some ⟨κ, k⟩ := by
  cases k with
  | rpcUrl => cases hoption; rfl
  | run k => cases k <;> cases hoption <;> rfl
  | accounts k => cases k <;> cases hoption <;> rfl
  | funding k => cases k <;> cases hoption <;> rfl
  | log k => cases k <;> cases hoption <;> rfl
  | metricsAddr => cases hoption; rfl

/-- An option belongs to one setting only. -/
theorem eq_of_option?_eq {κ' : SettingKind} {k : Setting κ} {j : Setting κ'} {name : String}
    (hk : k.option? = some name) (hj : j.option? = some name) :
    (⟨κ, k⟩ : (κ : SettingKind) × Setting κ) = ⟨κ', j⟩ :=
  Option.some.inj ((find?_option hk).symm.trans (find?_option hj))

theorem fallback_of_option?_eq_none {k : Setting κ} (hoption : k.option? = none) (environment : Given) :
    k.fallback environment = none := by
  cases k with
  | rpcUrl => cases hoption
  | run k => rfl
  | accounts k => rfl
  | funding k => cases k <;> first | rfl | cases hoption
  | log k => rfl
  | metricsAddr => rfl

theorem option?_ne_config {k : Setting κ} : k.option? ≠ some "config" := by
  cases k with
  | rpcUrl => decide
  | run k => cases k <;> decide
  | accounts k => cases k <;> decide
  | funding k => cases k <;> decide
  | log k => cases k <;> decide
  | metricsAddr => decide

/-- What stands behind the option of a setting, or what acts for the option. -/
theorem valueOf?_option {k : Setting κ} {name : String} (hoption : k.option? = some name) {given : Given}
    {v : Option κ.Value} (hgiven : (given.lookup name).bind κ.ofOption? = v) (environment : Given) :
    (valueOf? .run given environment name).bind κ.ofOption? = v.or (k.fallback environment) := by
  have hplain : ∀ spec, Subcommand.run.option? name = some spec → spec.fallback = none → spec.default = none →
      k.fallback environment = none →
        (valueOf? .run given environment name).bind κ.ofOption? = v.or (k.fallback environment) := by
    intro spec hspec hacting hdefault hfallback
    rw [valueOf?, hspec, Option.bind_some, hacting, Option.bind_none, Option.bind_some, hdefault, Option.none_or,
      Option.or_none, hgiven, hfallback, Option.or_none]
  have htext : ∀ (acting : String) (v : Option String), (given.lookup name).bind some = v →
      (((given.lookup name).or ((environment.lookup acting).or none)).bind some) =
        v.or (environment.lookup acting) := by
    rintro acting v rfl
    rw [Option.or_none, Option.bind_fun_some, Option.bind_fun_some]
  cases k with
  | rpcUrl =>
    cases hoption
    exact htext _ _ hgiven
  | run k => cases k <;> cases hoption <;> exact hplain _ rfl rfl rfl rfl
  | accounts k => cases k <;> cases hoption <;> exact hplain _ rfl rfl rfl rfl
  | funding k =>
    cases k with
    | funderKey =>
      cases hoption
      exact htext _ _ hgiven
    | _ => cases hoption <;> exact hplain _ rfl rfl rfl rfl
  | log k => cases k <;> cases hoption <;> exact hplain _ rfl rfl rfl rfl
  | metricsAddr => cases hoption; exact hplain _ rfl rfl rfl rfl

end Setting

/-! ### Arguments that set settings -/

namespace Command

/-- The option sets the setting to the value. -/
def Use.Sets (u : Use) (k : Setting κ) (v : κ.Value) : Prop := k.option? = some u.name ∧ u.value = κ.behind v

/-- The option names the file with settings. -/
def Use.Names (u : Use) (path : String) : Prop := u.name = "config" ∧ u.value = some path

/-- The options say so much and nothing else: each is used once, for a setting or for the file with settings. A
value in an argument of its own does not begin with a hyphen. -/
structure Says (uses : List Use) (config : Option String) (inOptions : ∀ {κ}, Setting κ → Option κ.Value) : Prop where
  nodup : (uses.map (·.name)).Nodup
  apart : ∀ u ∈ uses, ∀ text ∈ u.value, u.attached = false → isValue text = true
  known : ∀ u ∈ uses, (∃ path ∈ config, u.Names path) ∨
    ∃ (κ : SettingKind) (k : Setting κ), ∃ v ∈ inOptions k, u.Sets k v
  named : ∀ path ∈ config, path ≠ "" ∧ ∃ u ∈ uses, u.Names path
  said : ∀ {κ} (k : Setting κ), ∀ v ∈ inOptions k, k.Settable v ∧ ∃ u ∈ uses, u.Sets k v

namespace Says

variable {uses : List Use} {config : Option String} {inOptions : ∀ {κ}, Setting κ → Option κ.Value}

theorem fits (htold : Says uses config inOptions) : ∀ u ∈ uses, u.Fits .run := by
  intro u hu
  refine ⟨?_, fun text htext => htold.apart u hu text htext⟩
  rcases htold.known u hu with ⟨path, hpath, hname, hvalue⟩ | ⟨κ, k, v, hv, hoption, hvalue⟩
  · rw [hname, hvalue]
    exact ⟨_, rfl, _, rfl, by simpa [ValueKind.accepts] using (htold.named path hpath).1⟩
  · rw [hvalue]
    exact Setting.accepts_behind (htold.said k v hv).1 hoption

/-- What is given once all options are read. -/
def given (uses : List Use) : Given := (uses.map Use.entry).reverse

theorem lookup_given (htold : Says uses config inOptions) {u : Use} (hu : u ∈ uses) :
    (given uses).lookup u.name = some (u.value.getD "") := by
  refine (lookup_eq_some_iff_mem ?_).mpr (List.mem_reverse.mpr (List.mem_map_of_mem hu))
  rw [given, List.map_reverse, List.map_map, List.nodup_reverse]
  exact htold.nodup

theorem lookup_given_of_not_mem {name : String} (hname : ∀ u ∈ uses, u.name ≠ name) :
    (given uses).lookup name = none := by
  refine lookup_eq_none_of_not_mem fun hmem => ?_
  rw [given, List.map_reverse, List.map_map, List.mem_reverse] at hmem
  obtain ⟨u, hu, hentry⟩ := List.mem_map.mp hmem
  exact hname u hu hentry

/-- Behind the option of a setting stands its value. -/
theorem lookup_option (htold : Says uses config inOptions) {k : Setting κ} {name : String}
    (hoption : k.option? = some name) : ((given uses).lookup name).bind κ.ofOption? = inOptions k := by
  cases hk : inOptions k with
  | some v =>
    obtain ⟨hsettable, u, hu, huoption, hvalue⟩ := htold.said k v hk
    obtain rfl : name = u.name := Option.some.inj (hoption.symm.trans huoption)
    rw [htold.lookup_given hu, hvalue, Option.bind_some]
    exact Setting.ofOption?_behind hsettable
  | none =>
    rw [lookup_given_of_not_mem, Option.bind_none]
    rintro u hu rfl
    rcases htold.known u hu with ⟨path, hpath, hname, hvalue⟩ | ⟨κ', j, v, hv, hj, hvalue⟩
    · rw [hname] at hoption
      exact Setting.option?_ne_config hoption
    · cases Setting.eq_of_option?_eq hoption hj
      rw [hk] at hv
      cases hv

theorem lookup_config (htold : Says uses config inOptions) : (given uses).lookup "config" = config := by
  cases config with
  | some path =>
    obtain ⟨-, u, hu, hname, hvalue⟩ := htold.named path rfl
    rw [← hname, htold.lookup_given hu, hvalue, Option.getD_some]
  | none =>
    refine lookup_given_of_not_mem fun u hu hname => ?_
    rcases htold.known u hu with ⟨path, hpath, -⟩ | ⟨κ, k, v, -, hoption, -⟩
    · cases hpath
    · exact Setting.option?_ne_config (hname ▸ hoption)

/-- The arguments are read as what they say, with the variables that act for options behind it. -/
theorem read (htold : Says uses config inOptions) (environment : Given) :
    ∃ o, CommandLine.read environment ("run" :: uses.flatMap Use.arguments) = .ok (.run o) ∧ o.config = config ∧
      ∀ {κ} (k : Setting κ), k.ofOptions? o = (inOptions k).or (k.fallback environment) := by
  have hread : readOptions .run [] (uses.flatMap Use.arguments) = .ok (given uses) := by
    rw [readOptions_uses htold.fits htold.nodup fun u hu => List.not_mem_nil, List.append_nil, given]
  refine ⟨.ofValues (valueOf? .run (given uses) environment), ?_, ?_, fun k => ?_⟩
  · change (readOptions .run [] (uses.flatMap Use.arguments)).map _ = _
    rw [hread]
    rfl
  · change ((given uses).lookup "config").or none = config
    rw [htold.lookup_config, Option.or_none]
  · rw [Setting.ofOptions?_ofValues]
    cases hoption : k.option? with
    | some name => exact Setting.valueOf?_option hoption (htold.lookup_option hoption) environment
    | none =>
      have hflags : inOptions k = none := by
        by_contra hflags
        obtain ⟨v, hv⟩ := Option.ne_none_iff_exists'.mp hflags
        obtain ⟨-, u, -, hu, -⟩ := htold.said k v hv
        rw [hoption] at hu
        cases hu
      rw [hflags, Setting.fallback_of_option?_eq_none hoption]
      rfl

end Says

end Command

end TransferLoad
