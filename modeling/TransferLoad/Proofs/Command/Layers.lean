import TransferLoad.Command.Session
import TransferLoad.Proofs.Command.Flags
import TransferLoad.Proofs.Settings.InOrder
import TransferLoad.Proofs.Settings.Texts

/-!
# Layers of settings

A run is configured from a file, the environment and options, each of which may set any of the settings. Every
setting by itself has the value of the highest layer that sets it. What is filled in afterwards is the number
of workers only, where it is zero.
-/

namespace TransferLoad

open SettingTree

variable {κ : SettingKind}

/-! ### Values in the environment -/

theorem Environment.literal_of_tests {s : String}
    (htests : (Text.lowercase s ≠ trueWord ∧ Text.lowercase s ≠ falseWord) ∧
      (Text.readInt64 s.toList).toBool = false ∧ Decimal.readFloat? s.toList = none) : Literal s where
  noTruth := htests.1
  noInteger n hread := by
    have hinteger := htests.2.1
    rw [hread] at hinteger
    cases hinteger
  noReal := htests.2.2

theorem RecipientPolicy.literal_name (policy : RecipientPolicy) : Environment.Literal policy.name :=
  Environment.literal_of_tests (by cases policy <;> decide +kernel)

theorem RemainderPolicy.literal_name (policy : RemainderPolicy) : Environment.Literal policy.name :=
  Environment.literal_of_tests (by cases policy <;> decide +kernel)

theorem Environment.readValue_toString (b : Bool) : readValue (toString b) = .boolean b := by
  have htrue : Text.lowercase (toString true) = trueWord := by decide +kernel
  have hfalse : Text.lowercase (toString false) = falseWord := by decide +kernel
  have hne : falseWord ≠ trueWord := by decide
  cases b with
  | true => simp only [readValue, htrue, if_true]
  | false => simp only [readValue, hfalse, hne, if_false, if_true]

/-- What is read from a variable that holds the value is the value. A number is read with a sign there, an amount
has no form, and a text must not be taken for something else. -/
def SettingKind.Storable : (κ : SettingKind) → κ.Value → Prop
  | word, n => n.toNat < 2 ^ 63
  | amount, _ => False
  | text, s => Environment.Literal s
  | _, _ => True

theorem SettingKind.reads_render {v : κ.Value} (hstorable : κ.Storable v) :
    κ.Reads (Environment.readValue (κ.render v)) v := by
  cases κ with
  | word =>
    have hreads := Settings.reads_numeral v
    rwa [(Settings.loadedWord_eq_iff v).mpr (Or.inl hstorable)] at hreads
  | amount => exact hstorable.elim
  | text =>
    change SettingKind.text.Reads (Environment.readValue v) v
    rw [Environment.readValue_of_literal hstorable]
    exact fun _ => rfl
  | switch =>
    change SettingKind.switch.Reads (Environment.readValue (toString v)) v
    rw [Environment.readValue_toString]
    exact fun _ => rfl
  | recipients =>
    change SettingKind.recipients.Reads (Environment.readValue v.name) v
    rw [Environment.readValue_of_literal (RecipientPolicy.literal_name v)]
    exact fun _ => by cases v <;> rfl
  | remainder =>
    change SettingKind.remainder.Reads (Environment.readValue v.name) v
    rw [Environment.readValue_of_literal (RemainderPolicy.literal_name v)]
    exact fun _ => by cases v <;> rfl

namespace Environment

/-- The variables with the prefix hold so much and nothing else. -/
structure Holds (environment : Variables) (values : ∀ {κ}, Setting κ → Option κ.Value) : Prop where
  texts : Says environment fun {κ} k => (values k).map κ.render
  storable : ∀ {κ} (k : Setting κ), ∀ v ∈ values k, κ.Storable v

end Environment

/-- The file at the path, if there is one, holds so much and nothing else, each setting under its name and in its
group. -/
structure FileTree.Holds (files : FileTree) (path : Option String) (values : ∀ {κ}, Setting κ → Option κ.Value) :
    Prop where
  found : ∃ found, files.HasSettings path found ∧ Tidy found ∧
    ∀ {κ} (k : Setting κ), scalarAt? found k.place = (values k).map κ.scalar
  storable : ∀ k : Setting .amount, values k = none

/-- A file and an environment are loaded setting by setting. -/
theorem Settings.load_of_holds {files : FileTree} {path : Option String} {environment : Environment.Variables}
    {inFile inVariables : ∀ {κ}, Setting κ → Option κ.Value} (hfile : files.Holds path inFile)
    (hvariables : Environment.Holds environment inVariables) :
    ∃ s, load files path environment = .ok s ∧
      ∀ {κ} (k : Setting κ), k.value s = (inVariables k).or ((inFile k).or (k.value {})) := by
  obtain ⟨found, hfound, htidy, hscalar⟩ := hfile.found
  have hw : ∀ {κ} (k : Setting κ),
      Option.Rel κ.Reads ((((inVariables k).map κ.render).map Environment.readValue).or (scalarAt? found k.place))
        ((inVariables k).or (inFile k)) := by
    intro κ k
    rw [hscalar]
    cases hvariable : inVariables k with
    | some v => exact Option.Rel.some (SettingKind.reads_render (hvariables.storable k v hvariable))
    | none =>
      cases hvalue : inFile k with
      | none => exact Option.Rel.none
      | some v =>
        refine Option.Rel.some (SettingKind.reads_scalar ?_ v)
        rintro rfl
        rw [hfile.storable k] at hvalue
        cases hvalue
  obtain ⟨s, hload, hvalue⟩ := load_of_scalars hfound htidy hvariables.texts hw
  exact ⟨s, hload, fun k => by rw [hvalue, Option.or_assoc]⟩

/-! ### What is filled in -/

theorem Setting.value_resolveWorkers {s : Settings} {k : Setting κ} (hk : k.path ≠ "run.workers") :
    k.value s.resolveWorkers = k.value s := by
  rw [Settings.resolveWorkers_eq]
  cases k with
  | run k => cases k <;> first | rfl | exact absurd rfl hk
  | _ => rfl

/-- Nothing is filled in but the number of workers, where it is zero. -/
theorem Settings.eq_resolveWorkers_iff {s t : Settings} : t = s.resolveWorkers ↔
    t.run.workers = (if s.run.workers = 0 then s.accounts.senders else s.run.workers) ∧
      ∀ {κ} (k : Setting κ), k.path ≠ "run.workers" → k.value t = k.value s := by
  have hworkers : s.resolveWorkers.run.workers =
      if s.run.workers = 0 then s.accounts.senders else s.run.workers := by
    rw [resolveWorkers_eq]
  constructor
  · rintro rfl
    exact ⟨hworkers, fun k hk => Setting.value_resolveWorkers hk⟩
  · rintro ⟨hfilled, hothers⟩
    refine Setting.eq_of_value_eq fun {κ} k => ?_
    by_cases hk : k.path = "run.workers"
    · cases Setting.eq_of_path_eq (j := .run .workers) hk
      exact congrArg some (hfilled.trans hworkers.symm)
    · rw [hothers k hk, Setting.value_resolveWorkers hk]

namespace Command

/-! ### Configuring a run -/

variable {o : RunOptions} {s : Surroundings} {loaded t : Settings}

theorem RunOptions.configure_eq_ok_iff (hload : Settings.load s.files o.config s.environment = .ok loaded) :
    o.configure s = .ok t ↔ (o.applyTo loaded).finalize = .ok t := by
  have hconfigure : o.configure s = (o.applyTo loaded).finalize.mapError .settings := by
    rw [RunOptions.configure, hload]
    rfl
  rw [hconfigure]
  cases (o.applyTo loaded).finalize with
  | error cause => exact iff_of_false nofun nofun
  | ok final => simp only [Except.mapError, Except.ok.injEq]

/-- The address for metrics is all that is left to check. -/
theorem RunOptions.settings_eq_ok_iff : o.settings s = .ok t ↔
    o.configure s = .ok t ∧ ∀ text ∈ t.metricsAddr, Net.isSocketAddress text.toList = true := by
  unfold RunOptions.settings
  cases o.configure s with
  | error cause => exact iff_of_false nofun (fun h => nomatch h.1)
  | ok final =>
    simp only [bind, Except.bind, Except.ok.injEq]
    cases haddress : final.metricsAddr with
    | none =>
      refine ⟨fun h => ?_, fun h => congrArg Except.ok h.1⟩
      cases h
      exact ⟨rfl, by simp [haddress]⟩
    | some text =>
      dsimp only
      split
      · rename_i haccepted
        refine ⟨fun h => ?_, fun h => congrArg Except.ok h.1⟩
        cases h
        exact ⟨rfl, by simpa [haddress] using haccepted⟩
      · rename_i hrefused
        refine iff_of_false nofun ?_
        rintro ⟨rfl, haccepted⟩
        exact hrefused (haccepted text haddress)

/-- Arguments are read and settings loaded, and every setting by itself has the value of the highest layer that
sets it: an option, then a variable that acts for an option which is not used, then a variable with the prefix,
then the file, then the value used otherwise. A run is configured with just these, and with one worker for each
sender where the number of workers is zero, exactly if they are in order then; and it goes ahead with them if
metrics are not asked for or have an address. -/
theorem settings_layered (s : Surroundings) {uses : List Use} {config : Option String}
    {inFile inVariables inOptions : ∀ {κ}, Setting κ → Option κ.Value} (hfile : s.files.Holds config inFile)
    (hvariables : Environment.Holds s.environment inVariables) (hoptions : Says uses config inOptions) :
    ∃ o loaded, CommandLine.read s.environment ("run" :: uses.flatMap Use.arguments) = .ok (.run o) ∧
      Settings.load s.files o.config s.environment = .ok loaded ∧
      (∀ {κ} (k : Setting κ), k.value (o.applyTo loaded) =
        (inOptions k).or ((k.fallback s.environment).or ((inVariables k).or ((inFile k).or (k.value {}))))) ∧
      ∀ t,
        ((o.applyTo loaded).finalize = .ok t ↔ t.InOrder ∧
          t.run.workers = (if (o.applyTo loaded).run.workers = 0 then (o.applyTo loaded).accounts.senders
            else (o.applyTo loaded).run.workers) ∧
          ∀ {κ} (k : Setting κ), k.path ≠ "run.workers" → k.value t = k.value (o.applyTo loaded)) ∧
        (o.configure s = .ok t ↔ (o.applyTo loaded).finalize = .ok t) ∧
        (o.settings s = .ok t ↔ (o.applyTo loaded).finalize = .ok t ∧
          ∀ text ∈ t.metricsAddr, Net.isSocketAddress text.toList = true) := by
  obtain ⟨o, hread, hconfig, ho⟩ := hoptions.read s.environment
  obtain ⟨loaded, hload, hvalue⟩ := Settings.load_of_holds hfile hvariables
  rw [← hconfig] at hload
  refine ⟨o, loaded, hread, hload, fun k => ?_, fun t => ⟨?_, RunOptions.configure_eq_ok_iff hload, ?_⟩⟩
  · rw [Setting.value_applyTo, ho, hvalue, Option.or_assoc]
  · rw [Settings.finalize_eq_ok_iff, Settings.eq_resolveWorkers_iff, and_comm]
  · rw [RunOptions.settings_eq_ok_iff, RunOptions.configure_eq_ok_iff hload]

/-! ### A small configuration -/

namespace Sample

def document : String :=
  "[run]\ntarget_tps = 50\nworkers = 4\nchain_id = 5\n[accounts]\nsenders = 3\n[funding]\nskip = false\n"

def surroundings : Surroundings where
  environment := [("RPC_URL", "http://node:8080"), ("IPPAN_STRESS__RUN__TARGET_TPS", "200"),
    ("ippan_stress__accounts__senders", "7")]
  files := { entries := [(["settings.toml"], .file (Text.Utf8.encode document))] }
  startedAt := ⟨0, 0⟩
  transport := fun _ _ _ => none
  secrets := fun _ => []

def uses : List Use :=
  [{ name := "tps", value := some "1000" }, { name := "workers", value := some "0" },
    { name := "distribute-remainder" }, { name := "config", value := some "settings.toml", attached := true }]

def inFile : Setting κ → Option κ.Value
  | .run .targetTps => some (50 : UInt64)
  | .run .workers => some (4 : UInt64)
  | .run .chainId => some (5 : UInt64)
  | .accounts .senders => some (3 : UInt64)
  | .funding .skip => some false
  | _ => none

def inVariables : Setting κ → Option κ.Value
  | .run .targetTps => some (200 : UInt64)
  | .accounts .senders => some (7 : UInt64)
  | _ => none

def inOptions : Setting κ → Option κ.Value
  | .run .targetTps => some (1000 : UInt64)
  | .run .workers => some (0 : UInt64)
  | .run .remainder => some RemainderPolicy.distribute
  | _ => none

/-- What the document holds. -/
def found : List (String × SettingTree) :=
  let number := fun (n : Int) => SettingTree.scalar (some "settings.toml") (.integer n)
  [("run", .table (some "settings.toml") [("target_tps", number 50), ("workers", number 4), ("chain_id", number 5)]),
    ("accounts", .table (some "settings.toml") [("senders", number 3)]),
    ("funding", .table (some "settings.toml") [("skip", .scalar (some "settings.toml") (.boolean false))])]

theorem holds_file : surroundings.files.Holds (some "settings.toml") inFile where
  found := by
    have hrun : TidyGroup "run" [("target_tps", .scalar (some "settings.toml") (.integer 50)),
        ("workers", .scalar (some "settings.toml") (.integer 4)),
        ("chain_id", .scalar (some "settings.toml") (.integer 5))] := by
      refine ⟨by decide, ?_⟩
      simp only [List.forall_mem_cons, List.not_mem_nil, false_imp_iff, implies_true, and_true]
      exact ⟨⟨⟨_, .run .targetTps, rfl⟩, _, _, rfl⟩, ⟨⟨_, .run .workers, rfl⟩, _, _, rfl⟩, ⟨_, .run .chainId, rfl⟩,
        _, _, rfl⟩
    have haccounts : TidyGroup "accounts" [("senders", .scalar (some "settings.toml") (.integer 3))] := by
      refine ⟨by decide, ?_⟩
      rw [List.forall_mem_singleton]
      exact ⟨⟨_, .accounts .senders, rfl⟩, _, _, rfl⟩
    have hfunding : TidyGroup "funding" [("skip", .scalar (some "settings.toml") (.boolean false))] := by
      refine ⟨by decide, ?_⟩
      rw [List.forall_mem_singleton]
      exact ⟨⟨_, .funding .skip, rfl⟩, _, _, rfl⟩
    have htidy : Tidy found := by
      refine ⟨by decide, ?_⟩
      simp only [found, List.forall_mem_cons, List.not_mem_nil, false_imp_iff, implies_true, and_true]
      exact ⟨Or.inr ⟨by decide, _, _, rfl, hrun⟩, Or.inr ⟨by decide, _, _, rfl, haccounts⟩,
        Or.inr ⟨by decide, _, _, rfl, hfunding⟩⟩
    refine ⟨found, ⟨⟨.file (Text.Utf8.encode document), by decide +kernel⟩, by decide +kernel⟩, htidy, ?_⟩
    · intro κ k
      cases k with
      | run k => cases k <;> rfl
      | accounts k => cases k <;> rfl
      | funding k => cases k <;> rfl
      | log k => cases k <;> rfl
      | _ => rfl
  storable k := by
    cases k with
    | run k => cases k <;> rfl
    | accounts k => cases k
    | funding k => cases k <;> rfl
    | log k => cases k

theorem holds_variables : Environment.Holds surroundings.environment inVariables where
  texts := by
    have hrate : Environment.path? "IPPAN_STRESS__RUN__TARGET_TPS" = some (Setting.run .targetTps).path := by
      decide +kernel
    have hsenders : Environment.path? "ippan_stress__accounts__senders" = some (Setting.accounts .senders).path := by
      decide +kernel
    constructor
    · simp only [surroundings, List.mem_cons, List.not_mem_nil, or_false]
      rintro name text (h | h | h) path hpath <;> cases h
      · rw [show Environment.path? "RPC_URL" = none by decide +kernel] at hpath
        cases hpath
      · cases hrate.symm.trans hpath
        exact ⟨_, .run .targetTps, rfl, by decide +kernel⟩
      · cases hsenders.symm.trans hpath
        exact ⟨_, .accounts .senders, rfl, by decide +kernel⟩
    · intro κ k text htext
      cases k with
      | run k =>
        cases k with
        | targetTps => cases htext; exact ⟨_, by decide +kernel, hrate⟩
        | _ => cases htext
      | accounts k =>
        cases k with
        | senders => cases htext; exact ⟨_, by decide +kernel, hsenders⟩
        | recipients => cases htext
      | funding k => cases k <;> cases htext
      | log k => cases k <;> cases htext
      | _ => cases htext
  storable k v hv := by
    cases k with
    | run k =>
      cases k with
      | targetTps => cases hv; exact show 200 < 2 ^ 63 by decide
      | _ => cases hv
    | accounts k =>
      cases k with
      | senders => cases hv; exact show 7 < 2 ^ 63 by decide
      | recipients => cases hv
    | funding k => cases k <;> cases hv
    | log k => cases k <;> cases hv
    | _ => cases hv

theorem says_uses : Says uses (some "settings.toml") inOptions where
  nodup := by decide
  apart := by decide
  known := by
    simp only [uses, List.forall_mem_cons, List.not_mem_nil, false_imp_iff, implies_true, and_true]
    exact ⟨Or.inr ⟨_, .run .targetTps, 1000, rfl, rfl, by decide +kernel⟩,
      Or.inr ⟨_, .run .workers, 0, rfl, rfl, by decide +kernel⟩,
      Or.inr ⟨_, .run .remainder, .distribute, rfl, rfl, rfl⟩, Or.inl ⟨_, rfl, rfl, rfl⟩⟩
  named := by
    rintro path hpath
    cases hpath
    exact ⟨by decide, { name := "config", value := some "settings.toml", attached := true }, by decide, rfl, rfl⟩
  said k v hv := by
    cases k with
    | run k =>
      cases k with
      | targetTps => cases hv; exact ⟨trivial, _, List.mem_cons_self, rfl, by decide +kernel⟩
      | workers =>
        cases hv
        exact ⟨trivial, { name := "workers", value := some "0" }, by decide, rfl, by decide +kernel⟩
      | remainder => cases hv; exact ⟨rfl, { name := "distribute-remainder" }, by decide, rfl, rfl⟩
      | _ => cases hv
    | accounts k => cases k <;> cases hv
    | funding k => cases k <;> cases hv
    | log k => cases k <;> cases hv
    | _ => cases hv

end Sample

/-- The number of workers is zero in the end, whatever the file says, and so there is one for each sender. -/
theorem settings_layered_sample :
    ∃ o t, CommandLine.read Sample.surroundings.environment
        ["run", "--tps", "1000", "--workers", "0", "--distribute-remainder", "--config=settings.toml"] =
          .ok (.run o) ∧
      o.configure Sample.surroundings = .ok t ∧ o.settings Sample.surroundings = .ok t ∧
      t.run.workers = 7 ∧ t.run.targetTps = 1000 ∧ t.accounts.senders = 7 ∧ t.run.chainId = 5 ∧
      t.run.durationSecs = 30 ∧ t.rpcUrl = "http://node:8080" ∧ t.run.remainder = .distribute := by
  obtain ⟨o, loaded, hread, -, hvalue, hfinal⟩ :=
    settings_layered Sample.surroundings Sample.holds_file Sample.holds_variables Sample.says_uses
  have hworkers : (o.applyTo loaded).run.workers = 0 := Option.some.inj (hvalue (.run .workers))
  have hsenders : (o.applyTo loaded).accounts.senders = 7 := Option.some.inj (hvalue (.accounts .senders))
  have hrecipients : (o.applyTo loaded).accounts.recipients = 100 :=
    Option.some.inj (hvalue (.accounts .recipients))
  have hurl : (o.applyTo loaded).rpcUrl = "http://node:8080" := Option.some.inj (hvalue .rpcUrl)
  have hpoll : (o.applyTo loaded).funding.pollIntervalSecs = 3 :=
    Option.some.inj (hvalue (.funding .pollIntervalSecs))
  have hrate : (o.applyTo loaded).run.targetTps = 1000 := Option.some.inj (hvalue (.run .targetTps))
  have hduration : (o.applyTo loaded).run.durationSecs = 30 := Option.some.inj (hvalue (.run .durationSecs))
  have houtput : (o.applyTo loaded).run.output = "tx_hashes.txt" := Option.some.inj (hvalue (.run .output))
  have hinterval : (o.applyTo loaded).run.reportIntervalMs = 1000 :=
    Option.some.inj (hvalue (.run .reportIntervalMs))
  have hmetrics : (o.applyTo loaded).metricsAddr = none := hvalue .metricsAddr
  have hfilled : (o.applyTo loaded).resolveWorkers =
      { o.applyTo loaded with run := { (o.applyTo loaded).run with workers := 7 } } := by
    rw [Settings.resolveWorkers_eq, if_pos hworkers, hsenders]
  obtain ⟨hfinalize, hconfigure, hsettings⟩ := hfinal (o.applyTo loaded).resolveWorkers
  have hfit : (o.applyTo loaded).finalize = .ok (o.applyTo loaded).resolveWorkers := by
    refine hfinalize.mpr ⟨?_, Settings.eq_resolveWorkers_iff.mp rfl⟩
    rw [hfilled]
    exact
      { senders := by rw [hsenders]; decide
        recipients := by rw [hrecipients]; decide
        url := by rw [hurl]; decide +kernel
        pollInterval := by rw [hpoll]; decide
        run :=
          { rate := by rw [hrate]; decide
            duration := by rw [hduration]; decide
            workers := show (7 : UInt64) ≠ 0 by decide
            output := by rw [houtput]; decide
            reportInterval := by rw [hinterval]; decide } }
  refine ⟨o, _, hread, hconfigure.mpr hfit, hsettings.mpr ⟨hfit, ?_⟩, ?_⟩
  · rw [hfilled, hmetrics]
    nofun
  · rw [hfilled]
    exact ⟨rfl, hrate, hsenders, Option.some.inj (hvalue (.run .chainId)), hduration, hurl,
      Option.some.inj (hvalue (.run .remainder))⟩

end Command

end TransferLoad
