import Mathlib.Data.List.Induction
import TransferLoad.Proofs.Settings.Reading

/-!
# Loading, setting by setting

What is loaded has, for each setting, the value of the environment where a variable means the setting, else
the value of the file, else the value used otherwise.
-/

namespace TransferLoad

open SettingTree

/-! ### The environment -/

namespace Environment

variable {environment : Variables}

/-- One more variable counts after all others. -/
theorem entries_concat (name text : String) :
    entries (environment ++ [(name, text)]) =
      match path? name with
      | none => entries environment
      | some path => put path (.scalar (some sourceName) (readValue text)) (entries environment) := by
  rw [entries, List.foldl_append, List.foldl_cons, List.foldl_nil]
  rfl

/-- What the environment has for a path is what one of its variables says. -/
theorem mem_entries {entry : String × SettingTree} (hentry : entry ∈ entries environment) :
    ∃ name text, (name, text) ∈ environment ∧ path? name = some entry.1 ∧
      entry.2 = .scalar (some sourceName) (readValue text) := by
  induction environment using List.reverseRecOn with
  | nil => exact nomatch hentry
  | append_singleton before last ih =>
    obtain ⟨name, text⟩ := last
    rw [entries_concat] at hentry
    have hcase : (∃ path, path? name = some path ∧ entry = (path, .scalar (some sourceName) (readValue text))) ∨
        entry ∈ entries before := by
      split at hentry
      · exact Or.inr hentry
      · exact (mem_put hentry).imp_left fun heq => ⟨_, ‹_›, heq⟩
    rcases hcase with ⟨path, hpath, rfl⟩ | hbefore
    · exact ⟨name, text, by simp, hpath, rfl⟩
    · obtain ⟨name, text, hmem, hpath⟩ := ih hbefore
      exact ⟨name, text, List.mem_append_left _ hmem, hpath⟩

/-- The environment has something for a path if one of its variables means it. -/
theorem mem_map_fst_entries {name text path : String} (hmem : (name, text) ∈ environment)
    (hpath : path? name = some path) : path ∈ (entries environment).map Prod.fst := by
  induction environment using List.reverseRecOn with
  | nil => exact nomatch hmem
  | append_singleton before last ih =>
    rw [entries_concat]
    rcases List.mem_append.mp hmem with hmem | hmem
    · split
      · exact ih hmem
      · exact mem_map_fst_put.mpr (Or.inr (ih hmem))
    · rw [List.mem_singleton] at hmem
      subst hmem
      rw [hpath]
      exact mem_map_fst_put.mpr (Or.inl rfl)

/-- The variables with the prefix say so much and nothing else: for each setting one text at most, under any
name that means the setting's path. -/
structure Says (environment : Variables) (text : ∀ {κ}, Setting κ → Option String) : Prop where
  known : ∀ name s, (name, s) ∈ environment → ∀ path, path? name = some path →
    ∃ (κ : SettingKind) (k : Setting κ), path = k.path ∧ text k = some s
  said : ∀ {κ} (k : Setting κ) {s}, text k = some s →
    ∃ name, (name, s) ∈ environment ∧ path? name = some k.path

theorem Says.not_mem {text : ∀ {κ}, Setting κ → Option String} (htold : Says environment text)
    {κ : SettingKind} {k : Setting κ} (hk : text k = none) : k.path ∉ (entries environment).map Prod.fst := by
  intro hmem
  obtain ⟨entry, hentry, hpath⟩ := List.mem_map.mp hmem
  obtain ⟨name, s, hmem, hname, -⟩ := mem_entries hentry
  obtain ⟨κ', k', hk', htext⟩ := htold.known name s hmem _ hname
  cases Setting.eq_of_path_eq (hpath.symm.trans hk')
  rw [hk] at htext
  cases htext

end Environment

/-! ### Loading -/

/-- The entries of the file at a path, or no entries without a path. -/
def FileTree.HasSettings (files : FileTree) : Option String → List (String × SettingTree) → Prop
  | none, found => found = []
  | some text, found =>
    (∃ entry, files.entry (Path.ofText text) = .ok entry) ∧ fileEntries files text = .ok found

theorem Settings.load_of_hasSettings {files : FileTree} {path : Option String}
    {environment : Environment.Variables} {found : List (String × SettingTree)}
    (hfile : files.HasSettings path found) :
    Settings.load files path environment =
      (Settings.ofTree (.table none (layer (layer [] found) (Environment.entries environment)))).mapError .config := by
  cases path with
  | none =>
    obtain rfl : found = [] := hfile
    rfl
  | some text =>
    obtain ⟨⟨entry, hentry⟩, hfound⟩ := hfile
    simp only [Settings.load, hentry, hfound]
    rfl

/-- A tidy file and an environment are loaded leaf by leaf, the environment over the file. -/
theorem Settings.load_of_scalars {files : FileTree} {path : Option String} {environment : Environment.Variables}
    {found : List (String × SettingTree)} {text : ∀ {κ}, Setting κ → Option String}
    {w : ∀ {κ}, Setting κ → Option κ.Value} (hfile : files.HasSettings path found) (hfound : Tidy found)
    (henvironment : Environment.Says environment text)
    (hw : ∀ {κ} (k : Setting κ),
      Option.Rel κ.Reads (((text k).map Environment.readValue).or (scalarAt? found k.place)) (w k)) :
    ∃ s, Settings.load files path environment = .ok s ∧ ∀ {κ} (k : Setting κ), k.value s = (w k).or (k.value {}) := by
  obtain ⟨htidy, hscalar⟩ := hfound.layer_nil
  have hincoming : ∀ entry ∈ Environment.entries environment,
      ∃ (κ : SettingKind) (k : Setting κ) (source : Option String) (x : Scalar),
        entry = (k.path, .scalar source x) ∧ (text k).map Environment.readValue = some x := by
    intro entry hentry
    obtain ⟨name, s, hmem, hpath, hvalue⟩ := Environment.mem_entries hentry
    obtain ⟨κ, k, hk, htext⟩ := henvironment.known name s hmem _ hpath
    exact ⟨κ, k, _, _, Prod.ext hk hvalue, by rw [htext, Option.map_some]⟩
  obtain ⟨htidy', hscalar'⟩ := htidy.layer (f := fun k => (text k).map Environment.readValue) hincoming
  have hlayers : ∀ {κ} (k : Setting κ),
      scalarAt? (layer (layer [] found) (Environment.entries environment)) k.place =
        ((text k).map Environment.readValue).or (scalarAt? found k.place) := by
    intro κ k
    rw [hscalar', hscalar]
    cases htext : text k with
    | none => rw [if_neg (henvironment.not_mem htext), Option.map_none, Option.none_or]
    | some s =>
      obtain ⟨name, hmem, hpath⟩ := henvironment.said k htext
      rw [if_pos (Environment.mem_map_fst_entries hmem hpath), Option.map_some, Option.some_or]
  obtain ⟨s, hread, hvalue⟩ := ofTree_of_tidy htidy' (fun k => hlayers k ▸ hw k) none
  exact ⟨s, by rw [load_of_hasSettings hfile, hread]; rfl, hvalue⟩

/-! ### A single variable -/

namespace Environment

variable {environment : Variables} {κ : SettingKind} {k : Setting κ} {s : String}

/-- Of the variables with the prefix there is only the one for a setting. -/
structure Only (environment : Variables) (k : Setting κ) (s : String) : Prop where
  mem : (k.variableName, s) ∈ environment
  only : ∀ entry ∈ environment, path? entry.1 ≠ none → entry = (k.variableName, s)

theorem Only.toSays (honly : Only environment k s) :
    Says environment fun j => if j.path = k.path then some s else none where
  known name text hmem path hpath := by
    cases honly.only (name, text) hmem (by simp [hpath])
    refine ⟨κ, k, ?_, if_pos rfl⟩
    rw [Setting.path?_variableName] at hpath
    exact (Option.some.inj hpath).symm
  said j text htext := by
    obtain ⟨hpath, htext⟩ := Option.ite_none_right_eq_some.mp htext
    cases htext
    exact ⟨_, honly.mem, by rw [Setting.path?_variableName, hpath]⟩

theorem nodup_entries (environment : Variables) : ((entries environment).map Prod.fst).Nodup := by
  induction environment using List.reverseRecOn with
  | nil => exact List.nodup_nil
  | append_singleton before last ih =>
    rw [entries_concat]
    split
    · exact ih
    · exact nodup_put ih

theorem Only.entries (honly : Only environment k s) :
    entries environment = [(k.path, .scalar (some sourceName) (readValue s))] := by
  have hpath := Setting.path?_variableName k
  have hall : ∀ entry ∈ Environment.entries environment,
      entry = (k.path, .scalar (some sourceName) (readValue s)) := by
    intro entry hentry
    obtain ⟨name, text, hmem, hname, hvalue⟩ := mem_entries hentry
    cases honly.only (name, text) hmem (by simp [hname])
    exact Prod.ext (Option.some.inj (hname.symm.trans hpath)) hvalue
  have hsome := mem_map_fst_entries honly.mem hpath
  have hnodup := nodup_entries environment
  cases hentries : Environment.entries environment with
  | nil => simp [hentries] at hsome
  | cons first rest =>
    rw [hentries] at hall hnodup
    rw [hall first List.mem_cons_self]
    cases rest with
    | nil => rfl
    | cons second rest =>
      rw [hall first List.mem_cons_self, hall second (by simp)] at hnodup
      simp at hnodup

end Environment

/-- A value for one setting, and none for all others. -/
def Setting.single {κ : SettingKind} (k : Setting κ) (v : κ.Value) {κ' : SettingKind} (j : Setting κ') :
    Option κ'.Value :=
  if hpath : k.path = j.path then
    have hkind : κ = κ' := congrArg Sigma.fst (eq_of_path_eq hpath)
    some (hkind ▸ v)
  else none

@[simp] theorem Setting.single_self {κ : SettingKind} (k : Setting κ) (v : κ.Value) : k.single v k = some v :=
  dif_pos rfl

theorem Setting.single_of_ne {κ κ' : SettingKind} {k : Setting κ} (v : κ.Value) {j : Setting κ'}
    (hpath : j.path ≠ k.path) : k.single v j = none :=
  dif_neg hpath.symm

/-- A single variable sets its setting, and all others have the values used otherwise. -/
theorem Settings.load_of_only {κ : SettingKind} {k : Setting κ} {environment : Environment.Variables}
    {s : String} {v : κ.Value} (honly : Environment.Only environment k s)
    (hreads : κ.Reads (Environment.readValue s) v) (files : FileTree) :
    ∃ t, load files none environment = .ok t ∧ k.value t = some v ∧
      ∀ {κ'} (j : Setting κ'), j.path ≠ k.path → j.value t = j.value {} := by
  have hw : ∀ {κ'} (j : Setting κ'),
      Option.Rel κ'.Reads
        (((if j.path = k.path then some s else none).map Environment.readValue).or (scalarAt? [] j.place))
        (k.single v j) := by
    intro κ' j
    by_cases hpath : j.path = k.path
    · cases Setting.eq_of_path_eq hpath
      rw [if_pos rfl, Setting.single_self]
      exact Option.Rel.some hreads
    · have hnone : scalarAt? [] j.place = none := scalarAt?_of_not_under nofun
      rw [if_neg hpath, hnone, Setting.single_of_ne v hpath]
      exact Option.Rel.none
  have hfile : files.HasSettings none [] := rfl
  obtain ⟨t, hload, hvalue⟩ := load_of_scalars hfile tidy_nil honly.toSays hw
  refine ⟨t, hload, ?_, fun j hj => ?_⟩
  · rw [hvalue, Setting.single_self, Option.some_or]
  · rw [hvalue, Setting.single_of_ne v hj, Option.none_or]

end TransferLoad
