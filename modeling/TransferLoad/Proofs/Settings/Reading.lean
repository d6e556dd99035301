import TransferLoad.Proofs.Settings.Merging

/-!
# What is read from a tidy tree

Each entry of a tree sets the settings under its name and leaves the others as they are. So what is read from a
tidy tree has, for each setting, the value that the scalar at its place stands for, and the value used
otherwise where there is no scalar.
-/

namespace TransferLoad

namespace SettingTree

variable {entries rows : List (String × SettingTree)}

/-! ### Entry by entry -/

/-- Entries of which each gives what it hits a certain value and leaves the rest: together they give all that
one of them hits its value, and leave what none of them hits. -/
theorem readEntries_of_entry {γ ι : Type} {α : ι → Type} {members : List (Member γ)}
    (hits : ι → String → Prop) (value : (i : ι) → γ → α i) (f : (i : ι) → α i)
    (hentry : ∀ entry ∈ entries, ∀ s, ∃ m s', members.find? (·.name = entry.1) = some m ∧
      m.read entry.2 s = .ok s' ∧
        ∀ i, (hits i entry.1 → value i s' = f i) ∧ (¬hits i entry.1 → value i s' = value i s))
    (s : γ) :
    ∃ s', readEntries members s entries = .ok s' ∧
      ∀ i, ((∃ entry ∈ entries, hits i entry.1) → value i s' = f i) ∧
        ((∀ entry ∈ entries, ¬hits i entry.1) → value i s' = value i s) := by
  induction entries generalizing s with
  | nil => exact ⟨s, rfl, fun i => ⟨fun ⟨_, hmem, _⟩ => (nomatch hmem), fun _ => rfl⟩⟩
  | cons entry rest ih =>
    obtain ⟨m, s₁, hfind, hread, hfirst⟩ := hentry entry List.mem_cons_self s
    obtain ⟨s₂, hrest, hall⟩ := ih (fun entry hmem => hentry entry (List.mem_cons_of_mem _ hmem)) s₁
    refine ⟨s₂, by simp only [readEntries, hfind, hread, hrest], fun i => ⟨?_, ?_⟩⟩
    · rintro ⟨hit, hmem, hhit⟩
      by_cases hlater : ∃ entry ∈ rest, hits i entry.1
      · exact (hall i).1 hlater
      · rcases List.mem_cons.mp hmem with rfl | hmem
        · exact ((hall i).2 fun entry hmem hhit => hlater ⟨entry, hmem, hhit⟩).trans ((hfirst i).1 hhit)
        · exact absurd ⟨hit, hmem, hhit⟩ hlater
    · intro hnone
      exact ((hall i).2 fun entry hmem => hnone entry (List.mem_cons_of_mem _ hmem)).trans
        ((hfirst i).2 (hnone entry List.mem_cons_self))

/-! ### The members of a group -/

/-- The members read the settings of a group, each its own. The settings of the group are looked at as part of
all settings. -/
def MembersOf {γ : Type} (group : Option String) (members : List (Member γ)) (whole : γ → Settings) : Prop :=
  ∀ {κ} (k : Setting κ) {name : String}, k.place = (group, name) → ∀ {x v}, κ.Reads x v →
    ∀ source s, ∃ m s', members.find? (·.name = name) = some m ∧ m.read (.scalar source x) s = .ok s' ∧
      k.value (whole s') = some v ∧
        ∀ {κ'} (j : Setting κ'), j.place ≠ k.place → j.value (whole s') = j.value (whole s)

section

variable {κ : SettingKind} {x : Scalar} {v : κ.Value} {γ : Type}

theorem read_member (hreads : κ.Reads x v) (name : String) (store : γ → κ.Value → γ) (source : Option String)
    (s : γ) : (member name κ.read store).read (.scalar source x) s = .ok (store s v) :=
  congrArg (Except.map (store s)) (hreads source)

theorem read_member_optional (hreads : κ.Reads x v) (name : String) (store : γ → Option κ.Value → γ)
    (source : Option String) (s : γ) :
    (member name (readOptional κ.read) store).read (.scalar source x) s = .ok (store s (some v)) :=
  congrArg (Except.map (store s)) (SettingKind.readOptional_of_reads hreads source)

end

theorem membersOf_run : MembersOf (some "run") RunSettings.members ({ run := · }) := by
  intro κ k name hplace x v hreads source s
  cases k with
  | run k =>
    cases k <;> cases hplace <;>
      refine ⟨_, _, rfl, by first | exact read_member hreads _ _ _ _ | exact read_member_optional hreads _ _ _ _,
        rfl, fun j hj => ?_⟩ <;>
      cases j with
      | run j => cases j <;> first | rfl | exact absurd rfl hj
      | _ => rfl
  | _ => simp [Setting.place] at hplace

theorem membersOf_accounts : MembersOf (some "accounts") PoolSettings.members ({ accounts := · }) := by
  intro κ k name hplace x v hreads source s
  cases k with
  | accounts k =>
    cases k <;> cases hplace <;>
      refine ⟨_, _, rfl, read_member hreads _ _ _ _, rfl, fun j hj => ?_⟩ <;>
      cases j with
      | accounts j => cases j <;> first | rfl | exact absurd rfl hj
      | _ => rfl
  | _ => simp [Setting.place] at hplace

theorem membersOf_funding : MembersOf (some "funding") FundingSettings.members ({ funding := · }) := by
  intro κ k name hplace x v hreads source s
  cases k with
  | funding k =>
    cases k <;> cases hplace <;>
      refine ⟨_, _, rfl, by first | exact read_member hreads _ _ _ _ | exact read_member_optional hreads _ _ _ _,
        rfl, fun j hj => ?_⟩ <;>
      cases j with
      | funding j => cases j <;> first | rfl | exact absurd rfl hj
      | _ => rfl
  | _ => simp [Setting.place] at hplace

theorem membersOf_log : MembersOf (some "log") LogSettings.members ({ log := · }) := by
  intro κ k name hplace x v hreads source s
  cases k with
  | log k =>
    cases k <;> cases hplace <;>
      refine ⟨_, _, rfl, read_member hreads _ _ _ _, rfl, fun j hj => ?_⟩ <;>
      cases j with
      | log j => cases j <;> first | rfl | exact absurd rfl hj
      | _ => rfl
  | _ => simp [Setting.place] at hplace

/-- The settings without a group. -/
theorem membersOf_top : MembersOf none Settings.members id := by
  intro κ k name hplace x v hreads source s
  cases k with
  | rpcUrl =>
    cases hplace
    refine ⟨_, _, rfl, read_member hreads _ _ _ _, rfl, fun j hj => ?_⟩
    cases j with
    | rpcUrl => exact absurd rfl hj
    | _ => rfl
  | metricsAddr =>
    cases hplace
    refine ⟨_, _, rfl, read_member_optional hreads _ _ _ _, rfl, fun j hj => ?_⟩
    cases j with
    | metricsAddr => exact absurd rfl hj
    | _ => rfl
  | _ => simp [Setting.place] at hplace

/-! ### Groups -/

section

variable {w : ∀ {κ}, Setting κ → Option κ.Value}

/-- Scalars that stand for some values: none for a value that is not there. -/
theorem value_of_rel {κ : SettingKind} {x : Scalar} {o : Option κ.Value}
    (hrel : Option.Rel κ.Reads (some x) o) : ∃ v, o = some v ∧ κ.Reads x v := by
  cases hrel with
  | some hreads => exact ⟨_, rfl, hreads⟩

theorem value_of_rel_none {κ : SettingKind} {o : Option κ.Value} (hrel : Option.Rel κ.Reads none o) : o = none := by
  cases hrel
  rfl

/-- What is read from a tidy group. -/
theorem readEntries_of_tidyGroup {γ : Type} {group : String} {members : List (Member γ)} {whole : γ → Settings}
    (hmembers : MembersOf (some group) members whole) (hrows : TidyGroup group rows)
    (hw : ∀ {κ} (k : Setting κ) {name}, k.place = (some group, name) →
      Option.Rel κ.Reads ((rows.lookup name).bind asScalar?) (w k)) (s : γ) :
    ∃ s', readEntries members s rows = .ok s' ∧
      ∀ {κ} (k : Setting κ) {name}, k.place = (some group, name) →
        k.value (whole s') = (w k).or (k.value (whole s)) := by
  have hrow : ∀ row ∈ rows, ∀ s, ∃ m s', members.find? (·.name = row.1) = some m ∧ m.read row.2 s = .ok s' ∧
      ∀ i : (κ : SettingKind) × Setting κ,
        (i.2.place = (some group, row.1) → i.2.value (whole s') = w i.2) ∧
          (i.2.place ≠ (some group, row.1) → i.2.value (whole s') = i.2.value (whole s)) := by
    rintro ⟨name, tree⟩ hmem s
    obtain ⟨⟨κ, k, hplace⟩, source, x, htree⟩ := hrows.leaf _ hmem
    dsimp only at htree hplace
    subst htree
    have hrel := hw k hplace
    rw [(lookup_eq_some_iff_mem hrows.nodup).mpr hmem] at hrel
    obtain ⟨v, hv, hreads⟩ := value_of_rel hrel
    obtain ⟨m, s', hfind, hread, hvalue, hothers⟩ := hmembers k hplace hreads source s
    refine ⟨m, s', hfind, hread, fun i => ⟨fun hi => ?_, fun hi => hothers i.2 (hplace ▸ hi)⟩⟩
    cases Setting.eq_of_place_eq (hplace.trans hi.symm)
    exact hvalue.trans hv.symm
  obtain ⟨s', hread, hvalue⟩ := readEntries_of_entry
    (fun (i : (κ : SettingKind) × Setting κ) name => i.2.place = (some group, name))
    (fun i s => i.2.value (whole s)) (fun i => w i.2) hrow s
  refine ⟨s', hread, fun {κ} k {name} hplace => ?_⟩
  have hrel := hw k hplace
  cases hlookup : rows.lookup name with
  | none =>
    rw [hlookup] at hrel
    rw [value_of_rel_none hrel, Option.none_or]
    refine (hvalue ⟨κ, k⟩).2 fun row hmem hrow => ?_
    obtain rfl : name = row.1 := congrArg Prod.snd (hplace.symm.trans hrow)
    exact absurd ((lookup_eq_some_iff_mem hrows.nodup).mpr hmem) (by simp [hlookup])
  | some tree =>
    have hmem := (lookup_eq_some_iff_mem hrows.nodup).mp hlookup
    obtain ⟨-, source, x, htree⟩ := hrows.leaf _ hmem
    dsimp only at htree
    subst htree
    rw [hlookup] at hrel
    obtain ⟨v, hv, -⟩ := value_of_rel hrel
    rw [hv, Option.some_or, ← hv]
    exact (hvalue ⟨κ, k⟩).1 ⟨_, hmem, hplace⟩

/-- A group replaces all its settings: those that it does not hold have the values used otherwise. -/
theorem read_group {group : String} (hgroup : group ∈ Setting.groups) (hrows : TidyGroup group rows)
    (hw : ∀ {κ} (k : Setting κ) {name}, k.place = (some group, name) →
      Option.Rel κ.Reads ((rows.lookup name).bind asScalar?) (w k)) (source : Option String) (s : Settings) :
    ∃ m s', Settings.members.find? (·.name = group) = some m ∧ m.read (.table source rows) s = .ok s' ∧
      ∀ {κ} (k : Setting κ), (k.place.1 = some group → k.value s' = (w k).or (k.value {})) ∧
        (k.place.1 ≠ some group → k.value s' = k.value s) := by
  simp only [Setting.groups, List.mem_cons, List.not_mem_nil, or_false] at hgroup
  rcases hgroup with rfl | rfl | rfl | rfl
  · obtain ⟨g, hread, hvalue⟩ := readEntries_of_tidyGroup membersOf_run hrows hw {}
    refine ⟨_, { s with run := g }, rfl, congrArg (Except.map _) hread, fun k => ?_⟩
    cases k with
    | run k => exact ⟨fun _ => hvalue (.run k) rfl, fun hother => absurd rfl hother⟩
    | _ => exact ⟨by simp [Setting.place], fun _ => rfl⟩
  · obtain ⟨g, hread, hvalue⟩ := readEntries_of_tidyGroup membersOf_accounts hrows hw {}
    refine ⟨_, { s with accounts := g }, rfl, congrArg (Except.map _) hread, fun k => ?_⟩
    cases k with
    | accounts k => exact ⟨fun _ => hvalue (.accounts k) rfl, fun hother => absurd rfl hother⟩
    | _ => exact ⟨by simp [Setting.place], fun _ => rfl⟩
  · obtain ⟨g, hread, hvalue⟩ := readEntries_of_tidyGroup membersOf_funding hrows hw {}
    refine ⟨_, { s with funding := g }, rfl, congrArg (Except.map _) hread, fun k => ?_⟩
    cases k with
    | funding k => exact ⟨fun _ => hvalue (.funding k) rfl, fun hother => absurd rfl hother⟩
    | _ => exact ⟨by simp [Setting.place], fun _ => rfl⟩
  · obtain ⟨g, hread, hvalue⟩ := readEntries_of_tidyGroup membersOf_log hrows hw {}
    refine ⟨_, { s with log := g }, rfl, congrArg (Except.map _) hread, fun k => ?_⟩
    cases k with
    | log k => exact ⟨fun _ => hvalue (.log k) rfl, fun hother => absurd rfl hother⟩
    | _ => exact ⟨by simp [Setting.place], fun _ => rfl⟩

/-! ### The whole tree -/

/-- A setting is found under a name at the top of a tree: it has the name, or its group has it. -/
def Under {κ : SettingKind} (k : Setting κ) (name : String) : Prop :=
  k.place = (none, name) ∨ k.place.1 = some name

theorem under_group {κ : SettingKind} {k : Setting κ} {group : String} (hgroup : group ∈ Setting.groups) :
    Under k group ↔ k.place.1 = some group :=
  ⟨fun hunder => hunder.resolve_left fun hplace => Setting.not_mem_groups hplace hgroup, Or.inr⟩

theorem under_name {κ : SettingKind} {k : Setting κ} {name : String} (hname : name ∉ Setting.groups) :
    Under k name ↔ k.place = (none, name) :=
  ⟨fun hunder => hunder.resolve_right fun hplace => hname (Setting.group_of_place (Prod.ext hplace rfl)), Or.inl⟩

/-- What is not under any name of a tree has no scalar in it. -/
theorem scalarAt?_of_not_under {κ : SettingKind} {k : Setting κ}
    (hunder : ∀ entry ∈ entries, ¬Under k entry.1) : scalarAt? entries k.place = none := by
  have hlookup : ∀ name, Under k name → entries.lookup name = none := by
    intro name hname
    refine lookup_eq_none_of_not_mem fun hmem => ?_
    obtain ⟨entry, hentry, rfl⟩ := List.mem_map.mp hmem
    exact hunder entry hentry hname
  rcases hplace : k.place with ⟨_ | group, name⟩
  · rw [scalarAt?, hlookup name (Or.inl hplace), Option.bind_none]
  · rw [scalarAt?, hlookup group (Or.inr (congrArg Prod.fst hplace)), Option.bind_none, Option.bind_none]

/-- What is read from a tidy tree. -/
theorem ofTree_of_tidy (hentries : Tidy entries)
    (hw : ∀ {κ} (k : Setting κ), Option.Rel κ.Reads (scalarAt? entries k.place) (w k)) (source : Option String) :
    ∃ s, Settings.ofTree (.table source entries) = .ok s ∧
      ∀ {κ} (k : Setting κ), k.value s = (w k).or (k.value {}) := by
  have hentry : ∀ entry ∈ entries, ∀ s, ∃ m s', Settings.members.find? (·.name = entry.1) = some m ∧
      m.read entry.2 s = .ok s' ∧
        ∀ i : (κ : SettingKind) × Setting κ,
          (Under i.2 entry.1 → i.2.value s' = (w i.2).or (i.2.value {})) ∧
            (¬Under i.2 entry.1 → i.2.value s' = i.2.value s) := by
    rintro ⟨name, tree⟩ hmem s
    have hlookup := (lookup_eq_some_iff_mem hentries.nodup).mpr hmem
    rcases hentries.entry _ hmem with ⟨⟨κ, k, hplace⟩, source, x, htree⟩ | ⟨hgroup, source, rows, htree, hrows⟩
    · dsimp only at htree hplace
      subst htree
      have hrel := hw k
      rw [hplace, scalarAt?, hlookup] at hrel
      obtain ⟨v, hv, hreads⟩ := value_of_rel hrel
      obtain ⟨m, s', hfind, hread, hvalue, hothers⟩ := membersOf_top k hplace hreads source s
      refine ⟨m, s', hfind, hread, ?_⟩
      rintro ⟨κ', j⟩
      rw [under_name (Setting.not_mem_groups hplace)]
      refine ⟨fun hj => ?_, fun hj => hothers j (hplace ▸ hj)⟩
      cases Setting.eq_of_place_eq (hplace.trans hj.symm)
      rw [hv, Option.some_or]
      exact hvalue
    · dsimp only at htree hgroup hrows
      subst htree
      have hgroup_rel : ∀ {κ} (k : Setting κ) {below}, k.place = (some name, below) →
          Option.Rel κ.Reads ((rows.lookup below).bind asScalar?) (w k) := by
        intro κ k below hplace
        have hrel := hw k
        rwa [hplace, scalarAt?, hlookup] at hrel
      obtain ⟨m, s', hfind, hread, hvalue⟩ := read_group hgroup hrows hgroup_rel source s
      refine ⟨m, s', hfind, hread, ?_⟩
      rintro ⟨κ', j⟩
      rw [under_group hgroup]
      exact hvalue j
  obtain ⟨s, hread, hvalue⟩ := readEntries_of_entry
    (fun (i : (κ : SettingKind) × Setting κ) name => Under i.2 name)
    (fun i s => i.2.value s) (fun i => (w i.2).or (i.2.value {})) hentry {}
  refine ⟨s, hread, fun {κ} k => ?_⟩
  by_cases hset : ∃ entry ∈ entries, Under k entry.1
  · exact (hvalue ⟨κ, k⟩).1 hset
  · have hunset : ∀ entry ∈ entries, ¬Under k entry.1 := fun entry hmem hunder => hset ⟨entry, hmem, hunder⟩
    have hrel := hw k
    rw [scalarAt?_of_not_under hunset] at hrel
    rw [value_of_rel_none hrel, Option.none_or]
    exact (hvalue ⟨κ, k⟩).2 hunset

end

end SettingTree

end TransferLoad
