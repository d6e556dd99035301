import TransferLoad.Proofs.Settings.Catalog

/-!
# One source over another

Sources are merged leaf by leaf. A tree is tidy when it holds nothing but scalars at the places of settings,
each place at most once. Of a tidy tree only the scalar at each place matters: a scalar that goes over it at
one place leaves those at all other places as they are, in the same group too.
-/

namespace TransferLoad

/-! ### Names that stand once -/

theorem lookup_eq_some_iff_mem {β : Type} {entries : List (String × β)}
    (hnodup : (entries.map Prod.fst).Nodup) {name : String} {value : β} :
    entries.lookup name = some value ↔ (name, value) ∈ entries := by
  induction entries with
  | nil => simp
  | cons entry rest ih =>
    obtain ⟨first, old⟩ := entry
    rw [List.map_cons, List.nodup_cons] at hnodup
    by_cases hname : name = first
    · subst hname
      have hrest : (name, value) ∉ rest := fun hmem => hnodup.1 (List.mem_map.mpr ⟨_, hmem, rfl⟩)
      simp [hrest, eq_comm]
    · simp [List.lookup_cons, beq_false_of_ne hname, hname, ih hnodup.2]

theorem lookup_eq_none_of_not_mem {β : Type} {entries : List (String × β)} {name : String}
    (hname : name ∉ entries.map Prod.fst) : entries.lookup name = none := by
  rw [List.lookup_eq_none_iff]
  intro entry hmem
  exact bne_iff_ne.mpr fun heq => hname (heq ▸ List.mem_map_of_mem hmem)

namespace SettingTree

variable {name other group : String} {value tree : SettingTree} {entries rows : List (String × SettingTree)}

/-! ### Putting a value under a name -/

@[simp] theorem lookup_put :
    (put name value entries).lookup other = if other = name then some value else entries.lookup other := by
  induction entries with
  | nil =>
    by_cases hother : other = name
    · simp [put, hother]
    · simp [put, List.lookup_cons, beq_false_of_ne hother, hother]
  | cons entry rest ih =>
    obtain ⟨first, old⟩ := entry
    by_cases hfirst : first = name
    · subst hfirst
      by_cases hother : other = first
      · simp [put, hother]
      · simp [put, List.lookup_cons, beq_false_of_ne hother, hother]
    · by_cases hother : other = first
      · simp [put, hfirst, hother]
      · simp [put, List.lookup_cons, hfirst, beq_false_of_ne hother, ih]

theorem put_eq_append (hname : name ∉ entries.map Prod.fst) :
    put name value entries = entries ++ [(name, value)] := by
  induction entries with
  | nil => rfl
  | cons entry rest ih =>
    obtain ⟨first, old⟩ := entry
    rw [List.map_cons, List.mem_cons, not_or] at hname
    rw [put, if_neg (Ne.symm hname.1), ih hname.2, List.cons_append]

theorem mem_map_fst_put :
    other ∈ (put name value entries).map Prod.fst ↔ other = name ∨ other ∈ entries.map Prod.fst := by
  induction entries with
  | nil => simp [put]
  | cons entry rest ih =>
    obtain ⟨first, old⟩ := entry
    by_cases hfirst : first = name
    · subst hfirst
      simp [put]
    · rw [put, if_neg hfirst, List.map_cons, List.mem_cons, ih, List.map_cons, List.mem_cons]
      exact or_left_comm

theorem nodup_put (hnodup : (entries.map Prod.fst).Nodup) : ((put name value entries).map Prod.fst).Nodup := by
  induction entries with
  | nil => simp [put]
  | cons entry rest ih =>
    obtain ⟨first, old⟩ := entry
    rw [List.map_cons, List.nodup_cons] at hnodup
    by_cases hfirst : first = name
    · subst hfirst
      simpa [put] using hnodup
    · rw [put, if_neg hfirst, List.map_cons, List.nodup_cons, mem_map_fst_put, not_or]
      exact ⟨⟨hfirst, hnodup.1⟩, ih hnodup.2⟩

theorem mem_put {entry : String × SettingTree} (hmem : entry ∈ put name value entries) :
    entry = (name, value) ∨ entry ∈ entries := by
  induction entries with
  | nil => exact Or.inl (List.mem_singleton.mp hmem)
  | cons first rest ih =>
    obtain ⟨first, old⟩ := first
    by_cases hfirst : first = name
    · rw [put, if_pos hfirst] at hmem
      exact (List.mem_cons.mp hmem).imp_right (List.mem_cons_of_mem _)
    · rw [put, if_neg hfirst] at hmem
      rcases List.mem_cons.mp hmem with rfl | hmem
      · exact Or.inr List.mem_cons_self
      · exact (ih hmem).imp_right (List.mem_cons_of_mem _)

/-! ### The scalar at a place -/

def asScalar? : SettingTree → Option Scalar
  | .scalar _ x => some x
  | _ => none

def rows? : SettingTree → Option (List (String × SettingTree))
  | .table _ rows => some rows
  | _ => none

/-- The scalar under a name, either at the top or in a group. -/
def scalarAt? (entries : List (String × SettingTree)) : (place : Option String × String) → Option Scalar
  | (none, name) => (entries.lookup name).bind asScalar?
  | (some group, name) =>
    ((entries.lookup group).bind rows?).bind fun rows => (rows.lookup name).bind asScalar?

/-- A place that belongs to a setting. -/
def IsPlace (place : Option String × String) : Prop := ∃ (κ : SettingKind) (k : Setting κ), k.place = place

/-- Scalars under distinct names of a group. -/
structure TidyGroup (group : String) (rows : List (String × SettingTree)) : Prop where
  nodup : (rows.map Prod.fst).Nodup
  leaf : ∀ row ∈ rows, IsPlace (some group, row.1) ∧ ∃ source x, row.2 = .scalar source x

/-- Scalars and groups under distinct names. -/
structure Tidy (entries : List (String × SettingTree)) : Prop where
  nodup : (entries.map Prod.fst).Nodup
  entry : ∀ entry ∈ entries,
    (IsPlace (none, entry.1) ∧ ∃ source x, entry.2 = .scalar source x) ∨
      (entry.1 ∈ Setting.groups ∧ ∃ source rows, entry.2 = .table source rows ∧ TidyGroup entry.1 rows)

theorem tidy_nil : Tidy [] := ⟨List.nodup_nil, nofun⟩

theorem tidyGroup_nil : TidyGroup group [] := ⟨List.nodup_nil, nofun⟩

theorem TidyGroup.put {source : Option String} {x : Scalar} (hrows : TidyGroup group rows)
    (hplace : IsPlace (some group, name)) : TidyGroup group (put name (.scalar source x) rows) where
  nodup := nodup_put hrows.nodup
  leaf row hrow := by
    rcases mem_put hrow with rfl | hrow
    · exact ⟨hplace, source, x, rfl⟩
    · exact hrows.leaf row hrow

/-- Under the name of a group there is nothing else than a group. -/
theorem Tidy.asTable_lookup (hentries : Tidy entries) (hgroup : group ∈ Setting.groups) :
    TidyGroup group ((entries.lookup group).getD nothing).asTable.2 ∧
      (entries.lookup group).bind asScalar? = none ∧
      ∀ name, scalarAt? entries (some group, name) =
        ((((entries.lookup group).getD nothing).asTable.2).lookup name).bind asScalar? := by
  cases hlookup : entries.lookup group with
  | none => exact ⟨tidyGroup_nil, rfl, fun name => by simp [scalarAt?, hlookup, nothing, asTable]⟩
  | some tree =>
    have hmem := (lookup_eq_some_iff_mem hentries.nodup).mp hlookup
    rcases hentries.entry _ hmem with ⟨⟨κ, k, hk⟩, -⟩ | ⟨-, source, rows, htree, hrows⟩
    · exact absurd (show group ∈ Setting.groups from hgroup) (Setting.not_mem_groups hk)
    · dsimp only at htree
      subst htree
      exact ⟨hrows, rfl, fun name => by simp [scalarAt?, hlookup, rows?, asTable]⟩

/-- Under the name of a setting without a group there is nothing else than a scalar. -/
theorem Tidy.rows?_lookup (hentries : Tidy entries) (hplace : IsPlace (none, name)) :
    (entries.lookup name).bind rows? = none := by
  cases hlookup : entries.lookup name with
  | none => rfl
  | some tree =>
    have hmem := (lookup_eq_some_iff_mem hentries.nodup).mp hlookup
    rcases hentries.entry _ hmem with ⟨-, source, x, htree⟩ | ⟨hgroup, -⟩
    · dsimp only at htree
      subst htree
      rfl
    · obtain ⟨κ, k, hk⟩ := hplace
      exact absurd hgroup (Setting.not_mem_groups hk)

/-- What a scalar under the path of a setting does to a tree, by the setting's place. -/
theorem putPath_path {κ : SettingKind} (entries : List (String × SettingTree)) (k : Setting κ)
    (source : Option String) (x : Scalar) :
    putPath (readPath k.path).1 (readPath k.path).2 (.scalar source x) entries =
      match k.place with
      | (none, name) => put name (.scalar source x) entries
      | (some group, name) =>
        let found := ((entries.lookup group).getD nothing).asTable
        put group (.table found.1 (put name (.scalar source x) found.2)) entries := by
  have hname := Setting.lowercase_name k
  rw [Setting.readPath_path]
  rcases hplace : k.place with ⟨_ | group, name⟩ <;> rw [hplace] at hname <;>
    simp only [putPath, putAlong, merge, hname]

/-- A scalar under the path of a setting goes to the setting's place and changes nothing else. -/
theorem Tidy.putPath {κ : SettingKind} (hentries : Tidy entries) (k : Setting κ) (source : Option String)
    (x : Scalar) :
    Tidy (putPath (readPath k.path).1 (readPath k.path).2 (.scalar source x) entries) ∧
      ∀ {κ'} (j : Setting κ'),
        scalarAt? (SettingTree.putPath (readPath k.path).1 (readPath k.path).2 (.scalar source x) entries) j.place =
          if j.place = k.place then some x else scalarAt? entries j.place := by
  rw [putPath_path entries]
  rcases hplace : k.place with ⟨_ | group, name⟩
  · dsimp only
    refine ⟨⟨nodup_put hentries.nodup, ?_⟩, fun j => ?_⟩
    · intro entry hmem
      rcases mem_put hmem with rfl | hmem
      · exact Or.inl ⟨⟨κ, k, hplace⟩, source, x, rfl⟩
      · exact hentries.entry entry hmem
    · rcases j.place with ⟨_ | group, other⟩
      · by_cases hother : other = name
        · simp [scalarAt?, hother, asScalar?]
        · simp [scalarAt?, hother]
      · by_cases hgroup : group = name
        · simp [scalarAt?, hgroup, rows?, hentries.rows?_lookup ⟨κ, k, hplace⟩]
        · simp [scalarAt?, hgroup]
  · have hgroup := Setting.group_of_place hplace
    obtain ⟨hrows, hscalar, hfound⟩ := hentries.asTable_lookup hgroup
    dsimp only
    generalize ((entries.lookup group).getD nothing).asTable = found at hrows hfound ⊢
    refine ⟨⟨nodup_put hentries.nodup, ?_⟩, fun j => ?_⟩
    · intro entry hmem
      rcases mem_put hmem with rfl | hmem
      · exact Or.inr ⟨hgroup, found.1, _, rfl, hrows.put ⟨κ, k, hplace⟩⟩
      · exact hentries.entry entry hmem
    · rcases j.place with ⟨_ | other, below⟩
      · by_cases hbelow : below = group
        · simp [scalarAt?, hbelow, asScalar?, hscalar]
        · simp [scalarAt?, hbelow]
      · by_cases hother : other = group
        · subst hother
          by_cases hbelow : below = name
          · simp [scalarAt?, rows?, hbelow, asScalar?]
          · rw [hfound]
            simp [scalarAt?, rows?, hbelow]
        · simp [scalarAt?, hother]

/-! ### A source over a tidy tree -/

/-- Scalars under the paths of settings, over a tidy tree: the tree has the scalars of the source where it
has some, and its own scalars elsewhere. -/
theorem Tidy.layer {f : ∀ {κ}, Setting κ → Option Scalar} {incoming : List (String × SettingTree)}
    (hincoming : ∀ entry ∈ incoming, ∃ (κ : SettingKind) (k : Setting κ) (source : Option String) (x : Scalar),
      entry = (k.path, .scalar source x) ∧ f k = some x)
    (hentries : Tidy entries) :
    Tidy (layer entries incoming) ∧
      ∀ {κ} (j : Setting κ),
        scalarAt? (SettingTree.layer entries incoming) j.place =
          if j.path ∈ incoming.map Prod.fst then f j else scalarAt? entries j.place := by
  induction incoming generalizing entries with
  | nil => exact ⟨hentries, fun j => rfl⟩
  | cons entry rest ih =>
    obtain ⟨κ, k, source, x, rfl, hk⟩ := hincoming entry List.mem_cons_self
    obtain ⟨htidy, hscalar⟩ := hentries.putPath k source x
    obtain ⟨htidy', hscalar'⟩ := ih (fun entry hmem => hincoming entry (List.mem_cons_of_mem _ hmem)) htidy
    refine ⟨htidy', fun j => (hscalar' j).trans ?_⟩
    rw [hscalar, List.map_cons]
    by_cases hrest : j.path ∈ rest.map Prod.fst
    · simp [hrest]
    · by_cases hpath : j.path = k.path
      · cases Setting.eq_of_path_eq hpath
        simp [hk]
      · have hplace : j.place ≠ k.place := fun heq => hpath (by rw [Setting.path, Setting.path, heq])
        simp [hrest, hpath, hplace]

/-! ### The first source -/

/-- A tree as it is once it has been merged: a table that was not there before comes from no source. -/
def unsourced : SettingTree → SettingTree
  | .table _ rows => .table none rows
  | tree => tree

/-- Scalars under names of a group are added to a table one by one. -/
theorem mergeEntries_of_tidyGroup {source : Option String} (done : List (String × SettingTree))
    (hrows : TidyGroup group (done ++ rows)) :
    mergeEntries rows (.table source done) = .table source (done ++ rows) := by
  induction rows generalizing done with
  | nil => rw [mergeEntries, List.append_nil]
  | cons row rest ih =>
    obtain ⟨name, tree⟩ := row
    have hdone : name ∉ done.map Prod.fst := by
      have hnodup := hrows.nodup
      rw [List.map_append, List.nodup_append] at hnodup
      exact fun hmem => hnodup.2.2 name hmem name List.mem_cons_self rfl
    obtain ⟨⟨κ, k, hplace⟩, origin, x, htree⟩ := hrows.leaf (name, tree) (by simp)
    have hlower : Text.lowercase name = name := by
      have := Setting.lowercase_name k
      rwa [hplace] at this
    dsimp only at htree
    subst htree
    rw [List.append_cons] at hrows ⊢
    simp only [mergeEntries, asTable, merge, hlower, put_eq_append hdone, ih _ hrows]

theorem map_fst_unsourced : (entries.map (Prod.map id unsourced)).map Prod.fst = entries.map Prod.fst := by
  rw [List.map_map]
  rfl

theorem lookup_unsourced :
    (entries.map (Prod.map id unsourced)).lookup name = (entries.lookup name).map unsourced := by
  induction entries with
  | nil => rfl
  | cons entry rest ih =>
    obtain ⟨first, tree⟩ := entry
    by_cases hname : name = first
    · simp [hname]
    · simp [List.lookup_cons, beq_false_of_ne hname, ih]

theorem scalarAt?_unsourced (place : Option String × String) :
    scalarAt? (entries.map (Prod.map id unsourced)) place = scalarAt? entries place := by
  have hscalar : ∀ tree : Option SettingTree, (tree.map unsourced).bind asScalar? = tree.bind asScalar? := by
    rintro (_ | _ | _ | _) <;> rfl
  have hrows : ∀ tree : Option SettingTree, (tree.map unsourced).bind rows? = tree.bind rows? := by
    rintro (_ | _ | _ | _) <;> rfl
  rcases place with ⟨_ | group, name⟩
  · rw [scalarAt?, scalarAt?, lookup_unsourced, hscalar]
  · rw [scalarAt?, scalarAt?, lookup_unsourced, hrows]

theorem Tidy.unsourced (hentries : Tidy entries) : Tidy (entries.map (Prod.map id unsourced)) where
  nodup := by
    rw [map_fst_unsourced]
    exact hentries.nodup
  entry _ hentry := by
    obtain ⟨⟨name, tree⟩, hmem, rfl⟩ := List.mem_map.mp hentry
    rcases hentries.entry _ hmem with ⟨hplace, source, x, htree⟩ | ⟨hgroup, source, rows, htree, hrows⟩
    · exact Or.inl ⟨hplace, source, x, congrArg SettingTree.unsourced htree⟩
    · exact Or.inr ⟨hgroup, none, rows, congrArg SettingTree.unsourced htree, hrows⟩

/-- The first source is taken over entry by entry. -/
theorem layer_of_tidy (done : List (String × SettingTree)) {found : List (String × SettingTree)}
    (htidy : Tidy (done ++ found)) :
    layer (done.map (Prod.map id unsourced)) found =
      (done ++ found).map (Prod.map id unsourced) := by
  induction found generalizing done with
  | nil => rw [List.append_nil, layer, List.foldl_nil]
  | cons entry rest ih =>
    obtain ⟨name, tree⟩ := entry
    have hdone : name ∉ (done.map (Prod.map id unsourced)).map Prod.fst := by
      have hnodup := htidy.nodup
      rw [List.map_append, List.nodup_append] at hnodup
      rw [map_fst_unsourced]
      exact fun hmem => hnodup.2.2 name hmem name List.mem_cons_self rfl
    have hstep : putPath (readPath name).1 (readPath name).2 tree
        (done.map (Prod.map id unsourced)) =
          (done ++ [(name, tree)]).map (Prod.map id unsourced) := by
      rw [List.map_append]
      rcases htidy.entry (name, tree) (by simp) with
        ⟨⟨κ, k, hplace⟩, source, x, htree⟩ | ⟨hgroup, source, rows, htree, hrows⟩
      · dsimp only at htree hplace
        subst htree
        have hput := putPath_path (done.map (Prod.map id unsourced)) k source x
        rw [Setting.path, hplace] at hput
        exact hput.trans (put_eq_append hdone)
      · dsimp only at htree hgroup hrows
        subst htree
        have hmerge : mergeEntries rows emptyTable = .table none rows :=
          mergeEntries_of_tidyGroup [] hrows
        simp only [Setting.readPath_group hgroup, putPath, merge, Setting.lowercase_group hgroup,
          lookup_eq_none_of_not_mem hdone, Option.getD_none, hmerge, put_eq_append hdone]
        rfl
    have hrest := ih (done ++ [(name, tree)]) (by rwa [← List.append_cons])
    rw [← List.append_cons] at hrest
    rw [layer, List.foldl_cons]
    exact (congrArg (layer · rest) hstep).trans hrest

/-- The first source is kept as it is, leaf by leaf. -/
theorem Tidy.layer_nil (hentries : Tidy entries) :
    Tidy (SettingTree.layer [] entries) ∧
      ∀ place, scalarAt? (SettingTree.layer [] entries) place = scalarAt? entries place := by
  have hlayer : SettingTree.layer [] entries = entries.map (Prod.map id SettingTree.unsourced) :=
    layer_of_tidy [] hentries
  rw [hlayer]
  exact ⟨hentries.unsourced, scalarAt?_unsourced⟩

end SettingTree

end TransferLoad
