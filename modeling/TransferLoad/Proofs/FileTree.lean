import Mathlib
import TransferLoad.FileTree

/-!
# A file that was created is read at its path

Putting something at a place changes that place alone. A path leads over directories only, and a file is
never put over a directory, so a path leads to the same place before and after its file is stored, and what
is read there is what was stored.
-/

namespace TransferLoad.FileTree

variable {t t' : FileTree} {place other : Place} {found : Entry}

/-! ### Putting -/

theorem find?_replaced_of_ne (hne : other ≠ place) (entries : List (Place × Entry)) :
    (entries.map fun old => if old.1 = place then (place, found) else old).find? (fun old => old.1 = other) =
      entries.find? fun old => old.1 = other := by
  induction entries with
  | nil => rfl
  | cons first rest ih =>
    rw [List.map_cons, List.find?_cons, List.find?_cons, ih]
    by_cases hfirst : first.1 = place
    · simp [hfirst, hne.symm]
    · simp [hfirst]

theorem find?_replaced_self {entries : List (Place × Entry)}
    (hfound : (entries.find? fun old => old.1 = place).isSome) :
    (entries.map fun old => if old.1 = place then (place, found) else old).find? (fun old => old.1 = place) =
      some (place, found) := by
  induction entries with
  | nil => cases hfound
  | cons first rest ih =>
    rw [List.map_cons, List.find?_cons]
    by_cases hfirst : first.1 = place
    · simp [hfirst]
    · rw [List.find?_cons_of_neg (by simpa using hfirst)] at hfound
      simpa [hfirst] using ih hfound

theorem at?_put_self (hplace : place ≠ []) : (t.put place found).at? place = some found := by
  rw [at?, if_neg hplace, put]
  split
  · rename_i hfound
    rw [find?_replaced_self hfound]
    rfl
  · rename_i hfresh
    rw [Bool.not_eq_true, Option.isSome_eq_false_iff, Option.isNone_iff_eq_none] at hfresh
    simp [List.find?_append, hfresh]

theorem at?_put_of_ne (hne : other ≠ place) : (t.put place found).at? other = t.at? other := by
  by_cases hroot : other = []
  · rw [at?, at?, if_pos hroot, if_pos hroot]
  · rw [at?, at?, if_neg hroot, if_neg hroot, put]
    split
    · rw [find?_replaced_of_ne hne]
    · have hlast : [(place, found)].find? (fun old => old.1 = other) = none := by simp [hne.symm]
      rw [List.find?_append, hlast, Option.or_none]

theorem workingDirectory_put : (t.put place found).workingDirectory = t.workingDirectory := by
  unfold put
  split <;> rfl

/-! ### Where paths lead -/

/-- A tree in which the directories of another one are still directories. -/
structure KeepsDirectories (t t' : FileTree) : Prop where
  workingDirectory : t'.workingDirectory = t.workingDirectory
  directories : ∀ {place : Place}, t.at? place = some .directory → t'.at? place = some .directory

theorem keepsDirectories_put (hplace : t.at? place ≠ some .directory) (found : Entry) :
    t.KeepsDirectories (t.put place found) where
  workingDirectory := workingDirectory_put
  directories := by
    intro other hdirectory
    have hne : other ≠ place := fun heq => hplace (heq ▸ hdirectory)
    rwa [at?_put_of_ne hne]

theorem KeepsDirectories.walk_ok (h : t.KeepsDirectories t') {start : Place} {parts : List String}
    (hwalk : t.walk start parts = .ok place) : t'.walk start parts = .ok place := by
  induction parts generalizing start with
  | nil => exact hwalk
  | cons part rest ih =>
    rw [walk] at hwalk ⊢
    by_cases hstay : part = "."
    · rw [if_pos hstay] at hwalk ⊢
      exact ih hwalk
    · rw [if_neg hstay] at hwalk ⊢
      by_cases hup : part = ".."
      · rw [if_pos hup] at hwalk ⊢
        exact ih hwalk
      · rw [if_neg hup] at hwalk ⊢
        by_cases hlong : longestName < part.utf8ByteSize
        · rw [if_pos hlong] at hwalk
          cases hwalk
        · rw [if_neg hlong] at hwalk ⊢
          split at hwalk
          · cases hwalk
          · rename_i hdirectory
            rw [h.directories hdirectory]
            exact ih hwalk
          · cases hwalk

theorem KeepsDirectories.locate_ok (h : t.KeepsDirectories t') {path : Path} {target : Target}
    (hlocate : t.locate path = .ok target) : t'.locate path = .ok target := by
  unfold locate at hlocate ⊢
  rw [h.workingDirectory]
  dsimp only at hlocate ⊢
  split at hlocate
  · cases hlocate
  · rename_i hzero
    rw [if_neg hzero]
    split at hlocate
    · cases hlocate
    · rename_i hempty
      rw [if_neg hempty]
      split at hlocate
      · cases hlocate
      · rename_i hlong
        rw [if_neg hlong]
        split at hlocate
        · exact hlocate
        · rename_i last hlast
          rcases hwalk : t.walk (if path.absolute = true then [] else t.workingDirectory) path.parts.dropLast
            with cause | directory
          · rw [hwalk] at hlocate
            cases hlocate
          · rw [hwalk] at hlocate
            rw [h.walk_ok hwalk]
            exact hlocate

/-! ### Files that were created -/

/-- What a path leads to when a file was created there. -/
structure Created (t : FileTree) (path : Path) (place : Place) : Prop where
  located : ∃ directory name, t.locate path = .ok (.name directory name) ∧ place = directory ++ [name]
  no_slash : path.slashAtEnd = false
  no_directory : t.at? place = some .full ∨ ∃ content, t.at? place = some (.file content)

theorem Created.ne_nil {path : Path} (h : Created t path place) : place ≠ [] := by
  obtain ⟨directory, name, -, rfl⟩ := h.located
  exact List.append_ne_nil_of_right_ne_nil _ (List.cons_ne_nil _ _)

theorem created_of_createFile {path : Path} (hcreate : t.createFile path = (.ok place, t')) :
    Created t' path place := by
  unfold createFile at hcreate
  split at hcreate
  · cases hcreate
  · cases hcreate
  · rename_i directory name hlocate
    split at hcreate
    · cases hcreate
    · rename_i hslash
      rw [Bool.not_eq_true] at hslash
      dsimp only at hcreate
      split at hcreate
      · cases hcreate
      · rename_i hfull
        cases hcreate
        exact ⟨⟨directory, name, hlocate, rfl⟩, hslash, Or.inl hfull⟩
      · rename_i hfile _
        cases hcreate
        have hplace : directory ++ [name] ≠ [] :=
          List.append_ne_nil_of_right_ne_nil _ (List.cons_ne_nil _ _)
        have hkeeps : t.KeepsDirectories (t.put (directory ++ [name]) (.file [])) :=
          keepsDirectories_put hfile _
        exact ⟨⟨directory, name, hkeeps.locate_ok hlocate, rfl⟩, hslash, Or.inr ⟨[], at?_put_self hplace⟩⟩

theorem created_of_createWithParents {path : String} (hcreate : t.createWithParents path = (.ok place, t')) :
    Created t' (.ofText path) place := by
  unfold createWithParents at hcreate
  dsimp only at hcreate
  split at hcreate
  · exact created_of_createFile hcreate
  · split at hcreate
    · cases hcreate
    · exact created_of_createFile hcreate

theorem Created.entry_eq {path : Path} (h : Created t path place) (hfound : t.at? place = some found)
    (hplain : found ≠ .directory) : t.entry path = .ok found := by
  obtain ⟨⟨directory, name, hlocate, rfl⟩, hslash, -⟩ := h
  unfold entry
  rw [hlocate]
  simp only [bind, Except.bind, hfound, hslash]
  cases found with
  | directory => exact absurd rfl hplain
  | file content => rfl
  | full => rfl

theorem Created.read_file {path : Path} {content : Bytes} (h : Created t path place)
    (hfile : t.at? place = some (.file content)) : t.read path = .ok content := by
  rw [read, h.entry_eq hfile nofun]
  rfl

theorem Created.read_full {path : Path} (h : Created t path place) (hfull : t.at? place = some .full) :
    t.read path = .ok [] := by
  rw [read, h.entry_eq hfull nofun]
  rfl

/-- What is stored where a file was created is read there. -/
theorem Created.read_store {path : Path} {device : Device} (h : Created t path place)
    (hfull : t.at? place = some .full → device.content = []) :
    (t.store place device).read path = .ok device.content := by
  rw [store]
  by_cases hplace : t.at? place = some .full
  · rw [if_pos hplace, h.read_full hplace, hfull hplace]
  · rw [if_neg hplace]
    have hfile : ∃ content, t.at? place = some (.file content) := h.no_directory.resolve_left hplace
    have hkeeps : t.KeepsDirectories (t.put place (.file device.content)) := by
      apply keepsDirectories_put
      obtain ⟨content, hcontent⟩ := hfile
      rw [hcontent]
      nofun
    obtain ⟨directory, name, hlocate, hsplit⟩ := h.located
    have hstored : (t.put place (.file device.content)).at? place = some (.file device.content) :=
      at?_put_self h.ne_nil
    have hcreated : Created (t.put place (.file device.content)) path place :=
      ⟨⟨directory, name, hkeeps.locate_ok hlocate, hsplit⟩, h.no_slash, Or.inr ⟨_, hstored⟩⟩
    exact hcreated.read_file hstored

/-! ### Trees with room -/

/-- A tree in which any amount of bytes can be written at every place. -/
structure Roomy (t : FileTree) : Prop where
  room : t.room = none
  no_full : ∀ place, t.at? place ≠ some .full

theorem roomy_empty : Roomy {} where
  room := rfl
  no_full := by
    intro place
    unfold at?
    split <;> nofun

theorem Roomy.room_deviceAt (h : t.Roomy) (place : Place) : (t.deviceAt place).room = none := by
  rw [deviceAt, if_neg (h.no_full place)]
  exact h.room

theorem Roomy.put (h : t.Roomy) (place : Place) (hfound : found ≠ .full) : (t.put place found).Roomy where
  room := by
    unfold FileTree.put
    split <;> exact h.room
  no_full := by
    intro other
    by_cases hother : other = place
    · subst hother
      by_cases hroot : other = []
      · rw [at?, if_pos hroot]
        nofun
      · rw [at?_put_self hroot]
        exact fun heq => hfound (Option.some.inj heq)
    · rw [at?_put_of_ne hother]
      exact h.no_full other

theorem Roomy.makeDirectory (h : t.Roomy) {path : Path} (hmake : t.makeDirectory path = .ok t') : t'.Roomy := by
  unfold FileTree.makeDirectory at hmake
  rcases hlocate : t.locate path with cause | ⟨place⟩ | ⟨directory, name⟩
  · rw [hlocate] at hmake
    cases hmake
  · rw [hlocate] at hmake
    cases hmake
  · simp only [hlocate, bind, Except.bind] at hmake
    split at hmake
    · cases hmake
    · cases hmake
      exact h.put _ nofun

theorem Roomy.ensureDirectory (h : t.Roomy) (path : Path) : (t.ensureDirectory path).2.Roomy := by
  unfold FileTree.ensureDirectory
  split
  · rename_i hmake
    exact h.makeDirectory hmake
  · exact h

theorem Roomy.makeDirectories (h : t.Roomy) (path : Path) (above : Nat) :
    (t.makeDirectories path above).2.Roomy := by
  induction above generalizing t path with
  | zero => exact h
  | succ above ih =>
    rw [FileTree.makeDirectories]
    split
    · have habove := ih h { path with parts := path.parts.dropLast }
      split
      · rename_i hmake
        rwa [hmake] at habove
      · rename_i hmake
        rw [hmake] at habove
        exact habove.ensureDirectory path
    · exact h.ensureDirectory path

theorem Roomy.createFile (h : t.Roomy) (path : Path) : (t.createFile path).2.Roomy := by
  unfold FileTree.createFile
  split
  · exact h
  · exact h
  · split
    · exact h
    · dsimp only
      split
      · exact h
      · exact h
      · exact h.put _ nofun

theorem Roomy.createWithParents (h : t.Roomy) (path : String) : (t.createWithParents path).2.Roomy := by
  unfold FileTree.createWithParents
  dsimp only
  split
  · exact h.createFile _
  · rename_i parent _
    have hparents := h.makeDirectories parent parent.parts.length
    split
    · rename_i hmake
      rwa [hmake] at hparents
    · rename_i hmake
      rw [hmake] at hparents
      exact hparents.createFile _

end TransferLoad.FileTree
