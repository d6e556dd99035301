import Mathlib.Data.List.Basic
import Mathlib.Data.List.TakeWhile
import TransferLoad.Command.Options
import TransferLoad.Proofs.Settings.Merging

/-!
# Arguments are read as they are written

An option is written with its value behind it, attached or as an argument of its own. Options that a command
has, each at most once and with values that it accepts, are read in any order as what they say.
-/

namespace TransferLoad.Command

/-- An option as it is used; a switch has no value. -/
structure Use where
  name : String
  value : Option String := none
  attached : Bool := false
  deriving Repr, DecidableEq

namespace Use

def arguments (u : Use) : List String :=
  match u.value with
  | none => ["--" ++ u.name]
  | some value => if u.attached then ["--" ++ u.name ++ "=" ++ value] else ["--" ++ u.name, value]

/-- What is read from an option. -/
def entry (u : Use) : String × String := (u.name, u.value.getD "")

/-- The command has the option and accepts its value, and a value on its own does not look like an option. -/
structure Fits (u : Use) (command : Subcommand) : Prop where
  spec : ∃ spec, command.option? u.name = some spec ∧
    match u.value with
    | none => spec.kind = none
    | some value => ∃ kind, spec.kind = some kind ∧ kind.accepts value = true
  apart : ∀ value ∈ u.value, u.attached = false → isValue value = true

end Use

/-! ### One option -/

variable {command : Subcommand} {given : Given} {name value : String} {rest : List String}

theorem splitAtEquals_name {chars : List Char} (hname : '=' ∉ chars) :
    splitAtEquals chars = (String.ofList chars, none) := by
  have htake : chars.takeWhile (· ≠ '=') = chars :=
    List.takeWhile_eq_self_iff.mpr fun c hc => by simpa using fun heq : c = '=' => hname (heq ▸ hc)
  have hdrop : chars.dropWhile (· ≠ '=') = [] :=
    List.dropWhile_eq_nil_iff.mpr fun c hc => by simpa using fun heq : c = '=' => hname (heq ▸ hc)
  rw [splitAtEquals, htake, hdrop]

theorem splitAtEquals_append {chars : List Char} (value : List Char) (hname : '=' ∉ chars) :
    splitAtEquals (chars ++ '=' :: value) = (String.ofList chars, some (String.ofList value)) := by
  have hchars : ∀ c ∈ chars, decide (c ≠ '=') = true := fun c hc => by
    simpa using fun heq : c = '=' => hname (heq ▸ hc)
  have htake : (chars ++ '=' :: value).takeWhile (· ≠ '=') = chars := by
    rw [List.takeWhile_append_of_pos hchars, List.takeWhile_cons_of_neg (by simp), List.append_nil]
  have hdrop : (chars ++ '=' :: value).dropWhile (· ≠ '=') = '=' :: value := by
    rw [List.dropWhile_append_of_pos hchars, List.dropWhile_cons_of_neg (by simp)]
  rw [splitAtEquals, htake, hdrop]

/-- Names of options are not empty, hold no equals sign, and are not the wish for help. -/
theorem name_of_option? {spec : OptionSpec} (hspec : command.option? name = some spec) :
    name ≠ "" ∧ '=' ∉ name.toList ∧ name ≠ "help" := by
  have hall : ∀ spec ∈ command.options, spec.name ≠ "" ∧ '=' ∉ spec.name.toList ∧ spec.name ≠ "help" := by
    cases command <;> decide +kernel
  have hname : spec.name = name := by simpa using List.find?_some hspec
  exact hname ▸ hall spec (List.mem_of_find?_eq_some hspec)

/-- An option with a long name, as what stands behind its hyphens is split. -/
theorem readOptions_long {argument : String} {long : List Char} {attached : Option String}
    (hargument : argument.toList = '-' :: '-' :: long) (hlong : long ≠ [])
    (hsplit : splitAtEquals long = (name, attached)) (hhelp : name ≠ "help") {spec : OptionSpec}
    (hspec : command.option? name = some spec) (hgiven : given.lookup name = none) :
    readOptions command given (argument :: rest) =
      match spec.kind, attached, rest with
      | none, none, rest => readOptions command ((name, "") :: given) rest
      | none, some _, _ => .error .misuse
      | some kind, some value, rest =>
        if kind.accepts value then readOptions command ((name, value) :: given) rest
        else .error .misuse
      | some kind, none, value :: rest =>
        if isValue value && kind.accepts value then readOptions command ((name, value) :: given) rest
        else .error .misuse
      | some _, none, [] => .error .misuse := by
  cases long with
  | nil => exact absurd rfl hlong
  | cons c long =>
    rw [readOptions]
    simp only [hargument, hsplit, hhelp, false_and, if_false, hspec, hgiven]
    cases spec.kind <;> cases attached <;> cases rest <;> rfl

/-- An option is read as what it says, and the arguments behind it are read on. -/
theorem readOptions_use {u : Use} (hfits : u.Fits command) (hgiven : u.name ∉ given.map Prod.fst) :
    readOptions command given (u.arguments ++ rest) = readOptions command (u.entry :: given) rest := by
  obtain ⟨⟨spec, hspec, hvalue⟩, hapart⟩ := hfits
  obtain ⟨hempty, hequals, hhelp⟩ := name_of_option? hspec
  have hlookup := lookup_eq_none_of_not_mem hgiven
  obtain ⟨name, value, attached⟩ := u
  have hlong : name.toList ≠ [] := by simpa using hempty
  dsimp only at hspec hvalue hapart hequals hhelp hlookup hlong
  cases value with
  | none =>
    have hkind : spec.kind = none := hvalue
    have hargument : ("--" ++ name).toList = '-' :: '-' :: name.toList := by
      rw [String.toList_append]
      rfl
    have hsplit := splitAtEquals_name hequals
    rw [String.ofList_toList] at hsplit
    simp only [Use.arguments, List.singleton_append,
      readOptions_long hargument hlong hsplit hhelp hspec hlookup, hkind]
    rfl
  | some value =>
    obtain ⟨kind, hkind, haccepts⟩ := hvalue
    cases attached with
    | true =>
      have hargument : ("--" ++ name ++ "=" ++ value).toList = '-' :: '-' :: (name.toList ++ '=' :: value.toList) := by
        simp
      have hsplit := splitAtEquals_append value.toList hequals
      rw [String.ofList_toList, String.ofList_toList] at hsplit
      simp only [Use.arguments, if_true, List.singleton_append,
        readOptions_long hargument (by simp) hsplit hhelp hspec hlookup, hkind, haccepts]
      rfl
    | false =>
      have hargument : ("--" ++ name).toList = '-' :: '-' :: name.toList := by
        rw [String.toList_append]
        rfl
      have hsplit := splitAtEquals_name hequals
      rw [String.ofList_toList] at hsplit
      simp only [Use.arguments, Bool.false_eq_true, if_false, List.cons_append, List.nil_append,
        readOptions_long hargument hlong hsplit hhelp hspec hlookup, hkind, haccepts,
        hapart value rfl rfl, Bool.and_self, if_true]
      rfl

/-! ### All options -/

/-- Options that are used once each are read as what they say, the last one first. -/
theorem readOptions_uses {uses : List Use} (hfits : ∀ u ∈ uses, u.Fits command)
    (hnodup : (uses.map (·.name)).Nodup) (hgiven : ∀ u ∈ uses, u.name ∉ given.map Prod.fst) :
    readOptions command given (uses.flatMap Use.arguments) = .ok ((uses.map Use.entry).reverse ++ given) := by
  induction uses generalizing given with
  | nil => rw [List.flatMap_nil, readOptions, List.map_nil, List.reverse_nil, List.nil_append]
  | cons u rest ih =>
    rw [List.forall_mem_cons] at hfits hgiven
    rw [List.map_cons, List.nodup_cons] at hnodup
    have hrest : ∀ later ∈ rest, later.name ∉ (u.entry :: given).map Prod.fst := by
      intro later hlater
      rw [List.map_cons, List.mem_cons, not_or]
      exact ⟨fun heq => hnodup.1 (List.mem_map.mpr ⟨later, hlater, heq⟩), hgiven.2 later hlater⟩
    rw [List.flatMap_cons, readOptions_use hfits.1 hgiven.1, ih hfits.2 hnodup.2 hrest, List.map_cons,
      List.reverse_cons, List.append_assoc, List.singleton_append]

end TransferLoad.Command
