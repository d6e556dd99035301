import Mathlib.Data.List.Forall2
import TransferLoad.Json.Record

/-!
# What is read as a record

An object gives a field by the one member of its name, wherever that member stands and whatever stands beside
it. An array gives the fields in order. A value of any other shape is no record, and neither is an object
that gives a field twice.
-/

namespace TransferLoad.Json

/-! ### Members -/

/-- What the members of an object give under a name: the value of the only member of that name, or nothing
if there is no such member. -/
inductive Gives (members : List (Option String × Json)) (name : String) : Option Json → Prop
  | nothing (hnone : ∀ m ∈ members, m.1 ≠ some name) : Gives members name none
  | value {before after : List (Option String × Json)} {value : Json}
      (hsplit : members = before ++ (some name, value) :: after) (hbefore : ∀ m ∈ before, m.1 ≠ some name)
      (hafter : ∀ m ∈ after, m.1 ≠ some name) : Gives members name (some value)

theorem member?_eq_some_iff {members : List (Option String × Json)} {name : String} {given : Option Json} :
    member? members name = some given ↔ Gives members name given := by
  constructor
  · intro hmember
    unfold member? at hmember
    split at hmember
    · rename_i hnone
      cases hmember
      exact .nothing (by simpa using hnone)
    · rename_i found value hfound
      cases hmember
      obtain ⟨before, after, hsplit, hbefore, hname, hafter⟩ := List.filter_eq_cons_iff.mp hfound
      obtain rfl : found = some name := by simpa using hname
      exact .value hsplit (by simpa using hbefore) (by simpa using hafter)
    · cases hmember
  · rintro (hnone | ⟨rfl, hbefore, hafter⟩)
    · have hfilter : members.filter (fun entry => entry.1 = some name) = [] := by simpa using hnone
      rw [member?, hfilter]
    · have hfirst : ∀ part : List (Option String × Json), (∀ m ∈ part, m.1 ≠ some name) →
          part.filter (fun entry => entry.1 = some name) = [] := by
        intro part hpart
        simpa using hpart
      simp [member?, List.filter_append, hfirst _ hbefore, hfirst _ hafter]

/-! ### Records -/

/-- A value that gives a record's fields, in the order of their names: an object of readable names or an
array that may break off early. -/
inductive IsRecord (names : List String) : Json → Record → Prop
  | object {members : List (Option String × Json)} {fields : List (Option Json)}
      (hreadable : ∀ m ∈ members, m.1 ≠ none) (hfields : List.Forall₂ (Gives members) names fields) :
      IsRecord names (.object members) ⟨fields, false⟩
  | array {items : List Json} {missing : Nat} (hlength : items.length + missing = names.length) :
      IsRecord names (.array items) ⟨items.map some ++ List.replicate missing none, true⟩

theorem mapM_eq_some_iff {α β : Type} {f : α → Option β} {xs : List α} {ys : List β} :
    xs.mapM f = some ys ↔ List.Forall₂ (fun x y => f x = some y) xs ys := by
  induction xs generalizing ys with
  | nil => simp [eq_comm]
  | cons x xs ih =>
    simp only [List.mapM_cons, Option.bind_eq_bind, Option.bind_eq_some_iff, List.forall₂_cons_left_iff, ih]
    constructor
    · rintro ⟨y, hy, ys', hys, heq⟩
      cases heq
      exact ⟨y, ys', hy, hys, rfl⟩
    · rintro ⟨y, ys', hy, hys, rfl⟩
      exact ⟨y, hy, ys', hys, rfl⟩

theorem record?_eq_some_iff {names : List String} {json : Json} {r : Record} :
    json.record? names = some r ↔ IsRecord names json r := by
  constructor
  · intro hrecord
    unfold record? at hrecord
    split at hrecord
    · rename_i members
      split at hrecord
      · rename_i hreadable
        obtain ⟨fields, hfields, rfl⟩ := Option.map_eq_some_iff.mp hrecord
        refine .object (fun m hm => ?_) ?_
        · exact Option.isSome_iff_ne_none.mp (List.all_eq_true.mp hreadable m hm)
        · exact (mapM_eq_some_iff.mp hfields).imp fun _ _ => member?_eq_some_iff.mp
      · cases hrecord
    · rename_i items
      split at hrecord
      · cases hrecord
        exact .array (by omega)
      · cases hrecord
    · cases hrecord
  · rintro (⟨hreadable, hfields⟩ | hlength)
    · rename_i members fields
      have hall : members.all (·.1.isSome) = true := by
        apply List.all_eq_true.mpr
        exact fun m hm => Option.isSome_iff_ne_none.mpr (hreadable m hm)
      have hmembers : names.mapM (member? members) = some fields :=
        mapM_eq_some_iff.mpr (hfields.imp fun _ _ => member?_eq_some_iff.mpr)
      rw [record?, if_pos hall, hmembers]
      rfl
    · rename_i items missing
      have hmissing : names.length - items.length = missing := by omega
      rw [record?, if_pos (by omega), hmissing]

/-! ### Values of fields -/

/-- A whole number that is written without sign, fraction and exponent. -/
inductive IsWord : Json → UInt64 → Prop
  | digits {whole : List Nat} {word : UInt64} (hvalue : Number.digitsValue whole = word.toNat) :
      IsWord (.number { negative := false, whole }) word

theorem word?_eq_some_iff {json : Json} {word : UInt64} : json.word? = some word ↔ IsWord json word := by
  constructor
  · intro hword
    unfold word? at hword
    split at hword
    · rename_i n
      obtain ⟨value, hvalue, hpositive⟩ := Option.bind_eq_some_iff.mp hword
      obtain ⟨negative, whole, fraction, exponent⟩ := n
      unfold Number.integer? at hvalue
      split at hvalue
      · rename_i hfraction hexponent
        dsimp only at hfraction hexponent hvalue
        subst hfraction hexponent
        cases negative with
        | true =>
          simp only [if_true] at hvalue
          split at hvalue
          · rename_i hbound
            cases hvalue
            rw [if_neg (by omega)] at hpositive
            cases hpositive
          · cases hvalue
        | false =>
          simp only [Bool.false_eq_true, if_false] at hvalue
          split at hvalue
          · rename_i hbound
            cases hvalue
            rw [if_pos (by omega)] at hpositive
            cases hpositive
            refine .digits ?_
            rw [Int.toNat_natCast, UInt64.toNat_ofNat_of_lt']
            exact Nat.lt_of_le_pred (by decide) hbound
          · cases hvalue
      · cases hvalue
    · cases hword
  · rintro ⟨hvalue⟩
    rename_i whole
    have hbound : Number.digitsValue whole ≤ Significand.bound := by
      have hlt := word.toNat_lt
      unfold Significand.bound UInt64.size
      omega
    have hinteger : Number.integer? { negative := false, whole } = some (Number.digitsValue whole : Int) := by
      simp [Number.integer?, hbound]
    rw [word?, hinteger, Option.bind_some, if_pos (by omega), Int.toNat_natCast, hvalue, UInt64.ofNat_toNat]

/-- What is given for a field that need not have a text: a text, null, or, unless fields go by their order,
nothing at all. -/
inductive IsOptionalText (inOrder : Bool) : Option Json → Option String → Prop
  | text (text : String) : IsOptionalText inOrder (some (.text (some text))) (some text)
  | null : IsOptionalText inOrder (some .null) none
  | nothing (hnamed : inOrder = false) : IsOptionalText inOrder none none

theorem string?_eq_some_iff {json : Json} {text : String} :
    json.string? = some text ↔ json = .text (some text) := by
  cases json <;> simp [string?]

theorem optional?_string?_eq_some_iff {r : Record} {position : Nat} {given : Option String} :
    r.optional? position string? = some given ↔ IsOptionalText r.inOrder (r.field position) given := by
  unfold Record.optional?
  constructor
  · intro hread
    split at hread
    · rename_i hfield
      cases hread
      rw [hfield]
      exact .null
    · rename_i value hfield
      obtain ⟨text, htext, rfl⟩ := Option.map_eq_some_iff.mp hread
      rw [hfield, string?_eq_some_iff.mp htext]
      exact .text text
    · rename_i hfield
      rw [hfield]
      cases hnamed : r.inOrder with
      | true =>
        rw [hnamed] at hread
        cases hread
      | false =>
        rw [hnamed] at hread
        cases hread
        exact .nothing rfl
  · intro hgiven
    cases hfield : r.field position with
    | none =>
      rw [hfield] at hgiven
      obtain ⟨⟩ | ⟨⟩ | hnamed := hgiven
      simp [hnamed]
    | some value =>
      rw [hfield] at hgiven
      cases hgiven with
      | text text => rfl
      | null => rfl

theorem required?_eq_some_iff {α : Type} {r : Record} {position : Nat} {read : Json → Option α} {a : α} :
    r.required? position read = some a ↔ ∃ value, r.field position = some value ∧ read value = some a := by
  rw [Record.required?, Option.bind_eq_some_iff]

/-- What is given for a field with a default: a value of its kind, or nothing for the default. -/
inductive IsGivenOr {α : Type} (kind : Json → α → Prop) (default : α) : Option Json → α → Prop
  | value {value : Json} {a : α} (hkind : kind value a) : IsGivenOr kind default (some value) a
  | default : IsGivenOr kind default none default

theorem withDefault?_eq_some_iff {α : Type} {r : Record} {position : Nat} {default : α}
    {read : Json → Option α} {kind : Json → α → Prop} (hread : ∀ json a, read json = some a ↔ kind json a) {a : α} :
    r.withDefault? position default read = some a ↔ IsGivenOr kind default (r.field position) a := by
  unfold Record.withDefault?
  cases r.field position with
  | none =>
    constructor
    · intro hdefault
      cases hdefault
      exact .default
    · rintro ⟨⟩
      rfl
  | some value =>
    dsimp only
    rw [hread]
    constructor
    · exact .value
    · rintro ⟨hkind⟩
      exact hkind

end TransferLoad.Json
