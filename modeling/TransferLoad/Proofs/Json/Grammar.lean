import TransferLoad.Proofs.Json.Lexical

/-!
# How JSON is written

The grammar of JSON as a relation between what is written and the bytes that write it, blanks between the
signs included. Bytes are read as a value exactly if they write this value with nothing but blanks around it,
so nothing that the grammar allows is refused and no bytes have two readings.
-/

namespace TransferLoad.Json

open Text.Utf8 (encode)

/-- What a piece of a text stands for: a value, or what is behind the opening bracket of an array or an object
up to the closing one. -/
inductive Part where
  | value (json : Json)
  | items (found : List Json)
  | members (found : List (Option String × Json))

/-- How the name of a member is written, with the colon. -/
inductive NameText (name : Option String) : Bytes → Prop
  | colon {before own after : Bytes} (hbefore : Blank before) (hown : TextText name own) (hafter : Blank after) :
      NameText name (before ++ byteOf '"' :: own ++ after ++ [byteOf ':'])

inductive Written : Part → Bytes → Prop
  | null : Written (.value .null) (encode "null")
  | yes : Written (.value (.boolean true)) (encode "true")
  | no : Written (.value (.boolean false)) (encode "false")
  | unsigned {n : Number} {own : Bytes} (hsign : n.negative = false) (hown : UnsignedText n own) :
      Written (.value (.number n)) own
  | signed {n : Number} {own : Bytes} (hsign : n.negative = true) (hown : UnsignedText n own) :
      Written (.value (.number n)) (byteOf '-' :: own)
  | text {text : Option String} {own : Bytes} (hown : TextText text own) :
      Written (.value (.text text)) (byteOf '"' :: own)
  | noItems {gap : Bytes} (hgap : Blank gap) : Written (.value (.array [])) (byteOf '[' :: gap ++ [byteOf ']'])
  | array {found : List Json} {own : Bytes} (hown : Written (.items found) own) :
      Written (.value (.array found)) (byteOf '[' :: own)
  | noMembers {gap : Bytes} (hgap : Blank gap) : Written (.value (.object [])) (byteOf '{' :: gap ++ [byteOf '}'])
  | object {found : List (Option String × Json)} {own : Bytes} (hown : Written (.members found) own) :
      Written (.value (.object found)) (byteOf '{' :: own)
  | lastItem {first : Json} {before own after : Bytes} (hbefore : Blank before)
      (hown : Written (.value first) own) (hafter : Blank after) :
      Written (.items [first]) (before ++ own ++ after ++ [byteOf ']'])
  | item {first : Json} {more : List Json} {before own after rest : Bytes} (hbefore : Blank before)
      (hown : Written (.value first) own) (hafter : Blank after) (hrest : Written (.items more) rest) :
      Written (.items (first :: more)) (before ++ own ++ after ++ byteOf ',' :: rest)
  | lastMember {name : Option String} {first : Json} {label before own after : Bytes}
      (hname : NameText name label) (hbefore : Blank before) (hown : Written (.value first) own)
      (hafter : Blank after) :
      Written (.members [(name, first)]) (label ++ before ++ own ++ after ++ [byteOf '}'])
  | member {name : Option String} {first : Json} {more : List (Option String × Json)}
      {label before own after rest : Bytes} (hname : NameText name label) (hbefore : Blank before)
      (hown : Written (.value first) own) (hafter : Blank after) (hrest : Written (.members more) rest) :
      Written (.members ((name, first) :: more)) (label ++ before ++ own ++ after ++ byteOf ',' :: rest)

/-! ### What is read is written -/

theorem word_eq_some_iff {expected : String} {bytes rest : Bytes} {found : Unit} :
    word expected bytes = some (found, rest) ↔ bytes = encode expected ++ rest := by
  unfold word
  dsimp only
  constructor
  · intro hread
    split at hread
    · rename_i hprefix
      cases hread
      exact (List.prefix_iff_eq_append.mp (List.isPrefixOf_iff_prefix.mp hprefix)).symm
    · cases hread
  · rintro rfl
    simp

/-- What each of the readers takes from the front of some bytes is written there. -/
structure SoundAt (fuel : Nat) : Prop where
  value : ∀ {bytes rest : Bytes} {json : Json}, value fuel bytes = some (json, rest) →
    ∃ before own, bytes = before ++ own ++ rest ∧ Blank before ∧ Written (.value json) own
  items : ∀ {bytes rest : Bytes} {found : List Json}, items fuel bytes = some (found, rest) →
    ∃ own, bytes = own ++ rest ∧ Written (.items found) own
  members : ∀ {bytes rest : Bytes} {found : List (Option String × Json)},
    members fuel bytes = some (found, rest) → ∃ own, bytes = own ++ rest ∧ Written (.members found) own

theorem SoundAt.value_succ {fuel : Nat} (h : SoundAt fuel) {bytes rest : Bytes} {json : Json}
    (hread : Json.value (fuel + 1) bytes = some (json, rest)) :
    ∃ before own, bytes = before ++ own ++ rest ∧ Blank before ∧ Written (.value json) own := by
  obtain ⟨before, hbefore, hbytes⟩ := exists_blank bytes
  suffices hown : ∃ own, skipSpace bytes = own ++ rest ∧ Written (.value json) own by
    obtain ⟨own, heq, hwritten⟩ := hown
    exact ⟨before, own, by rw [hbytes, heq, List.append_assoc], hbefore, hwritten⟩
  unfold Json.value at hread
  generalize skipSpace bytes = behind at hread ⊢
  cases behind with
  | nil => cases hread
  | cons byte behind =>
    dsimp only at hread
    obtain ⟨gap, hgap, hbehind⟩ := exists_blank behind
    split at hread
    · rename_i hbrace
      subst hbrace
      split at hread
      · cases hread
      · rename_i next after hnext
        rw [hnext] at hbehind
        split at hread
        · rename_i hclosing
          cases hread
          exact ⟨_, by rw [hbehind, hclosing]; simp, .noMembers hgap⟩
        · obtain ⟨found, hfound, rfl⟩ := exists_of_map hread
          obtain ⟨own, rfl, hown⟩ := h.members hfound
          exact ⟨_, rfl, .object hown⟩
    split at hread
    · rename_i hbracket
      subst hbracket
      split at hread
      · cases hread
      · rename_i next after hnext
        rw [hnext] at hbehind
        split at hread
        · rename_i hclosing
          cases hread
          exact ⟨_, by rw [hbehind, hclosing]; simp, .noItems hgap⟩
        · obtain ⟨found, hfound, rfl⟩ := exists_of_map hread
          obtain ⟨own, rfl, hown⟩ := h.items hfound
          exact ⟨_, rfl, .array hown⟩
    split at hread
    · rename_i hquote
      obtain ⟨found, hfound, rfl⟩ := exists_of_map hread
      obtain ⟨own, rfl, hown⟩ := textBody_sound hfound
      exact ⟨_, by rw [hquote]; rfl, .text hown⟩
    split at hread
    · rename_i hminus
      obtain ⟨found, hfound, rfl⟩ := exists_of_map hread
      obtain ⟨hsign, own, rfl, hown⟩ := unsignedNumber_sound hfound
      exact ⟨_, by rw [hminus]; rfl, .signed hsign hown⟩
    split at hread
    · obtain ⟨found, hfound, rfl⟩ := exists_of_map hread
      obtain ⟨hsign, own, heq, hown⟩ := unsignedNumber_sound hfound
      exact ⟨own, heq, .unsigned hsign hown⟩
    split at hread
    · rename_i hletter
      obtain ⟨found, hfound, rfl⟩ := exists_of_map (f := fun _ => Json.boolean true) hread
      exact ⟨_, by rw [hletter, word_eq_some_iff.mp hfound]; rfl, .yes⟩
    split at hread
    · rename_i hletter
      obtain ⟨found, hfound, rfl⟩ := exists_of_map (f := fun _ => Json.boolean false) hread
      exact ⟨_, by rw [hletter, word_eq_some_iff.mp hfound]; rfl, .no⟩
    split at hread
    · rename_i hletter
      obtain ⟨found, hfound, rfl⟩ := exists_of_map (f := fun _ => Json.null) hread
      exact ⟨_, by rw [hletter, word_eq_some_iff.mp hfound]; rfl, .null⟩
    · cases hread

theorem SoundAt.items_succ {fuel : Nat} (h : SoundAt fuel) {bytes rest : Bytes} {found : List Json}
    (hread : Json.items (fuel + 1) bytes = some (found, rest)) :
    ∃ own, bytes = own ++ rest ∧ Written (.items found) own := by
  unfold Json.items at hread
  split at hread
  · cases hread
  · rename_i first behind hvalue
    obtain ⟨before, own, rfl, hbefore, hown⟩ := h.value hvalue
    obtain ⟨after, hafter, hbehind⟩ := exists_blank behind
    split at hread
    · cases hread
    · rename_i next behind' hnext
      rw [hnext] at hbehind
      rw [hbehind]
      split at hread
      · rename_i hcomma
        obtain ⟨more, hmore, rfl⟩ := exists_of_map hread
        obtain ⟨own', rfl, hown'⟩ := h.items hmore
        exact ⟨_, by rw [hcomma]; simp, .item hbefore hown hafter hown'⟩
      split at hread
      · rename_i hclosing
        cases hread
        exact ⟨_, by rw [hclosing]; simp, .lastItem hbefore hown hafter⟩
      · cases hread

/-- A text in quotes and a colon, with blanks around the text, write a name. -/
theorem exists_label {name : Option String} {bytes behind behind' rest : Bytes}
    (hquote : skipSpace bytes = byteOf '"' :: behind) (hname : textBody behind = some (name, behind'))
    (hcolon : skipSpace behind' = byteOf ':' :: rest) : ∃ label, bytes = label ++ rest ∧ NameText name label := by
  obtain ⟨before, hbefore, hbytes⟩ := exists_blank bytes
  obtain ⟨own, rfl, hown⟩ := textBody_sound hname
  obtain ⟨gap, hgap, hbehind⟩ := exists_blank behind'
  refine ⟨_, ?_, .colon hbefore hown hgap⟩
  rw [hbytes, hquote, hbehind, hcolon]
  simp

theorem SoundAt.members_succ {fuel : Nat} (h : SoundAt fuel) {bytes rest : Bytes}
    {found : List (Option String × Json)} (hread : Json.members (fuel + 1) bytes = some (found, rest)) :
    ∃ own, bytes = own ++ rest ∧ Written (.members found) own := by
  unfold Json.members at hread
  split at hread
  · cases hread
  rename_i quote behind hquote
  split at hread
  case isFalse => cases hread
  rename_i hopening
  subst hopening
  split at hread
  · cases hread
  rename_i name behind' hname
  split at hread
  · cases hread
  rename_i colon behind'' hcolon
  split at hread
  case isFalse => cases hread
  rename_i hsign
  subst hsign
  obtain ⟨label, rfl, hlabel⟩ := exists_label hquote hname hcolon
  split at hread
  · cases hread
  rename_i first later hvalue
  obtain ⟨before, own, rfl, hbefore, hown⟩ := h.value hvalue
  obtain ⟨after, hafter, hbehind⟩ := exists_blank later
  split at hread
  · cases hread
  rename_i next last hnext
  rw [hnext] at hbehind
  rw [hbehind]
  split at hread
  · rename_i hcomma
    obtain ⟨more, hmore, rfl⟩ := exists_of_map hread
    obtain ⟨own', rfl, hown'⟩ := h.members hmore
    exact ⟨_, by rw [hcomma]; simp, .member hlabel hbefore hown hafter hown'⟩
  split at hread
  · rename_i hclosing
    cases hread
    exact ⟨_, by rw [hclosing]; simp, .lastMember hlabel hbefore hown hafter⟩
  · cases hread

theorem soundAt (fuel : Nat) : SoundAt fuel := by
  induction fuel with
  | zero =>
    refine ⟨fun hread => ?_, fun hread => ?_, fun hread => ?_⟩
    · simp [value] at hread
    · simp [items] at hread
    · simp [members] at hread
  | succ fuel ih => exact ⟨ih.value_succ, ih.items_succ, ih.members_succ⟩

/-! ### What is written is read -/

theorem value_append_of_blank {gap : Bytes} (hgap : Blank gap) (fuel : Nat) (bytes : Bytes) :
    value fuel (gap ++ bytes) = value fuel bytes := by
  cases fuel with
  | zero => simp [value]
  | succ fuel =>
    unfold value
    rw [skipSpace_append hgap]

/-- A value begins with a byte of its own, and this does not close an array. -/
theorem Written.value_starts {json : Json} {own : Bytes} (hown : Written (.value json) own) :
    ∃ byte behind, own = byte :: behind ∧ isSpace byte = false ∧ byte ≠ byteOf ']' := by
  cases hown with
  | null => exact ⟨_, _, rfl, rfl, by decide⟩
  | yes => exact ⟨_, _, rfl, rfl, by decide⟩
  | no => exact ⟨_, _, rfl, rfl, by decide⟩
  | unsigned hsign hnumber =>
    obtain ⟨byte, behind, rfl, hdigit⟩ := hnumber.starts
    exact ⟨byte, behind, rfl, isSpace_of_isDigit hdigit, ne_of_isDigit hdigit rfl⟩
  | signed => exact ⟨_, _, rfl, rfl, by decide⟩
  | text => exact ⟨_, _, rfl, rfl, by decide⟩
  | noItems => exact ⟨_, _, rfl, rfl, by decide⟩
  | array => exact ⟨_, _, rfl, rfl, by decide⟩
  | noMembers => exact ⟨_, _, rfl, rfl, by decide⟩
  | object => exact ⟨_, _, rfl, rfl, by decide⟩

/-- The items of an array do not begin with the bracket that closes it. -/
theorem Written.items_start {found : List Json} {own : Bytes} (hown : Written (.items found) own) (rest : Bytes) :
    ∃ byte behind, skipSpace (own ++ rest) = byte :: behind ∧ byte ≠ byteOf ']' := by
  have hfirst : ∀ {json : Json} {before first : Bytes}, Blank before → Written (.value json) first →
      ∀ behind, ∃ byte behind', skipSpace (before ++ first ++ behind) = byte :: behind' ∧ byte ≠ byteOf ']' := by
    intro json before first hbefore hwritten behind
    obtain ⟨byte, more, rfl, hspace, hbracket⟩ := hwritten.value_starts
    refine ⟨byte, more ++ behind, ?_, hbracket⟩
    rw [List.append_assoc, skipSpace_append hbefore, List.cons_append, skipSpace_cons hspace]
  cases hown with
  | lastItem hbefore hwritten =>
    rw [List.append_assoc, List.append_assoc]
    exact hfirst hbefore hwritten _
  | item hbefore hwritten =>
    rw [List.append_assoc, List.append_assoc]
    exact hfirst hbefore hwritten _

/-- The members of an object begin with the quote of a name. -/
theorem Written.members_start {found : List (Option String × Json)} {own : Bytes}
    (hown : Written (.members found) own) (rest : Bytes) :
    ∃ behind, skipSpace (own ++ rest) = byteOf '"' :: behind := by
  have hlabel : ∀ {name : Option String} {label : Bytes}, NameText name label →
      ∀ behind, ∃ behind', skipSpace (label ++ behind) = byteOf '"' :: behind' := by
    rintro name _ ⟨hbefore⟩ behind
    simp only [List.append_assoc, skipSpace_append hbefore, List.cons_append]
    exact ⟨_, rfl⟩
  cases hown with
  | lastMember hname =>
    simp only [List.append_assoc]
    exact hlabel hname _
  | member hname =>
    simp only [List.append_assoc]
    exact hlabel hname _

theorem value_of_digit {byte : UInt8} (hdigit : isDigit byte = true) (fuel : Nat) (rest : Bytes) :
    value (fuel + 1) (byte :: rest) =
      (unsignedNumber false (byte :: rest)).map fun (found, rest) => (.number found, rest) := by
  have hother : ∀ other : UInt8, isDigit other = false → byte ≠ other := fun _ => ne_of_isDigit hdigit
  unfold value
  rw [skipSpace_cons (isSpace_of_isDigit hdigit)]
  dsimp only
  rw [if_neg (hother _ rfl), if_neg (hother _ rfl), if_neg (hother _ rfl), if_neg (hother _ rfl), if_pos hdigit]

theorem value_array {fuel : Nat} {bytes behind : Bytes} {next : UInt8} (hnext : skipSpace bytes = next :: behind)
    (hopen : next ≠ byteOf ']') :
    value (fuel + 1) (byteOf '[' :: bytes) = (items fuel bytes).map fun (found, rest) => (.array found, rest) := by
  unfold value
  rw [skipSpace_cons rfl]
  dsimp only
  rw [if_neg (by decide), if_pos rfl, hnext]
  dsimp only
  rw [if_neg hopen]

theorem value_object {fuel : Nat} {bytes behind : Bytes} {next : UInt8} (hnext : skipSpace bytes = next :: behind)
    (hopen : next ≠ byteOf '}') :
    value (fuel + 1) (byteOf '{' :: bytes) =
      (members fuel bytes).map fun (found, rest) => (.object found, rest) := by
  unfold value
  rw [skipSpace_cons rfl]
  dsimp only
  rw [if_pos rfl, hnext]
  dsimp only
  rw [if_neg hopen]

theorem value_quote (fuel : Nat) (rest : Bytes) : value (fuel + 1) (byteOf '"' :: rest) =
    (textBody rest).map fun (found, rest) => (.text found, rest) := by
  unfold value
  rfl

theorem value_minus (fuel : Nat) (rest : Bytes) : value (fuel + 1) (byteOf '-' :: rest) =
    (unsignedNumber true rest).map fun (found, rest) => (.number found, rest) := by
  unfold value
  rfl

/-- A value that is written with one word and begins with its own letter. -/
theorem value_word (fuel : Nat) (rest : Bytes) :
    value (fuel + 1) (encode "null" ++ rest) = some (.null, rest) ∧
    value (fuel + 1) (encode "true" ++ rest) = some (.boolean true, rest) ∧
    value (fuel + 1) (encode "false" ++ rest) = some (.boolean false, rest) := by
  have hread : ∀ expected : String, word expected (encode expected ++ rest) = some ((), rest) :=
    fun _ => word_eq_some_iff.mpr rfl
  refine ⟨?_, ?_, ?_⟩
  · change value (fuel + 1) (byteOf 'n' :: (encode "ull" ++ rest)) = _
    unfold value
    exact congrArg (Option.map fun found => (Json.null, found.2)) (hread "ull")
  · change value (fuel + 1) (byteOf 't' :: (encode "rue" ++ rest)) = _
    unfold value
    exact congrArg (Option.map fun found => (Json.boolean true, found.2)) (hread "rue")
  · change value (fuel + 1) (byteOf 'f' :: (encode "alse" ++ rest)) = _
    unfold value
    exact congrArg (Option.map fun found => (Json.boolean false, found.2)) (hread "alse")

/-- The steps that suffice to read a part. -/
def Part.steps (own : Bytes) : Part → Nat
  | .value _ => 2 * own.length
  | .items _ => 2 * own.length + 1
  | .members _ => 2 * own.length + 1

/-- A part is read from the front of some bytes. Only of a number could more be read than is written. -/
def Part.ReadFrom (fuel : Nat) (own rest : Bytes) : Part → Prop
  | .value json => StartsOutside continuesNumber rest → Json.value fuel (own ++ rest) = some (json, rest)
  | .items found => Json.items fuel (own ++ rest) = some (found, rest)
  | .members found => Json.members fuel (own ++ rest) = some (found, rest)

/-- An item is read, and then the sign behind it counts. -/
theorem items_append {fuel : Nat} {first : Json} {before own after behind : Bytes} {next : UInt8}
    (hbefore : Blank before) (hafter : Blank after) (hnext : isSpace next = false)
    (hread : value fuel (own ++ (after ++ next :: behind)) = some (first, after ++ next :: behind)) :
    items (fuel + 1) (before ++ own ++ after ++ next :: behind) =
      if next = byteOf ',' then (items fuel behind).map fun (more, rest) => (first :: more, rest)
      else if next = byteOf ']' then some ([first], behind)
      else none := by
  conv =>
    lhs
    unfold items
  rw [List.append_assoc, List.append_assoc, value_append_of_blank hbefore, hread]
  dsimp only
  rw [skipSpace_append hafter, skipSpace_cons hnext]

/-- A member is read, and then the sign behind it counts. -/
theorem members_append {fuel : Nat} {name : Option String} {first : Json} {label before own after behind : Bytes}
    {next : UInt8} (hname : NameText name label) (hbefore : Blank before) (hafter : Blank after)
    (hnext : isSpace next = false)
    (hread : value fuel (own ++ (after ++ next :: behind)) = some (first, after ++ next :: behind)) :
    members (fuel + 1) (label ++ before ++ own ++ after ++ next :: behind) =
      if next = byteOf ',' then (members fuel behind).map fun (more, rest) => ((name, first) :: more, rest)
      else if next = byteOf '}' then some ([(name, first)], behind)
      else none := by
  obtain ⟨hgap, htext, hgap'⟩ := hname
  conv =>
    lhs
    unfold members
  simp only [List.append_assoc, List.cons_append, List.nil_append]
  rw [skipSpace_append hgap, skipSpace_cons rfl]
  dsimp only
  rw [if_pos rfl, textBody_complete htext]
  dsimp only
  rw [skipSpace_append hgap', skipSpace_cons rfl]
  dsimp only
  rw [if_pos rfl, value_append_of_blank hbefore, hread]
  dsimp only
  rw [skipSpace_append hafter, skipSpace_cons hnext]

/-- Blanks and a sign do not go on with a number. -/
theorem outside_of_sign {after : Bytes} (hafter : Blank after) {next : UInt8}
    (hnext : continuesNumber next = false) (behind : Bytes) :
    StartsOutside continuesNumber (after ++ next :: behind) := by
  apply outside_append_of_blank hafter
  intro byte hbyte
  cases hbyte
  exact hnext

theorem Written.read {part : Part} {own : Bytes} (hown : Written part own) {fuel : Nat}
    (hfuel : part.steps own ≤ fuel) (rest : Bytes) : part.ReadFrom (fuel + 1) own rest := by
  induction hown generalizing fuel rest with
  | null => exact fun _ => (value_word fuel rest).1
  | yes => exact fun _ => (value_word fuel rest).2.1
  | no => exact fun _ => (value_word fuel rest).2.2
  | unsigned hsign hnumber =>
    intro houtside
    have hread := unsignedNumber_complete hnumber houtside
    obtain ⟨byte, behind, rfl, hdigit⟩ := hnumber.starts
    rw [hsign, List.cons_append] at hread
    rw [List.cons_append, value_of_digit hdigit, hread]
    rfl
  | signed hsign hnumber =>
    intro houtside
    have hread := unsignedNumber_complete hnumber houtside
    rw [hsign] at hread
    rw [List.cons_append, value_minus, hread]
    rfl
  | text htext =>
    intro _
    rw [List.cons_append, value_quote, textBody_complete htext]
    rfl
  | noItems hgap =>
    intro _
    rw [List.append_assoc, List.cons_append, List.singleton_append]
    unfold value
    rw [skipSpace_cons rfl]
    dsimp only
    rw [if_neg (by decide), if_pos rfl, skipSpace_append hgap, skipSpace_cons rfl]
    rfl
  | @array found own hitems ih =>
    intro _
    obtain ⟨byte, behind, hskip, hopen⟩ := hitems.items_start rest
    simp only [Part.steps, List.length_cons] at hfuel
    obtain ⟨fuel, rfl⟩ : ∃ fewer, fuel = fewer + 1 := Nat.exists_eq_add_one_of_ne_zero (by omega)
    have hread : items (fuel + 1) (own ++ rest) = some (found, rest) :=
      ih (by simp only [Part.steps]; omega) rest
    rw [List.cons_append, value_array hskip hopen, hread]
    rfl
  | noMembers hgap =>
    intro _
    rw [List.append_assoc, List.cons_append, List.singleton_append]
    unfold value
    rw [skipSpace_cons rfl]
    dsimp only
    rw [if_pos rfl, skipSpace_append hgap, skipSpace_cons rfl]
    rfl
  | @object found own hmembers ih =>
    intro _
    obtain ⟨behind, hskip⟩ := hmembers.members_start rest
    simp only [Part.steps, List.length_cons] at hfuel
    obtain ⟨fuel, rfl⟩ : ∃ fewer, fuel = fewer + 1 := Nat.exists_eq_add_one_of_ne_zero (by omega)
    have hread : members (fuel + 1) (own ++ rest) = some (found, rest) :=
      ih (by simp only [Part.steps]; omega) rest
    rw [List.cons_append, value_object hskip (by decide), hread]
    rfl
  | @lastItem first before own after hbefore _ hafter ih =>
    simp only [Part.steps, List.length_append] at hfuel
    obtain ⟨fuel, rfl⟩ : ∃ fewer, fuel = fewer + 1 := Nat.exists_eq_add_one_of_ne_zero (by omega)
    have hread := @ih fuel (by simp only [Part.steps]; omega) (after ++ byteOf ']' :: rest)
      (outside_of_sign hafter rfl rest)
    change items _ _ = _
    rw [List.append_assoc _ [byteOf ']'], List.singleton_append, items_append hbefore hafter rfl hread]
    rfl
  | @item first more before own after behind hbefore _ hafter _ ih ih' =>
    simp only [Part.steps, List.length_append, List.length_cons] at hfuel
    obtain ⟨fuel, rfl⟩ : ∃ fewer, fuel = fewer + 1 := Nat.exists_eq_add_one_of_ne_zero (by omega)
    have hread := @ih fuel (by simp only [Part.steps]; omega) (after ++ byteOf ',' :: (behind ++ rest))
      (outside_of_sign hafter rfl _)
    have hread' : items (fuel + 1) (behind ++ rest) = some (more, rest) :=
      ih' (by simp only [Part.steps]; omega) rest
    change items _ _ = _
    rw [List.append_assoc _ (byteOf ',' :: behind), List.cons_append, items_append hbefore hafter rfl hread,
      if_pos rfl, hread']
    rfl
  | @lastMember name first label before own after hname hbefore _ hafter ih =>
    simp only [Part.steps, List.length_append] at hfuel
    obtain ⟨fuel, rfl⟩ : ∃ fewer, fuel = fewer + 1 := Nat.exists_eq_add_one_of_ne_zero (by omega)
    have hread := @ih fuel (by simp only [Part.steps]; omega) (after ++ byteOf '}' :: rest)
      (outside_of_sign hafter rfl rest)
    change members _ _ = _
    rw [List.append_assoc _ [byteOf '}'], List.singleton_append, members_append hname hbefore hafter rfl hread]
    rfl
  | @member name first more label before own after behind hname hbefore _ hafter _ ih ih' =>
    simp only [Part.steps, List.length_append, List.length_cons] at hfuel
    obtain ⟨fuel, rfl⟩ : ∃ fewer, fuel = fewer + 1 := Nat.exists_eq_add_one_of_ne_zero (by omega)
    have hread := @ih fuel (by simp only [Part.steps]; omega) (after ++ byteOf ',' :: (behind ++ rest))
      (outside_of_sign hafter rfl _)
    have hread' : members (fuel + 1) (behind ++ rest) = some (more, rest) :=
      ih' (by simp only [Part.steps]; omega) rest
    change members _ _ = _
    rw [List.append_assoc _ (byteOf ',' :: behind), List.cons_append,
      members_append hname hbefore hafter rfl hread, if_pos rfl, hread']
    rfl

/-! ### Whole texts -/

/-- Bytes that write a value, with nothing but blanks around it. -/
def Spells (bytes : Bytes) (json : Json) : Prop :=
  ∃ before own after, bytes = before ++ own ++ after ∧ Blank before ∧ Written (.value json) own ∧ Blank after

/-- Bytes are read as a value exactly if they write it. -/
theorem parse?_eq_some_iff {bytes : Bytes} {json : Json} : parse? bytes = some json ↔ Spells bytes json := by
  constructor
  · intro hread
    unfold parse? at hread
    split at hread
    · rename_i found rest hvalue
      split at hread
      · rename_i hblank
        cases hread
        obtain ⟨before, own, hbytes, hbefore, hown⟩ := (soundAt _).value hvalue
        exact ⟨before, own, rest, hbytes, hbefore, hown, skipSpace_eq_nil_iff.mp hblank⟩
      · cases hread
    · cases hread
  · rintro ⟨before, own, after, rfl, hbefore, hown, hafter⟩
    have hfuel : (Part.value json).steps own ≤ 3 * (before ++ own ++ after).length + 2 := by
      simp only [Part.steps, List.length_append]
      omega
    have houtside : StartsOutside continuesNumber after := by
      rw [← List.append_nil after]
      exact outside_append_of_blank hafter (by rintro _ ⟨⟩)
    have hread := hown.read hfuel after houtside
    rw [← value_append_of_blank hbefore, ← List.append_assoc] at hread
    unfold parse?
    rw [hread]
    exact if_pos (skipSpace_eq_nil_iff.mpr hafter)

theorem Spells.unique {bytes : Bytes} {json json' : Json} (hspells : Spells bytes json)
    (hspells' : Spells bytes json') : json = json' := by
  rw [← parse?_eq_some_iff] at hspells hspells'
  exact Option.some.inj (hspells.symm.trans hspells')

end TransferLoad.Json
