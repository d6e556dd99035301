import Mathlib.Data.List.TakeWhile
import TransferLoad.Json.Basic

/-!
# How numbers and texts are written in JSON

The words of the grammar: blanks, digits, numbers with their sign, fraction and exponent, and texts with
their escapes. Reading takes such a word from the front of the bytes, as long a number as there is or a text
up to its closing quote, and it takes nothing else.
-/

namespace TransferLoad.Json

/-- A reader whose result is put into another form takes the same from the front. -/
theorem exists_of_map {α β : Type} {read : Option (α × Bytes)} {f : α → β} {b : β} {rest : Bytes}
    (hmap : (read.map fun found => (f found.1, found.2)) = some (b, rest)) :
    ∃ a, read = some (a, rest) ∧ f a = b := by
  obtain ⟨⟨a, rest'⟩, hread, heq⟩ := Option.map_eq_some_iff.mp hmap
  cases heq
  exact ⟨a, hread, rfl⟩

/-! ### Blanks -/

def Blank (bytes : Bytes) : Prop := ∀ byte ∈ bytes, isSpace byte = true

/-- Bytes that do not begin with a byte of a class. -/
def StartsOutside (inClass : UInt8 → Bool) (bytes : Bytes) : Prop := ∀ byte ∈ bytes.head?, inClass byte = false

theorem takeWhile_of_outside {inClass : UInt8 → Bool} {own rest : Bytes}
    (hown : ∀ byte ∈ own, inClass byte = true) (hrest : StartsOutside inClass rest) :
    (own ++ rest).takeWhile inClass = own := by
  rw [List.takeWhile_append_of_pos hown]
  cases rest with
  | nil => simp
  | cons byte rest => simp [hrest byte rfl]

theorem dropWhile_of_outside {inClass : UInt8 → Bool} {own rest : Bytes}
    (hown : ∀ byte ∈ own, inClass byte = true) (hrest : StartsOutside inClass rest) :
    (own ++ rest).dropWhile inClass = rest := by
  rw [List.dropWhile_append_of_pos hown]
  cases rest with
  | nil => simp
  | cons byte rest => simp [hrest byte rfl]

theorem exists_blank (bytes : Bytes) : ∃ gap, Blank gap ∧ bytes = gap ++ skipSpace bytes :=
  ⟨bytes.takeWhile isSpace, fun _ => List.mem_takeWhile_imp, List.takeWhile_append_dropWhile.symm⟩

theorem skipSpace_append {gap : Bytes} (hgap : Blank gap) (bytes : Bytes) :
    skipSpace (gap ++ bytes) = skipSpace bytes := List.dropWhile_append_of_pos hgap

theorem skipSpace_cons {byte : UInt8} (hbyte : isSpace byte = false) (rest : Bytes) :
    skipSpace (byte :: rest) = byte :: rest := List.dropWhile_cons_of_neg (by simp [hbyte])

theorem skipSpace_eq_nil_iff {bytes : Bytes} : skipSpace bytes = [] ↔ Blank bytes :=
  List.dropWhile_eq_nil_iff

/-! ### Digits -/

theorem ne_of_isDigit {byte other : UInt8} (hdigit : isDigit byte = true) (hother : isDigit other = false) :
    byte ≠ other := by
  rintro rfl
  rw [hdigit] at hother
  cases hother

theorem isSpace_of_isDigit {byte : UInt8} (hdigit : isDigit byte = true) : isSpace byte = false := by
  have hother : ∀ other : UInt8, isDigit other = false → byte ≠ other := fun _ => ne_of_isDigit hdigit
  simp [isSpace, hother 32 rfl, hother 10 rfl, hother 9 rfl, hother 13 rfl]

/-- Bytes that write some digits. -/
structure Digits (digits : List Nat) (own : Bytes) : Prop where
  all : ∀ byte ∈ own, isDigit byte = true
  values : digits = own.map fun byte => byte.toNat - 48

theorem exists_digits {found : List Nat} {bytes rest : Bytes} (hread : digits bytes = (found, rest)) :
    ∃ own, bytes = own ++ rest ∧ Digits found own := by
  cases hread
  exact ⟨bytes.takeWhile isDigit, List.takeWhile_append_dropWhile.symm, fun _ => List.mem_takeWhile_imp, rfl⟩

theorem Digits.read {found : List Nat} {own rest : Bytes} (hdigits : Digits found own)
    (hrest : StartsOutside isDigit rest) : digits (own ++ rest) = (found, rest) := by
  rw [digits, takeWhile_of_outside hdigits.all hrest, dropWhile_of_outside hdigits.all hrest, hdigits.values]

theorem someDigits_eq_some {found : List Nat} {bytes rest : Bytes}
    (hread : someDigits bytes = some (found, rest)) : digits bytes = (found, rest) ∧ found ≠ [] := by
  unfold someDigits at hread
  split at hread
  · cases hread
  · rename_i hnonempty hdigits
    cases hread
    refine ⟨hdigits, fun hnil => ?_⟩
    subst hnil
    exact hnonempty rfl

theorem someDigits_of_digits {found : List Nat} {bytes rest : Bytes} (hread : digits bytes = (found, rest))
    (hfound : found ≠ []) : someDigits bytes = some (found, rest) := by
  unfold someDigits
  rw [hread]
  cases found with
  | nil => exact absurd rfl hfound
  | cons digit more => rfl

theorem wholeDigits_eq_some {found : List Nat} {bytes rest : Bytes}
    (hread : wholeDigits bytes = some (found, rest)) :
    digits bytes = (found, rest) ∧ found ≠ [] ∧ (found.head? = some 0 → found = [0]) := by
  unfold wholeDigits at hread
  split at hread
  · cases hread
  · cases hread
  · rename_i hnonempty hzero hdigits
    cases hread
    refine ⟨hdigits, ?_, ?_⟩
    · rintro rfl
      exact hnonempty rfl
    · intro hhead
      match found, hhead with
      | [0], _ => rfl
      | 0 :: next :: more, _ => exact (hzero _ _ rfl).elim

theorem wholeDigits_of_digits {found : List Nat} {bytes rest : Bytes} (hread : digits bytes = (found, rest))
    (hfound : found ≠ []) (hzero : found.head? = some 0 → found = [0]) :
    wholeDigits bytes = some (found, rest) := by
  unfold wholeDigits
  rw [hread]
  match found with
  | [] => exact absurd rfl hfound
  | [0] => rfl
  | [digit + 1] => rfl
  | 0 :: next :: more => cases hzero rfl
  | (digit + 1) :: next :: more => rfl

/-! ### Numbers -/

/-- How a fraction is written: not at all, or with a point and at least one digit. -/
inductive FractionText : Option (List Nat) → Bytes → Prop
  | none : FractionText none []
  | some {digits : List Nat} {own : Bytes} (hdigits : Digits digits own) (hsome : digits ≠ []) :
      FractionText (some digits) (byteOf '.' :: own)

/-- The signs that may stand in an exponent. -/
inductive SignText : Bool → Bytes → Prop
  | none : SignText false []
  | plus : SignText false [byteOf '+']
  | minus : SignText true [byteOf '-']

/-- How an exponent is written: not at all, or with its letter, perhaps a sign and at least one digit. -/
inductive ExponentText : Option Exponent → Bytes → Prop
  | none : ExponentText none []
  | some {letter : UInt8} {negative : Bool} {sign own : Bytes} {digits : List Nat}
      (hletter : letter = byteOf 'e' ∨ letter = byteOf 'E') (hsign : SignText negative sign)
      (hdigits : Digits digits own) (hsome : digits ≠ []) :
      ExponentText (some ⟨negative, digits⟩) (letter :: sign ++ own)

/-- How a number is written behind its sign: at least one digit, of which the first is no zero unless it is
the only one, and then the fraction and the exponent. -/
inductive UnsignedText (n : Number) : Bytes → Prop
  | parts {whole fraction exponent : Bytes} (hwhole : Digits n.whole whole) (hsome : n.whole ≠ [])
      (hzero : n.whole.head? = some 0 → n.whole = [0]) (hfraction : FractionText n.fraction fraction)
      (hexponent : ExponentText n.exponent exponent) : UnsignedText n (whole ++ fraction ++ exponent)

/-- A byte that goes on with a number. -/
def continuesNumber (byte : UInt8) : Bool :=
  isDigit byte || byte = byteOf '.' || byte = byteOf 'e' || byte = byteOf 'E'

theorem outside_digits_of_outside {rest : Bytes} (hrest : StartsOutside continuesNumber rest) :
    StartsOutside isDigit rest := by
  intro byte hbyte
  have hother := hrest byte hbyte
  unfold continuesNumber at hother
  simp only [Bool.or_eq_false_iff] at hother
  exact hother.1.1.1

theorem outside_append_of_blank {gap rest : Bytes} (hgap : Blank gap) (hrest : StartsOutside continuesNumber rest) :
    StartsOutside continuesNumber (gap ++ rest) := by
  cases gap with
  | nil => exact hrest
  | cons byte gap =>
    intro byte' hbyte
    cases hbyte
    have hspace := hgap byte (by simp)
    simp only [isSpace, Bool.or_eq_true, decide_eq_true_eq] at hspace
    obtain ((rfl | rfl) | rfl) | rfl := hspace <;> rfl

theorem fractionPart_sound {fraction : Option (List Nat)} {bytes rest : Bytes}
    (hread : fractionPart bytes = some (fraction, rest)) :
    ∃ own, bytes = own ++ rest ∧ FractionText fraction own := by
  unfold fractionPart at hread
  split at hread
  · cases hread
    exact ⟨[], rfl, .none⟩
  · rename_i byte after
    split at hread
    · rename_i hpoint
      obtain ⟨found, hfound, rfl⟩ := exists_of_map hread
      obtain ⟨hdigits, hsome⟩ := someDigits_eq_some hfound
      obtain ⟨own, rfl, hown⟩ := exists_digits hdigits
      exact ⟨byteOf '.' :: own, by rw [hpoint]; rfl, .some hown hsome⟩
    · cases hread
      exact ⟨[], rfl, .none⟩

theorem fractionPart_complete {fraction : Option (List Nat)} {own rest : Bytes}
    (hown : FractionText fraction own) (hdigits : StartsOutside isDigit rest)
    (hpoint : rest.head? ≠ some (byteOf '.')) : fractionPart (own ++ rest) = some (fraction, rest) := by
  cases hown with
  | none =>
    cases rest with
    | nil => rfl
    | cons byte rest =>
      have hbyte : byte ≠ byteOf '.' := fun heq => hpoint (congrArg some heq)
      simp [fractionPart, hbyte]
  | some hread hsome => simp [fractionPart, someDigits_of_digits (hread.read hdigits) hsome]

theorem exponentPart_sound {exponent : Option Exponent} {bytes rest : Bytes}
    (hread : exponentPart bytes = some (exponent, rest)) :
    ∃ own, bytes = own ++ rest ∧ ExponentText exponent own := by
  unfold exponentPart at hread
  split at hread
  · cases hread
    exact ⟨[], rfl, .none⟩
  · rename_i letter after
    split at hread
    · rename_i hletter
      have hparts : ∀ {negative : Bool} {sign behind : Bytes}, SignText negative sign → after = sign ++ behind →
          (someDigits behind).map (fun found => (some (Exponent.mk negative found.1), found.2)) =
            some (exponent, rest) →
          ∃ own, letter :: after = own ++ rest ∧ ExponentText exponent own := by
        intro negative sign behind hsign hafter hfound
        obtain ⟨found, hsome, rfl⟩ := exists_of_map (f := fun found => some (Exponent.mk negative found)) hfound
        obtain ⟨hdigits, hnonempty⟩ := someDigits_eq_some hsome
        obtain ⟨own, rfl, hown⟩ := exists_digits hdigits
        refine ⟨letter :: sign ++ own, ?_, .some hletter hsign hown hnonempty⟩
        rw [hafter, List.cons_append, List.cons_append, List.append_assoc]
      cases after with
      | nil => exact hparts .none rfl hread
      | cons sign behind =>
        dsimp only at hread
        by_cases hminus : sign = byteOf '-'
        · rw [if_pos hminus] at hread
          exact hparts .minus (by rw [hminus]; rfl) hread
        · rw [if_neg hminus] at hread
          by_cases hplus : sign = byteOf '+'
          · rw [if_pos hplus] at hread
            exact hparts .plus (by rw [hplus]; rfl) hread
          · rw [if_neg hplus] at hread
            exact hparts .none rfl hread
    · cases hread
      exact ⟨[], rfl, .none⟩

theorem exponentPart_complete {exponent : Option Exponent} {own rest : Bytes}
    (hown : ExponentText exponent own) (hrest : StartsOutside continuesNumber rest) :
    exponentPart (own ++ rest) = some (exponent, rest) := by
  have houtside := outside_digits_of_outside hrest
  cases hown with
  | none =>
    cases rest with
    | nil => rfl
    | cons byte rest =>
      have hother := hrest byte rfl
      simp only [continuesNumber, Bool.or_eq_false_iff, decide_eq_false_iff_not] at hother
      simp [exponentPart, hother]
  | @some letter negative sign own digits hletter hsign hdigits hsome =>
    have hread := someDigits_of_digits (hdigits.read houtside) hsome
    cases hsign with
    | none =>
      cases own with
      | nil => exact absurd hdigits.values hsome
      | cons byte own =>
        have hbyte := hdigits.all byte (by simp)
        have hminus : byte ≠ byteOf '-' := ne_of_isDigit hbyte rfl
        have hplus : byte ≠ byteOf '+' := ne_of_isDigit hbyte rfl
        simp only [List.cons_append, List.nil_append] at hread ⊢
        simp [exponentPart, hletter, hminus, hplus, hread]
    | plus => simp [exponentPart, hletter, hread, show byteOf '+' ≠ byteOf '-' by decide]
    | minus => simp [exponentPart, hletter, hread]

theorem UnsignedText.starts {n : Number} {own : Bytes} (hown : UnsignedText n own) :
    ∃ byte behind, own = byte :: behind ∧ isDigit byte = true := by
  obtain ⟨hwhole, hsome⟩ := hown
  rename_i whole _ _ _ _ _
  cases whole with
  | nil => exact absurd hwhole.values hsome
  | cons byte whole => exact ⟨byte, _, rfl, hwhole.all byte (by simp)⟩

theorem unsignedNumber_sound {negative : Bool} {n : Number} {bytes rest : Bytes}
    (hread : unsignedNumber negative bytes = some (n, rest)) :
    n.negative = negative ∧ ∃ own, bytes = own ++ rest ∧ UnsignedText n own := by
  simp only [unsignedNumber, Option.bind_eq_bind, Option.bind_eq_some_iff, Option.pure_def,
    Option.some.injEq, Prod.exists, Prod.mk.injEq] at hread
  obtain ⟨whole, behind, hwhole, fraction, behind', hfraction, exponent, rest', hexponent, rfl, rfl⟩ := hread
  obtain ⟨hdigits, hsome, hzero⟩ := wholeDigits_eq_some hwhole
  obtain ⟨own, rfl, hown⟩ := exists_digits hdigits
  obtain ⟨own', rfl, hown'⟩ := fractionPart_sound hfraction
  obtain ⟨own'', rfl, hown''⟩ := exponentPart_sound hexponent
  exact ⟨rfl, own ++ own' ++ own'', by simp, .parts hown hsome hzero hown' hown''⟩

theorem unsignedNumber_complete {n : Number} {own rest : Bytes} (hown : UnsignedText n own)
    (hrest : StartsOutside continuesNumber rest) :
    unsignedNumber n.negative (own ++ rest) = some (n, rest) := by
  obtain ⟨negative, whole, fraction, exponent⟩ := n
  obtain ⟨hwhole, hsome, hzero, hfraction, hexponent⟩ := hown
  rename_i wholeText fractionText exponentText
  dsimp only at hwhole hsome hzero hfraction hexponent ⊢
  have hread := exponentPart_complete hexponent hrest
  have hbehind : StartsOutside isDigit (exponentText ++ rest) ∧
      (exponentText ++ rest).head? ≠ some (byteOf '.') := by
    cases hexponent with
    | none =>
      refine ⟨outside_digits_of_outside hrest, fun hhead => ?_⟩
      have hpoint := hrest _ hhead
      cases hpoint
    | some hletter =>
      refine ⟨fun byte hbyte => ?_, fun hhead => ?_⟩
      · cases hbyte
        rcases hletter with rfl | rfl <;> rfl
      · cases hhead
        rcases hletter with hletter | hletter <;> cases hletter
  have hfractionRead := fractionPart_complete hfraction hbehind.1 hbehind.2
  have houtside : StartsOutside isDigit (fractionText ++ (exponentText ++ rest)) := by
    cases hfraction with
    | none => exact hbehind.1
    | some =>
      intro byte hbyte
      cases hbyte
      rfl
  have hwholeRead := wholeDigits_of_digits (hwhole.read houtside) hsome hzero
  simp [unsignedNumber, hwholeRead, hfractionRead, hread]

/-! ### Texts -/

/-- How a piece of a text is written. -/
inductive PieceText : Piece → Bytes → Prop
  | byte {value : UInt8} (hquote : value ≠ byteOf '"') (hescape : value ≠ byteOf '\\')
      (hprinted : 32 ≤ value.toNat) : PieceText (.byte value) [value]
  | character {letter : UInt8} {c : Char} (hletter : letter ≠ byteOf 'u') (hshort : shortEscape? letter = some c) :
      PieceText (.character c) [byteOf '\\', letter]
  | unit {value : Nat} {digits : Bytes} (hlength : digits.length = 4) (hvalue : hexUnit digits = some (value, [])) :
      PieceText (.unit value) (byteOf '\\' :: byteOf 'u' :: digits)

inductive PiecesText : List Piece → Bytes → Prop
  | nil : PiecesText [] []
  | cons {piece : Piece} {more : List Piece} {own rest : Bytes} (hpiece : PieceText piece own)
      (hmore : PiecesText more rest) : PiecesText (piece :: more) (own ++ rest)

/-- How a text is written behind its opening quote, up to the closing one. Pieces that do not spell any text
leave it without a value. -/
inductive TextText : Option String → Bytes → Prop
  | pieces {pieces : List Piece} {own : Bytes} (hpieces : PiecesText pieces own) :
      TextText ((spell? pieces).bind fun spelled => (Text.Utf8.decode spelled).toOption) (own ++ [byteOf '"'])

theorem hexUnit_eq_some {value : Nat} {bytes rest : Bytes} (hread : hexUnit bytes = some (value, rest)) :
    ∃ digits, bytes = digits ++ rest ∧ digits.length = 4 ∧ hexUnit digits = some (value, []) := by
  unfold hexUnit at hread
  split at hread
  · rename_i a b c d rest'
    simp only [Option.bind_eq_bind, Option.bind_eq_some_iff, Option.pure_def, Option.some.injEq,
      Prod.mk.injEq] at hread
    obtain ⟨a', ha, b', hb, c', hc, d', hd, rfl, rfl⟩ := hread
    exact ⟨[a, b, c, d], rfl, rfl, by simp [hexUnit, ha, hb, hc, hd]⟩
  · cases hread

theorem hexUnit_append {value : Nat} {digits : Bytes} (hlength : digits.length = 4)
    (hvalue : hexUnit digits = some (value, [])) (rest : Bytes) :
    hexUnit (digits ++ rest) = some (value, rest) := by
  match digits, hlength with
  | [a, b, c, d], _ =>
    simp only [hexUnit, Option.bind_eq_bind, Option.bind_eq_some_iff, Option.pure_def, Option.some.injEq,
      Prod.mk.injEq, and_true] at hvalue
    obtain ⟨a', ha, b', hb, c', hc, d', hd, rfl⟩ := hvalue
    simp [hexUnit, ha, hb, hc, hd]

theorem pieces_sound {fuel : Nat} {found : List Piece} {bytes rest : Bytes}
    (hread : pieces fuel bytes = some (found, rest)) :
    ∃ own, bytes = own ++ byteOf '"' :: rest ∧ PiecesText found own := by
  induction fuel generalizing found bytes rest with
  | zero => cases hread
  | succ fuel ih =>
    cases bytes with
    | nil => cases hread
    | cons byte behind =>
      unfold pieces at hread
      split at hread
      · rename_i hquote
        cases hread
        exact ⟨[], by rw [hquote]; rfl, .nil⟩
      split at hread
      · rename_i hescape
        cases behind with
        | nil => cases hread
        | cons letter behind =>
          dsimp only at hread
          split at hread
          · rename_i hunit
            simp only [Option.bind_eq_bind, Option.bind_eq_some_iff, Option.pure_def, Option.some.injEq,
              Prod.exists, Prod.mk.injEq] at hread
            obtain ⟨value, behind', hvalue, more, rest', hmore, rfl, rfl⟩ := hread
            obtain ⟨digits, rfl, hlength, hdigits⟩ := hexUnit_eq_some hvalue
            obtain ⟨own, rfl, hown⟩ := ih hmore
            exact ⟨_, by simp [hescape, hunit], .cons (.unit hlength hdigits) hown⟩
          · rename_i hunit
            simp only [Option.bind_eq_bind, Option.bind_eq_some_iff, Option.pure_def, Option.some.injEq,
              Prod.exists, Prod.mk.injEq] at hread
            obtain ⟨c, hc, more, rest', hmore, rfl, rfl⟩ := hread
            obtain ⟨own, rfl, hown⟩ := ih hmore
            exact ⟨_, by simp [hescape], .cons (.character hunit hc) hown⟩
      split at hread
      · cases hread
      · rename_i hquote hescape hprinted
        simp only [Option.bind_eq_bind, Option.bind_eq_some_iff, Option.pure_def, Option.some.injEq,
          Prod.exists, Prod.mk.injEq] at hread
        obtain ⟨more, rest', hmore, rfl, rfl⟩ := hread
        obtain ⟨own, rfl, hown⟩ := ih hmore
        exact ⟨_, by simp, .cons (.byte hquote hescape (by omega)) hown⟩

theorem pieces_complete {found : List Piece} {own : Bytes} (hown : PiecesText found own) {fuel : Nat}
    (hfuel : own.length < fuel) (rest : Bytes) :
    pieces fuel (own ++ byteOf '"' :: rest) = some (found, rest) := by
  induction hown generalizing fuel with
  | nil =>
    obtain ⟨fuel, rfl⟩ := Nat.exists_eq_add_one_of_ne_zero (Nat.ne_zero_of_lt hfuel)
    rfl
  | @cons piece more own behind hpiece hmore ih =>
    obtain ⟨fuel, rfl⟩ := Nat.exists_eq_add_one_of_ne_zero (Nat.ne_zero_of_lt hfuel)
    rw [List.length_append] at hfuel
    have hescape : byteOf '\\' ≠ byteOf '"' := by decide
    cases hpiece with
    | byte hquote hbackslash hprinted =>
      have hshorter : behind.length < fuel := by
        simp at hfuel
        omega
      simp [pieces, hquote, hbackslash, ih hshorter, Nat.not_lt.mpr hprinted]
    | character hletter hshort =>
      have hshorter : behind.length < fuel := by
        simp at hfuel
        omega
      simp [pieces, hescape, hletter, hshort, ih hshorter]
    | unit hlength hvalue =>
      have hshorter : behind.length < fuel := by
        simp at hfuel
        omega
      simp [pieces, hescape, hexUnit_append hlength hvalue, ih hshorter]

theorem textBody_sound {text : Option String} {bytes rest : Bytes} (hread : textBody bytes = some (text, rest)) :
    ∃ own, bytes = own ++ rest ∧ TextText text own := by
  simp only [textBody, Option.bind_eq_bind, Option.bind_eq_some_iff, Option.pure_def, Option.some.injEq,
    Prod.exists, Prod.mk.injEq] at hread
  obtain ⟨found, rest', hfound, rfl, rfl⟩ := hread
  obtain ⟨own, rfl, hown⟩ := pieces_sound hfound
  exact ⟨own ++ [byteOf '"'], by simp, .pieces hown⟩

theorem textBody_complete {text : Option String} {own : Bytes} (hown : TextText text own) (rest : Bytes) :
    textBody (own ++ rest) = some (text, rest) := by
  obtain ⟨hpieces⟩ := hown
  rename_i pieces own
  have hfuel : own.length < (own ++ byteOf '"' :: rest).length + 1 := by
    rw [List.length_append]
    omega
  rw [List.append_assoc, List.singleton_append, textBody, pieces_complete hpieces hfuel rest]
  rfl

end TransferLoad.Json
