import Mathlib
import TransferLoad.Text.Blank

/-!
# Texts without blanks around them

Trimming cuts a text down to one that neither starts nor ends with a blank, and leaves such a text as it
is.
-/

namespace TransferLoad.Text

structure Trimmed (chars : List Char) : Prop where
  start : ∀ c ∈ chars.head?, isBlank c = false
  finish : ∀ c ∈ chars.getLast?, isBlank c = false

theorem trimmed_iff {chars : List Char} :
    Trimmed chars ↔ (∀ c ∈ chars.head?, isBlank c = false) ∧ ∀ c ∈ chars.getLast?, isBlank c = false :=
  ⟨fun h => ⟨h.start, h.finish⟩, fun h => ⟨h.1, h.2⟩⟩

instance : DecidablePred Trimmed := fun _ => decidable_of_iff' _ trimmed_iff

theorem isBlank_of_printable {c : Char} (hc : 33 ≤ c.toNat ∧ c.toNat ≤ 126) : isBlank c = false := by
  simp only [isBlank, Bool.or_eq_false_iff, Bool.and_eq_false_iff, decide_eq_false_iff_not]
  omega

theorem head?_dropWhile_isBlank (chars : List Char) :
    ∀ c ∈ (chars.dropWhile isBlank).head?, isBlank c = false := by
  intro c hc
  have hstop := List.head?_dropWhile_not isBlank chars
  rw [Option.mem_def.mp hc] at hstop
  exact hstop

theorem trimEnd_initial (chars : List Char) : trimEnd chars <+: chars := by
  rw [← List.reverse_suffix, trimEnd, List.reverse_reverse]
  exact List.dropWhile_suffix _

theorem trimStart_eq_self {chars : List Char} (hstart : ∀ c ∈ chars.head?, isBlank c = false) :
    trimStart chars = chars := by
  cases chars with
  | nil => rfl
  | cons c rest => exact List.dropWhile_cons_of_neg (by simp [hstart c rfl])

theorem trimmed_trim (chars : List Char) : Trimmed (trim chars) where
  start := by
    intro c hc
    obtain ⟨further, hsplit⟩ := trimEnd_initial (trimStart chars)
    change trim chars ++ further = trimStart chars at hsplit
    have hfirst : c ∈ (trimStart chars).head? := by
      rw [← hsplit, List.head?_append, Option.mem_def.mp hc]
      rfl
    exact head?_dropWhile_isBlank chars c hfirst
  finish := by
    intro c hc
    rw [trim, trimEnd, List.getLast?_reverse] at hc
    exact head?_dropWhile_isBlank _ c hc

theorem Trimmed.trim_eq {chars : List Char} (h : Trimmed chars) : trim chars = chars := by
  have hreverse : trimStart chars.reverse = chars.reverse := by
    apply trimStart_eq_self
    rw [List.head?_reverse]
    exact h.finish
  rw [trim, trimStart_eq_self h.start, trimEnd]
  change (trimStart chars.reverse).reverse = chars
  rw [hreverse, List.reverse_reverse]

theorem mem_of_mem_trim {chars : List Char} {c : Char} (hc : c ∈ trim chars) : c ∈ chars :=
  (List.dropWhile_suffix _).subset ((trimEnd_initial _).subset hc)

/-- A character that is no blank stays where it is at the start. -/
theorem trim_cons_of_not_blank {c : Char} (hc : isBlank c = false) (rest : List Char) :
    ∃ kept, trim (c :: rest) = c :: kept := by
  have hstart : trimStart (c :: rest) = c :: rest :=
    List.dropWhile_cons_of_neg (by rw [hc]; exact Bool.false_ne_true)
  obtain ⟨further, hsplit⟩ := trimEnd_initial (c :: rest)
  rw [trim, hstart]
  cases hkept : trimEnd (c :: rest) with
  | nil =>
    have hall : ∀ x ∈ (c :: rest).reverse, isBlank x = true := by
      rw [trimEnd, List.reverse_eq_nil_iff, List.dropWhile_eq_nil_iff] at hkept
      exact hkept
    have hblank := hall c (List.mem_reverse.mpr List.mem_cons_self)
    rw [hc] at hblank
    cases hblank
  | cons first kept =>
    rw [hkept, List.cons_append, List.cons.injEq] at hsplit
    exact ⟨kept, by rw [hsplit.1]⟩

end TransferLoad.Text
