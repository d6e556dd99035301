import Mathlib
import TransferLoad.Verification

/-!
# Lookups side by side

Identifiers are looked up in a window: the next one goes in as long as there is room, and any of those inside
may be the next to be settled. Each identifier goes in once and is settled once, so the order in which they
are settled is a rearrangement of the list. Through a window with room for one they come out as they went in.

A report knows nothing but this order. It is what a pass through the identifiers in this order reports, and
from its counts and its samples the order can no longer be told, as far as the counts are concerned.
-/

namespace TransferLoad

/-! ### One pass -/

/-- An answer for each identifier, whenever it is asked for. -/
abbrev Answers := String → Except Failure TransferStatus

namespace Answers

variable (answers : Answers)

def isKnown (identifier : String) : Bool := answers identifier = .ok .known

def isUnknown (identifier : String) : Bool := answers identifier = .ok .unknown

def isFailed (identifier : String) : Bool := !(answers identifier).isOk

end Answers

theorem take_concat_eq {α : Type} (count : Nat) (xs : List α) (x : α) :
    (xs ++ [x]).take count =
      if (xs.take count).length < count then xs.take count ++ [x] else xs.take count := by
  rw [List.length_take]
  split
  · rename_i hshort
    have hxs : xs.length < count := by omega
    rw [List.take_of_length_le (by simpa using hxs), List.take_of_length_le (Nat.le_of_lt hxs)]
  · rename_i hlong
    exact List.take_append_of_le_length (by omega)

namespace VerificationReport

variable {answers : Answers}

/-- The report of a pass that has asked about some identifiers one by one, of so many in all. -/
def pass (answers : Answers) (total : Nat) (order : List String) : VerificationReport :=
  order.foldl (fun report identifier => report.take identifier (answers identifier)) { total }

theorem pass_concat (total : Nat) (order : List String) (identifier : String) :
    pass answers total (order ++ [identifier]) =
      (pass answers total order).take identifier (answers identifier) :=
  List.foldl_concat ..

/-- A pass counts the answers of each kind and keeps the first known identifiers as samples. -/
theorem pass_eq (total : Nat) (order : List String) :
    pass answers total order =
      { total
        known := order.countP answers.isKnown
        unknown := order.countP answers.isUnknown
        failed := order.countP answers.isFailed
        samples := (order.filter answers.isKnown).take 10 } := by
  induction order using List.reverseRecOn with
  | nil => rfl
  | append_singleton order identifier ih =>
    rw [pass_concat, ih]
    cases hanswer : answers identifier with
    | error cause =>
      simp [take, hanswer, Answers.isKnown, Answers.isUnknown, Answers.isFailed, Except.isOk, Except.toBool]
    | ok status =>
      cases status <;>
        simp [take, maxSamples, hanswer, Answers.isKnown, Answers.isUnknown, Answers.isFailed, Except.isOk,
          Except.toBool, take_concat_eq]

theorem checked_take (report : VerificationReport) (identifier : String)
    (answer : Except Failure TransferStatus) :
    (report.take identifier answer).checked = report.checked + 1 := by
  rcases answer with cause | _ | _ <;> simp only [take, checked] <;> omega

theorem checked_pass (total : Nat) (order : List String) :
    (pass answers total order).checked = order.length := by
  induction order using List.reverseRecOn with
  | nil => rfl
  | append_singleton order identifier ih =>
    rw [pass_concat, checked_take, ih, List.length_append, List.length_singleton]

/-- A report about some identifiers that counts like a pass through them and has the samples it should have,
each a known identifier and none of them more often than it is there. -/
structure Covers (report : VerificationReport) (answers : Answers) (identifiers : List String) : Prop where
  total : report.total = identifiers.length
  checked : report.known + report.unknown + report.failed = report.total
  known : report.known = (pass answers identifiers.length identifiers).known
  unknown : report.unknown = (pass answers identifiers.length identifiers).unknown
  failed : report.failed = (pass answers identifiers.length identifiers).failed
  samples_length : report.samples.length = min 10 report.known
  samples_known : ∀ sample ∈ report.samples, answers sample = .ok .known
  samples_count : ∀ sample, report.samples.count sample ≤ identifiers.count sample

/-- A pass in another order covers the same identifiers. -/
theorem covers_pass {order identifiers : List String} (hperm : order.Perm identifiers) :
    (pass answers identifiers.length order).Covers answers identifiers := by
  have hchecked : (pass answers identifiers.length order).checked = order.length := checked_pass _ _
  rw [hperm.length_eq] at hchecked
  simp only [checked, pass_eq] at hchecked
  have hsublist : ((order.filter answers.isKnown).take 10).Sublist order :=
    (List.take_sublist _ _).trans List.filter_sublist
  constructor <;> simp only [pass_eq]
  · exact hchecked
  · exact hperm.countP_eq _
  · exact hperm.countP_eq _
  · exact hperm.countP_eq _
  · rw [List.length_take, List.countP_eq_length_filter]
  · intro sample hsample
    have hknown := (List.mem_filter.mp (List.mem_of_mem_take hsample)).2
    exact of_decide_eq_true hknown
  · intro sample
    exact (hsublist.count_le sample).trans_eq (hperm.count_eq sample)

end VerificationReport

/-! ### Windows -/

structure Window where
  remaining : List String
  flying : List String := []
  /-- In the order in which they were settled. -/
  settled : List String := []

namespace Window

inductive Step (width : Nat) : Window → Window → Prop where
  | launch {identifier : String} {remaining flying settled : List String} (hroom : flying.length < width) :
      Step width ⟨identifier :: remaining, flying, settled⟩ ⟨remaining, flying ++ [identifier], settled⟩
  | land {identifier : String} {remaining before after settled : List String} :
      Step width ⟨remaining, before ++ identifier :: after, settled⟩
        ⟨remaining, before ++ after, settled ++ [identifier]⟩

def Reaches (width : Nat) : Window → Window → Prop := Relation.ReflTransGen (Step width)

/-- All identifiers: those that were settled, those in the window and those before it. -/
def entries (w : Window) : List String := w.settled ++ (w.flying ++ w.remaining)

variable {width : Nat} {w w' : Window}

theorem Step.entries_perm (hstep : Step width w w') : w'.entries.Perm w.entries := by
  rw [List.perm_iff_count]
  intro identifier
  cases hstep with
  | launch hroom => simp [entries]
  | land =>
    simp only [entries, List.count_append, List.count_cons, List.count_nil]
    omega

theorem Reaches.entries_perm (hreach : Reaches width w w') : w'.entries.Perm w.entries := by
  induction hreach with
  | refl => exact List.Perm.refl _
  | tail _ hlast ih => exact hlast.entries_perm.trans ih

/-- As many identifiers as there is room for go into the window, one by one. -/
theorem reaches_launch {count : Nat} {remaining flying settled : List String}
    (hroom : count ≤ width - flying.length) :
    Reaches width ⟨remaining, flying, settled⟩
      ⟨remaining.drop count, flying ++ remaining.take count, settled⟩ := by
  induction count generalizing remaining flying with
  | zero =>
    simp only [List.drop_zero, List.take_zero, List.append_nil]
    exact Relation.ReflTransGen.refl
  | succ count ih =>
    cases remaining with
    | nil =>
      simp only [List.drop_nil, List.take_nil, List.append_nil]
      exact Relation.ReflTransGen.refl
    | cons identifier rest =>
      have hfirst : Step width ⟨identifier :: rest, flying, settled⟩ ⟨rest, flying ++ [identifier], settled⟩ :=
        .launch (by omega)
      have hroom' : count ≤ width - (flying ++ [identifier]).length := by
        rw [List.length_append, List.length_singleton]
        omega
      have hrest : Reaches width ⟨rest, flying ++ [identifier], settled⟩
          ⟨rest.drop count, (flying ++ [identifier]) ++ rest.take count, settled⟩ := ih hroom'
      rw [List.append_assoc] at hrest
      exact Relation.ReflTransGen.head hfirst hrest

/-- Whatever is settled next, a window goes on as long as something is left. -/
theorem exists_step (hwidth : 0 < width) (hleft : w.flying ++ w.remaining ≠ []) : ∃ w', Step width w w' := by
  obtain ⟨remaining, flying, settled⟩ := w
  cases flying with
  | cons identifier rest =>
    have hland : Step width ⟨remaining, [] ++ identifier :: rest, settled⟩
        ⟨remaining, [] ++ rest, settled ++ [identifier]⟩ := .land
    exact ⟨_, hland⟩
  | nil =>
    cases remaining with
    | nil => exact absurd rfl hleft
    | cons identifier rest => exact ⟨_, .launch hwidth⟩

/-- The steps that are left: one into the window and one out of it. -/
def potential (w : Window) : Nat := 2 * w.remaining.length + w.flying.length

theorem Step.potential_eq (hstep : Step width w w') : w.potential = w'.potential + 1 := by
  cases hstep <;> simp only [potential, List.length_append, List.length_cons, List.length_nil] <;> omega

theorem not_step_done (settled : List String) (w' : Window) :
    ¬Step width { remaining := [], settled } w' := by
  intro hstep
  have hpotential : 0 = w'.potential + 1 := hstep.potential_eq
  omega

/-- A window of this width can settle the identifiers in this order, and stop. -/
def Settles (width : Nat) (identifiers order : List String) : Prop :=
  ∃ w, Reaches width { remaining := identifiers } w ∧ (∀ w', ¬Step width w w') ∧ w.settled = order

variable {identifiers order : List String}

theorem Settles.reaches (hsettles : Settles width identifiers order) (hwidth : 0 < width) :
    Reaches width { remaining := identifiers } { remaining := [], settled := order } := by
  obtain ⟨⟨remaining, flying, settled⟩, hreach, hstuck, rfl⟩ := hsettles
  have hnone : flying ++ remaining = [] := by
    by_contra hleft
    obtain ⟨w', hstep⟩ := exists_step (w := ⟨remaining, flying, settled⟩) hwidth hleft
    exact hstuck w' hstep
  obtain ⟨rfl, rfl⟩ := List.append_eq_nil_iff.mp hnone
  exact hreach

theorem Settles.perm (hsettles : Settles width identifiers order) (hwidth : 0 < width) :
    order.Perm identifiers := by
  have hentries := (hsettles.reaches hwidth).entries_perm
  simpa [entries] using hentries

end Window

end TransferLoad
