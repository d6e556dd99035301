import Mathlib
import TransferLoad.Run.Engine

/-!
# What the operations of a worker change

Each operation of a worker on what is shared changes a few things and leaves the others alone. Losing
an attempt moves the count of errors, gaining one moves the count of accepted transfers and hands the
identifier to the artifact; both take down one settlement. Drawing up an attempt moves one counter.
Notices are the only part that the limits on their number decide about, so they stay open here.
-/

namespace TransferLoad

theorem forall_mem_replace {α : Type} {P : α → Prop} {before after : List α} {old new : α}
    (hall : ∀ x ∈ before ++ old :: after, P x) (hnew : P new) : ∀ x ∈ before ++ new :: after, P x := by
  simp only [List.forall_mem_append, List.forall_mem_cons] at hall ⊢
  exact ⟨hall.1, hnew, hall.2.2⟩

theorem ne_of_nodup_map {α β : Type} {f : α → β} {before after : List α} {old : α}
    (hdistinct : ((before ++ old :: after).map f).Nodup) : ∀ x ∈ before ++ after, f old ≠ f x := by
  rw [List.map_append, List.map_cons, List.perm_middle.nodup_iff, ← List.map_append,
    List.nodup_cons] at hdistinct
  intro x hx heq
  exact hdistinct.1 (heq ▸ List.mem_map_of_mem hx)

/-- One of several things with different keys is replaced, and what was so of the others becomes otherwise. -/
theorem forall_mem_replace_of_nodup {α β : Type} {f : α → β} {P Q : α → Prop} {before after : List α}
    {old new : α} (hdistinct : ((before ++ old :: after).map f).Nodup)
    (hall : ∀ x ∈ before ++ old :: after, P x) (hothers : ∀ x, f old ≠ f x → P x → Q x) (hnew : Q new) :
    ∀ x ∈ before ++ new :: after, Q x := by
  intro x hx
  rcases List.mem_cons.mp (List.perm_middle.mem_iff.mp hx) with rfl | hrest
  · exact hnew
  · refine hothers x (ne_of_nodup_map hdistinct x hrest) (hall x ?_)
    exact List.perm_middle.mem_iff.mpr (List.mem_cons_of_mem old hrest)

theorem sum_map_add_sum_map {α : Type} {f g h : α → Nat} {xs : List α}
    (hadd : ∀ x ∈ xs, f x + g x = h x) : (xs.map f).sum + (xs.map g).sum = (xs.map h).sum := by
  induction xs with
  | nil => rfl
  | cons x xs ih =>
    have hhead := hadd x List.mem_cons_self
    have htail := ih fun y hy => hadd y (List.mem_cons_of_mem x hy)
    simp only [List.map_cons, List.sum_cons]
    omega

theorem filterMap_middle_perm {α β : Type} (f : α → Option β) (before after : List α) (x : α) :
    ((before ++ x :: after).filterMap f).Perm ((f x).toList ++ (before ++ after).filterMap f) := by
  refine (List.perm_middle.filterMap f).trans ?_
  cases hx : f x with
  | none =>
    rw [List.filterMap_cons_none hx]
    exact List.Perm.refl _
  | some y =>
    rw [List.filterMap_cons_some hx]
    exact List.Perm.refl _

variable {ω : Type}

/-! ### Drawing up an attempt -/

/-- The intent of the next attempt of a worker, but for the recipient. -/
structure Worker.Intends (s : Shared ω) (w : Worker) (intent : Intent) : Prop where
  sender : intent.sender = w.address
  sequence : intent.sequence = (s.counters.getD w.sender {}).next

/-- One number is drawn, one attempt is noted and counted. -/
theorem Worker.prepare_eq {c : RunContext} {now : Nat} {s s₁ : Shared ω} {w w₁ : Worker} {a : Attempt}
    (hprepare : w.prepare c now s = (a, s₁, w₁)) :
    ∃ intent selector, Worker.Intends s w intent ∧ a = ⟨w.summary.id, now, intent, c.signer intent w.key⟩ ∧
      s₁ = { s with
        counters := s.counters.set w.sender (s.counters.getD w.sender {}).draw.2
        attempts := a :: s.attempts } ∧
      w₁ = { w with
        selector, summary := { w.summary with attempted := w.summary.attempted + 1 } } := by
  simp only [Worker.prepare, Worker.intend, Shared.draw, Prod.mk.injEq] at hprepare
  obtain ⟨rfl, rfl, rfl⟩ := hprepare
  exact ⟨_, _, ⟨rfl, rfl⟩, rfl, rfl, rfl⟩

/-! ### Writing down how an attempt ended -/

theorem Shared.fail_eq (c : RunContext) (s : Shared ω) (w : Worker) (sequence : UInt64)
    (reason : String) :
    ∃ notices, s.fail c w sequence reason = { s with tally := s.tally.add .failed, notices } := by
  unfold Shared.fail
  dsimp only
  split
  · exact ⟨_, rfl⟩
  · exact ⟨s.notices, rfl⟩

theorem Worker.lose_eq (c : RunContext) (now : Nat) (intent : Intent) (fate : Fate) (reason : String)
    (s : Shared ω) (w : Worker) :
    ∃ notices, w.lose c now intent fate reason s =
      ({ s with
          tally := s.tally.add .failed
          settlements := ⟨w.summary.id, now, intent, fate⟩ :: s.settlements
          notices },
        w.failed) := by
  obtain ⟨notices, hfail⟩ := (s.settle w now intent fate).fail_eq c w intent.sequence reason
  refine ⟨notices, ?_⟩
  rw [Worker.lose, hfail]
  rfl

variable [Writer ω]

theorem ResultSink.record_unrecorded_le (sink : ResultSink ω) (identifier : String) :
    (sink.record identifier).2.unrecorded ≤ sink.unrecorded + 1 := by
  unfold ResultSink.record
  split
  · exact Nat.le_succ _
  · exact Nat.le_refl _

theorem Shared.accept_eq (c : RunContext) (s : Shared ω) (w : Worker) (identifier : String) :
    ∃ notices, s.accept c w identifier =
      { s with tally := s.tally.add .sent, sink := (s.sink.record identifier).2, notices } := by
  unfold Shared.accept
  dsimp only
  rcases s.sink.record identifier with ⟨_ | _, sink⟩
  · dsimp only
    split
    · exact ⟨_, rfl⟩
    · exact ⟨s.notices, rfl⟩
  · exact ⟨s.notices, rfl⟩

theorem Worker.gain_eq (c : RunContext) (now : Nat) (intent : Intent) (identifier : String)
    (s : Shared ω) (w : Worker) :
    ∃ notices, w.gain c now intent identifier s =
      ({ s with
          tally := s.tally.add .sent
          sink := (s.sink.record identifier).2
          settlements := ⟨w.summary.id, now, intent, .accepted identifier⟩ :: s.settlements
          notices },
        w.accepted) := by
  obtain ⟨notices, haccept⟩ :=
    (s.settle w now intent (.accepted identifier)).accept_eq c w identifier
  refine ⟨notices, ?_⟩
  rw [Worker.gain, haccept]
  rfl

end TransferLoad
