import Mathlib
import TransferLoad.Run.Quota

/-!
# The budget and its shares

However a budget is split, what the workers get and what is dropped make it up again, and no sum on the
way is more than the budget. The workers that get one transfer more than others are the first ones, as many
as the division leaves over.

A worker's share and its pacing delay are both rounded down. So a share at this pace fits into the time that
the run was given, and one transfer more, with a nanosecond more for each, would not.
-/

namespace TransferLoad

namespace QuotaPlan

variable {totalBudget workers : Nat} {policy : RemainderPolicy}

/-! ### Shares and their sums -/

/-- How many workers get one transfer more than the others. -/
def extras (totalBudget workers : Nat) : RemainderPolicy → Nat
  | .truncate => 0
  | .distribute => totalBudget % workers

theorem extras_le_mod : extras totalBudget workers policy ≤ totalBudget % workers := by
  cases policy with
  | truncate => exact Nat.zero_le _
  | distribute => exact Nat.le_refl _

theorem share_eq (totalBudget workers : Nat) (policy : RemainderPolicy) (position : Nat) :
    share totalBudget workers policy position =
      totalBudget / workers + if position < extras totalBudget workers policy then 1 else 0 := by
  cases policy with
  | truncate => rfl
  | distribute =>
    by_cases hextra : position < totalBudget % workers
    · rw [share, extras, if_pos hextra, if_pos hextra]
    · rw [share, extras, if_neg hextra, if_neg hextra, Nat.add_zero]

theorem sum_shares (totalBudget workers : Nat) (policy : RemainderPolicy) (count : Nat) :
    ((List.range count).map (share totalBudget workers policy)).sum =
      totalBudget / workers * count + min count (extras totalBudget workers policy) := by
  induction count with
  | zero => simp
  | succ count ih =>
    rw [List.range_succ, List.map_append, List.sum_append, ih, List.map_singleton, List.sum_singleton,
      share_eq, Nat.mul_succ]
    split <;> omega

theorem scheduled_split (totalBudget workers : Nat) (policy : RemainderPolicy) :
    (split totalBudget workers policy).scheduled =
      totalBudget / workers * workers + min workers (extras totalBudget workers policy) :=
  sum_shares totalBudget workers policy workers

/-- Whole shares and extras up to any worker stay within the budget. -/
theorem sum_take_le (totalBudget workers : Nat) (policy : RemainderPolicy) (count : Nat) :
    ((split totalBudget workers policy).quotas.take count).sum ≤ totalBudget := by
  rw [split, ← List.map_take, List.take_range, sum_shares]
  have hextras : extras totalBudget workers policy ≤ totalBudget % workers := extras_le_mod
  have hdivision := Nat.div_add_mod' totalBudget workers
  have hfirst : totalBudget / workers * min count workers ≤ totalBudget / workers * workers :=
    Nat.mul_le_mul_left _ (Nat.min_le_right count workers)
  omega

theorem scheduled_le (totalBudget workers : Nat) (policy : RemainderPolicy) :
    (split totalBudget workers policy).scheduled ≤ totalBudget := by
  have hall := sum_take_le totalBudget workers policy (split totalBudget workers policy).quotas.length
  rwa [List.take_length] at hall

/-! ### Plans -/

/-- A plan for so many workers that accounts for the whole budget, without counting past it on the way. -/
structure AccountsFor (p : QuotaPlan) (totalBudget workers : Nat) : Prop where
  length_eq : p.quotas.length = workers
  accounted : p.scheduled + p.dropped = totalBudget
  within : ∀ count, (p.quotas.take count).sum ≤ totalBudget
  unworked : workers = 0 → p.dropped = totalBudget

theorem accountsFor_split (totalBudget workers : Nat) (policy : RemainderPolicy) :
    (split totalBudget workers policy).AccountsFor totalBudget workers where
  length_eq := by rw [split, List.length_map, List.length_range]
  accounted := Nat.add_sub_of_le (scheduled_le totalBudget workers policy)
  within := sum_take_le totalBudget workers policy
  unworked := by
    rintro rfl
    rfl

theorem dropped_split (hworkers : 0 < workers) (policy : RemainderPolicy) :
    (split totalBudget workers policy).dropped =
      totalBudget % workers - extras totalBudget workers policy := by
  have hextras : extras totalBudget workers policy ≤ totalBudget % workers := extras_le_mod
  have hless := Nat.mod_lt totalBudget hworkers
  have hdivision := Nat.div_add_mod' totalBudget workers
  have htotal : (split totalBudget workers policy).totalBudget = totalBudget := rfl
  rw [dropped, htotal, scheduled_split]
  omega

theorem quotas_truncate (totalBudget workers : Nat) :
    (split totalBudget workers .truncate).quotas = List.replicate workers (totalBudget / workers) := by
  have hconstant : share totalBudget workers .truncate = Function.const Nat (totalBudget / workers) := rfl
  rw [split, hconstant, List.map_const, List.length_range]

theorem quotas_distribute (totalBudget workers : Nat) :
    (split totalBudget workers .distribute).quotas =
      (split totalBudget workers .truncate).quotas.mapIdx fun position quota =>
        quota + if position < totalBudget % workers then 1 else 0 := by
  refine List.ext_getElem (by simp [split]) fun position hposition _ => ?_
  simp only [split, List.getElem_map, List.getElem_range, List.getElem_mapIdx]
  exact share_eq totalBudget workers .distribute position

/-- Later workers get no more than earlier ones, and one less at most. -/
theorem pairwise_distribute (totalBudget workers : Nat) :
    (split totalBudget workers .distribute).quotas.Pairwise fun earlier later =>
      later ≤ earlier ∧ earlier ≤ later + 1 := by
  refine List.pairwise_map.mpr (List.pairwise_lt_range.imp fun {first second} horder => ?_)
  rw [share_eq, share_eq]
  split <;> split <;> omega

theorem mem_distribute {quota : Nat} (hquota : quota ∈ (split totalBudget workers .distribute).quotas) :
    quota = totalBudget / workers ∨ quota = totalBudget / workers + 1 := by
  obtain ⟨position, -, rfl⟩ := List.mem_map.mp hquota
  rw [share_eq]
  split
  · exact Or.inr rfl
  · exact Or.inl rfl

/-- Each budget is accounted for under both policies. Without the remainder the shares are equal; with it nothing
is dropped, and the first workers get one transfer more, as many of them as the remainder has. -/
theorem split_spec (totalBudget workers : Nat) :
    (∀ policy, (split totalBudget workers policy).AccountsFor totalBudget workers) ∧
    (split totalBudget workers .truncate).quotas = List.replicate workers (totalBudget / workers) ∧
    (split totalBudget workers .distribute).quotas.Pairwise (fun earlier later =>
      later ≤ earlier ∧ earlier ≤ later + 1) ∧
    ((split totalBudget workers .distribute).quotas =
      (split totalBudget workers .truncate).quotas.mapIdx fun position quota =>
        quota + if position < totalBudget % workers then 1 else 0) ∧
    (0 < workers → (split totalBudget workers .truncate).dropped = totalBudget % workers ∧
      (split totalBudget workers .distribute).dropped = 0) := by
  refine ⟨accountsFor_split totalBudget workers, quotas_truncate totalBudget workers,
    pairwise_distribute totalBudget workers, quotas_distribute totalBudget workers, fun hworkers => ⟨?_, ?_⟩⟩
  · exact dropped_split hworkers .truncate
  · exact (dropped_split hworkers .distribute).trans (Nat.sub_self _)

theorem split_spec_hundred :
    (split 100 7 .distribute).quotas = [15, 15, 14, 14, 14, 14, 14] ∧
    (split 100 7 .truncate).dropped = 2 ∧ (split 100 7 .distribute).dropped = 0 := by
  obtain ⟨htruncate, hdistribute⟩ := (split_spec 100 7).2.2.2.2 (by decide)
  exact ⟨by decide, htruncate, hdistribute⟩

end QuotaPlan

/-! ### Shares at the pace of the run -/

namespace RunSettings

open QuotaPlan

variable {s : RunSettings}

theorem totalBudget_lt (s : RunSettings) : s.totalBudget < UInt64.size :=
  Nat.lt_of_le_of_lt (Nat.min_le_right _ maxWord) (by decide)

theorem pacingDelay_le (s : RunSettings) :
    s.pacingDelay ≤ 1_000_000_000 * s.workers.toNat / s.targetTps.toNat := by
  unfold pacingDelay
  split
  · exact Nat.zero_le _
  · exact Nat.min_le_left _ _

theorem pacingDelay_eq_of_lt (htarget : 0 < s.targetTps.toNat)
    (hdelay : 1_000_000_000 * s.workers.toNat / s.targetTps.toNat < 2 ^ 64) :
    s.pacingDelay = 1_000_000_000 * s.workers.toNat / s.targetTps.toNat := by
  have hne : s.targetTps ≠ 0 := by
    intro hzero
    rw [hzero] at htarget
    exact absurd htarget (by decide)
  rw [pacingDelay, if_neg hne]
  exact Nat.min_eq_left (Nat.le_pred_of_lt hdelay)

/-- A share at the pace of the run fits into the time that the run was given. -/
theorem share_mul_pacingDelay_le (s : RunSettings) :
    s.totalBudget / s.workers.toNat * s.pacingDelay ≤ nanosOfSecs s.durationSecs := by
  rcases Nat.eq_zero_or_pos s.targetTps.toNat with hzero | htarget
  · have hnothing : s.totalBudget = 0 := by rw [totalBudget, hzero, Nat.zero_mul, Nat.zero_min]
    rw [hnothing, Nat.zero_div, Nat.zero_mul]
    exact Nat.zero_le _
  rcases Nat.eq_zero_or_pos s.workers.toNat with hnone | hworkers
  · rw [hnone, Nat.div_zero, Nat.zero_mul]
    exact Nat.zero_le _
  have hbudget : s.totalBudget ≤ s.targetTps.toNat * s.durationSecs.toNat := Nat.min_le_left _ _
  calc
    s.totalBudget / s.workers.toNat * s.pacingDelay
      ≤ (s.targetTps.toNat * s.durationSecs.toNat) / s.workers.toNat *
          (1_000_000_000 * s.workers.toNat / s.targetTps.toNat) :=
        Nat.mul_le_mul (Nat.div_le_div_right hbudget) s.pacingDelay_le
    _ ≤ s.targetTps.toNat * s.durationSecs.toNat * (1_000_000_000 * s.workers.toNat) /
          (s.workers.toNat * s.targetTps.toNat) := Nat.div_mul_div_le _ _ _ _
    _ = nanosOfSecs s.durationSecs := by
        refine Nat.div_eq_of_eq_mul_left (Nat.mul_pos hworkers htarget) ?_
        rw [nanosOfSecs]
        ring

/-- One transfer more, and a nanosecond more for each, would take longer than the run was given. -/
theorem nanosOfSecs_lt_of_fits (htarget : 0 < s.targetTps.toNat) (hworkers : 0 < s.workers.toNat)
    (hbudget : s.targetTps.toNat * s.durationSecs.toNat < 2 ^ 64)
    (hdelay : 1_000_000_000 * s.workers.toNat / s.targetTps.toNat < 2 ^ 64) :
    nanosOfSecs s.durationSecs < (s.totalBudget / s.workers.toNat + 1) * (s.pacingDelay + 1) := by
  have htotal : s.totalBudget = s.targetTps.toNat * s.durationSecs.toNat :=
    Nat.min_eq_left (Nat.le_pred_of_lt hbudget)
  have hshare : s.totalBudget < s.workers.toNat * (s.totalBudget / s.workers.toNat + 1) :=
    Nat.lt_mul_div_succ _ hworkers
  have hgap : 1_000_000_000 * s.workers.toNat < s.targetTps.toNat * (s.pacingDelay + 1) := by
    rw [pacingDelay_eq_of_lt htarget hdelay]
    exact Nat.lt_mul_div_succ _ htarget
  refine Nat.lt_of_mul_lt_mul_left (a := s.targetTps.toNat * s.workers.toNat) ?_
  calc
    s.targetTps.toNat * s.workers.toNat * nanosOfSecs s.durationSecs
      = s.totalBudget * (1_000_000_000 * s.workers.toNat) := by
        rw [htotal, nanosOfSecs]
        ring
    _ < s.workers.toNat * (s.totalBudget / s.workers.toNat + 1) * (s.targetTps.toNat * (s.pacingDelay + 1)) :=
        Nat.mul_lt_mul'' hshare hgap
    _ = s.targetTps.toNat * s.workers.toNat *
          ((s.totalBudget / s.workers.toNat + 1) * (s.pacingDelay + 1)) := by ring

/-- The budget at the pace of the run takes as long as the run was given, up to one transfer and one nanosecond
for each. Handing out the remainder makes this longer by one gap at most. -/
theorem paced_time_bounds (s : RunSettings) :
    ∃ quota, (split s.totalBudget s.workers.toNat .truncate).quotas = List.replicate s.workers.toNat quota ∧
      quota * s.pacingDelay ≤ nanosOfSecs s.durationSecs ∧
      (∀ own ∈ (split s.totalBudget s.workers.toNat .distribute).quotas, (own = quota ∨ own = quota + 1) ∧
        own * s.pacingDelay ≤ nanosOfSecs s.durationSecs + s.pacingDelay) ∧
      (0 < s.targetTps.toNat → 0 < s.workers.toNat →
        s.targetTps.toNat * s.durationSecs.toNat < 2 ^ 64 →
        1_000_000_000 * s.workers.toNat / s.targetTps.toNat < 2 ^ 64 →
        nanosOfSecs s.durationSecs < (quota + 1) * (s.pacingDelay + 1)) := by
  have hfits := s.share_mul_pacingDelay_le
  refine ⟨s.totalBudget / s.workers.toNat, quotas_truncate _ _, hfits, fun own hown => ?_,
    nanosOfSecs_lt_of_fits⟩
  have hcases := mem_distribute hown
  refine ⟨hcases, ?_⟩
  rcases hcases with rfl | rfl
  · exact Nat.le_add_right_of_le hfits
  · rw [Nat.succ_mul]
    exact Nat.add_le_add_right hfits _

/-- Ten transfers a second for two seconds, by three workers: one from each every 0.3 seconds. -/
theorem paced_time_bounds_twenty :
    let s : RunSettings := { targetTps := 10, durationSecs := 2, workers := 3 }
    s.pacingDelay = 300_000_000 ∧
      ∃ quota, (split s.totalBudget 3 .truncate).quotas = List.replicate 3 quota ∧
        quota * s.pacingDelay ≤ nanosOfSecs 2 ∧ nanosOfSecs 2 < (quota + 1) * (s.pacingDelay + 1) := by
  intro s
  obtain ⟨quota, hquotas, hfits, -, hclose⟩ := paced_time_bounds s
  exact ⟨by decide, quota, hquotas, hfits, hclose (by decide) (by decide) (by decide) (by decide)⟩

end RunSettings

end TransferLoad
