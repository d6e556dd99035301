import Mathlib.Tactic.SplitIfs
import TransferLoad.Settings.Basic

/-!
# Settings in order

Settings are accepted exactly if they are in order: there are accounts of both kinds and a node to ask, rounds
of waiting are apart, and the settings of the run allow for at least one transfer and one worker and name an
output. What is filled in before the check is the number of workers only, where it is zero. All that is known
of the checks stands here.
-/

namespace TransferLoad

/-- Nothing in the settings of a run keeps it from starting. -/
structure RunSettings.InOrder (s : RunSettings) : Prop where
  rate : s.targetTps ≠ 0
  duration : s.durationSecs ≠ 0
  workers : s.workers ≠ 0
  output : s.output ≠ ""
  reportInterval : s.reportIntervalMs ≠ 0

/-- Nothing in the settings keeps a run from being configured. -/
structure Settings.InOrder (s : Settings) : Prop where
  senders : s.accounts.senders ≠ 0
  recipients : s.accounts.recipients ≠ 0
  url : Text.trim s.rpcUrl.toList ≠ []
  pollInterval : s.funding.pollIntervalSecs ≠ 0
  run : s.run.InOrder

theorem toNat_pos_of_ne_zero {n : UInt64} (hne : n ≠ 0) : 0 < n.toNat :=
  UInt64.lt_iff_toNat_lt.mp (UInt64.pos_iff_ne_zero.mpr hne)

namespace RunSettings

variable {s : RunSettings}

theorem fault?_eq_none_iff : s.fault? = none ↔ s.InOrder := by
  constructor
  · intro hsound
    unfold fault? at hsound
    split_ifs at hsound with hrate hduration hworkers houtput hinterval
    exact ⟨hrate, hduration, hworkers, fun hempty => houtput (String.isEmpty_iff.mpr hempty), hinterval⟩
  · intro horder
    unfold fault?
    rw [if_neg horder.rate, if_neg horder.duration, if_neg horder.workers,
      if_neg (mt String.isEmpty_iff.mp horder.output), if_neg horder.reportInterval]

theorem validate_eq_ok_iff : s.validate = .ok () ↔ s.InOrder := by
  rw [← fault?_eq_none_iff, validate]
  split
  · rename_i fault hfault
    rw [hfault]
    exact iff_of_false nofun nofun
  · rename_i hnone
    exact iff_of_true rfl hnone

end RunSettings

namespace Settings

variable {s t : Settings}

theorem fault?_eq_none_iff : s.fault? = none ↔ s.InOrder := by
  constructor
  · intro hsound
    unfold fault? at hsound
    split_ifs at hsound with hsenders hrecipients hurl hpoll
    exact ⟨hsenders, hrecipients, hurl, hpoll,
      RunSettings.fault?_eq_none_iff.mp (Option.map_eq_none_iff.mp hsound)⟩
  · intro horder
    unfold fault?
    rw [if_neg horder.senders, if_neg horder.recipients, if_neg horder.url, if_neg horder.pollInterval,
      RunSettings.fault?_eq_none_iff.mpr horder.run, Option.map_none]

theorem resolveWorkers_eq : s.resolveWorkers =
    { s with run := { s.run with workers := if s.run.workers = 0 then s.accounts.senders else s.run.workers } } := by
  unfold resolveWorkers
  split <;> rfl

/-- Settings are accepted exactly if they are in order once the number of workers is filled in, and nothing
else is changed. -/
theorem finalize_eq_ok_iff : s.finalize = .ok t ↔ t = s.resolveWorkers ∧ t.InOrder := by
  unfold finalize
  split
  · rename_i fault hfault
    refine iff_of_false nofun ?_
    rintro ⟨rfl, horder⟩
    rw [fault?_eq_none_iff.mpr horder] at hfault
    cases hfault
  · rename_i hnone
    constructor
    · intro hfinal
      cases hfinal
      exact ⟨rfl, fault?_eq_none_iff.mp hnone⟩
    · rintro ⟨rfl, -⟩
      rfl

end Settings

end TransferLoad
