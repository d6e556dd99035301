import TransferLoad.Proofs.Run.Workload
import TransferLoad.Proofs.Settings.InOrder

/-!
# Arithmetic without faults

Counters, quotas and positions have to fit into words of 64 bits. In a run that starts they do, however large the
settings are: what is computed before the start comes from the budget, which is one word, and what the workers
count later stays within the quotas, whose sum is the budget at most. Nothing is divided by zero, because the
settings were checked and there are accounts.
-/

namespace TransferLoad

/-! ### Before the start -/

namespace RunSettings

/-- What is computed from the settings fits into words, and each divisor and the reporter's period are positive. -/
structure Fits (s : RunSettings) : Prop where
  target_pos : 0 < s.targetTps.toNat
  workers_pos : 0 < s.workers.toNat
  period_pos : 0 < s.reportIntervalMs.toNat
  nanos_lt : 1_000_000_000 * s.workers.toNat < 2 ^ 128
  budget_lt : s.plan.totalBudget < UInt64.size
  /-- The remainder is handed out by adding one to a share. -/
  extra_lt : 0 < s.totalBudget % s.workers.toNat → s.totalBudget / s.workers.toNat + 1 < UInt64.size
  /-- The quotas are added up one after the other. -/
  sums_lt : ∀ count, (s.plan.quotas.take count).sum < UInt64.size
  scheduled_le : s.plan.scheduled ≤ s.plan.totalBudget

theorem fits_of_validate {s : RunSettings} (hvalid : s.validate = .ok ()) : s.Fits := by
  have horder := validate_eq_ok_iff.mp hvalid
  have hworkers := toNat_pos_of_ne_zero horder.workers
  have hbudget := s.totalBudget_lt
  exact
    { target_pos := toNat_pos_of_ne_zero horder.rate
      workers_pos := hworkers
      period_pos := toNat_pos_of_ne_zero horder.reportInterval
      nanos_lt := by
        have hless := s.workers.toNat_lt
        omega
      budget_lt := hbudget
      extra_lt := fun hremainder => by
        have hdivision := Nat.div_add_mod' s.totalBudget s.workers.toNat
        have hless := Nat.mod_lt s.totalBudget hworkers
        have hshare := Nat.le_mul_of_pos_right (s.totalBudget / s.workers.toNat) hworkers
        omega
      sums_lt := fun count =>
        Nat.lt_of_le_of_lt (QuotaPlan.sum_take_le s.totalBudget s.workers.toNat s.remainder count) hbudget
      scheduled_le := QuotaPlan.scheduled_le s.totalBudget s.workers.toNat s.remainder }

end RunSettings

/-! ### While the workers run -/

variable {ω : Type} [Writer ω]

/-- Counters that may come later than others: neither has gone down. -/
structure Tally.Precedes (earlier later : Tally) : Prop where
  sent_le : earlier.sent ≤ later.sent
  errors_le : earlier.errors ≤ later.errors

theorem Tally.Precedes.refl (tally : Tally) : tally.Precedes tally := ⟨Nat.le_refl _, Nat.le_refl _⟩

theorem Tally.Precedes.trans {first second third : Tally} (hfirst : first.Precedes second)
    (hsecond : second.Precedes third) : first.Precedes third :=
  ⟨Nat.le_trans hfirst.sent_le hsecond.sent_le, Nat.le_trans hfirst.errors_le hsecond.errors_le⟩

theorem Thread.Step.precedes {c : RunContext} {cancelled : Bool} {s s' : Shared ω} {t t' : Thread}
    (hstep : Thread.Step c cancelled s t s' t') : s.tally.Precedes s'.tally := by
  rcases hstep.counts with ⟨htally, -⟩ | ⟨-, -, -, -, htally, -⟩ | ⟨-, -, -, htally, -⟩
  · exact htally ▸ .refl _
  · exact htally ▸ ⟨Nat.le_refl _, Nat.le_succ _⟩
  · exact htally ▸ ⟨Nat.le_succ _, Nat.le_refl _⟩

theorem Crew.Reaches.precedes {c : RunContext} {k k' : Crew ω} (hreach : Crew.Reaches c k k') :
    k.shared.tally.Precedes k'.shared.tally := by
  refine hreach.keeps (P := fun k' => k.shared.tally.Precedes k'.shared.tally) (fun k₁ k₂ hkept hstep => ?_)
    (.refl _)
  cases hstep with
  | cancel => exact hkept
  | act hstep => exact hkept.trans hstep.precedes

theorem Thread.Steps.precedes {c : RunContext} {cancelled : Bool} {s s' : Shared ω} {t t' : Thread}
    (hsteps : Thread.Steps c cancelled (s, t) (s', t')) : s.tally.Precedes s'.tally :=
  (hsteps.reaches [] []).precedes

/-- What the lines of progress show is no more than what is counted in the end. -/
theorem Engine.console_precedes (c : RunContext) (reporter : Option Reporter) (s : Shared ω)
    (workers : List Worker) : ∀ line ∈ (Engine.run c reporter s workers).console,
      line.snapshot.tally.Precedes (Engine.run c reporter s workers).shared.tally := by
  refine Engine.run_keeps (P := fun e => ∀ line ∈ e.console, line.snapshot.tally.Precedes e.shared.tally)
    ?_ ?_ ?_ nofun
  · intro e time hconsole line hline
    rcases List.mem_append.mp hline with hnew | hold
    · cases reporter with
      | none => cases hnew
      | some reporter =>
        obtain ⟨i, -, rfl⟩ := List.mem_map.mp (List.mem_reverse.mp hnew)
        exact .refl _
    · exact hconsole line hold
  · intro e before after w wait hconsole _ hwait _ line hline
    exact (hconsole line hline).trans (Thread.steps_resume c wait.due e.shared hwait).precedes
  · intro time _ e before after w wait hconsole _ hwait _ line hline
    exact (hconsole line hline).trans (Thread.steps_stop c time e.shared hwait).precedes

/-- What the threads of a run have counted and where they look next. -/
structure Crew.Fits (r : RunInput) (k : Crew ω) : Prop where
  attempted_le : k.shared.tally.attempted ≤ r.settings.plan.scheduled
  unrecorded_le : k.shared.sink.unrecorded ≤ k.shared.tally.sent
  own_le : ∀ t ∈ k.threads, t.worker.summary.sent + t.worker.summary.errors ≤ t.worker.summary.attempted ∧
    t.worker.summary.attempted ≤ t.worker.summary.quota ∧ t.worker.summary.quota < UInt64.size
  sender_lt : ∀ t ∈ k.threads, t.worker.sender = t.worker.summary.id % r.senders.length ∧
    t.worker.sender < r.senders.length
  recipient_lt : ∀ t ∈ k.threads, (t.worker.selector.pick t.worker.summary.id t.worker.summary.attempted
    r.recipients.length).1 < r.recipients.length
  round_lt : ∀ t ∈ k.threads, ∀ attempt < t.worker.summary.quota,
    t.worker.summary.id + attempt < UInt64.size

omit [Writer ω] in
theorem Crew.Fits.attempted_le_of_precedes {r : RunInput} {k : Crew ω} (hfits : k.Fits r) {tally : Tally}
    (hprecedes : tally.Precedes k.shared.tally) : tally.attempted ≤ r.settings.plan.scheduled :=
  Nat.le_trans (Nat.add_le_add hprecedes.sent_le hprecedes.errors_le) hfits.attempted_le

namespace RunInput

variable {r : RunInput} {sink : ResultSink ω} {hsenders : 0 < r.senders.length}
  {hrecipients : 0 < r.recipients.length} {k : Crew ω}

theorem fits_of_crew (hfresh : sink.unrecorded = 0)
    (hreach : Crew.Reaches (r.context hrecipients) (r.crew sink hsenders) k) : k.Fits r := by
  have hbalanced := hreach.balanced (r.crew_balanced sink hsenders hfresh)
  have hposts := quota_of_crew hreach
  have hcounted : ∀ t ∈ k.threads,
      t.worker.summary.sent + t.worker.summary.errors ≤ t.worker.summary.attempted := fun t ht => by
    have hsound := (hbalanced.sound t ht).counted
    omega
  refine
    { attempted_le := ?_
      unrecorded_le := hbalanced.unrecorded_le_sent
      own_le := fun t ht => ⟨hcounted t ht, (hbalanced.sound t ht).within, ?_⟩
      sender_lt := fun t ht => ⟨(hposts t ht).2, (hposts t ht).2 ▸ Nat.mod_lt _ hsenders⟩
      recipient_lt := fun t _ => t.worker.selector.pick_lt hrecipients _ _
      round_lt := fun t ht attempt hattempt => ?_ }
  · calc
      k.shared.tally.attempted
        = (k.threads.map fun t => t.worker.summary.sent + t.worker.summary.errors).sum := by
          rw [Tally.attempted, hbalanced.sent_eq_sum, hbalanced.errors_eq_sum]
          exact sum_map_add_sum_map fun t _ => rfl
      _ ≤ (k.threads.map (·.worker.summary.quota)).sum :=
          List.sum_le_sum fun t ht => Nat.le_trans (hcounted t ht) (hbalanced.sound t ht).within
      _ = r.settings.plan.scheduled := congrArg List.sum (quotas_of_crew hreach)
  · have hmem : t.worker.summary.quota ∈ r.settings.plan.quotas :=
      quotas_of_crew hreach ▸ List.mem_map_of_mem ht
    have hsum : t.worker.summary.quota ≤ r.settings.plan.scheduled := List.single_le_sum (by simp) _ hmem
    have hbudget := QuotaPlan.scheduled_le r.settings.totalBudget r.settings.workers.toNat r.settings.remainder
    exact Nat.lt_of_le_of_lt (Nat.le_trans hsum hbudget) r.settings.totalBudget_lt
  · rw [(hposts t ht).1] at hattempt
    exact add_lt_of_lt_quota (id_lt_of_crew hreach t ht) hattempt

/-- No arithmetic of a run goes wrong, whatever the sizes of its settings and however its workers take turns: what
is computed before they start fits, and so does all that they count. This is so for what a reporter sees, too,
when it reads the two counters one after the other. -/
theorem arithmetic_fits (r : RunInput) (hvalid : r.settings.validate = .ok ()) (hsenders : 0 < r.senders.length)
    (hrecipients : 0 < r.recipients.length) :
    r.settings.Fits ∧
    (∀ (ω : Type) [Writer ω] (sink : ResultSink ω) (k later : Crew ω), sink.unrecorded = 0 →
      Crew.Reaches (r.context hrecipients) (r.crew sink hsenders) k →
      Crew.Reaches (r.context hrecipients) k later →
      k.Fits r ∧ Tally.attempted ⟨k.shared.tally.sent, later.shared.tally.errors⟩ ≤ r.settings.plan.scheduled) ∧
    ∀ report, r.run.result = .ok report → report.attempted ≤ report.scheduled ∧
      report.scheduled ≤ report.planned ∧ report.planned < UInt64.size ∧
      ∀ line ∈ r.run.console, line.snapshot.tally.attempted ≤ report.scheduled := by
  have hfits := RunSettings.fits_of_validate hvalid
  refine ⟨hfits, fun ω _ sink k later hfresh hreach hlater => ⟨fits_of_crew hfresh hreach, ?_⟩,
    fun report hresult => ?_⟩
  · have hlast := fits_of_crew hfresh (hreach.trans hlater)
    exact hlast.attempted_le_of_precedes ⟨hlater.precedes.sent_le, Nat.le_refl _⟩
  · obtain ⟨sink, hsenders, hrecipients, files, notices, hfresh, rfl, hrun⟩ := run_of_ok hresult
    obtain ⟨k, hreach, -, hshared, -⟩ := r.reaches_engine sink hsenders hrecipients
    have hlast := fits_of_crew hfresh hreach
    refine ⟨?_, hfits.scheduled_le, hfits.budget_lt, fun line hline => ?_⟩
    · exact hlast.attempted_le_of_precedes (hshared ▸ .refl _)
    · rw [hrun] at hline
      exact hlast.attempted_le_of_precedes (hshared ▸ Engine.console_precedes _ _ _ _ line hline)

theorem arithmetic_fits_small :
    (small (.steady 10 (.ok "a"))).settings.Fits ∧
      ∃ report, (small (.steady 10 (.ok "a"))).run.result = .ok report ∧ report.sent = 2 ∧
        report.attempted ≤ report.scheduled ∧ report.planned < UInt64.size := by
  have hsent : ((small (.steady 10 (.ok "a"))).run.result.map (·.sent)).toOption = some 2 := by
    decide +kernel
  obtain ⟨report, hresult, hsent'⟩ := ok_of_map_eq_some hsent
  obtain ⟨hfits, -, hall⟩ :=
    arithmetic_fits (small (.steady 10 (.ok "a"))) rfl Nat.one_pos Nat.one_pos
  obtain ⟨hattempted, -, hplanned, -⟩ := hall report hresult
  exact ⟨hfits, report, hresult, hsent', hattempted, hplanned⟩

end RunInput

end TransferLoad
