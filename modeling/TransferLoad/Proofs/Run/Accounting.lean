import TransferLoad.Proofs.Run.Dispatch
import TransferLoad.Proofs.Run.Ledger
import TransferLoad.Proofs.Run.Simulation

/-!
# The accounts of a run

The same things are counted twice: each worker counts its own attempts, and what the workers share has
a count of everything. The two move together in every step, in whatever order the workers take them,
and so the report adds up: worker by worker, in total, and with what the client answered.
-/

namespace TransferLoad

/-! ### Ways to end -/

structure Outcomes where
  accepted : Nat := 0
  refused : Nat := 0
  rejected : Nat := 0
  abandoned : Nat := 0
  deriving Repr, DecidableEq

def Outcomes.failed (o : Outcomes) : Nat := o.refused + o.rejected + o.abandoned

def Outcomes.add (o : Outcomes) : Fate → Outcomes
  | .refused => { o with refused := o.refused + 1 }
  | .accepted _ => { o with accepted := o.accepted + 1 }
  | .rejected _ => { o with rejected := o.rejected + 1 }
  | .abandoned => { o with abandoned := o.abandoned + 1 }

def Outcomes.ofFates : List Fate → Outcomes
  | [] => {}
  | fate :: earlier => (ofFates earlier).add fate

theorem Outcomes.add_accepted_eq (o : Outcomes) {fate : Fate}
    (hfate : ∀ identifier, fate ≠ .accepted identifier) : (o.add fate).accepted = o.accepted := by
  cases fate with
  | accepted identifier => exact absurd rfl (hfate identifier)
  | _ => rfl

theorem Outcomes.failed_add (o : Outcomes) {fate : Fate}
    (hfate : ∀ identifier, fate ≠ .accepted identifier) : (o.add fate).failed = o.failed + 1 := by
  cases fate with
  | accepted identifier => exact absurd rfl (hfate identifier)
  | _ => simp only [Outcomes.add, Outcomes.failed]; omega

variable {ω : Type}

def Shared.outcomes (s : Shared ω) : Outcomes := .ofFates (s.settlements.map (·.fate))

/-! ### What one step counts -/

/-- The attempt that a worker has drawn up and not counted yet. -/
def Thread.outstanding (t : Thread) : Nat :=
  match t.phase with
  | .holding _ | .flying .. => 1
  | _ => 0

/-- What a worker may say about itself at each point of its loop. -/
structure Thread.Sound (t : Thread) : Prop where
  counted : t.worker.summary.sent + t.worker.summary.errors + t.outstanding = t.worker.summary.attempted
  within : t.worker.summary.attempted ≤ t.worker.summary.quota
  cleared : t.phase = .cleared → t.worker.summary.attempted < t.worker.summary.quota
  unmarked : t.phase ≠ .finished → t.worker.summary.cancelled = false
  finished : t.phase = .finished → t.worker.summary.cancelled = false →
    t.worker.summary.attempted = t.worker.summary.quota

variable [Writer ω]

/-- A step counts nothing, or one failed attempt, or one accepted transfer, and always twice. -/
theorem Thread.Step.counts {c : RunContext} {cancelled : Bool} {s s' : Shared ω} {t t' : Thread}
    (hstep : Thread.Step c cancelled s t s' t') :
    (s'.tally = s.tally ∧ s'.settlements = s.settlements ∧ s'.sink = s.sink ∧
      t'.worker.summary.sent = t.worker.summary.sent ∧
      t'.worker.summary.errors = t.worker.summary.errors) ∨
    (∃ time intent fate, (∀ identifier, fate ≠ .accepted identifier) ∧
      s'.tally = s.tally.add .failed ∧
      s'.settlements = ⟨t.worker.summary.id, time, intent, fate⟩ :: s.settlements ∧
      s'.sink = s.sink ∧ t'.worker.summary.sent = t.worker.summary.sent ∧
      t'.worker.summary.errors = t.worker.summary.errors + 1) ∨
    (∃ time intent identifier, s'.tally = s.tally.add .sent ∧
      s'.settlements = ⟨t.worker.summary.id, time, intent, .accepted identifier⟩ :: s.settlements ∧
      s'.sink = (s.sink.record identifier).2 ∧
      t'.worker.summary.sent = t.worker.summary.sent + 1 ∧
      t'.worker.summary.errors = t.worker.summary.errors) := by
  rcases hstep.effect with ⟨waits, calls, mark, rfl, hsummary⟩ | ⟨a, -, -, -, -, rfl, hsummary⟩ |
    ⟨time, intent, fate, mark, notices, hfate, rfl, hsummary⟩ |
    ⟨time, intent, identifier, notices, rfl, hsummary⟩
  · rw [hsummary]
    exact Or.inl ⟨rfl, rfl, rfl, rfl, rfl⟩
  · rw [hsummary]
    exact Or.inl ⟨rfl, rfl, rfl, rfl, rfl⟩
  · rw [hsummary]
    exact Or.inr (Or.inl ⟨time, intent, fate, hfate, rfl, rfl, rfl, rfl, rfl⟩)
  · rw [hsummary]
    exact Or.inr (Or.inr ⟨time, intent, identifier, rfl, rfl, rfl, rfl, rfl⟩)

theorem Thread.Step.sound {c : RunContext} {cancelled : Bool} {s s' : Shared ω} {t t' : Thread}
    (hstep : Thread.Step c cancelled s t s' t') (hsound : t.Sound) : t'.Sound := by
  obtain ⟨hcounted, hwithin, hcleared, hunmarked, hfinished⟩ := hsound
  cases hstep with
  | complete hquota =>
    exact ⟨hcounted, hwithin, nofun, fun h => absurd rfl h, fun _ _ => Nat.le_antisymm hwithin hquota⟩
  | giveUp hquota hcancelled =>
    exact ⟨hcounted, hwithin, nofun, fun h => absurd rfl h, fun _ h => nomatch h⟩
  | goAhead hquota hcancelled => exact ⟨hcounted, hwithin, fun _ => hquota, fun _ => hunmarked nofun, nofun⟩
  | draw now hprepare =>
    obtain ⟨intent, selector, -, -, -, rfl⟩ := Worker.prepare_eq hprepare
    exact ⟨congrArg (· + 1) hcounted, hcleared rfl, nofun, fun _ => hunmarked nofun, nofun⟩
  | refuse now hsigned =>
    exact ⟨hcounted, hwithin, nofun, fun _ => hunmarked nofun, nofun⟩
  | submit now hsigned => exact ⟨hcounted, hwithin, nofun, fun _ => hunmarked nofun, nofun⟩
  | @accept w intent identifier now =>
    refine ⟨?_, hwithin, nofun, fun _ => hunmarked nofun, nofun⟩
    change w.summary.sent + 1 + w.summary.errors + 0 = w.summary.attempted
    change w.summary.sent + w.summary.errors + 1 = w.summary.attempted at hcounted
    omega
  | reject now => exact ⟨hcounted, hwithin, nofun, fun _ => hunmarked nofun, nofun⟩
  | abandon now hcancelled =>
    exact ⟨hcounted, hwithin, nofun, fun h => absurd rfl h, fun _ h => nomatch h⟩
  | goOn => exact ⟨hcounted, hwithin, nofun, fun _ => hunmarked nofun, nofun⟩
  | @breakOff w hcancelled =>
    refine ⟨hcounted, hwithin, nofun, fun h => absurd rfl h, fun _ hkept => ?_⟩
    exact Nat.le_antisymm hwithin (Nat.le_of_not_lt (of_decide_eq_false hkept))
  | await due errand => exact ⟨hcounted, hwithin, hcleared, hunmarked, hfinished⟩

/-! ### What all threads count together -/

/-- The two counts agree, with each other and with the settlements. -/
structure Crew.Balanced (k : Crew ω) : Prop where
  sound : ∀ t ∈ k.threads, t.Sound
  sent_eq_sum : k.shared.tally.sent = (k.threads.map (·.worker.summary.sent)).sum
  errors_eq_sum : k.shared.tally.errors = (k.threads.map (·.worker.summary.errors)).sum
  sent_eq_accepted : k.shared.tally.sent = k.shared.outcomes.accepted
  errors_eq_failed : k.shared.tally.errors = k.shared.outcomes.failed
  unrecorded_le_sent : k.shared.sink.unrecorded ≤ k.shared.tally.sent

theorem Crew.Step.balanced {c : RunContext} {k k' : Crew ω} (hstep : Crew.Step c k k')
    (hbalanced : k.Balanced) : k'.Balanced := by
  cases hstep with
  | cancel => exact { hbalanced with }
  | @act cancelled s s' before after t t' hstep =>
    obtain ⟨hsound, hsent, herrors, haccepted, hfailed, hunrecorded⟩ := hbalanced
    have hsound' : ∀ u ∈ before ++ t' :: after, u.Sound :=
      forall_mem_replace hsound (hstep.sound (hsound t (List.mem_append_right _ List.mem_cons_self)))
    simp only [Shared.outcomes, List.map_append, List.map_cons, List.sum_append, List.sum_cons]
      at hsent herrors haccepted hfailed hunrecorded
    rcases hstep.counts with ⟨htally, hsettlements, hsink, hts, hte⟩ |
      ⟨time, intent, fate, hfate, htally, hsettlements, hsink, hts, hte⟩ |
      ⟨time, intent, identifier, htally, hsettlements, hsink, hts, hte⟩
    · refine ⟨hsound', ?_, ?_, ?_, ?_, ?_⟩ <;>
        simp only [Shared.outcomes, List.map_append, List.map_cons, List.sum_append, List.sum_cons,
          htally, hsettlements, hsink, hts, hte] <;>
        assumption
    · have haccepted' := (Outcomes.ofFates (s.settlements.map (·.fate))).add_accepted_eq hfate
      have hfailed' := (Outcomes.ofFates (s.settlements.map (·.fate))).failed_add hfate
      refine ⟨hsound', ?_, ?_, ?_, ?_, ?_⟩ <;>
        simp only [Shared.outcomes, List.map_append, List.map_cons, List.sum_append, List.sum_cons,
          htally, hsettlements, hsink, hts, hte, Tally.add, Outcomes.ofFates] <;>
        omega
    · have hrecord := s.sink.record_unrecorded_le identifier
      have hfailed' : ((Outcomes.ofFates (s.settlements.map (·.fate))).add (.accepted identifier)).failed =
          (Outcomes.ofFates (s.settlements.map (·.fate))).failed := rfl
      have haccepted' :
          ((Outcomes.ofFates (s.settlements.map (·.fate))).add (.accepted identifier)).accepted =
            (Outcomes.ofFates (s.settlements.map (·.fate))).accepted + 1 := rfl
      refine ⟨hsound', ?_, ?_, ?_, ?_, ?_⟩ <;>
        simp only [Shared.outcomes, List.map_append, List.map_cons, List.sum_append, List.sum_cons,
          htally, hsettlements, hsink, hts, hte, Tally.add, Outcomes.ofFates] <;>
        omega

theorem Crew.Reaches.balanced {c : RunContext} {k k' : Crew ω} (hreach : Crew.Reaches c k k')
    (hbalanced : k.Balanced) : k'.Balanced :=
  hreach.keeps (fun _ _ hbalanced hstep => hstep.balanced hbalanced) hbalanced

/-! ### What the client answered -/

omit [Writer ω] in
theorem Outcomes.ofFates_perm {fates fates' : List Fate} (hperm : fates.Perm fates') :
    Outcomes.ofFates fates = Outcomes.ofFates fates' := by
  induction hperm with
  | nil => rfl
  | cons fate _ ih => rw [Outcomes.ofFates, Outcomes.ofFates, ih]
  | swap first second rest => cases first <;> cases second <;> rfl
  | trans _ _ ih₁ ih₂ => exact ih₁.trans ih₂

/-- The times at which the answers to some submissions arrive, with the answers. -/
def Client.answers (client : Client) : List Call → List (Nat × Except Failure String)
  | [] => []
  | ⟨time, .submission payload⟩ :: earlier =>
    let reply := client.submit earlier time payload
    (time + reply.latency, reply.answer) :: answers client earlier
  | _ :: earlier => answers client earlier

/-- How attempts end according to the client: answers that come after the cancellation are not
waited for. -/
def Client.outcomes (client : Client) (cancelAt : Option Nat) (attempts : List Attempt)
    (calls : List Call) : Outcomes where
  accepted := (client.answers calls).countP fun x => arrivesInTime cancelAt x.1 && x.2.isOk
  refused := attempts.countP fun a => !a.signed.isOk
  rejected := (client.answers calls).countP fun x => arrivesInTime cancelAt x.1 && !x.2.isOk
  abandoned := (client.answers calls).countP fun x => !arrivesInTime cancelAt x.1

theorem RunContext.outcomes_endings (c : RunContext) (attempts : List Attempt) :
    Outcomes.ofFates ((c.endings attempts).map (·.fate)) =
      c.client.outcomes c.cancelAt attempts (callsOf attempts) := by
  induction attempts with
  | nil => rfl
  | cons a earlier ih =>
    rw [RunContext.endings, List.map_cons, Outcomes.ofFates, ih]
    cases hsigned : a.signed with
    | error cause =>
      have hending : (c.ending earlier a).fate = .refused := by rw [RunContext.ending, hsigned]
      have hrefused : a.signed.isOk = false := by rw [hsigned]; rfl
      rw [hending, callsOf_cons_refused hsigned]
      simp [Client.outcomes, Outcomes.add, hrefused]
    | ok payload =>
      have hsigned' : a.signed.isOk = true := by rw [hsigned]; rfl
      rcases hreply : c.replyTo earlier a.time payload with ⟨latency, answer⟩
      have hending : (c.ending earlier a).fate =
          if arrivesInTime c.cancelAt (a.time + latency) then (SubmissionOutcome.ofAnswer answer).fate
          else .abandoned := by
        simp only [RunContext.ending, hsigned, hreply, RunContext.verdict]
        split <;> rfl
      have hanswers : c.client.answers (callsOf (a :: earlier)) =
          (a.time + latency, answer) :: c.client.answers (callsOf earlier) := by
        rw [RunContext.replyTo] at hreply
        rw [callsOf_cons_signed hsigned, Client.answers, hreply]
      rw [hending]
      cases hinTime : arrivesInTime c.cancelAt (a.time + latency) with
      | false => simp [Client.outcomes, Outcomes.add, hanswers, hsigned', hinTime]
      | true =>
        cases answer with
        | error cause =>
          have hok : (Except.error cause : Except Failure String).isOk = false := rfl
          simp [Client.outcomes, Outcomes.add, hanswers, hsigned', hinTime, hok,
            SubmissionOutcome.ofAnswer, SubmissionOutcome.fate]
        | ok identifier =>
          have hok : (Except.ok identifier : Except Failure String).isOk = true := rfl
          simp [Client.outcomes, Outcomes.add, hanswers, hsigned', hinTime, hok,
            SubmissionOutcome.ofAnswer, SubmissionOutcome.fate]

omit [Writer ω] in
/-- When the books are in order and nothing is pending, the settlements are what the client answered. -/
theorem Ledger.outcomes_eq {c : RunContext} {s : Shared ω} (hledger : Ledger c s []) :
    s.outcomes = c.client.outcomes c.cancelAt s.attempts s.calls := by
  rw [hledger.calls_eq, ← c.outcomes_endings]
  exact Outcomes.ofFates_perm (hledger.settled.map _)

/-! ### The report -/

/-- A report in which everything adds up, about a run with some settings whose attempts ended in some
ways. -/
structure FinalReport.AddsUp (report : FinalReport) (settings : RunSettings) (o : Outcomes) : Prop where
  ids : report.workers.map (·.id) = List.range settings.workers.toNat
  quotas : report.workers.map (·.quota) = settings.plan.quotas
  counted : ∀ w ∈ report.workers, w.sent + w.errors = w.attempted
  within : ∀ w ∈ report.workers, w.attempted ≤ w.quota
  cut_short : ∀ w ∈ report.workers, w.attempted < w.quota → w.cancelled = true
  sent_eq_sum : report.sent = (report.workers.map (·.sent)).sum
  errors_eq_sum : report.errors = (report.workers.map (·.errors)).sum
  sent_eq_accepted : report.sent = o.accepted
  errors_eq_failed : report.errors = o.refused + o.rejected + o.abandoned
  unrecorded_le_sent : report.unrecorded ≤ report.sent
  scheduled_eq_sum : report.scheduled = (report.workers.map (·.quota)).sum
  complete : (∀ w ∈ report.workers, w.cancelled = false) → report.attempted = report.scheduled

/-- The state of the engine when the threads of a crew have come to their ends at some time. -/
def Crew.toEngine (k : Crew ω) (now : Nat) : Engine ω :=
  { now, shared := k.shared, workers := k.threads.map (·.worker) }

namespace RunInput

variable (r : RunInput) (sink : ResultSink ω) (hsenders : 0 < r.senders.length)

omit [Writer ω] in
theorem crew_balanced (hfresh : sink.unrecorded = 0) : (r.crew sink hsenders).Balanced := by
  have hstart : ∀ t ∈ (r.crew sink hsenders).threads, t.Sound ∧ t.worker.summary.sent = 0 ∧
      t.worker.summary.errors = 0 := by
    intro t ht
    obtain ⟨w, hw, rfl⟩ := List.mem_map.mp ht
    obtain ⟨id, quota, -, rfl⟩ := List.mem_mapIdx.mp hw
    exact ⟨⟨rfl, Nat.zero_le _, nofun, fun _ => rfl, nofun⟩, rfl, rfl⟩
  refine ⟨fun t ht => (hstart t ht).1, ?_, ?_, rfl, rfl, Nat.le_of_eq hfresh⟩
  · refine (List.sum_eq_zero_iff_forall_eq_nat.mpr fun n hn => ?_).symm
    obtain ⟨t, ht, rfl⟩ := List.mem_map.mp hn
    exact (hstart t ht).2.1
  · refine (List.sum_eq_zero_iff_forall_eq_nat.mpr fun n hn => ?_).symm
    obtain ⟨t, ht, rfl⟩ := List.mem_map.mp hn
    exact (hstart t ht).2.2

variable {r sink hsenders}

theorem report_of_crew {hrecipients : 0 < r.recipients.length} {k : Crew ω} (hfresh : sink.unrecorded = 0)
    (hreach : Crew.Reaches (r.context hrecipients) (r.crew sink hsenders) k) (hfinished : k.Finished)
    (now : Nat) : (r.report (k.toEngine now)).AddsUp r.settings k.shared.outcomes := by
  have hbalanced := hreach.balanced (r.crew_balanced sink hsenders hfresh)
  have hquotas := quotas_of_crew hreach
  have hcounted : ∀ t ∈ k.threads,
      t.worker.summary.sent + t.worker.summary.errors = t.worker.summary.attempted := by
    intro t ht
    have hsound := (hbalanced.sound t ht).counted
    rwa [Thread.outstanding, hfinished t ht] at hsound
  have hcomplete : ∀ t ∈ k.threads, t.worker.summary.cancelled = false →
      t.worker.summary.attempted = t.worker.summary.quota := fun t ht =>
    (hbalanced.sound t ht).finished (hfinished t ht)
  refine
    { ids := ?_
      quotas := ?_
      counted := ?_
      within := ?_
      cut_short := ?_
      sent_eq_sum := ?_
      errors_eq_sum := ?_
      sent_eq_accepted := hbalanced.sent_eq_accepted
      errors_eq_failed := hbalanced.errors_eq_failed
      unrecorded_le_sent := hbalanced.unrecorded_le_sent
      scheduled_eq_sum := ?_
      complete := ?_ } <;>
    simp only [report, Crew.toEngine, List.map_map, List.forall_mem_map]
  · exact ids_of_crew hreach
  · exact hquotas
  · exact hcounted
  · exact fun t ht => (hbalanced.sound t ht).within
  · intro t ht hless
    by_contra hunmarked
    exact absurd (hcomplete t ht (Bool.eq_false_iff.mpr hunmarked)) (Nat.ne_of_lt hless)
  · exact hbalanced.sent_eq_sum
  · exact hbalanced.errors_eq_sum
  · exact (congrArg List.sum hquotas).symm
  · intro hunmarked
    have hattempted : k.shared.tally.sent + k.shared.tally.errors =
        (k.threads.map (·.worker.summary.quota)).sum := by
      rw [hbalanced.sent_eq_sum, hbalanced.errors_eq_sum]
      refine sum_map_add_sum_map fun t ht => ?_
      rw [hcounted t ht, hcomplete t ht (hunmarked t ht)]
    exact hattempted.trans (congrArg List.sum hquotas)

theorem report_of_engine {hrecipients : 0 < r.recipients.length} (hfresh : sink.unrecorded = 0) :
    (r.report (r.engine sink hsenders hrecipients)).AddsUp r.settings
      (r.client.outcomes r.cancelAt (r.engine sink hsenders hrecipients).shared.attempts
        (r.engine sink hsenders hrecipients).shared.calls) := by
  obtain ⟨k, hreach, hfinished, hshared, hworkers⟩ := r.reaches_engine sink hsenders hrecipients
  have hreport := report_of_crew hfresh hreach hfinished (r.engine sink hsenders hrecipients).now
  have hsame : r.report (k.toEngine (r.engine sink hsenders hrecipients).now) =
      r.report (r.engine sink hsenders hrecipients) := by
    simp only [report, Crew.toEngine, hshared, hworkers]
  rw [hsame, hshared, (r.ledger_engine sink hsenders hrecipients).outcomes_eq] at hreport
  exact hreport

end RunInput

/-- Reports add up: those of runs into files, those of workers that write into anything else, and those
of workers that take their steps in any other order. -/
theorem RunInput.report_adds_up (r : RunInput) :
    (∀ report, r.run.result = .ok report →
      report.AddsUp r.settings (r.client.outcomes r.cancelAt r.run.attempts r.run.calls)) ∧
    ∀ (ω : Type) [Writer ω] (sink : ResultSink ω) (hsenders : 0 < r.senders.length)
      (hrecipients : 0 < r.recipients.length), sink.unrecorded = 0 →
      (r.report (r.engine sink hsenders hrecipients)).AddsUp r.settings
        (r.client.outcomes r.cancelAt (r.engine sink hsenders hrecipients).shared.attempts
          (r.engine sink hsenders hrecipients).shared.calls) ∧
      ∀ (k : Crew ω) (now : Nat), Crew.Reaches (r.context hrecipients) (r.crew sink hsenders) k →
        k.Finished → (r.report (k.toEngine now)).AddsUp r.settings k.shared.outcomes := by
  refine ⟨fun report hresult => ?_, fun ω _ sink hsenders hrecipients hfresh => ⟨?_, ?_⟩⟩
  · obtain ⟨sink, hsenders, hrecipients, files, notices, hfresh, rfl, hrun⟩ := run_of_ok hresult
    rw [hrun]
    exact report_of_engine hfresh
  · exact report_of_engine hfresh
  · intro k now hreach hfinished
    exact report_of_crew hfresh hreach hfinished now

theorem RunInput.report_adds_up_small :
    ∃ report, (RunInput.small (.steady 10 (.ok "a"))).run.result = .ok report ∧ report.sent = 2 ∧
      report.AddsUp (RunInput.small (.steady 10 (.ok "a"))).settings
        ((RunInput.small (.steady 10 (.ok "a"))).client.outcomes none
          (RunInput.small (.steady 10 (.ok "a"))).run.attempts
          (RunInput.small (.steady 10 (.ok "a"))).run.calls) := by
  have hsent : ((RunInput.small (.steady 10 (.ok "a"))).run.result.map (·.sent)).toOption = some 2 := by
    decide +kernel
  obtain ⟨report, hresult, hsent'⟩ := ok_of_map_eq_some hsent
  exact ⟨report, hresult, hsent',
    (RunInput.report_adds_up (RunInput.small (.steady 10 (.ok "a")))).1 report hresult⟩

end TransferLoad
