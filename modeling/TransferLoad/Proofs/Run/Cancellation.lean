import TransferLoad.Proofs.Run.Accounting

/-!
# Cancelled runs

When a run is cancelled, nothing is begun any more and nothing is waited for: a transfer without an
answer is given up and counts as failed, and a worker is marked if the cancellation cost it something.
The marks are the same whatever point of its loop the cancellation finds a worker at.
-/

namespace TransferLoad

variable {ω : Type}

/-! ### Marks -/

/-- How the last settled attempt of a worker ended; settlements have the latest first. -/
def lastFate (worker : Nat) (settlements : List Settlement) : Option Fate :=
  (settlements.find? (·.worker = worker)).map (·.fate)

theorem lastFate_cons_self (worker time : Nat) (intent : Intent) (fate : Fate)
    (earlier : List Settlement) : lastFate worker (⟨worker, time, intent, fate⟩ :: earlier) = some fate := by
  simp [lastFate]

theorem lastFate_cons_of_ne {worker other : Nat} (hne : other ≠ worker) (time : Nat) (intent : Intent)
    (fate : Fate) (earlier : List Settlement) :
    lastFate worker (⟨other, time, intent, fate⟩ :: earlier) = lastFate worker earlier := by
  simp [lastFate, hne]

/-- A thread is marked when it has come to its end short of its quota or of an answer. -/
structure Thread.Marked (t : Thread) (last : Option Fate) : Prop where
  going : t.phase ≠ .finished → t.worker.summary.cancelled = false ∧ last ≠ some .abandoned
  ended : t.phase = .finished → (t.worker.summary.cancelled = true ↔
    t.worker.summary.attempted < t.worker.summary.quota ∨ last = some .abandoned)

theorem Thread.Marked.of_unfinished {t : Thread} {last : Option Fate} (hphase : t.phase ≠ .finished)
    (hmark : t.worker.summary.cancelled = false) (hlast : last ≠ some .abandoned) : t.Marked last :=
  ⟨fun _ => ⟨hmark, hlast⟩, fun hfinished => absurd hfinished hphase⟩

variable [Writer ω]

theorem Thread.Step.marked {c : RunContext} {cancelled : Bool} {s s' : Shared ω} {t t' : Thread}
    (hstep : Thread.Step c cancelled s t s' t')
    (hmarked : t.Marked (lastFate t.worker.summary.id s.settlements)) :
    t'.Marked (lastFate t.worker.summary.id s'.settlements) := by
  obtain ⟨hgoing, hended⟩ := hmarked
  cases hstep with
  | complete hquota =>
    obtain ⟨hunmarked, hlast⟩ := hgoing (by simp)
    refine ⟨fun h => absurd rfl h, fun _ => ?_⟩
    exact iff_of_false (Bool.eq_false_iff.mp hunmarked) (not_or.mpr ⟨Nat.not_lt.mpr hquota, hlast⟩)
  | giveUp hquota hcancelled =>
    exact ⟨fun h => absurd rfl h, fun _ => iff_of_true rfl (Or.inl hquota)⟩
  | goAhead hquota hcancelled => exact .of_unfinished (by simp) (hgoing (by simp)).1 (hgoing (by simp)).2
  | draw now hprepare =>
    obtain ⟨intent, selector, -, -, rfl, rfl⟩ := Worker.prepare_eq hprepare
    exact .of_unfinished (by simp) (hgoing (by simp)).1 (hgoing (by simp)).2
  | @refuse w a cause now hsigned =>
    obtain ⟨notices, hlose⟩ := w.lose_eq c now a.intent .refused cause.message s
    rw [hlose, lastFate_cons_self]
    exact .of_unfinished (by simp) (hgoing (by simp)).1 (by simp)
  | submit now hsigned => exact .of_unfinished (by simp) (hgoing (by simp)).1 (hgoing (by simp)).2
  | @accept w intent identifier now =>
    obtain ⟨notices, hgain⟩ := w.gain_eq c now intent identifier s
    rw [hgain, lastFate_cons_self]
    exact .of_unfinished (by simp) (hgoing (by simp)).1 (by simp)
  | @reject w intent reason now =>
    obtain ⟨notices, hlose⟩ := w.lose_eq c now intent (.rejected reason) reason s
    rw [hlose, lastFate_cons_self]
    exact .of_unfinished (by simp) (hgoing (by simp)).1 (by simp)
  | @abandon w intent outcome now hcancelled =>
    obtain ⟨notices, hlose⟩ :=
      w.lose_eq c now intent .abandoned "submission abandoned on shutdown" s
    rw [Worker.abandon, hlose]
    refine ⟨fun h => absurd rfl h, fun _ => iff_of_true rfl (Or.inr ?_)⟩
    exact lastFate_cons_self ..
  | goOn => exact .of_unfinished (by simp) (hgoing (by simp)).1 (hgoing (by simp)).2
  | @breakOff w hcancelled =>
    refine ⟨fun h => absurd rfl h, fun _ => ?_⟩
    change decide (w.summary.attempted < w.summary.quota) = true ↔ _
    rw [decide_eq_true_eq]
    exact (or_iff_left (hgoing (by simp)).2).symm
  | await due errand => exact ⟨hgoing, hended⟩

structure Crew.Marked (k : Crew ω) : Prop where
  distinct : (k.threads.map (·.worker.summary.id)).Nodup
  marked : ∀ t ∈ k.threads, t.Marked (lastFate t.worker.summary.id k.shared.settlements)

theorem Crew.Step.marked {c : RunContext} {k k' : Crew ω} (hstep : Crew.Step c k k')
    (hmarked : k.Marked) : k'.Marked := by
  cases hstep with
  | cancel => exact { hmarked with }
  | @act cancelled s s' before after t t' hstep =>
    obtain ⟨hdistinct, hmarked⟩ := hmarked
    have hid : t'.worker.summary.id = t.worker.summary.id := congrArg Worker.Post.id hstep.post_eq
    have hothers : ∀ id, id ≠ t.worker.summary.id →
        lastFate id s'.settlements = lastFate id s.settlements := by
      intro id hne
      rcases hstep.counts with ⟨-, hsettlements, -⟩ | ⟨time, intent, fate, -, -, hsettlements, -⟩ |
        ⟨time, intent, identifier, -, hsettlements, -⟩
      · rw [hsettlements]
      · rw [hsettlements, lastFate_cons_of_ne hne.symm]
      · rw [hsettlements, lastFate_cons_of_ne hne.symm]
    refine ⟨?_, ?_⟩
    · simpa only [List.map_append, List.map_cons, hid] using hdistinct
    · refine forall_mem_replace_of_nodup hdistinct hmarked (fun u hne hu => ?_) ?_
      · rwa [hothers _ (Ne.symm hne)]
      · rw [hid]
        exact hstep.marked (hmarked t (List.mem_append_right _ List.mem_cons_self))

/-! ### What the artifact was given -/

/-- An artifact after the identifiers of all accepted transfers have been written down. -/
def recordAll (sink : ResultSink ω) : List Settlement → ResultSink ω
  | [] => sink
  | settlement :: earlier =>
    match settlement.fate with
    | .accepted identifier => ((recordAll sink earlier).record identifier).2
    | _ => recordAll sink earlier

theorem recordAll_cons_of_ne (sink : ResultSink ω) {settlement : Settlement}
    (hfate : ∀ identifier, settlement.fate ≠ .accepted identifier) (earlier : List Settlement) :
    recordAll sink (settlement :: earlier) = recordAll sink earlier := by
  rw [recordAll]
  split
  · rename_i identifier heq
    exact absurd heq (hfate identifier)
  · rfl

theorem Crew.Step.recorded {c : RunContext} {k k' : Crew ω} {sink : ResultSink ω}
    (hstep : Crew.Step c k k') (hrecorded : k.shared.sink = recordAll sink k.shared.settlements) :
    k'.shared.sink = recordAll sink k'.shared.settlements := by
  cases hstep with
  | cancel => exact hrecorded
  | act hstep =>
    dsimp only at hrecorded ⊢
    rcases hstep.counts with ⟨-, hsettlements, hsink, -⟩ |
      ⟨time, intent, fate, hfate, -, hsettlements, hsink, -⟩ |
      ⟨time, intent, identifier, -, hsettlements, hsink, -⟩
    · rw [hsink, hsettlements, hrecorded]
    · rw [hsink, hsettlements, hrecorded, recordAll_cons_of_ne sink hfate]
    · rw [hsink, hsettlements, hrecorded, recordAll]

/-! ### The end of all waits -/

/-- What a cancellation makes of a worker whose wait would have ended later. -/
def Worker.cutOff (w : Worker) : Worker :=
  match w.wait with
  | none => w
  | some wait =>
    match wait.errand with
    | .pause => w.breakOff
    | .answer .. => w.failed.cancelIf true

/-- The end of the attempt for whose answer a worker waits when the run is cancelled. -/
def Worker.abandoned? (time : Nat) (w : Worker) : Option Settlement :=
  w.wait.bind fun wait =>
    match wait.errand with
    | .pause => none
    | .answer intent _ _ => some ⟨w.summary.id, time, intent, .abandoned⟩

omit [Writer ω] in
theorem Worker.cutOff_of_idle {w : Worker} (hidle : w.wait = none) : w.cutOff = w := by
  rw [Worker.cutOff, hidle]

omit [Writer ω] in
theorem Worker.wait_cutOff (w : Worker) : w.cutOff.wait = none := by
  unfold Worker.cutOff
  split
  · assumption
  · split <;> rfl

omit [Writer ω] in
theorem Worker.abandoned?_of_idle {w : Worker} (hidle : w.wait = none) (time : Nat) :
    w.abandoned? time = none := by
  rw [Worker.abandoned?, hidle]
  rfl

/-- A wait that would have ended later is broken off: an attempt without an answer fails, and nothing is
written down. -/
theorem Worker.stop_of_later {c : RunContext} {time : Nat} {wait : Wait} {w : Worker}
    (hwait : w.wait = some wait) (hlater : time < wait.due) (s : Shared ω) :
    ∃ notices, w.stop c time wait s =
      ({ s with
          tally := ⟨s.tally.sent, s.tally.errors + (w.abandoned? time).toList.length⟩
          settlements := (w.abandoned? time).toList ++ s.settlements
          notices },
        w.cutOff) := by
  obtain ⟨due, order, errand⟩ := wait
  cases errand with
  | pause =>
    refine ⟨s.notices, ?_⟩
    simp only [Worker.stop, Worker.cutOff, Worker.abandoned?, hwait, Option.bind_some, Option.toList_none,
      List.length_nil, List.nil_append, Nat.add_zero]
  | answer intent started outcome =>
    obtain ⟨notices, hlose⟩ :=
      w.lose_eq c time intent .abandoned "submission abandoned on shutdown" s
    refine ⟨notices, ?_⟩
    simp only [Worker.stop, Worker.abandon, if_neg (Nat.not_le.mpr hlater), hlose, Worker.cutOff,
      Worker.abandoned?, hwait, Option.bind_some]
    rfl

theorem Worker.stop_keeps (c : RunContext) (time : Nat) (wait : Wait) (s : Shared ω) (w : Worker) :
    (w.stop c time wait s).1.counters = s.counters ∧ (w.stop c time wait s).1.attempts = s.attempts ∧
      (w.stop c time wait s).1.calls = s.calls := by
  unfold Worker.stop
  split
  · exact ⟨rfl, rfl, rfl⟩
  · rename_i intent started outcome herrand
    split
    · cases outcome with
      | success identifier =>
        obtain ⟨notices, hgain⟩ := w.gain_eq c time intent identifier s
        simp only [Worker.conclude, hgain, and_self]
      | failure reason =>
        obtain ⟨notices, hlose⟩ := w.lose_eq c time intent (.rejected reason) reason s
        simp only [Worker.conclude, hlose, and_self]
    · obtain ⟨notices, hlose⟩ :=
        w.lose_eq c time intent .abandoned "submission abandoned on shutdown" s
      simp only [Worker.abandon, hlose, and_self]

theorem Worker.id_stop (c : RunContext) (time : Nat) (wait : Wait) (s : Shared ω) (w : Worker) :
    (w.stop c time wait s).2.summary.id = w.summary.id := by
  unfold Worker.stop
  split
  · rfl
  · rename_i intent started outcome herrand
    split
    · cases outcome <;> rfl
    · rfl

namespace Engine

variable {c : RunContext} {reporter : Option Reporter}

/-- What has become of a state when all its waits have been broken off. -/
structure CutOff (time : Nat) (before after : Engine ω) : Prop where
  workers : after.workers = before.workers.map Worker.cutOff
  settled : after.shared.settlements.Perm
    (before.workers.filterMap (Worker.abandoned? time) ++ before.shared.settlements)
  sent : after.shared.tally.sent = before.shared.tally.sent
  errors : after.shared.tally.errors =
    before.shared.tally.errors + (before.workers.filterMap (Worker.abandoned? time)).length
  sink : after.shared.sink = before.shared.sink

omit [Writer ω] in
theorem map_cutOff_of_idle {workers : List Worker} (hidle : ∀ w ∈ workers, w.wait = none) :
    workers.map Worker.cutOff = workers := by
  refine Eq.trans (List.map_congr_left fun w hw => ?_) (List.map_id' workers)
  exact Worker.cutOff_of_idle (hidle w hw)

omit [Writer ω] in
theorem filterMap_abandoned?_of_idle {workers : List Worker} (hidle : ∀ w ∈ workers, w.wait = none)
    (time : Nat) : workers.filterMap (Worker.abandoned? time) = [] :=
  List.filterMap_eq_nil_iff.mpr fun w hw => Worker.abandoned?_of_idle (hidle w hw) time

omit [Writer ω] in
theorem CutOff.of_idle {e : Engine ω} (hidle : ∀ w ∈ e.workers, w.wait = none) (time : Nat) :
    CutOff time e e := by
  have hnone := filterMap_abandoned?_of_idle hidle time
  refine ⟨(map_cutOff_of_idle hidle).symm, ?_, rfl, ?_, rfl⟩
  · rw [hnone]
    exact List.Perm.refl _
  · rw [hnone]
    rfl

/-- A state of which some waits have been broken off already. -/
structure CuttingOff (time : Nat) (before e : Engine ω) : Prop where
  workers : e.workers.map Worker.cutOff = before.workers.map Worker.cutOff
  later : ∀ w ∈ e.workers, ∀ wait, w.wait = some wait → time < wait.due
  settled : (e.workers.filterMap (Worker.abandoned? time) ++ e.shared.settlements).Perm
    (before.workers.filterMap (Worker.abandoned? time) ++ before.shared.settlements)
  sent : e.shared.tally.sent = before.shared.tally.sent
  errors : e.shared.tally.errors + (e.workers.filterMap (Worker.abandoned? time)).length =
    before.shared.tally.errors + (before.workers.filterMap (Worker.abandoned? time)).length
  sink : e.shared.sink = before.shared.sink

theorem cutOff_interrupt {e : Engine ω} {time : Nat}
    (hlater : ∀ w ∈ e.workers, ∀ wait, w.wait = some wait → time < wait.due) :
    CutOff time e (e.interrupt c reporter time) := by
  have hall : CuttingOff time e (e.interrupt c reporter time) := by
    refine interrupt_keeps (P := CuttingOff time e) ?_
      ⟨rfl, hlater, List.Perm.refl _, rfl, rfl, rfl⟩
    intro e' before after w wait hcutting hsplit hwait
    obtain ⟨hworkers, hlater, hsettled, hsent, herrors, hsink⟩ := hcutting
    have hdue := hlater w (by rw [hsplit]; simp) wait hwait
    obtain ⟨notices, hstop⟩ := Worker.stop_of_later hwait hdue (c := c) e'.shared
    have hidle := Worker.abandoned?_of_idle w.wait_cutOff time
    have hold := filterMap_middle_perm (Worker.abandoned? time) before after w
    have hnew := filterMap_middle_perm (Worker.abandoned? time) before after w.cutOff
    rw [hidle, Option.toList_none, List.nil_append] at hnew
    rw [hsplit] at hworkers hlater hsettled herrors
    rw [hstop]
    refine ⟨?_, ?_, ?_, hsent, ?_, hsink⟩
    · rw [← hworkers]
      simp only [List.map_append, List.map_cons, Worker.cutOff_of_idle w.wait_cutOff]
    · refine forall_mem_replace hlater fun other hother => ?_
      rw [w.wait_cutOff] at hother
      cases hother
    · refine List.Perm.trans ?_ hsettled
      refine ((hnew.append_right _).trans ?_).trans (hold.append_right _).symm
      rw [← List.append_assoc]
      exact List.perm_append_comm.append_right _
    · rw [← herrors, hnew.length_eq, hold.length_eq, List.length_append]
      exact Nat.add_assoc ..
  have hidle : ∀ w ∈ (e.interrupt c reporter time).workers, w.wait = none := wait_interrupt e
  obtain ⟨hworkers, -, hsettled, hsent, herrors, hsink⟩ := hall
  rw [filterMap_abandoned?_of_idle hidle] at hsettled herrors
  rw [map_cutOff_of_idle hidle] at hworkers
  exact ⟨hworkers, hsettled, hsent, herrors, hsink⟩

/-- A cancellation neither draws nor signs nor hands over anything. -/
theorem kept_interrupt (e : Engine ω) (time : Nat) :
    (e.interrupt c reporter time).now = time ∧
      (e.interrupt c reporter time).shared.counters = e.shared.counters ∧
      (e.interrupt c reporter time).shared.attempts = e.shared.attempts ∧
      (e.interrupt c reporter time).shared.calls = e.shared.calls := by
  let P : Engine ω → Prop := fun e' => e'.now = time ∧ e'.shared.counters = e.shared.counters ∧
    e'.shared.attempts = e.shared.attempts ∧ e'.shared.calls = e.shared.calls
  refine interrupt_keeps (P := P) ?_ ⟨rfl, rfl, rfl, rfl⟩
  intro e' before after w wait ⟨hnow, hcounters, hattempts, hcalls⟩ _ _
  obtain ⟨hcounters', hattempts', hcalls'⟩ := w.stop_keeps c time wait e'.shared
  exact ⟨hnow, hcounters'.trans hcounters, hattempts'.trans hattempts, hcalls'.trans hcalls⟩

/-- The clock has not reached the cancellation, unless it stands at the start. -/
theorem now_advance (reporter : Option Reporter) (steps : Nat) {e : Engine ω}
    (hstart : c.isLiveAt e.now = true ∨ e.now = 0) :
    c.isLiveAt (e.advance c reporter steps).now = true ∨ (e.advance c reporter steps).now = 0 :=
  advance_keeps (P := fun e => c.isLiveAt e.now = true ∨ e.now = 0)
    (fun _ _ _ _ hlive => Or.inl hlive) steps hstart

end Engine

/-! ### The whole run -/

namespace RunInput

/-- The engine when the run is cancelled, or when all workers have come to their ends before. -/
def untilCancelled (r : RunInput) (sink : ResultSink ω) (hsenders : 0 < r.senders.length)
    (hrecipients : 0 < r.recipients.length) : Engine ω :=
  let e := Engine.start (r.context hrecipients) (r.shared sink) (r.workers hsenders)
  e.advance (r.context hrecipients) (some r.reporter) e.potential

/-- How a run ends that is cancelled at some time, given the states of its engine at that time and in
the end. -/
structure CancelledAt (r : RunInput) (time : Nat) (sink : ResultSink ω) (before after : Engine ω) :
    Prop where
  /-- What still waits would have waited at least until the cancellation. -/
  waits_late : ∀ w ∈ before.workers, ∀ wait, w.wait = some wait → time ≤ wait.due
  attempts_early : ∀ a ∈ after.shared.attempts, a.time < time
  calls_early : ∀ call ∈ after.shared.calls, call.time < time
  nothing_begun : after.shared.counters = before.shared.counters ∧
    after.shared.attempts = before.shared.attempts ∧ after.shared.calls = before.shared.calls
  ends_at : (∃ w ∈ before.workers, w.wait ≠ none) → (r.report after).totalTime = nanosOfMillis time
  ends_by : (r.report after).totalTime ≤ nanosOfMillis time
  /-- Every transfer in flight fails, once, as long as no wait ends at the very same time. -/
  cut_off : (∀ w ∈ before.workers, ∀ wait, w.wait = some wait → wait.due ≠ time) →
    Engine.CutOff time before after
  recorded : after.shared.sink = recordAll sink after.shared.settlements
  marked : ∀ w ∈ (r.report after).workers, w.cancelled = true ↔
    w.attempted < w.quota ∨ lastFate w.id after.shared.settlements = some .abandoned
  interrupted : (r.report after).interrupted = true ↔
    ∃ w ∈ (r.report after).workers, w.cancelled = true

variable {r : RunInput} {sink : ResultSink ω} {hsenders : 0 < r.senders.length}
  {hrecipients : 0 < r.recipients.length}

omit [Writer ω] in
theorem crew_marked : (r.crew sink hsenders).Marked := by
  refine ⟨?_, ?_⟩
  · have hids := r.ids_crew sink hsenders
    exact hids ▸ List.nodup_range
  · intro t ht
    obtain ⟨w, hw, rfl⟩ := List.mem_map.mp ht
    obtain ⟨id, quota, -, rfl⟩ := List.mem_mapIdx.mp hw
    exact ⟨fun _ => ⟨rfl, nofun⟩, nofun⟩

/-- A cancellation comes too late, or it ends all waits. -/
theorem engine_cases (sink : ResultSink ω) (hsenders : 0 < r.senders.length)
    (hrecipients : 0 < r.recipients.length) {time : Nat} (hcancel : r.cancelAt = some time) :
    (r.engine sink hsenders hrecipients = r.untilCancelled sink hsenders hrecipients ∧
      ∀ w ∈ (r.untilCancelled sink hsenders hrecipients).workers, w.wait = none) ∨
    r.engine sink hsenders hrecipients = (r.untilCancelled sink hsenders hrecipients).interrupt
      (r.context hrecipients) (some r.reporter) time := by
  have hcontext : (r.context hrecipients).cancelAt = some time := hcancel
  have hengine : r.engine sink hsenders hrecipients =
      (r.untilCancelled sink hsenders hrecipients).finish (r.context hrecipients) (some r.reporter) := rfl
  rw [hengine]
  rcases Engine.finish_cases (r.context hrecipients) (some r.reporter)
      (r.untilCancelled sink hsenders hrecipients) with ⟨hfinish, hnone | hidle⟩ | ⟨stop, hstop, hfinish⟩
  · rw [hcontext] at hnone
    cases hnone
  · exact Or.inl ⟨hfinish, hidle⟩
  · rw [hcontext] at hstop
    cases hstop
    exact Or.inr hfinish

theorem marked_engine : ∀ w ∈ (r.report (r.engine sink hsenders hrecipients)).workers,
    w.cancelled = true ↔ w.attempted < w.quota ∨
      lastFate w.id (r.engine sink hsenders hrecipients).shared.settlements = some .abandoned := by
  obtain ⟨k, hreach, hfinished, hshared, hworkers⟩ := r.reaches_engine sink hsenders hrecipients
  have hmarked := hreach.keeps (P := Crew.Marked) (fun _ _ hmarked hstep => hstep.marked hmarked)
    (crew_marked (r := r))
  intro w hw
  rw [report, ← hworkers] at hw
  obtain ⟨v, hv, rfl⟩ := List.mem_map.mp hw
  obtain ⟨t, ht, rfl⟩ := List.mem_map.mp hv
  rw [← hshared]
  exact (hmarked.marked t ht).ended (hfinished t ht)

/-- Every accepted identifier has gone into the artifact, in the order in which they were accepted. -/
theorem recorded_of_crew {k : Crew ω} (hreach : Crew.Reaches (r.context hrecipients) (r.crew sink hsenders) k) :
    k.shared.sink = recordAll sink k.shared.settlements :=
  hreach.keeps (P := fun k => k.shared.sink = recordAll sink k.shared.settlements)
    (fun _ _ hrecorded hstep => hstep.recorded hrecorded) rfl

theorem recorded_engine : (r.engine sink hsenders hrecipients).shared.sink =
    recordAll sink (r.engine sink hsenders hrecipients).shared.settlements :=
  engine_of_crew (P := fun s => s.sink = recordAll sink s.settlements) fun _ hreach => recorded_of_crew hreach

theorem isLiveAt_context {time : Nat} (hcancel : r.cancelAt = some time) (t : Nat) :
    (r.context hrecipients).isLiveAt t = true ↔ t < time := by
  rw [RunContext.isLiveAt_iff]
  change (∀ stop, r.cancelAt = some stop → t < stop) ↔ _
  rw [hcancel]
  simp

theorem waits_late {time : Nat} (hcancel : r.cancelAt = some time) :
    ∀ w ∈ (r.untilCancelled sink hsenders hrecipients).workers,
      ∀ wait, w.wait = some wait → time ≤ wait.due := by
  intro w hw wait hwait
  have hdue := Engine.waitsLate_advance (Nat.le_refl _) w hw wait hwait
  rw [← Bool.not_eq_true, isLiveAt_context hcancel] at hdue
  exact Nat.le_of_not_lt hdue

theorem now_untilCancelled {time : Nat} (hcancel : r.cancelAt = some time) :
    (r.untilCancelled sink hsenders hrecipients).now ≤ time := by
  have hclock : (r.context hrecipients).isLiveAt (r.untilCancelled sink hsenders hrecipients).now = true ∨
      (r.untilCancelled sink hsenders hrecipients).now = 0 :=
    Engine.now_advance _ _ (Or.inr rfl)
  rcases hclock with hearly | hstart
  · exact Nat.le_of_lt ((isLiveAt_context hcancel _).mp hearly)
  · rw [hstart]
    exact Nat.zero_le time

theorem calls_early {time : Nat} {attempts : List Attempt} (hearly : ∀ a ∈ attempts, a.time < time) :
    ∀ call ∈ callsOf attempts, call.time < time := by
  intro call hcall
  obtain ⟨a, ha, hmade⟩ := List.mem_filterMap.mp hcall
  unfold Attempt.call? at hmade
  split at hmade
  · cases hmade
    exact hearly a ha
  · cases hmade

theorem cancelledAt_engine {time : Nat} (hcancel : r.cancelAt = some time) :
    r.CancelledAt time sink (r.untilCancelled sink hsenders hrecipients)
      (r.engine sink hsenders hrecipients) := by
  have hledger := r.ledger_engine sink hsenders hrecipients
  have hcases := engine_cases sink hsenders hrecipients hcancel
  have hattempts : ∀ a ∈ (r.engine sink hsenders hrecipients).shared.attempts, a.time < time :=
    fun a ha => (isLiveAt_context hcancel _).mp (hledger.live a ha)
  refine
    { waits_late := waits_late hcancel
      attempts_early := hattempts
      calls_early := hledger.calls_eq ▸ calls_early hattempts
      nothing_begun := ?_
      ends_at := ?_
      ends_by := ?_
      cut_off := ?_
      recorded := recorded_engine
      marked := marked_engine
      interrupted := List.any_eq_true.trans ?_ }
  · rcases hcases with ⟨hsame, -⟩ | hinterrupt
    · rw [hsame]
      exact ⟨rfl, rfl, rfl⟩
    · rw [hinterrupt]
      exact (Engine.kept_interrupt _ time).2
  · rintro ⟨w, hw, hwait⟩
    rcases hcases with ⟨-, hidle⟩ | hinterrupt
    · exact absurd (hidle w hw) hwait
    · rw [hinterrupt]
      exact congrArg nanosOfMillis (Engine.kept_interrupt _ time).1
  · refine Nat.mul_le_mul_left _ ?_
    rcases hcases with ⟨hsame, -⟩ | hinterrupt
    · rw [hsame]
      exact now_untilCancelled hcancel
    · rw [hinterrupt]
      exact Nat.le_of_eq (Engine.kept_interrupt _ time).1
  · intro hnone
    rcases hcases with ⟨hsame, hidle⟩ | hinterrupt
    · rw [hsame]
      exact Engine.CutOff.of_idle hidle time
    · rw [hinterrupt]
      refine Engine.cutOff_interrupt fun w hw wait hwait => ?_
      exact Nat.lt_of_le_of_ne (waits_late hcancel w hw wait hwait) (hnone w hw wait hwait).symm
  · constructor
    · rintro ⟨w, hw, hmarked⟩
      exact ⟨w.summary, List.mem_map_of_mem hw, hmarked⟩
    · rintro ⟨summary, hsummary, hmarked⟩
      obtain ⟨w, hw, rfl⟩ := List.mem_map.mp hsummary
      exact ⟨w, hw, hmarked⟩

end RunInput

end TransferLoad
