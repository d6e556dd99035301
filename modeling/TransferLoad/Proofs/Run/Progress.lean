import TransferLoad.Proofs.Run.Bounds
import TransferLoad.Proofs.Run.Pacing

/-!
# Lines of progress

While a run is under way, a line is printed at each whole multiple of a period, with the counters as they are
at that time. What the counters are at some time can be read off the settlements, since each of them has the
time at which it was counted. So the lines are known from what the workers did, and the workers do the same
whether there is anyone to print lines or not.
-/

namespace TransferLoad

/-! ### Counters at a time -/

def Fate.kind : Fate → OutcomeKind
  | accepted _ => .sent
  | _ => .failed

/-- The counters after some settlements. -/
def tallyOf : List Settlement → Tally
  | [] => {}
  | settlement :: earlier => (tallyOf earlier).add settlement.fate.kind

/-- The counters at a time, before which or at which some of the settlements were made. -/
def tallyAt (time : Nat) (settlements : List Settlement) : Tally :=
  tallyOf (settlements.filter (·.time ≤ time))

def Settlement.isSent (settlement : Settlement) : Bool := settlement.fate.kind = .sent

theorem tallyOf_eq (settlements : List Settlement) :
    tallyOf settlements =
      ⟨settlements.countP Settlement.isSent, settlements.countP (!Settlement.isSent ·)⟩ := by
  induction settlements with
  | nil => rfl
  | cons settlement earlier ih =>
    rw [tallyOf, ih, List.countP_cons, List.countP_cons, Settlement.isSent]
    cases settlement.fate.kind <;> rfl

theorem tallyAt_eq (time : Nat) (settlements : List Settlement) :
    tallyAt time settlements =
      ⟨settlements.countP fun x => x.isSent && decide (x.time ≤ time),
        settlements.countP fun x => !x.isSent && decide (x.time ≤ time)⟩ := by
  rw [tallyAt, tallyOf_eq, List.countP_filter, List.countP_filter]

theorem tallyAt_of_le {time : Nat} {settlements : List Settlement} (hle : ∀ x ∈ settlements, x.time ≤ time) :
    tallyAt time settlements = tallyOf settlements := by
  rw [tallyAt, List.filter_eq_self.mpr fun x hx => decide_eq_true (hle x hx)]

theorem tallyAt_append_of_lt {time : Nat} {news : List Settlement} (hlater : ∀ x ∈ news, time < x.time)
    (settlements : List Settlement) : tallyAt time (news ++ settlements) = tallyAt time settlements := by
  have hnone : news.filter (·.time ≤ time) = [] :=
    List.filter_eq_nil_iff.mpr fun x hx => by simpa using hlater x hx
  rw [tallyAt, List.filter_append, hnone, List.nil_append, tallyAt]

theorem tallyAt_precedes {first second : Nat} (hle : first ≤ second) (settlements : List Settlement) :
    (tallyAt first settlements).Precedes (tallyAt second settlements) := by
  rw [tallyAt_eq, tallyAt_eq]
  constructor
  all_goals
    refine List.countP_mono_left fun x _ hx => ?_
    simp only [Bool.and_eq_true, decide_eq_true_eq] at hx ⊢
    exact ⟨hx.1, hx.2.trans hle⟩

/-! ### Lines up to a time -/

namespace Reporter

variable {r : Reporter} {time later : Nat} {settlements : List Settlement}

/-- The lines that are printed before a time, the earliest first, when these settlements are made. -/
def linesOf (r : Reporter) (settlements : List Settlement) (time : Nat) : List ProgressLine :=
  (List.range (r.linesBefore time)).map fun i => r.line (tallyAt ((i + 1) * r.period) settlements) (i + 1)

theorem length_linesOf (r : Reporter) (settlements : List Settlement) (time : Nat) :
    (r.linesOf settlements time).length = r.linesBefore time := by
  rw [linesOf, List.length_map, List.length_range]

theorem linesOf_zero (r : Reporter) (settlements : List Settlement) : r.linesOf settlements 0 = [] := by
  rw [linesOf, linesBefore, Nat.zero_sub, Nat.zero_div, List.range_zero, List.map_nil]

theorem lt_linesBefore_iff (hperiod : 0 < r.period) {i : Nat} :
    i < r.linesBefore time ↔ (i + 1) * r.period < time := by
  have hpos : 0 < (i + 1) * r.period := Nat.mul_pos (Nat.succ_pos i) hperiod
  rw [linesBefore, ← Nat.add_one_le_iff, Nat.le_div_iff_mul_le hperiod]
  omega

/-- Between two times at which nothing is settled, the lines show the counters as they are. -/
theorem linesOf_moveTo (hperiod : 0 < r.period) (hle : time ≤ later) (hsettled : ∀ x ∈ settlements, x.time ≤ time) :
    r.linesOf settlements later =
      r.linesOf settlements time ++ r.linesUntil (tallyOf settlements) (r.linesBefore time) later := by
  have hcount : r.linesBefore later = r.linesBefore time + (r.linesBefore later - r.linesBefore time) :=
    (Nat.add_sub_cancel' (Nat.div_le_div_right (Nat.sub_le_sub_right hle 1))).symm
  rw [linesOf, hcount, List.range_add, List.map_append, List.map_map, ← linesOf, linesUntil]
  refine congrArg _ (List.map_congr_left fun i _ => ?_)
  have hpast : time ≤ (r.linesBefore time + i + 1) * r.period :=
    Nat.not_lt.mp fun hless => absurd ((lt_linesBefore_iff hperiod).mpr hless) (by omega)
  rw [Function.comp_apply, tallyAt_of_le fun x hx => (hsettled x hx).trans hpast]

/-- What is settled now is too late for the lines up to now. -/
theorem linesOf_append (hperiod : 0 < r.period) {news : List Settlement} (hnow : ∀ x ∈ news, x.time = time)
    (settlements : List Settlement) : r.linesOf (news ++ settlements) time = r.linesOf settlements time := by
  refine List.map_congr_left fun i hi => ?_
  have hbefore := (lt_linesBefore_iff hperiod).mp (List.mem_range.mp hi)
  rw [tallyAt_append_of_lt fun x hx => hnow x hx ▸ hbefore]

end Reporter

/-! ### What a turn settles -/

variable {ω : Type}

/-- Some settlements were made at one time, and counted. -/
structure Shared.Extends (now : Nat) (s s' : Shared ω) : Prop where
  news : ∃ news, s'.settlements = news ++ s.settlements ∧ ∀ x ∈ news, x.time = now
  counted : s.tally = tallyOf s.settlements → s'.tally = tallyOf s'.settlements

namespace Shared.Extends

variable {now : Nat} {s s' s'' : Shared ω}

theorem of_eq (htally : s'.tally = s.tally) (hsettlements : s'.settlements = s.settlements) : Extends now s s' where
  news := ⟨[], hsettlements, nofun⟩
  counted := by rw [htally, hsettlements]; exact id

theorem of_settle (settlement : Settlement) (htime : settlement.time = now)
    (htally : s'.tally = s.tally.add settlement.fate.kind)
    (hsettlements : s'.settlements = settlement :: s.settlements) : Extends now s s' where
  news := ⟨[settlement], hsettlements, fun x hx => List.mem_singleton.mp hx ▸ htime⟩
  counted := fun hcounted => by rw [htally, hsettlements, tallyOf, hcounted]

theorem trans (hfirst : Extends now s s') (hsecond : Extends now s' s'') : Extends now s s'' where
  news := by
    obtain ⟨news, hnews, htimes⟩ := hfirst.news
    obtain ⟨more, hmore, htimes'⟩ := hsecond.news
    refine ⟨more ++ news, ?_, List.forall_mem_append.mpr ⟨htimes', htimes⟩⟩
    rw [hmore, hnews, List.append_assoc]
  counted := fun hcounted => hsecond.counted (hfirst.counted hcounted)

theorem lose (c : RunContext) (now : Nat) (intent : Intent) {fate : Fate} (hfate : fate.kind = .failed)
    (reason : String) (s : Shared ω) (w : Worker) : Extends now s (w.lose c now intent fate reason s).1 := by
  obtain ⟨notices, hlose⟩ := w.lose_eq c now intent fate reason s
  rw [hlose]
  exact .of_settle ⟨w.summary.id, now, intent, fate⟩ rfl (by rw [hfate]) rfl

variable [Writer ω]

theorem conclude (c : RunContext) (now : Nat) (intent : Intent) (outcome : SubmissionOutcome) (s : Shared ω)
    (w : Worker) : Extends now s (w.conclude c now intent outcome s).1 := by
  cases outcome with
  | failure reason => exact lose c now intent rfl reason s w
  | success identifier =>
    obtain ⟨notices, hgain⟩ := w.gain_eq c now intent identifier s
    rw [Worker.conclude, hgain]
    exact .of_settle ⟨w.summary.id, now, intent, .accepted identifier⟩ rfl rfl rfl

omit [Writer ω] in
theorem prepare {c : RunContext} {w w₁ : Worker} {a : Attempt} (hprepare : w.prepare c now s = (a, s', w₁)) :
    Extends now s s' := by
  obtain ⟨intent, selector, -, -, rfl, -⟩ := Worker.prepare_eq hprepare
  exact .of_eq rfl rfl

/-- A turn settles what it settles at its own time, and a wait that it begins ends no earlier. -/
theorem turn (c : RunContext) (now : Nat) (s : Shared ω) :
    Worker.TurnRule c now (fun p => Extends now s p.1) (fun _ p => Extends now s p.1)
      (fun p => Extends now s p.1 ∧ ∀ wait, p.2.wait = some wait → now ≤ wait.due) where
  refused := by
    intro s' s₁ w w₁ a cause hextends _ hprepare _
    exact (hextends.trans (prepare hprepare)).trans (lose c now a.intent rfl cause.message s₁ w₁)
  answered := by
    intro s' s₁ w w₁ a payload hextends _ hprepare _ _
    have hsubmitted : Extends now s (s₁.submit now payload) :=
      (hextends.trans (prepare hprepare)).trans (.of_eq rfl rfl)
    exact hsubmitted.trans (conclude c now a.intent _ _ w₁)
  departed := by
    intro s' s₁ w w₁ a payload hextends _ hprepare _ _
    refine ⟨(hextends.trans (prepare hprepare)).trans (.of_eq rfl rfl), fun wait hwait => ?_⟩
    cases hwait
    exact Nat.le_add_right _ _
  paused := by
    intro s' w started due hextends hpause
    refine ⟨hextends.trans (.of_eq rfl rfl), fun wait hwait => ?_⟩
    cases hwait
    have hdue := le_getD_pauseEnd? c.settings.pacingDelay started now
    rwa [hpause] at hdue
  goesOn := by
    intro s' w started hextends _
    exact hextends
  done := by
    intro s' w hextends _
    exact ⟨hextends, nofun⟩

theorem resume (c : RunContext) (now : Nat) (errand : Errand) (s : Shared ω) (w : Worker) :
    Extends now s (w.resume c now errand s).1 ∧
      ∀ wait, (w.resume c now errand s).2.wait = some wait → now ≤ wait.due := by
  cases errand with
  | pause => exact (turn c now s).proceed (s := s) (w := w) (.of_eq rfl rfl)
  | answer intent started outcome => exact (turn c now s).resume_answer started (conclude c now intent outcome s w)

theorem stop (c : RunContext) (now : Nat) (wait : Wait) (s : Shared ω) (w : Worker) :
    Extends now s (w.stop c now wait s).1 := by
  unfold Worker.stop
  split
  · exact .of_eq rfl rfl
  · split
    · exact conclude c now _ _ s w
    · exact lose c now _ rfl _ s w

theorem start (c : RunContext) (s : Shared ω) (w : Worker) : Extends 0 s (w.start c s).1 := by
  unfold Worker.start
  split
  · exact ((turn c 0 s).proceed (s := s) (w := w) (.of_eq rfl rfl)).1
  · exact .of_eq rfl rfl

theorem startAll (c : RunContext) (s : Shared ω) (workers : List Worker) :
    Extends 0 s (Engine.startAll c s workers).1 := by
  induction workers generalizing s with
  | nil => exact .of_eq rfl rfl
  | cons w rest ih => exact (start c s w).trans (ih _)

end Shared.Extends

/-! ### What the engine prints -/

/-- Everything that was settled so far is counted, and the lines so far are those that the settlements say. -/
structure Engine.Prints (r : Reporter) (e : Engine ω) : Prop where
  settled_le : ∀ x ∈ e.shared.settlements, x.time ≤ e.now
  counted : e.shared.tally = tallyOf e.shared.settlements
  console_eq : e.console.reverse = r.linesOf e.shared.settlements e.now

/-- The clock has not passed the cancellation or the end of a wait. -/
structure Engine.Timely (c : RunContext) (e : Engine ω) : Prop where
  in_time : ∀ stop, c.cancelAt = some stop → e.now ≤ stop
  due_ge : ∀ w ∈ e.workers, ∀ wait, w.wait = some wait → e.now ≤ wait.due

namespace Engine

variable {c : RunContext} {r : Reporter} {e : Engine ω} (hperiod : 0 < r.period)
include hperiod

theorem Prints.moveTo (hprints : e.Prints r) {time : Nat} (hle : e.now ≤ time) :
    (e.moveTo (some r) time).Prints r where
  settled_le := fun x hx => (hprints.settled_le x hx).trans hle
  counted := hprints.counted
  console_eq := by
    have hlength : e.console.length = r.linesBefore e.now := by
      rw [← List.length_reverse, hprints.console_eq, Reporter.length_linesOf]
    change ((r.linesUntil e.shared.tally e.console.length time).reverse ++ e.console).reverse = _
    rw [List.reverse_append, List.reverse_reverse, hlength, hprints.console_eq, hprints.counted]
    exact (Reporter.linesOf_moveTo hperiod hle hprints.settled_le).symm

theorem Prints.extend (hprints : e.Prints r) {s' : Shared ω} (hextends : e.shared.Extends e.now s')
    (workers : List Worker) : { e with shared := s', workers }.Prints r := by
  obtain ⟨news, hnews, htimes⟩ := hextends.news
  refine ⟨?_, hextends.counted hprints.counted, ?_⟩
  · change ∀ x ∈ s'.settlements, x.time ≤ e.now
    rw [hnews, List.forall_mem_append]
    exact ⟨fun x hx => (htimes x hx).le, hprints.settled_le⟩
  · change e.console.reverse = r.linesOf s'.settlements e.now
    rw [hnews, Reporter.linesOf_append hperiod htimes, hprints.console_eq]

variable [Writer ω]

theorem prints_advance (steps : Nat) (hprints : e.Prints r) (htimely : e.Timely c) :
    (e.advance c (some r) steps).Prints r ∧ (e.advance c (some r) steps).Timely c := by
  refine advance_keeps (P := fun e => e.Prints r ∧ e.Timely c) ?_ steps ⟨hprints, htimely⟩
  intro e before after w wait ⟨hprints, htimely⟩ hsplit hwait hfirst hlive
  obtain ⟨hextends, hdue⟩ := Shared.Extends.resume c wait.due wait.errand e.shared w
  have hle : e.now ≤ wait.due := htimely.due_ge w (hsplit ▸ by simp) wait hwait
  refine ⟨(hprints.moveTo hperiod hle).extend hperiod hextends _, ?_, ?_⟩
  · exact fun stop hstop => (RunContext.isLiveAt_iff.mp hlive stop hstop).le
  · rw [hsplit] at hfirst
    exact forall_mem_replace hfirst hdue

theorem prints_interrupt {time : Nat} (hprints : e.Prints r) (hle : e.now ≤ time) :
    (e.interrupt c (some r) time).Prints r ∧ (e.interrupt c (some r) time).now = time := by
  refine interrupt_keeps (P := fun e => e.Prints r ∧ e.now = time) ?_ ⟨hprints.moveTo hperiod hle, rfl⟩
  intro e before after w wait ⟨hprints, hnow⟩ _ _
  have hextends := Shared.Extends.stop c time wait e.shared w
  exact ⟨hprints.extend hperiod (hnow ▸ hextends) _, hnow⟩

theorem prints_start {s : Shared ω} (hnone : s.settlements = []) (hzero : s.tally = {}) (workers : List Worker) :
    (start c s workers).Prints r ∧ (start c s workers).Timely c := by
  have hbefore : Engine.Prints r { shared := s, workers : Engine ω } := by
    refine ⟨?_, by rw [hnone, hzero]; rfl, (r.linesOf_zero _).symm⟩
    change ∀ x ∈ s.settlements, _
    rw [hnone]
    exact nofun
  exact ⟨hbefore.extend hperiod (.startAll c s workers) _, fun _ _ => Nat.zero_le _,
    fun _ _ _ _ => Nat.zero_le _⟩

/-- A run that nothing has been settled before prints the lines that its settlements say, up to its end. -/
theorem prints_run {s : Shared ω} (hnone : s.settlements = []) (hzero : s.tally = {}) (workers : List Worker) :
    (run c (some r) s workers).Prints r ∧
      ∀ stop, c.cancelAt = some stop → (run c (some r) s workers).now ≤ stop := by
  obtain ⟨hstarted, htimely⟩ := prints_start (c := c) hperiod hnone hzero workers
  obtain ⟨hadvanced, htimely'⟩ := prints_advance hperiod (start c s workers).potential hstarted htimely
  rw [run]
  rcases finish_cases (ω := ω) c (some r) _ with ⟨hfinish, -⟩ | ⟨time, hcancel, hfinish⟩
  · rw [hfinish]
    exact ⟨hadvanced, htimely'.in_time⟩
  · obtain ⟨hprints, hnow⟩ := prints_interrupt (c := c) hperiod hadvanced (htimely'.in_time time hcancel)
    rw [hfinish, hnow]
    refine ⟨hprints, fun stop hstop => ?_⟩
    rw [hcancel] at hstop
    exact (Option.some.inj hstop).le

end Engine

/-! ### Runs without lines -/

/-- The same run with lines at other times. -/
def RunContext.withInterval (c : RunContext) (interval : UInt64) : RunContext :=
  { c with settings := { c.settings with reportIntervalMs := interval } }

section

variable [Writer ω] (c : RunContext) (interval : UInt64)

theorem Worker.proceed_withInterval (now left : Nat) (s : Shared ω) (w : Worker) :
    w.proceed (c.withInterval interval) now left s = w.proceed c now left s := by
  induction left generalizing s w with
  | zero => rfl
  | succ left ih =>
    have hattempt : w.attempt (c.withInterval interval) now s = w.attempt c now s := rfl
    simp only [proceed, hattempt, ih]

theorem Worker.resume_withInterval (now : Nat) (errand : Errand) (s : Shared ω) (w : Worker) :
    w.resume (c.withInterval interval) now errand s = w.resume c now errand s := by
  cases errand with
  | pause => exact proceed_withInterval c interval now _ s w
  | answer intent started outcome =>
    have hrest : ∀ (s : Shared ω) (w : Worker),
        w.rest (c.withInterval interval) now started s = w.rest c now started s := fun _ _ => rfl
    have hconclude : w.conclude (c.withInterval interval) now intent outcome s =
        w.conclude c now intent outcome s := rfl
    simp only [resume, hrest, hconclude, proceed_withInterval]

namespace Engine

theorem startAll_withInterval (s : Shared ω) (workers : List Worker) :
    startAll (c.withInterval interval) s workers = startAll c s workers := by
  induction workers generalizing s with
  | nil => rfl
  | cons w rest ih =>
    have hstart : w.start (c.withInterval interval) s = w.start c s := by
      simp only [Worker.start, Worker.proceed_withInterval]
      rfl
    simp only [startAll, hstart, ih]

theorem advance_withInterval (reporter : Option Reporter) (steps : Nat) (e : Engine ω) :
    e.advance (c.withInterval interval) reporter steps = e.advance c reporter steps := by
  induction steps generalizing e with
  | zero => rfl
  | succ steps ih =>
    simp only [advance, wake, Worker.resume_withInterval, ih]
    rfl

theorem run_withInterval (reporter : Option Reporter) (s : Shared ω) (workers : List Worker) :
    run (c.withInterval interval) reporter s workers = run c reporter s workers := by
  simp only [run, start, startAll_withInterval, advance_withInterval]
  rfl

end Engine

end

/-- Everything but the lines. -/
def Engine.mute (e : Engine ω) : Engine ω := { e with console := [] }

namespace Engine

variable {c : RunContext} {reporter : Option Reporter}

theorem mute_update (e : Engine ω) (index : Nat) (step : Shared ω → Worker → Shared ω × Worker) :
    (e.update index step).mute = e.mute.update index step := by
  unfold update mute
  dsimp only
  split <;> rfl

variable [Writer ω]

theorem mute_advance (steps : Nat) (e : Engine ω) :
    (e.advance c reporter steps).mute = e.mute.advance c none steps := by
  induction steps generalizing e with
  | zero => rfl
  | succ steps ih =>
    have hworkers : e.mute.workers = e.workers := rfl
    rw [advance, advance, hworkers]
    split
    · rfl
    · rename_i index wait hearliest
      have hwake : (e.wake c reporter index wait).mute = e.mute.wake c none index wait := mute_update _ _ _
      split
      · rw [ih, hwake]
      · rfl

theorem mute_interrupt (e : Engine ω) (time : Nat) :
    (e.interrupt c reporter time).mute = e.mute.interrupt c none time :=
  (List.foldl_hom mute fun e wait => (mute_update e wait.1 _).symm).symm

theorem mute_finish (e : Engine ω) : (e.finish c reporter).mute = e.mute.finish c none := by
  have hworkers : e.mute.workers = e.workers := rfl
  rw [finish, finish, hworkers]
  split
  · rfl
  · split
    · exact mute_interrupt e _
    · rfl

theorem mute_run (c : RunContext) (reporter : Option Reporter) (s : Shared ω) (workers : List Worker) :
    (run c reporter s workers).mute = run c none s workers := by
  rw [run, run, mute_finish, mute_advance]
  rfl

end Engine

/-! ### What the client has accepted -/

/-- How many submissions the client has accepted by some time. -/
def Client.acceptedBy (client : Client) (calls : List Call) (time : Nat) : Nat :=
  (client.answers calls).countP fun x => x.2.isOk && decide (x.1 ≤ time)

theorem RunContext.sent_verdict {c : RunContext} {time : Nat}
    (hearly : ∀ stop, c.cancelAt = some stop → time ≤ stop) (worker arrival : Nat) (intent : Intent)
    (answer : Except Failure String) :
    ((c.verdict worker arrival intent (.ofAnswer answer)).isSent &&
        decide ((c.verdict worker arrival intent (.ofAnswer answer)).time ≤ time)) =
      (answer.isOk && decide (arrival ≤ time)) := by
  unfold RunContext.verdict
  split
  · cases answer <;> rfl
  · rename_i hlate
    have hafter : ¬ arrival ≤ time := fun hle =>
      hlate (arrivesInTime_iff.mpr fun stop hstop => hle.trans (hearly stop hstop))
    rw [decide_eq_false hafter, Bool.and_false]
    rfl

/-- Up to a time before the cancellation, as many attempts have succeeded as the client has accepted. -/
theorem RunContext.sent_endings {c : RunContext} {time : Nat}
    (hearly : ∀ stop, c.cancelAt = some stop → time ≤ stop) (attempts : List Attempt) :
    ((c.endings attempts).countP fun x => x.isSent && decide (x.time ≤ time)) =
      c.client.acceptedBy (callsOf attempts) time := by
  induction attempts with
  | nil => rfl
  | cons a earlier ih =>
    rw [RunContext.endings, List.countP_cons]
    cases hsigned : a.signed with
    | error cause =>
      have hending : c.ending earlier a = ⟨a.worker, a.time, a.intent, .refused⟩ := by
        rw [RunContext.ending, hsigned]
      rw [hending, callsOf_cons_refused hsigned]
      exact ih
    | ok payload =>
      have hending : c.ending earlier a = c.verdict a.worker (a.time + (c.replyTo earlier a.time payload).latency)
          a.intent (.ofAnswer (c.replyTo earlier a.time payload).answer) := by
        rw [RunContext.ending, hsigned]
      rw [hending, sent_verdict hearly, ih, callsOf_cons_signed hsigned, Client.acceptedBy, Client.acceptedBy,
        Client.answers, List.countP_cons]
      rfl

/-! ### The whole run -/

namespace RunInput

/-- The same run with lines at other times. -/
def withInterval (r : RunInput) (interval : UInt64) : RunInput :=
  { r with settings := { r.settings with reportIntervalMs := interval } }

/-- What a run leaves behind whose workers came to their ends in some engine. -/
def recordInto (r : RunInput) (artifact : ArtifactFile) (files : FileTree) (e : Engine BufferedDevice) :
    RunRecord :=
  let shared := conclude (r.report e) e.shared
  r.recordOf e ({ artifact with sink := shared.sink }.close files) shared.notices

theorem runInto_eq_recordInto (r : RunInput) (artifact : ArtifactFile) (files : FileTree)
    (hsenders : 0 < r.senders.length) (hrecipients : 0 < r.recipients.length) :
    r.runInto artifact files hsenders hrecipients =
      r.recordInto artifact files (r.engine artifact.sink hsenders hrecipients) := by
  obtain ⟨notices, hconclude⟩ := conclude_eq (r.report (r.engine artifact.sink hsenders hrecipients))
    (r.engine artifact.sink hsenders hrecipients).shared
  simp only [runInto, recordInto, recordOf, hconclude]

/-- Two engines that differ in their lines leave behind what differs in its lines. -/
theorem recordInto_of_mute {r : RunInput} {e e' : Engine BufferedDevice} (hmute : e'.mute = e.mute)
    (artifact : ArtifactFile) (files : FileTree) :
    r.recordInto artifact files e' = { r.recordInto artifact files e with console := e'.console } := by
  have hengine : e' = { e with console := e'.console } := by
    obtain ⟨now, shared, workers, console⟩ := e'
    cases hmute
    rfl
  rw [hengine]
  rfl

theorem validate_withInterval {r : RunInput} (hvalid : r.settings.validate = .ok ()) {interval : UInt64}
    (hinterval : interval ≠ 0) : (r.withInterval interval).settings.validate = .ok () := by
  obtain ⟨hrate, hduration, hworkers, houtput, -⟩ := RunSettings.validate_eq_ok_iff.mp hvalid
  exact RunSettings.validate_eq_ok_iff.mpr ⟨hrate, hduration, hworkers, houtput, hinterval⟩

theorem runInto_withInterval (r : RunInput) (interval : UInt64) (artifact : ArtifactFile) (files : FileTree)
    (hsenders : 0 < r.senders.length) (hrecipients : 0 < r.recipients.length) :
    (r.withInterval interval).runInto artifact files hsenders hrecipients =
      r.recordInto artifact files (Engine.run (r.context hrecipients) (some (r.withInterval interval).reporter)
        (r.shared artifact.sink) (r.workers hsenders)) := by
  refine (runInto_eq_recordInto (r.withInterval interval) artifact files hsenders hrecipients).trans ?_
  have hengine : (r.withInterval interval).engine artifact.sink hsenders hrecipients =
      Engine.run (r.context hrecipients) (some (r.withInterval interval).reporter) (r.shared artifact.sink)
        (r.workers hsenders) :=
    Engine.run_withInterval (r.context hrecipients) interval _ _ _
  rw [hengine]
  rfl

/-- What the lines of a run with a report show. -/
structure ShowsProgress (r : RunInput) (report : FinalReport) : Prop where
  /-- There is one line for each multiple of the period before the end of the run, and no other. -/
  times : ∃ count,
    (∀ k, 0 < k → (k ≤ count ↔ nanosOfMillis (k * r.reporter.period) < report.totalTime)) ∧
    r.run.console.reverse.map (·.snapshot.elapsed) =
      (List.range count).map fun i => nanosOfMillis ((i + 1) * r.reporter.period)
  /-- A line has the counters of its time, and so what the client has accepted by then. -/
  counted : ∀ i line, r.run.console.reverse[i]? = some line →
    line.snapshot.tally = tallyAt ((i + 1) * r.reporter.period) r.run.settlements ∧
    line.snapshot.tally.sent = r.client.acceptedBy r.run.calls ((i + 1) * r.reporter.period)
  grows : r.run.console.reverse.Pairwise fun earlier later =>
    earlier.snapshot.tally.Precedes later.snapshot.tally
  within : ∀ line ∈ r.run.console, line.planned = report.planned ∧
    line.snapshot.tally.Precedes ⟨report.sent, report.errors⟩ ∧
    line.snapshot.tally.attempted ≤ report.scheduled
  reported : report.attempted ≤ report.scheduled ∧ report.scheduled ≤ report.planned

/-- The lines that the reporter of a run is to print, the earliest first. -/
theorem console_engine (r : RunInput) {ω : Type} [Writer ω] (sink : ResultSink ω) (hsenders : 0 < r.senders.length)
    (hrecipients : 0 < r.recipients.length) (hperiod : 0 < r.reporter.period) :
    let e := r.engine sink hsenders hrecipients
    e.console.reverse = r.reporter.linesOf e.shared.settlements e.now ∧
      ∀ time ≤ e.now, (tallyAt time e.shared.settlements).sent = r.client.acceptedBy e.shared.calls time := by
  obtain ⟨hprints, hintime⟩ := Engine.prints_run (c := r.context hrecipients) hperiod
    (s := r.shared sink) rfl rfl (r.workers hsenders)
  refine ⟨hprints.console_eq, fun time hle => ?_⟩
  have hledger := r.ledger_engine sink hsenders hrecipients
  have hsettled : (r.engine sink hsenders hrecipients).shared.settlements.Perm _ := hledger.settled
  rw [tallyAt_eq, hledger.calls_eq]
  exact (hsettled.countP_eq _).trans
    (RunContext.sent_endings (fun stop hstop => hle.trans (hintime stop hstop)) _)

theorem showsProgress_of_run {r : RunInput} {report : FinalReport} (hresult : r.run.result = .ok report) :
    r.ShowsProgress report := by
  have hsound := RunSettings.fits_of_validate (start_of_ok hresult).1
  obtain ⟨sink, hsenders, hrecipients, files, notices, hfresh, hreport, hrun⟩ := run_of_ok hresult
  obtain ⟨hlines, haccepted⟩ := r.console_engine sink hsenders hrecipients hsound.period_pos
  obtain ⟨k, hreach, -, hshared, -⟩ := r.reaches_engine sink hsenders hrecipients
  have hfits := fits_of_crew hfresh hreach
  have hprecedes : ∀ line ∈ (r.engine sink hsenders hrecipients).console,
      line.snapshot.tally.Precedes (r.engine sink hsenders hrecipients).shared.tally :=
    Engine.console_precedes _ _ _ _
  generalize r.engine sink hsenders hrecipients = e at *
  have hconsole : r.run.console = e.console := by rw [hrun]; rfl
  have hsettlements : r.run.settlements = e.shared.settlements := by rw [hrun]; rfl
  have hcalls : r.run.calls = e.shared.calls := by rw [hrun]; rfl
  constructor
  · refine ⟨r.reporter.linesBefore e.now, fun k hpos => ?_, ?_⟩
    · obtain ⟨i, rfl⟩ := Nat.exists_eq_succ_of_ne_zero hpos.ne'
      rw [Nat.succ_le_iff, Reporter.lt_linesBefore_iff hsound.period_pos, hreport, ← not_le,
        ← nanosOfMillis_le_iff, not_le]
      rfl
    · rw [hconsole, hlines, Reporter.linesOf, List.map_map]
      rfl
  · intro i line hline
    rw [hconsole, hlines, Reporter.linesOf, List.getElem?_map] at hline
    obtain ⟨j, hj, rfl⟩ := Option.map_eq_some_iff.mp hline
    obtain ⟨hi, rfl⟩ := List.getElem?_eq_some_iff.mp hj
    rw [List.getElem_range, hsettlements, hcalls]
    rw [List.length_range, Reporter.lt_linesBefore_iff hsound.period_pos] at hi
    exact ⟨rfl, haccepted _ hi.le⟩
  · rw [hconsole, hlines, Reporter.linesOf, List.pairwise_map]
    refine List.pairwise_lt_range.imp fun hless => ?_
    exact tallyAt_precedes (Nat.mul_le_mul_right _ (by omega)) _
  · intro line hline
    rw [hconsole] at hline
    refine ⟨?_, hreport ▸ hprecedes line hline, ?_⟩
    · rw [← List.mem_reverse, hlines] at hline
      obtain ⟨i, -, rfl⟩ := List.mem_map.mp hline
      rw [hreport]
      rfl
    · rw [hreport]
      exact hfits.attempted_le_of_precedes (hshared ▸ hprecedes line hline)
  · rw [hreport]
    exact ⟨hfits.attempted_le_of_precedes (hshared ▸ .refl _), hsound.scheduled_le⟩

/-- The lines of a run come at all multiples of the period before its end, and they show what the client has
accepted by then; the counters in them grow, and never show more than the report does in the end, or the budget
allows. The run would be the same without its lines, or with lines at other times. -/
theorem progress_of_run {r : RunInput} {report : FinalReport} (hresult : r.run.result = .ok report) :
    r.ShowsProgress report ∧
    (∃ artifact files hsenders hrecipients,
      ArtifactFile.create r.files r.settings.output r.header = (.ok artifact, files) ∧
      r.run = r.recordInto artifact files (r.engine artifact.sink hsenders hrecipients) ∧
      r.recordInto artifact files
          (Engine.run (r.context hrecipients) none (r.shared artifact.sink) (r.workers hsenders)) =
        { r.run with console := [] }) ∧
    ∀ interval, interval ≠ 0 →
      (r.withInterval interval).run = { r.run with console := (r.withInterval interval).run.console } := by
  obtain ⟨hvalid, artifact, files, hsenders, hrecipients, hcreate, hrun, -⟩ := start_of_ok hresult
  have hmuted : ∀ reporter,
      (Engine.run (r.context hrecipients) reporter (r.shared artifact.sink) (r.workers hsenders)).mute =
        (r.engine artifact.sink hsenders hrecipients).mute := fun reporter => by
    rw [engine, Engine.mute_run, Engine.mute_run]
  have hrecord := hrun.trans (r.runInto_eq_recordInto artifact files hsenders hrecipients)
  refine ⟨showsProgress_of_run hresult, ⟨artifact, files, hsenders, hrecipients, hcreate, hrecord, ?_⟩,
    fun interval hinterval => ?_⟩
  · rw [recordInto_of_mute (hmuted none), ← hrecord]
    have hsilent := congrArg Engine.console (Engine.mute_run (r.context hrecipients) none
      (r.shared artifact.sink) (r.workers hsenders))
    rw [← hsilent]
    rfl
  · have hother : (r.withInterval interval).run =
        (r.withInterval interval).runInto artifact files hsenders hrecipients :=
      run_of_start (validate_withInterval hvalid hinterval) hsenders hrecipients hcreate
    rw [hother, runInto_withInterval, recordInto_of_mute (hmuted _), ← hrecord]

/-- The small run with a line every 400 milliseconds. -/
def chatty : RunInput := (small (.steady 10 (.ok "a"))).withInterval 400

/-- One line is printed after each of the two transfers. -/
theorem progress_of_run_chatty :
    ∃ report, chatty.run.result = .ok report ∧ report.sent = 2 ∧
      chatty.run.console.reverse.map (fun line => (line.snapshot.tally.sent, line.snapshot.elapsed)) =
        [(1, nanosOfMillis 400), (2, nanosOfMillis 800)] ∧
      chatty.client.acceptedBy chatty.run.calls 800 = 2 ∧
      (chatty.withInterval 50).run = { chatty.run with console := (chatty.withInterval 50).run.console } := by
  have hsent : (chatty.run.result.map (·.sent)).toOption = some 2 := by
    decide +kernel
  have hlines : chatty.run.console.reverse.map (fun line => (line.snapshot.tally.sent, line.snapshot.elapsed)) =
      [(1, nanosOfMillis 400), (2, nanosOfMillis 800)] := by
    decide +kernel
  obtain ⟨report, hresult, hsent'⟩ := ok_of_map_eq_some hsent
  obtain ⟨hshows, -, hother⟩ := progress_of_run hresult
  obtain ⟨first, rest, hconsole, -, hrest⟩ := List.map_eq_cons_iff.mp hlines
  obtain ⟨second, none, rfl, hsecond, -⟩ := List.map_eq_cons_iff.mp hrest
  obtain ⟨-, haccepted⟩ := hshows.counted 1 second (by rw [hconsole]; rfl)
  refine ⟨report, hresult, hsent', hlines, haccepted.symm.trans ?_, hother 50 (by decide)⟩
  exact congrArg Prod.fst hsecond

end RunInput

end TransferLoad
