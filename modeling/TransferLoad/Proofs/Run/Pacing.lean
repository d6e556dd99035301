import TransferLoad.Proofs.Run.Cancellation
import TransferLoad.Proofs.Run.Intents

/-!
# Pacing

When a worker goes on is decided by its last attempt alone: by the start of this attempt, by whether it was
signed, and by when it was answered. Nothing that the worker lost before is made up for, and the other
workers have no part in it. So the submissions of a worker are at least the pacing delay apart, which bounds
their number in any stretch of time.
-/

namespace TransferLoad

/-! ### Whole milliseconds -/

/-- A wait ends at the first whole millisecond that is late enough. -/
theorem millisCovering_le_iff {nanos millis : Nat} :
    millisCovering nanos ≤ millis ↔ nanos ≤ nanosOfMillis millis := by
  unfold millisCovering nanosOfMillis
  split <;> omega

theorem le_nanosOfMillis_millisCovering (nanos : Nat) : nanos ≤ nanosOfMillis (millisCovering nanos) :=
  millisCovering_le_iff.mp (Nat.le_refl _)

theorem nanosOfMillis_millisCovering_lt (nanos : Nat) :
    nanosOfMillis (millisCovering nanos) < nanos + 1_000_000 := by
  unfold millisCovering nanosOfMillis
  split <;> omega

theorem nanosOfMillis_le_iff {m n : Nat} : nanosOfMillis m ≤ nanosOfMillis n ↔ m ≤ n := by
  unfold nanosOfMillis
  omega

theorem le_getD_pauseEnd? (delay started now : Nat) : now ≤ (pauseEnd? delay started now).getD now := by
  unfold pauseEnd?
  split
  · rename_i hshort
    have hcovered := le_nanosOfMillis_millisCovering (nanosOfMillis started + delay)
    rw [Option.getD_some]
    unfold nanosOfMillis at *
    omega
  · exact Nat.le_refl _

/-! ### When a worker goes on -/

namespace Client

/-- When a worker goes on after an attempt. It does so at once if the signature was refused. Otherwise it
waits for the answer, and then for the first whole millisecond at which the pacing delay since the start of
the attempt is over, unless the answer has taken that long. -/
def resumption (client : Client) (delay : Nat) (earlier : List Attempt) (a : Attempt) : Nat :=
  match a.signed with
  | .error _ => a.time
  | .ok payload =>
    let latency := (client.submit (callsOf earlier) a.time payload).latency
    if delay ≤ nanosOfMillis latency then a.time + latency
    else millisCovering (nanosOfMillis a.time + delay)

/-- When a worker begins its next attempt; the first one begins with the run. -/
def nextStart (client : Client) (delay worker : Nat) : List Attempt → Nat
  | [] => 0
  | a :: earlier =>
    if a.worker = worker then client.resumption delay earlier a else client.nextStart delay worker earlier

variable {client : Client} {delay : Nat} {earlier : List Attempt} {a : Attempt}

theorem resumption_of_error {cause : Failure} (hsigned : a.signed = .error cause) :
    client.resumption delay earlier a = a.time := by
  rw [resumption, hsigned]

theorem resumption_of_ok {payload : SignedPayload} (hsigned : a.signed = .ok payload) {arrival : Nat}
    (harrival : arrival = a.time + (client.submit (callsOf earlier) a.time payload).latency) :
    client.resumption delay earlier a = (pauseEnd? delay a.time arrival).getD arrival := by
  have htaken : arrival - a.time = (client.submit (callsOf earlier) a.time payload).latency := by omega
  rw [resumption, hsigned, pauseEnd?, htaken]
  dsimp only
  rw [← harrival]
  split <;> split <;> first | rfl | omega

theorem nextStart_cons_self (client : Client) (delay : Nat) (earlier : List Attempt) (a : Attempt) :
    client.nextStart delay a.worker (a :: earlier) = client.resumption delay earlier a := if_pos rfl

theorem nextStart_cons_of_ne {worker : Nat} (hne : a.worker ≠ worker) :
    client.nextStart delay worker (a :: earlier) = client.nextStart delay worker earlier := if_neg hne

theorem time_le_resumption : a.time ≤ client.resumption delay earlier a := by
  unfold resumption
  split
  · exact Nat.le_refl _
  · dsimp only
    split
    · exact Nat.le_add_right _ _
    · rw [← nanosOfMillis_le_iff]
      exact Nat.le_trans (Nat.le_add_right _ delay) (le_nanosOfMillis_millisCovering _)

/-- After a submission the pacing delay is over when the worker goes on. -/
theorem delay_le_resumption {payload : SignedPayload} (hsigned : a.signed = .ok payload) :
    nanosOfMillis a.time + delay ≤ nanosOfMillis (client.resumption delay earlier a) := by
  rw [resumption, hsigned]
  dsimp only
  split
  · unfold nanosOfMillis at *
    omega
  · exact le_nanosOfMillis_millisCovering _

end Client

/-- Each attempt begins when its worker goes on after the attempt before. -/
def Client.Times (client : Client) (delay : Nat) (attempts : List Attempt) : Prop :=
  EachAttempt (fun earlier a => a.time = client.nextStart delay a.worker earlier) attempts

/-- The nanoseconds at which the submissions of a worker start, the latest first. -/
def startsOf (worker : Nat) (attempts : List Attempt) : List Nat :=
  ((attemptsOf worker attempts).filter (·.signed.isOk)).map (nanosOfMillis ·.time)

theorem startsOf_cons_signed {a : Attempt} {payload : SignedPayload} (hsigned : a.signed = .ok payload)
    (earlier : List Attempt) :
    startsOf a.worker (a :: earlier) = nanosOfMillis a.time :: startsOf a.worker earlier := by
  simp [startsOf, attemptsOf_cons_of_eq, hsigned, Except.isOk, Except.toBool]

theorem startsOf_cons_refused {a : Attempt} {cause : Failure} (hsigned : a.signed = .error cause)
    (worker : Nat) (earlier : List Attempt) : startsOf worker (a :: earlier) = startsOf worker earlier := by
  by_cases hworker : a.worker = worker
  · simp [startsOf, attemptsOf_cons_of_eq hworker, hsigned, Except.isOk, Except.toBool]
  · rw [startsOf, attemptsOf_cons_of_ne hworker, ← startsOf]

theorem startsOf_cons_of_ne {a : Attempt} {worker : Nat} (hne : a.worker ≠ worker) (earlier : List Attempt) :
    startsOf worker (a :: earlier) = startsOf worker earlier := by
  rw [startsOf, attemptsOf_cons_of_ne hne, ← startsOf]

/-! ### How far submissions are apart -/

namespace Client.Times

variable {client : Client} {delay : Nat} {attempts : List Attempt}

/-- When a worker goes on, the delay since each of its submissions is over. -/
theorem start_add_delay_le (htimes : client.Times delay attempts) {worker start : Nat}
    (hstart : start ∈ startsOf worker attempts) :
    start + delay ≤ nanosOfMillis (client.nextStart delay worker attempts) := by
  induction attempts with
  | nil => cases hstart
  | cons a earlier ih =>
    obtain ⟨htime, htimes⟩ := eachAttempt_cons.mp htimes
    by_cases hworker : a.worker = worker
    · subst hworker
      rw [nextStart_cons_self]
      have hearlier : start ∈ startsOf a.worker earlier →
          start + delay ≤ nanosOfMillis (client.resumption delay earlier a) := by
        intro hmem
        have hbefore := ih htimes hmem
        rw [← htime] at hbefore
        exact Nat.le_trans hbefore (nanosOfMillis_le_iff.mpr time_le_resumption)
      cases hsigned : a.signed with
      | error cause =>
        rw [startsOf_cons_refused hsigned] at hstart
        exact hearlier hstart
      | ok payload =>
        rw [startsOf_cons_signed hsigned] at hstart
        rcases List.mem_cons.mp hstart with rfl | hmem
        · exact delay_le_resumption hsigned
        · exact hearlier hmem
    · rw [startsOf_cons_of_ne hworker] at hstart
      rw [nextStart_cons_of_ne hworker]
      exact ih htimes hstart

theorem apart (htimes : client.Times delay attempts) (worker : Nat) :
    (startsOf worker attempts).Pairwise fun later earlier => earlier + delay ≤ later := by
  induction attempts with
  | nil => exact List.Pairwise.nil
  | cons a earlier ih =>
    obtain ⟨htime, htimes⟩ := eachAttempt_cons.mp htimes
    by_cases hworker : a.worker = worker
    · subst hworker
      cases hsigned : a.signed with
      | error cause =>
        rw [startsOf_cons_refused hsigned]
        exact ih htimes
      | ok payload =>
        rw [startsOf_cons_signed hsigned, List.pairwise_cons, htime]
        exact ⟨fun start hstart => start_add_delay_le htimes hstart, ih htimes⟩
    · rw [startsOf_cons_of_ne hworker]
      exact ih htimes

end Client.Times

/-- Numbers that are apart from each other leave room for few of them in a short stretch. -/
theorem length_le_of_apart {delay length start : Nat} {starts : List Nat}
    (hapart : starts.Pairwise fun later earlier => earlier + delay ≤ later)
    (hwithin : ∀ x ∈ starts, start ≤ x ∧ x ≤ start + length) : (starts.length - 1) * delay ≤ length := by
  induction starts generalizing length with
  | nil => exact (Nat.zero_mul _).trans_le (Nat.zero_le _)
  | cons x rest ih =>
    obtain ⟨hx, hrest⟩ := List.pairwise_cons.mp hapart
    obtain ⟨hown, hwithin⟩ := List.forall_mem_cons.mp hwithin
    cases rest with
    | nil => exact (Nat.zero_mul _).trans_le (Nat.zero_le _)
    | cons y earlier =>
      have hy := hwithin y List.mem_cons_self
      have hgap := hx y List.mem_cons_self
      have hshort : ((y :: earlier).length - 1) * delay ≤ x - delay - start := by
        refine ih hrest fun z hz => ?_
        have := hwithin z hz
        have := hx z hz
        omega
      rw [List.length_cons, Nat.add_sub_cancel] at hshort ⊢
      rw [List.length_cons, Nat.succ_mul]
      omega

theorem length_filter_le_of_apart {delay : Nat} (hdelay : 0 < delay) {starts : List Nat}
    (hapart : starts.Pairwise fun later earlier => earlier + delay ≤ later) (start length : Nat) :
    (starts.filter fun x => start ≤ x ∧ x ≤ start + length).length ≤ length / delay + 1 := by
  have hwithin : ∀ x ∈ starts.filter fun x => start ≤ x ∧ x ≤ start + length,
      start ≤ x ∧ x ≤ start + length := fun x hx => by simpa using (List.mem_filter.mp hx).2
  have := (Nat.le_div_iff_mul_le hdelay).mpr (length_le_of_apart (hapart.filter _) hwithin)
  omega

/-! ### One turn of a worker -/

/-- When a worker of a run begins its next attempt. -/
def RunContext.nextStart (c : RunContext) (worker : Nat) (attempts : List Attempt) : Nat :=
  c.client.nextStart c.settings.pacingDelay worker attempts

theorem RunContext.stop_le_of_not_live {c : RunContext} {time : Nat} (hlate : c.isLiveAt time = false) :
    ∃ stop, c.cancelAt = some stop ∧ stop ≤ time := by
  rw [← Bool.not_eq_true, RunContext.isLiveAt_iff] at hlate
  simpa only [not_forall, Nat.not_lt, exists_prop] using hlate

/-- The wait of a worker leads to the start of its next attempt, and a worker that waits for nothing has no
attempt left that would start before the cancellation. -/
def Worker.Scheduled (c : RunContext) (attempts : List Attempt) (w : Worker) : Prop :=
  match w.wait with
  | none => 0 < w.left → c.isLiveAt (c.nextStart w.summary.id attempts) = false
  | some wait =>
    match wait.errand with
    | .pause => wait.due = c.nextStart w.summary.id attempts
    | .answer _ started _ =>
      (pauseEnd? c.settings.pacingDelay started wait.due).getD wait.due = c.nextStart w.summary.id attempts

theorem Worker.Scheduled.of_eq {c : RunContext} {attempts attempts' : List Attempt} {w : Worker}
    (heq : c.nextStart w.summary.id attempts' = c.nextStart w.summary.id attempts)
    (hscheduled : w.Scheduled c attempts) : w.Scheduled c attempts' := by
  unfold Worker.Scheduled at hscheduled ⊢
  rwa [heq]

theorem Worker.Scheduled.due_le {c : RunContext} {attempts : List Attempt} {w : Worker} {wait : Wait}
    (hscheduled : w.Scheduled c attempts) (hwait : w.wait = some wait) :
    wait.due ≤ c.nextStart w.summary.id attempts := by
  simp only [Worker.Scheduled, hwait] at hscheduled
  split at hscheduled
  · exact Nat.le_of_eq hscheduled
  · rw [← hscheduled]
    exact le_getD_pauseEnd? _ _ _

variable {ω : Type}

/-- What has happened so far in a turn of one worker: only this worker has made attempts, and all attempts
began when they should have. -/
structure Worker.OnTurn (c : RunContext) (id : Nat) (before : List Attempt) (p : Shared ω × Worker) : Prop where
  id_eq : p.2.summary.id = id
  calls_eq : p.1.calls = callsOf p.1.attempts
  times : c.client.Times c.settings.pacingDelay p.1.attempts
  others : ∀ other, other ≠ id → c.nextStart other p.1.attempts = c.nextStart other before

namespace Worker.OnTurn

variable {c : RunContext} {id now : Nat} {before : List Attempt} {s s' s₁ : Shared ω} {w w' w₁ : Worker}
  {a : Attempt}

theorem of_eq (hturn : OnTurn c id before (s, w)) (hid : w'.summary.id = w.summary.id)
    (hattempts : s'.attempts = s.attempts) (hcalls : s'.calls = s.calls) : OnTurn c id before (s', w') where
  id_eq := hid.trans hturn.id_eq
  calls_eq := by
    change s'.calls = callsOf s'.attempts
    rw [hcalls, hattempts, hturn.calls_eq]
  times := by
    change c.client.Times c.settings.pacingDelay s'.attempts
    rw [hattempts]
    exact hturn.times
  others := by
    change ∀ other, other ≠ id → c.nextStart other s'.attempts = c.nextStart other before
    rw [hattempts]
    exact hturn.others

/-- A worker that goes on now draws up the attempt that was to begin now. -/
theorem draw (hturn : OnTurn c id before (s, w)) (hnow : c.nextStart id s.attempts = now)
    (hprepare : w.prepare c now s = (a, s₁, w₁)) :
    a.worker = id ∧ a.time = now ∧ w₁.summary.id = id ∧ s₁.attempts = a :: s.attempts ∧
      s₁.calls = callsOf s.attempts ∧ c.client.Times c.settings.pacingDelay (a :: s.attempts) ∧
      ∀ other, other ≠ id → c.nextStart other (a :: s.attempts) = c.nextStart other before := by
  obtain ⟨hid, hcalls, htimes, hothers⟩ := hturn
  obtain ⟨intent, selector, -, ha, hs, hw⟩ := Worker.prepare_eq hprepare
  have hworker : a.worker = id := by
    rw [ha]
    exact hid
  have htime : a.time = now := by rw [ha]
  refine ⟨hworker, htime, ?_, by rw [hs], ?_, eachAttempt_cons.mpr ⟨?_, htimes⟩, fun other hne => ?_⟩
  · rw [hw]
    exact hid
  · rw [hs]
    exact hcalls
  · rw [htime, hworker]
    exact hnow.symm
  · rw [← hothers other hne]
    exact Client.nextStart_cons_of_ne (hworker ▸ hne.symm)

theorem refuse {cause : Failure} (hturn : OnTurn c id before (s, w)) (hnow : c.nextStart id s.attempts = now)
    (hprepare : w.prepare c now s = (a, s₁, w₁)) (hsigned : a.signed = .error cause) :
    OnTurn c id before (s₁, w₁) ∧ c.nextStart id s₁.attempts = now := by
  obtain ⟨hworker, htime, hid, hattempts, hcalls, htimes, hothers⟩ := hturn.draw hnow hprepare
  refine ⟨⟨hid, ?_, ?_, ?_⟩, ?_⟩
  · dsimp only
    rw [hattempts, callsOf_cons_refused hsigned, hcalls]
  · dsimp only
    rwa [hattempts]
  · dsimp only
    rwa [hattempts]
  · rw [hattempts, ← hworker, ← htime]
    exact (Client.nextStart_cons_self ..).trans (Client.resumption_of_error hsigned)

theorem submit {payload : SignedPayload} (hturn : OnTurn c id before (s, w))
    (hnow : c.nextStart id s.attempts = now) (hprepare : w.prepare c now s = (a, s₁, w₁))
    (hsigned : a.signed = .ok payload) {arrival : Nat}
    (harrival : arrival = now + (c.client.submit s₁.calls now payload).latency) :
    OnTurn c id before (s₁.submit now payload, w₁) ∧
      (pauseEnd? c.settings.pacingDelay now arrival).getD arrival =
        c.nextStart id (s₁.submit now payload).attempts := by
  obtain ⟨hworker, htime, hid, hattempts, hcalls, htimes, hothers⟩ := hturn.draw hnow hprepare
  have hattempts' : (s₁.submit now payload).attempts = a :: s.attempts := hattempts
  rw [hcalls, ← htime] at harrival
  refine ⟨⟨hid, ?_, ?_, ?_⟩, ?_⟩
  · change _ :: s₁.calls = callsOf s₁.attempts
    rw [hattempts, callsOf_cons_signed hsigned, hcalls, htime]
  · dsimp only
    rwa [hattempts']
  · dsimp only
    rwa [hattempts']
  · rw [hattempts', ← hworker, ← htime]
    exact ((Client.nextStart_cons_self ..).trans (Client.resumption_of_ok hsigned harrival)).symm

theorem lose (hturn : OnTurn c id before (s, w)) (now : Nat) (intent : Intent) (fate : Fate) (reason : String) :
    OnTurn c id before (w.lose c now intent fate reason s) ∧
      (w.lose c now intent fate reason s).1.attempts = s.attempts := by
  obtain ⟨notices, hlose⟩ := w.lose_eq c now intent fate reason s
  rw [hlose]
  exact ⟨hturn.of_eq rfl rfl rfl, rfl⟩

variable [Writer ω]

theorem conclude (hturn : OnTurn c id before (s, w)) (now : Nat) (intent : Intent)
    (outcome : SubmissionOutcome) :
    OnTurn c id before (w.conclude c now intent outcome s) ∧
      (w.conclude c now intent outcome s).1.attempts = s.attempts := by
  cases outcome with
  | failure reason => exact hturn.lose now intent (.rejected reason) reason
  | success identifier =>
    obtain ⟨notices, hgain⟩ := w.gain_eq c now intent identifier s
    rw [Worker.conclude, hgain]
    exact ⟨hturn.of_eq rfl rfl rfl, rfl⟩

/-- A worker that goes on when its next attempt is to begin ends its turn with the wait for the one after. -/
theorem rule (c : RunContext) (now id : Nat) (before : List Attempt) :
    Worker.TurnRule (ω := ω) c now
      (fun p => OnTurn c id before p ∧ c.nextStart id p.1.attempts = now)
      (fun started p => OnTurn c id before p ∧
        (pauseEnd? c.settings.pacingDelay started now).getD now = c.nextStart id p.1.attempts)
      (fun p => OnTurn c id before p ∧ p.2.Scheduled c p.1.attempts) where
  refused := by
    intro s s₁ w w₁ a cause ⟨hturn, hnow⟩ _ hprepare hsigned
    obtain ⟨hturn₁, hnow₁⟩ := hturn.refuse hnow hprepare hsigned
    obtain ⟨hlost, hattempts⟩ := hturn₁.lose now a.intent .refused cause.message
    exact ⟨hlost, by rw [hattempts, hnow₁]⟩
  answered := by
    intro s s₁ w w₁ a payload ⟨hturn, hnow⟩ _ hprepare hsigned hlatency
    obtain ⟨hturn₁, hnext⟩ := hturn.submit hnow hprepare hsigned (by rw [hlatency, Nat.add_zero])
    obtain ⟨hconcluded, hattempts⟩ := hturn₁.conclude now a.intent
      (.ofAnswer (c.client.submit s₁.calls now payload).answer)
    exact ⟨hconcluded, by rw [hattempts, hnext]⟩
  departed := by
    intro s s₁ w w₁ a payload ⟨hturn, hnow⟩ _ hprepare hsigned _
    obtain ⟨hturn₁, hnext⟩ := hturn.submit hnow hprepare hsigned rfl
    refine ⟨hturn₁.of_eq rfl rfl rfl, ?_⟩
    rw [← hturn₁.id_eq] at hnext
    exact hnext
  paused := by
    intro s w started due ⟨hturn, hnext⟩ hpause
    refine ⟨hturn.of_eq rfl rfl rfl, ?_⟩
    rw [hpause, Option.getD_some, ← hturn.id_eq] at hnext
    exact hnext
  goesOn := by
    intro s w started ⟨hturn, hnext⟩ hpause
    rw [hpause, Option.getD_none] at hnext
    exact ⟨hturn, hnext.symm⟩
  done := by
    intro s w ⟨hturn, _⟩ hleft
    refine ⟨hturn.of_eq rfl rfl rfl, fun hpos => ?_⟩
    change 0 < w.left at hpos
    omega

end Worker.OnTurn

theorem Worker.Scheduled.resume [Writer ω] {c : RunContext} {s : Shared ω} {w : Worker} {wait : Wait}
    (hwait : w.wait = some wait) (hturn : Worker.OnTurn c w.summary.id s.attempts (s, w))
    (hscheduled : w.Scheduled c s.attempts) :
    Worker.OnTurn c w.summary.id s.attempts (w.resume c wait.due wait.errand s) ∧
      (w.resume c wait.due wait.errand s).2.Scheduled c (w.resume c wait.due wait.errand s).1.attempts := by
  obtain ⟨due, order, errand⟩ := wait
  have hrule := Worker.OnTurn.rule (ω := ω) c due w.summary.id s.attempts
  simp only [Worker.Scheduled, hwait] at hscheduled
  cases errand with
  | pause => exact hrule.proceed (s := s) (w := w) ⟨hturn, hscheduled.symm⟩
  | answer intent started outcome =>
    obtain ⟨hconcluded, hattempts⟩ := hturn.conclude due intent outcome
    exact hrule.resume_answer started ⟨hconcluded, by rw [hattempts]; exact hscheduled⟩

/-- A wait that is ended by a cancellation would not have led to another attempt before it. -/
theorem Worker.OnTurn.stop [Writer ω] {c : RunContext} {s : Shared ω} {w : Worker} {wait : Wait}
    (hturn : Worker.OnTurn c w.summary.id s.attempts (s, w)) (hscheduled : w.Scheduled c s.attempts)
    (hwait : w.wait = some wait) (hlate : c.isLiveAt wait.due = false) (time : Nat) :
    Worker.OnTurn c w.summary.id s.attempts (w.stop c time wait s) ∧
      (w.stop c time wait s).2.Scheduled c (w.stop c time wait s).1.attempts := by
  obtain ⟨-, hattempts, hcalls⟩ := w.stop_keeps c time wait s
  have hid : (w.stop c time wait s).2.summary.id = w.summary.id := w.id_stop c time wait s
  refine ⟨hturn.of_eq hid hattempts hcalls, ?_⟩
  unfold Worker.Scheduled
  rw [w.wait_stop, hid, hattempts]
  rintro -
  rw [← Bool.not_eq_true] at hlate ⊢
  exact fun hlive => hlate (RunContext.isLiveAt_of_le (hscheduled.due_le hwait) hlive)

theorem Worker.OnTurn.start [Writer ω] {c : RunContext} {id : Nat} {before : List Attempt} {s : Shared ω}
    {w : Worker} (hturn : Worker.OnTurn c id before (s, w)) (hfirst : c.nextStart id s.attempts = 0) :
    Worker.OnTurn c id before (w.start c s) ∧ (w.start c s).2.Scheduled c (w.start c s).1.attempts := by
  unfold Worker.start
  split
  · exact (Worker.OnTurn.rule c 0 id before).proceed ⟨hturn, hfirst⟩
  · rename_i hlive
    refine ⟨hturn.of_eq rfl rfl rfl, fun _ => ?_⟩
    change c.isLiveAt (c.nextStart w.summary.id s.attempts) = false
    rw [hturn.id_eq, hfirst, ← Bool.not_eq_true]
    exact hlive

/-! ### The whole run -/

/-- All attempts began when they should have, and so will the next ones. -/
structure Engine.OnTime (c : RunContext) (e : Engine ω) : Prop where
  distinct : (e.workers.map (·.summary.id)).Nodup
  calls_eq : e.shared.calls = callsOf e.shared.attempts
  times : c.client.Times c.settings.pacingDelay e.shared.attempts
  scheduled : ∀ w ∈ e.workers, w.Scheduled c e.shared.attempts

/-- The workers that have started are on time, and the rest are to begin with the run. -/
structure Engine.Starting (c : RunContext) (s : Shared ω) (started rest : List Worker) : Prop where
  distinct : ((started ++ rest).map (·.summary.id)).Nodup
  onTime : Engine.OnTime c { shared := s, workers := started }
  first : ∀ w ∈ rest, c.nextStart w.summary.id s.attempts = 0

namespace Engine

variable {c : RunContext} {e e' : Engine ω} {before after : List Worker} {w w' : Worker}

theorem OnTime.onTurn (honTime : OnTime c e) (w : Worker) :
    Worker.OnTurn c w.summary.id e.shared.attempts (e.shared, w) :=
  ⟨rfl, honTime.calls_eq, honTime.times, fun _ _ => rfl⟩

theorem OnTime.of_split (honTime : OnTime c e) (hsplit : e.workers = before ++ w :: after)
    (hworkers : e'.workers = before ++ w' :: after)
    (hturn : Worker.OnTurn c w.summary.id e.shared.attempts (e'.shared, w'))
    (hscheduled : w'.Scheduled c e'.shared.attempts) : OnTime c e' := by
  have hid : w'.summary.id = w.summary.id := hturn.id_eq
  have hdistinct := honTime.distinct
  have hall := honTime.scheduled
  rw [hsplit] at hdistinct hall
  refine ⟨?_, hturn.calls_eq, hturn.times, ?_⟩
  · rw [hworkers]
    simpa only [List.map_append, List.map_cons, hid] using hdistinct
  · rw [hworkers]
    exact forall_mem_replace_of_nodup hdistinct hall
      (fun v hne hv => hv.of_eq (hturn.others _ hne.symm)) hscheduled

variable [Writer ω]

/-- A worker that starts draws up the attempts that are due at once. -/
theorem Starting.start {s : Shared ω} {started rest : List Worker}
    (hstarting : Starting c s started (w :: rest)) :
    Starting c (w.start c s).1 (started ++ [(w.start c s).2]) rest := by
  obtain ⟨hdistinct, honTime, hfirst⟩ := hstarting
  have hne := ne_of_nodup_map hdistinct
  obtain ⟨hturn, hscheduled⟩ := (honTime.onTurn w).start (hfirst w List.mem_cons_self)
  have hid : (w.start c s).2.summary.id = w.summary.id := hturn.id_eq
  have hdistinct' : ((started ++ [(w.start c s).2] ++ rest).map (·.summary.id)).Nodup := by
    simpa only [List.map_append, List.map_cons, List.map_nil, List.append_assoc, List.cons_append,
      List.nil_append, hid] using hdistinct
  refine ⟨hdistinct', ⟨?_, hturn.calls_eq, hturn.times, ?_⟩, fun v hv => ?_⟩
  · rw [List.map_append] at hdistinct'
    exact hdistinct'.of_append_left
  · refine List.forall_mem_append.mpr ⟨fun v hv => ?_, by simpa using hscheduled⟩
    exact (honTime.scheduled v hv).of_eq (hturn.others _ (hne v (List.mem_append_left _ hv)).symm)
  · rw [hturn.others _ (hne v (List.mem_append_right _ hv)).symm]
    exact hfirst v (List.mem_cons_of_mem _ hv)

theorem onTime_start {s : Shared ω} {workers : List Worker}
    (hdistinct : (workers.map (·.summary.id)).Nodup) (hattempts : s.attempts = []) (hcalls : s.calls = []) :
    OnTime c (start c s workers) := by
  have hstarting : Starting c s [] workers := by
    refine ⟨hdistinct, ⟨List.nodup_nil, ?_, ?_, nofun⟩, ?_⟩
    · rw [hcalls, hattempts]
      rfl
    · rw [hattempts]
      exact eachAttempt_nil
    · intro w _
      rw [hattempts]
      rfl
  have hstarted := (startAll_keeps (P := Starting c) Starting.start hstarting).onTime
  exact ⟨hstarted.distinct, hstarted.calls_eq, hstarted.times, hstarted.scheduled⟩

theorem onTime_run (c : RunContext) (reporter : Option Reporter) {s : Shared ω} {workers : List Worker}
    (hdistinct : (workers.map (·.summary.id)).Nodup) (hattempts : s.attempts = []) (hcalls : s.calls = []) :
    OnTime c (run c reporter s workers) := by
  refine run_keeps (P := OnTime c) (fun _ honTime => { honTime with }) ?_ ?_
    (onTime_start hdistinct hattempts hcalls)
  · intro e before after w wait honTime hsplit hwait _
    obtain ⟨hturn, hscheduled⟩ := Worker.Scheduled.resume hwait (honTime.onTurn w)
      (honTime.scheduled w (by rw [hsplit]; simp))
    exact honTime.of_split hsplit rfl hturn hscheduled
  · intro time _ e before after w wait honTime hsplit hwait hlate
    obtain ⟨hturn, hscheduled⟩ := (honTime.onTurn w).stop
      (honTime.scheduled w (by rw [hsplit]; simp)) hwait hlate time
    exact honTime.of_split hsplit rfl hturn hscheduled

end Engine

namespace RunInput

/-- The workers of a run keep to the pacing delay: each attempt begins when its worker goes on after the
attempt before, and a worker with attempts left makes the next one unless the run has been cancelled. -/
structure Paced (r : RunInput) (attempts : List Attempt) (calls : List Call) (workers : List WorkerSummary) :
    Prop where
  calls_eq : calls = callsOf attempts
  times : r.client.Times r.settings.pacingDelay attempts
  counted : ∀ w ∈ workers, w.attempted = (attemptsOf w.id attempts).length
  live : ∀ a ∈ attempts, ∀ stop, r.cancelAt = some stop → a.time < stop
  goes_on : ∀ w ∈ workers, w.attempted < w.quota → ∃ stop, r.cancelAt = some stop ∧
    stop ≤ r.client.nextStart r.settings.pacingDelay w.id attempts
  apart : ∀ worker, (startsOf worker attempts).Pairwise fun later earlier =>
    earlier + r.settings.pacingDelay ≤ later
  few : 0 < r.settings.pacingDelay → ∀ worker start length,
    ((startsOf worker attempts).filter fun x => start ≤ x ∧ x ≤ start + length).length ≤
      length / r.settings.pacingDelay + 1

variable [Writer ω]

theorem paced_engine (r : RunInput) (sink : ResultSink ω) (hsenders : 0 < r.senders.length)
    (hrecipients : 0 < r.recipients.length) :
    r.Paced (r.engine sink hsenders hrecipients).shared.attempts
      (r.engine sink hsenders hrecipients).shared.calls
      (r.report (r.engine sink hsenders hrecipients)).workers := by
  have hledger := r.ledger_engine sink hsenders hrecipients
  have hids : (r.workers hsenders).map (·.summary.id) = List.range r.settings.workers.toNat := by
    rw [← r.ids_crew sink hsenders, crew, List.map_map]
    rfl
  have honTime : Engine.OnTime (r.context hrecipients) (r.engine sink hsenders hrecipients) :=
    Engine.onTime_run _ _ (hids ▸ List.nodup_range) rfl rfl
  have htimes : r.client.Times r.settings.pacingDelay _ := honTime.times
  refine
    { calls_eq := honTime.calls_eq
      times := htimes
      counted := ?_
      live := fun a ha => RunContext.isLiveAt_iff.mp (hledger.live a ha)
      goes_on := ?_
      apart := htimes.apart
      few := fun hdelay worker => length_filter_le_of_apart hdelay (htimes.apart worker) }
  · obtain ⟨k, hreach, -, hshared, hworkers⟩ := r.reaches_engine sink hsenders hrecipients
    intro w hw
    rw [report, ← hworkers] at hw
    obtain ⟨v, hv, rfl⟩ := List.mem_map.mp hw
    obtain ⟨t, ht, rfl⟩ := List.mem_map.mp hv
    rw [← hshared]
    exact ((building_of_crew hreach).threads t ht).counted
  · intro w hw hquota
    obtain ⟨v, hv, rfl⟩ := List.mem_map.mp hw
    have hscheduled := honTime.scheduled v hv
    rw [Worker.Scheduled, Engine.wait_run _ _ _ _ v hv] at hscheduled
    have hleft : 0 < v.left := Nat.sub_pos_of_lt hquota
    exact RunContext.stop_le_of_not_live (hscheduled hleft)

omit [Writer ω] in
theorem paced_of_run {r : RunInput} {report : FinalReport} (hresult : r.run.result = .ok report) :
    r.Paced r.run.attempts r.run.calls report.workers := by
  obtain ⟨sink, hsenders, hrecipients, files, notices, -, rfl, hrun⟩ := run_of_ok hresult
  rw [hrun]
  exact r.paced_engine sink hsenders hrecipients

/-- The workers of every run keep to the pacing delay, whatever the client answers and when, whatever the
signer refuses, and whatever the artifact is written to. -/
theorem paced_run (r : RunInput) :
    (∀ report, r.run.result = .ok report → r.Paced r.run.attempts r.run.calls report.workers) ∧
    ∀ (ω : Type) [Writer ω] (sink : ResultSink ω) (hsenders : 0 < r.senders.length)
      (hrecipients : 0 < r.recipients.length),
      r.Paced (r.engine sink hsenders hrecipients).shared.attempts
        (r.engine sink hsenders hrecipients).shared.calls
        (r.report (r.engine sink hsenders hrecipients)).workers :=
  ⟨fun _ hresult => paced_of_run hresult, fun _ _ sink hsenders hrecipients =>
    r.paced_engine sink hsenders hrecipients⟩

/-- Two transfers, each answered long before the delay is over. -/
theorem paced_run_small :
    ∃ report, (small (.steady 10 (.ok "a"))).run.result = .ok report ∧
      (small (.steady 10 (.ok "a"))).Paced (small (.steady 10 (.ok "a"))).run.attempts
        (small (.steady 10 (.ok "a"))).run.calls report.workers ∧
      startsOf 0 (small (.steady 10 (.ok "a"))).run.attempts = [500_000_000, 0] := by
  have hstarts : ((small (.steady 10 (.ok "a"))).run.result.map fun _ =>
      startsOf 0 (small (.steady 10 (.ok "a"))).run.attempts).toOption = some [500_000_000, 0] := by
    decide +kernel
  obtain ⟨report, hresult, hstarts⟩ := ok_of_map_eq_some hstarts
  exact ⟨report, hresult, (paced_run (small (.steady 10 (.ok "a")))).1 report hresult, hstarts⟩

end RunInput

end TransferLoad
