import TransferLoad.Proofs.Run.Engine
import TransferLoad.Proofs.Run.Interleaving

/-!
# Runs of the engine are interleavings

The engine lets one worker go on at a time, at whole milliseconds and in the order in which waits end.
Each of its turns is a chain of steps of one thread, so the whole run is an interleaving: whatever
every interleaving does, the engine does.
-/

namespace TransferLoad

variable {ω : Type} [Writer ω]

def Thread.Steps (c : RunContext) (cancelled : Bool) : Shared ω × Thread → Shared ω × Thread → Prop :=
  Relation.ReflTransGen fun p q => Thread.Step c cancelled p.1 p.2 q.1 q.2

theorem Thread.Steps.reaches {c : RunContext} {cancelled : Bool} {s s' : Shared ω} {t t' : Thread}
    (hsteps : Thread.Steps c cancelled (s, t) (s', t')) (before after : List Thread) :
    Crew.Reaches c ⟨cancelled, s, before ++ t :: after⟩ ⟨cancelled, s', before ++ t' :: after⟩ := by
  generalize hq : (s', t') = q at hsteps
  induction hsteps generalizing s' t' with
  | refl =>
    cases hq
    exact Relation.ReflTransGen.refl
  | tail _ hlast ih =>
    cases hq
    exact (ih rfl).tail (.act hlast)

theorem Thread.Steps.tail {c : RunContext} {cancelled : Bool} {p : Shared ω × Thread} {s s' : Shared ω}
    {t t' : Thread} (hsteps : Thread.Steps c cancelled p (s, t)) (hlast : Thread.Step c cancelled s t s' t') :
    Thread.Steps c cancelled p (s', t') :=
  Relation.ReflTransGen.tail hsteps hlast

theorem Thread.Step.steps {c : RunContext} {cancelled : Bool} {s s' : Shared ω} {t t' : Thread}
    (hstep : Thread.Step c cancelled s t s' t') : Thread.Steps c cancelled (s, t) (s', t') :=
  Relation.ReflTransGen.single hstep

theorem Thread.Step.answer {c : RunContext} {cancelled : Bool} {s : Shared ω} {w : Worker}
    {intent : Intent} {outcome : SubmissionOutcome} (now : Nat) :
    Thread.Step c cancelled s ⟨w, .flying intent outcome⟩ (w.conclude c now intent outcome s).1
      ⟨(w.conclude c now intent outcome s).2, .settled⟩ := by
  cases outcome with
  | success identifier => exact .accept now
  | failure reason => exact .reject now

/-- What a wait says about where its worker stands. -/
def Wait.phase (wait : Wait) : Phase :=
  match wait.errand with
  | .pause => .settled
  | .answer intent _ outcome => .flying intent outcome

/-- The thread of a worker that waits or is finished. -/
def Thread.ofWorker (w : Worker) : Thread := ⟨w, (w.wait.map Wait.phase).getD .finished⟩

theorem Worker.left_pos_iff {w : Worker} : 0 < w.left ↔ w.summary.attempted < w.summary.quota :=
  Nat.sub_pos_iff_lt

theorem Thread.steps_of_prepare {c : RunContext} {now : Nat} {p : Shared ω × Thread} {s s₁ : Shared ω}
    {w w₁ : Worker} {a : Attempt} (hready : Thread.Steps c false p (s, ⟨w, .ready⟩)) (hleft : 0 < w.left)
    (hprepare : w.prepare c now s = (a, s₁, w₁)) :
    Thread.Steps c false p (s₁, ⟨w₁, .holding a⟩) :=
  (hready.tail (.goAhead (Worker.left_pos_iff.mp hleft) rfl)).tail (.draw now hprepare)

theorem Thread.steps_turn (c : RunContext) (now : Nat) (p : Shared ω × Thread) :
    Worker.TurnRule c now (fun q => Thread.Steps c false p (q.1, ⟨q.2, .ready⟩))
      (fun _ q => Thread.Steps c false p (q.1, ⟨q.2, .settled⟩))
      (fun q => Thread.Steps c false p (q.1, Thread.ofWorker q.2)) where
  refused := by
    intro s s₁ w w₁ a cause hready hleft hprepare hsigned
    exact (steps_of_prepare hready hleft hprepare).tail (.refuse now hsigned)
  answered := by
    intro s s₁ w w₁ a payload hready hleft hprepare hsigned _
    exact ((steps_of_prepare hready hleft hprepare).tail (.submit now hsigned)).tail (.answer now)
  departed := by
    intro s s₁ w w₁ a payload hready hleft hprepare hsigned _
    exact ((steps_of_prepare hready hleft hprepare).tail (.submit now hsigned)).tail (.await _ _)
  paused := by
    intro s w started due hsettled _
    exact hsettled.tail (.await due .pause)
  goesOn := by
    intro s w started hsettled _
    exact hsettled.tail .goOn
  done := by
    intro s w hready hleft
    exact hready.tail (.complete (Nat.sub_eq_zero_iff_le.mp hleft))

theorem Thread.steps_resume (c : RunContext) (now : Nat) (s : Shared ω) {w : Worker} {wait : Wait}
    (hwait : w.wait = some wait) :
    Thread.Steps c false (s, Thread.ofWorker w)
      ((w.resume c now wait.errand s).1, Thread.ofWorker (w.resume c now wait.errand s).2) := by
  obtain ⟨due, order, errand⟩ := wait
  have hturn := Thread.steps_turn c now (s, Thread.ofWorker w)
  cases errand with
  | pause =>
    have hphase : Thread.ofWorker w = ⟨w, .settled⟩ := by rw [Thread.ofWorker, hwait]; rfl
    refine hturn.proceed (w := w) (s := s) ?_
    rw [hphase]
    exact Thread.Step.goOn.steps
  | answer intent started outcome =>
    have hphase : Thread.ofWorker w = ⟨w, .flying intent outcome⟩ := by
      rw [Thread.ofWorker, hwait]; rfl
    refine hturn.resume_answer started ?_
    rw [hphase]
    exact (Thread.Step.answer now).steps

theorem Thread.steps_stop (c : RunContext) (now : Nat) (s : Shared ω) {w : Worker} {wait : Wait}
    (hwait : w.wait = some wait) :
    Thread.Steps c true (s, Thread.ofWorker w)
      ((w.stop c now wait s).1, Thread.ofWorker (w.stop c now wait s).2) := by
  obtain ⟨due, order, errand⟩ := wait
  cases errand with
  | pause =>
    have hphase : Thread.ofWorker w = ⟨w, .settled⟩ := by rw [Thread.ofWorker, hwait]; rfl
    rw [hphase]
    exact (Thread.Step.breakOff rfl).steps
  | answer intent started outcome =>
    have hphase : Thread.ofWorker w = ⟨w, .flying intent outcome⟩ := by
      rw [Thread.ofWorker, hwait]; rfl
    rw [hphase, Worker.stop]
    dsimp only
    split
    · exact (Thread.Step.answer now).steps.tail (.breakOff rfl)
    · exact (Thread.Step.abandon now rfl).steps

theorem Thread.steps_start (c : RunContext) (s : Shared ω) {w : Worker}
    (hunmarked : w.summary.cancelled = false) :
    Thread.Steps c (!c.isLiveAt 0) (s, ⟨w, .ready⟩) ((w.start c s).1, Thread.ofWorker (w.start c s).2) := by
  unfold Worker.start
  cases hlive : c.isLiveAt 0 with
  | true => exact (Thread.steps_turn c 0 (s, ⟨w, .ready⟩)).proceed Relation.ReflTransGen.refl
  | false =>
    by_cases hquota : w.summary.attempted < w.summary.quota
    · have hbreak : w.breakOff = w.cancelIf true := by rw [Worker.breakOff, decide_eq_true hquota]
      rw [if_neg Bool.false_ne_true, hbreak]
      exact (Thread.Step.giveUp hquota rfl).steps
    · have hbreak : w.breakOff = { w with wait := none } := by
        rw [Worker.breakOff, decide_eq_false hquota, Worker.cancelIf, ← hunmarked]
      rw [if_neg Bool.false_ne_true, hbreak]
      exact (Thread.Step.complete (Nat.le_of_not_lt hquota)).steps

/-! ### The whole run -/

/-- The threads of workers that wait or are finished. -/
def Crew.ofEngine (cancelled : Bool) (e : Engine ω) : Crew ω :=
  ⟨cancelled, e.shared, e.workers.map Thread.ofWorker⟩

theorem Crew.reaches_of_split {c : RunContext} {cancelled : Bool} {k : Crew ω} {e : Engine ω}
    {before after : List Worker} {w w' : Worker} {s' : Shared ω}
    (hreach : Crew.Reaches c k (Crew.ofEngine cancelled e)) (hsplit : e.workers = before ++ w :: after)
    (hsteps : Thread.Steps c cancelled (e.shared, Thread.ofWorker w) (s', Thread.ofWorker w')) :
    Crew.Reaches c k ⟨cancelled, s', (before ++ w' :: after).map Thread.ofWorker⟩ := by
  have hturn := hsteps.reaches (before.map Thread.ofWorker) (after.map Thread.ofWorker)
  rw [Crew.ofEngine, hsplit] at hreach
  simp only [List.map_append, List.map_cons] at hreach ⊢
  exact hreach.trans hturn

theorem Crew.reaches_startAll (c : RunContext) (s : Shared ω) {workers : List Worker}
    (hunmarked : ∀ w ∈ workers, w.summary.cancelled = false) :
    Crew.Reaches c ⟨!c.isLiveAt 0, s, workers.map (Thread.mk · .ready)⟩
      (Crew.ofEngine (!c.isLiveAt 0) (Engine.start c s workers)) := by
  let P : Shared ω → List Worker → List Worker → Prop := fun s' started rest =>
    (∀ w ∈ rest, w.summary.cancelled = false) ∧
      Crew.Reaches c ⟨!c.isLiveAt 0, s, workers.map (Thread.mk · .ready)⟩
        ⟨!c.isLiveAt 0, s', started.map Thread.ofWorker ++ rest.map (Thread.mk · .ready)⟩
  have hall : P (Engine.startAll c s workers).1 ([] ++ (Engine.startAll c s workers).2) [] := by
    refine Engine.startAll_keeps (P := P) ?_ ⟨hunmarked, Relation.ReflTransGen.refl⟩
    intro s' started rest w ⟨hrest, hreach⟩
    refine ⟨fun v hv => hrest v (List.mem_cons_of_mem w hv), ?_⟩
    have hturn := (Thread.steps_start c s' (hrest w List.mem_cons_self)).reaches
      (started.map Thread.ofWorker) (rest.map (Thread.mk · .ready))
    rw [List.map_append, List.append_assoc]
    exact hreach.trans hturn
  have hstart : Engine.start c s workers =
      { shared := (Engine.startAll c s workers).1, workers := (Engine.startAll c s workers).2 } := rfl
  rw [hstart, Crew.ofEngine]
  simpa only [P, List.nil_append, List.map_nil, List.append_nil] using hall.2

/-- A wait that ends before the cancellation shows that the run was not cancelled at its start. -/
theorem Crew.reaches_advance {c : RunContext} {k : Crew ω} {e : Engine ω}
    (reporter : Option Reporter) (steps : Nat) (hreach : Crew.Reaches c k (Crew.ofEngine (!c.isLiveAt 0) e)) :
    Crew.Reaches c k (Crew.ofEngine (!c.isLiveAt 0) (e.advance c reporter steps)) := by
  refine Engine.advance_keeps (P := fun e => Crew.Reaches c k (Crew.ofEngine (!c.isLiveAt 0) e))
    (fun hreach hsplit hwait _ hlive => ?_) steps hreach
  rw [RunContext.isLiveAt_of_le (Nat.zero_le _) hlive, Bool.not_true] at hreach ⊢
  exact Crew.reaches_of_split hreach hsplit (Thread.steps_resume c _ _ hwait)

theorem Crew.reaches_interrupt {c : RunContext} {reporter : Option Reporter} {k : Crew ω} {e : Engine ω}
    (time : Nat) (hreach : Crew.Reaches c k (Crew.ofEngine true e)) :
    Crew.Reaches c k (Crew.ofEngine true (e.interrupt c reporter time)) :=
  Engine.interrupt_keeps (P := fun e => Crew.Reaches c k (Crew.ofEngine true e))
    (fun hreach hsplit hwait => Crew.reaches_of_split hreach hsplit (Thread.steps_stop c time _ hwait)) hreach

/-- Every run of the engine is an interleaving in which all workers come to their ends. -/
theorem Engine.reaches_run (c : RunContext) (reporter : Option Reporter) (s : Shared ω)
    {workers : List Worker} (hunmarked : ∀ w ∈ workers, w.summary.cancelled = false) :
    ∃ cancelled, Crew.Reaches c ⟨false, s, workers.map (Thread.mk · .ready)⟩
      ⟨cancelled, (Engine.run c reporter s workers).shared,
        (Engine.run c reporter s workers).workers.map (Thread.mk · .finished)⟩ := by
  have hfinished : (Engine.run c reporter s workers).workers.map Thread.ofWorker =
      (Engine.run c reporter s workers).workers.map (Thread.mk · .finished) := by
    refine List.map_congr_left fun w hw => ?_
    rw [Thread.ofWorker, Engine.wait_run c reporter s workers w hw]
    rfl
  rw [← hfinished]
  have hbegin : Crew.Reaches c ⟨false, s, workers.map (Thread.mk · .ready)⟩
      ⟨!c.isLiveAt 0, s, workers.map (Thread.mk · .ready)⟩ := by
    cases c.isLiveAt 0 with
    | true => exact Relation.ReflTransGen.refl
    | false => exact Relation.ReflTransGen.single .cancel
  have hadvanced := Crew.reaches_advance reporter (Engine.start c s workers).potential
    (hbegin.trans (Crew.reaches_startAll c s hunmarked))
  rw [Engine.run]
  rcases Engine.finish_cases (ω := ω) c reporter _ with ⟨hfinish, -⟩ | ⟨time, -, hfinish⟩
  · rw [hfinish]
    exact ⟨_, hadvanced⟩
  · rw [hfinish]
    exact ⟨true, Crew.reaches_interrupt time (hadvanced.tail .cancel)⟩

theorem RunInput.reaches_engine (r : RunInput) (sink : ResultSink ω) (hsenders : 0 < r.senders.length)
    (hrecipients : 0 < r.recipients.length) :
    ∃ k, Crew.Reaches (r.context hrecipients) (r.crew sink hsenders) k ∧ k.Finished ∧
      k.shared = (r.engine sink hsenders hrecipients).shared ∧
      k.threads.map (·.worker) = (r.engine sink hsenders hrecipients).workers := by
  have hunmarked : ∀ w ∈ r.workers hsenders, w.summary.cancelled = false := by
    intro w hw
    obtain ⟨id, quota, -, rfl⟩ := List.mem_mapIdx.mp hw
    rfl
  obtain ⟨cancelled, hreach⟩ :=
    Engine.reaches_run (r.context hrecipients) (some r.reporter) (r.shared sink) hunmarked
  refine ⟨_, hreach, ?_, rfl, ?_⟩
  · intro t ht
    obtain ⟨w, -, rfl⟩ := List.mem_map.mp ht
    rfl
  · exact (List.map_map ..).trans (List.map_id _)

/-- What holds in every interleaving holds of the engine in the end. -/
theorem RunInput.engine_of_crew {P : Shared ω → Prop} {r : RunInput} {sink : ResultSink ω}
    {hsenders : 0 < r.senders.length} {hrecipients : 0 < r.recipients.length}
    (hall : ∀ k, Crew.Reaches (r.context hrecipients) (r.crew sink hsenders) k → P k.shared) :
    P (r.engine sink hsenders hrecipients).shared := by
  obtain ⟨k, hreach, -, hshared, -⟩ := r.reaches_engine sink hsenders hrecipients
  rw [← hshared]
  exact hall k hreach

end TransferLoad
