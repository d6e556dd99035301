import TransferLoad.Proofs.Run.Engine
import TransferLoad.Run.Dispatch

/-!
# The ledger of attempts

What becomes of an attempt is decided when it is made. A refused signature ends it at once; otherwise
the client says when which answer comes, and the time of the cancellation says whether that is too
late. A run settles each of its attempts in just this way, and each of them once.
-/

namespace TransferLoad

/-! ### How attempts are to end -/

def Attempt.call? (a : Attempt) : Option Call :=
  match a.signed with
  | .ok payload => some ⟨a.time, .submission payload⟩
  | .error _ => none

/-- The calls of some attempts, the latest first. -/
def callsOf (attempts : List Attempt) : List Call := attempts.filterMap Attempt.call?

theorem callsOf_cons_refused {a : Attempt} {cause : Failure} (hsigned : a.signed = .error cause)
    (earlier : List Attempt) : callsOf (a :: earlier) = callsOf earlier := by
  have hcall : a.call? = none := by rw [Attempt.call?, hsigned]
  exact List.filterMap_cons_none hcall

theorem callsOf_cons_signed {a : Attempt} {payload : SignedPayload} (hsigned : a.signed = .ok payload)
    (earlier : List Attempt) :
    callsOf (a :: earlier) = ⟨a.time, .submission payload⟩ :: callsOf earlier := by
  have hcall : a.call? = some ⟨a.time, .submission payload⟩ := by rw [Attempt.call?, hsigned]
  exact List.filterMap_cons_some hcall

def SubmissionOutcome.fate : SubmissionOutcome → Fate
  | .success identifier => .accepted identifier
  | .failure reason => .rejected reason

def arrivesInTime (cancelAt : Option Nat) (arrival : Nat) : Bool := cancelAt.all (arrival ≤ ·)

theorem arrivesInTime_iff {cancelAt : Option Nat} {arrival : Nat} :
    arrivesInTime cancelAt arrival = true ↔ ∀ stop, cancelAt = some stop → arrival ≤ stop := by
  unfold arrivesInTime
  cases cancelAt <;> simp

namespace RunContext

/-- How an attempt ends that is answered at some time, or given up before. -/
def verdict (c : RunContext) (worker arrival : Nat) (intent : Intent) (outcome : SubmissionOutcome) :
    Settlement :=
  if arrivesInTime c.cancelAt arrival then ⟨worker, arrival, intent, outcome.fate⟩
  else ⟨worker, c.cancelAt.getD arrival, intent, .abandoned⟩

/-- The answer to bytes that are handed over after some attempts. -/
def replyTo (c : RunContext) (earlier : List Attempt) (now : Nat) (payload : SignedPayload) :
    Reply String :=
  c.client.submit (callsOf earlier) now payload

/-- How an attempt ends that comes after some others. -/
def ending (c : RunContext) (earlier : List Attempt) (a : Attempt) : Settlement :=
  match a.signed with
  | .error _ => ⟨a.worker, a.time, a.intent, .refused⟩
  | .ok payload =>
    let reply := c.replyTo earlier a.time payload
    c.verdict a.worker (a.time + reply.latency) a.intent (.ofAnswer reply.answer)

/-- How all of some attempts end, the latest first. -/
def endings (c : RunContext) : List Attempt → List Settlement
  | [] => []
  | a :: earlier => c.ending earlier a :: c.endings earlier

theorem verdict_of_isLiveAt {c : RunContext} {arrival : Nat} (hlive : c.isLiveAt arrival = true)
    (worker : Nat) (intent : Intent) (outcome : SubmissionOutcome) :
    c.verdict worker arrival intent outcome = ⟨worker, arrival, intent, outcome.fate⟩ := by
  have hinTime : arrivesInTime c.cancelAt arrival = true := by
    rw [arrivesInTime_iff]
    intro stop hstop
    exact Nat.le_of_lt (isLiveAt_iff.mp hlive stop hstop)
  rw [verdict, if_pos hinTime]

end RunContext

/-- The end that the attempt of a waiting worker is going to have. -/
def Worker.pending? (c : RunContext) (w : Worker) : Option Settlement :=
  w.wait.bind fun wait =>
    match wait.errand with
    | .pause => none
    | .answer intent _ outcome => some (c.verdict w.summary.id wait.due intent outcome)

variable {ω : Type}

/-- The books are in order: the calls are those of the attempts, the settlements so far and the pending
ones are the ends of all attempts, and no attempt was made after the cancellation. -/
structure Ledger (c : RunContext) (s : Shared ω) (pending : List Settlement) : Prop where
  calls_eq : s.calls = callsOf s.attempts
  settled : (pending ++ s.settlements).Perm (c.endings s.attempts)
  live : ∀ a ∈ s.attempts, c.isLiveAt a.time = true

namespace Ledger

variable {c : RunContext} {now : Nat} {s s' s₁ : Shared ω} {w w₁ : Worker} {a : Attempt}
  {pending pending' : List Settlement}

theorem perm (hledger : Ledger c s pending) (hperm : pending'.Perm pending) : Ledger c s pending' :=
  { hledger with settled := (hperm.append_right _).trans hledger.settled }

theorem settle {settlement : Settlement} (hledger : Ledger c s (settlement :: pending))
    (hcalls : s'.calls = s.calls) (hattempts : s'.attempts = s.attempts)
    (hsettlements : s'.settlements = settlement :: s.settlements) : Ledger c s' pending where
  calls_eq := by rw [hcalls, hattempts, hledger.calls_eq]
  settled := by
    rw [hsettlements, hattempts]
    exact List.perm_middle.trans hledger.settled
  live := by
    rw [hattempts]
    exact hledger.live

variable [Writer ω]

theorem conclude {intent : Intent} {outcome : SubmissionOutcome}
    (hledger : Ledger c s (⟨w.summary.id, now, intent, outcome.fate⟩ :: pending)) :
    Ledger c (w.conclude c now intent outcome s).1 pending := by
  cases outcome with
  | success identifier =>
    obtain ⟨notices, hgain⟩ := w.gain_eq c now intent identifier s
    rw [Worker.conclude, hgain]
    exact hledger.settle rfl rfl rfl
  | failure reason =>
    obtain ⟨notices, hlose⟩ := w.lose_eq c now intent (.rejected reason) reason s
    rw [Worker.conclude, hlose]
    exact hledger.settle rfl rfl rfl

omit [Writer ω] in
theorem refuse {cause : Failure} {reason : String} (hledger : Ledger c s pending)
    (hlive : c.isLiveAt now = true) (hprepare : w.prepare c now s = (a, s₁, w₁))
    (hsigned : a.signed = .error cause) :
    Ledger c (w₁.lose c now a.intent .refused reason s₁).1 pending := by
  obtain ⟨intent, selector, -, ha, hs₁, hw₁⟩ := Worker.prepare_eq hprepare
  obtain ⟨notices, hlose⟩ := w₁.lose_eq c now a.intent .refused reason s₁
  have hending : c.ending s.attempts a = ⟨w₁.summary.id, now, a.intent, .refused⟩ := by
    rw [RunContext.ending, hsigned, ha, hw₁]
  rw [hlose, hs₁]
  constructor
  · change s.calls = callsOf (a :: s.attempts)
    rw [callsOf_cons_refused hsigned]
    exact hledger.calls_eq
  · change (pending ++ _ :: s.settlements).Perm (c.endings (a :: s.attempts))
    rw [RunContext.endings, hending]
    exact List.perm_middle.trans (hledger.settled.cons _)
  · refine List.forall_mem_cons.mpr ⟨?_, hledger.live⟩
    rwa [ha]

omit [Writer ω] in
/-- An attempt whose bytes are handed over is pending. -/
theorem submit {payload : SignedPayload} (hledger : Ledger c s pending)
    (hlive : c.isLiveAt now = true) (hprepare : w.prepare c now s = (a, s₁, w₁))
    (hsigned : a.signed = .ok payload) :
    Ledger c (s₁.submit now payload)
      (c.verdict w₁.summary.id (now + (c.client.submit s₁.calls now payload).latency) a.intent
        (.ofAnswer (c.client.submit s₁.calls now payload).answer) :: pending) := by
  obtain ⟨intent, selector, -, ha, hs₁, hw₁⟩ := Worker.prepare_eq hprepare
  have htime : a.time = now := by rw [ha]
  have hworker : a.worker = w₁.summary.id := by rw [ha, hw₁]
  rw [hs₁]
  constructor
  · change _ :: s.calls = callsOf (a :: s.attempts)
    rw [callsOf_cons_signed hsigned, htime, hledger.calls_eq]
  · change ((_ :: pending) ++ s.settlements).Perm (c.endings (a :: s.attempts))
    rw [RunContext.endings, RunContext.ending, hsigned]
    dsimp only
    rw [RunContext.replyTo, ← hledger.calls_eq, htime, hworker]
    exact hledger.settled.cons _
  · refine List.forall_mem_cons.mpr ⟨?_, hledger.live⟩
    rwa [htime]

/-- A turn of a worker leaves the books in order, with the attempt it waits for as a pending one. -/
theorem turn (hlive : c.isLiveAt now = true) (others : List Settlement) :
    Worker.TurnRule (ω := ω) c now (fun p => Ledger c p.1 others) (fun _ p => Ledger c p.1 others)
      (fun p => Ledger c p.1 ((p.2.pending? c).toList ++ others)) where
  refused := by
    intro s s₁ w w₁ a cause hledger _ hprepare hsigned
    exact hledger.refuse hlive hprepare hsigned
  answered := by
    intro s s₁ w w₁ a payload hledger _ hprepare hsigned hlatency
    have hpending := hledger.submit hlive hprepare hsigned
    rw [hlatency, Nat.add_zero, RunContext.verdict_of_isLiveAt hlive] at hpending
    exact hpending.conclude
  departed := by
    intro s s₁ w w₁ a payload hledger _ hprepare hsigned _
    exact { hledger.submit hlive hprepare hsigned with }
  paused := by
    intro s w started due hledger _
    exact { hledger with }
  goesOn := by
    intro s w started hledger _
    exact hledger
  done := by
    intro s w hledger _
    exact hledger

theorem resume {wait : Wait} {others : List Settlement} (hwait : w.wait = some wait)
    (hlive : c.isLiveAt wait.due = true) (hledger : Ledger c s ((w.pending? c).toList ++ others)) :
    Ledger c (w.resume c wait.due wait.errand s).1
      (((w.resume c wait.due wait.errand s).2.pending? c).toList ++ others) := by
  obtain ⟨due, order, errand⟩ := wait
  have hturn := Ledger.turn (ω := ω) hlive others
  cases errand with
  | pause =>
    simp only [Worker.pending?, hwait, Option.bind_some, Option.toList_none, List.nil_append] at hledger
    exact hturn.proceed (s := s) (w := w) hledger
  | answer intent started outcome =>
    simp only [Worker.pending?, hwait, Option.bind_some, Option.toList_some, List.cons_append,
      List.nil_append, RunContext.verdict_of_isLiveAt hlive] at hledger
    exact hturn.resume_answer started hledger.conclude

theorem stop {wait : Wait} {time : Nat} (hcancel : c.cancelAt = some time) (hwait : w.wait = some wait)
    (hlate : c.isLiveAt wait.due = false) (hledger : Ledger c s ((w.pending? c).toList ++ pending)) :
    Ledger c (w.stop c time wait s).1 pending := by
  obtain ⟨due, order, errand⟩ := wait
  have hdue : time ≤ due := by
    simpa [RunContext.isLiveAt, hcancel] using hlate
  cases errand with
  | pause =>
    simp only [Worker.pending?, hwait, Option.bind_some, Option.toList_none, List.nil_append] at hledger
    exact hledger
  | answer intent started outcome =>
    simp only [Worker.pending?, hwait, Option.bind_some, Option.toList_some, List.cons_append,
      List.nil_append, RunContext.verdict, arrivesInTime, hcancel, Option.all_some,
      decide_eq_true_eq, Option.getD_some] at hledger
    rw [Worker.stop]
    dsimp only
    split
    · rename_i hdue'
      obtain rfl : due = time := Nat.le_antisymm hdue' hdue
      rw [if_pos (Nat.le_refl _)] at hledger
      exact hledger.conclude
    · rename_i hdue'
      rw [if_neg hdue'] at hledger
      obtain ⟨notices, hlose⟩ :=
        w.lose_eq c time intent .abandoned "submission abandoned on shutdown" s
      rw [Worker.abandon, hlose]
      exact hledger.settle rfl rfl rfl

end Ledger

/-! ### The whole run -/

def pendingOf (c : RunContext) (workers : List Worker) : List Settlement :=
  workers.filterMap (Worker.pending? c)

theorem pendingOf_perm (c : RunContext) (before after : List Worker) (w : Worker) :
    (pendingOf c (before ++ w :: after)).Perm
      ((w.pending? c).toList ++ pendingOf c (before ++ after)) :=
  filterMap_middle_perm (Worker.pending? c) before after w

theorem pendingOf_eq_nil {c : RunContext} {workers : List Worker} (hidle : ∀ w ∈ workers, w.wait = none) :
    pendingOf c workers = [] := by
  refine List.filterMap_eq_nil_iff.mpr fun w hw => ?_
  rw [Worker.pending?, hidle w hw]
  rfl

variable [Writer ω]

namespace Engine

def Booked (c : RunContext) (e : Engine ω) : Prop := Ledger c e.shared (pendingOf c e.workers)

omit [Writer ω] in
theorem Booked.of_split {c : RunContext} {e : Engine ω} {before after : List Worker} {w w' : Worker}
    {s' : Shared ω} (hbooked : Booked c e) (hsplit : e.workers = before ++ w :: after)
    (hturn : Ledger c e.shared ((w.pending? c).toList ++ pendingOf c (before ++ after)) →
      Ledger c s' ((w'.pending? c).toList ++ pendingOf c (before ++ after))) :
    Ledger c s' (pendingOf c (before ++ w' :: after)) := by
  rw [Booked, hsplit] at hbooked
  exact (hturn (hbooked.perm (pendingOf_perm c before after w).symm)).perm (pendingOf_perm c before after w')

theorem booked_start {c : RunContext} {s : Shared ω} {workers : List Worker} (hledger : Ledger c s [])
    (hidle : ∀ w ∈ workers, w.wait = none) : Booked c (start c s workers) := by
  let P : Shared ω → List Worker → List Worker → Prop := fun s' started rest =>
    (∀ w ∈ rest, w.wait = none) ∧ Ledger c s' (pendingOf c started)
  have hall : P (startAll c s workers).1 ([] ++ (startAll c s workers).2) [] := by
    refine startAll_keeps (P := P) ?_ ⟨hidle, hledger⟩
    intro s' started rest w ⟨hrest, hledger⟩
    refine ⟨fun v hv => hrest v (List.mem_cons_of_mem w hv), ?_⟩
    have hturn : Ledger c (w.start c s').1
        (((w.start c s').2.pending? c).toList ++ pendingOf c (started ++ [])) := by
      rw [List.append_nil, Worker.start]
      split
      · rename_i hlive
        exact (Ledger.turn hlive _).proceed hledger
      · exact hledger
    exact hturn.perm (pendingOf_perm c started [] _)
  exact hall.2

/-- In the end every attempt has ended as it was to end, and nothing else has been settled. -/
theorem ledger_run (c : RunContext) (reporter : Option Reporter) {s : Shared ω} {workers : List Worker}
    (hledger : Ledger c s []) (hidle : ∀ w ∈ workers, w.wait = none) :
    Ledger c (run c reporter s workers).shared [] := by
  have hbooked : Booked c (run c reporter s workers) := by
    refine run_keeps (P := Booked c) (fun _ hbooked => hbooked) ?_ ?_ (booked_start hledger hidle)
    · intro e before after w wait hbooked hsplit hwait hlive
      exact hbooked.of_split hsplit (Ledger.resume hwait hlive)
    · intro time hcancel e before after w wait hbooked hsplit hwait hlate
      refine hbooked.of_split hsplit fun hledger => ?_
      rw [Worker.pending?, Worker.wait_stop]
      exact hledger.stop hcancel hwait hlate
  rwa [Booked, pendingOf_eq_nil (wait_run c reporter s workers)] at hbooked

end Engine

theorem RunInput.ledger_engine (r : RunInput) (sink : ResultSink ω) (hsenders : 0 < r.senders.length)
    (hrecipients : 0 < r.recipients.length) :
    Ledger (r.context hrecipients) (r.engine sink hsenders hrecipients).shared [] := by
  refine Engine.ledger_run _ _ ⟨rfl, List.Perm.refl _, ?_⟩ ?_
  · intro a ha
    cases ha
  · intro w hw
    obtain ⟨id, quota, -, rfl⟩ := List.mem_mapIdx.mp hw
    rfl

end TransferLoad
