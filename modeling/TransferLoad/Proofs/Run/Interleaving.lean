import TransferLoad.Proofs.Run.Worker
import TransferLoad.Run.Dispatch

/-!
# Interleavings

The workers of a run as threads that share everything but their own state. Each operation on what is
shared is one step: drawing a number, counting a refusal, handing over signed bytes, counting an
answer, giving up. Any thread may take the next step, whatever the clock shows, and the run may be
cancelled between any two steps. So a number may be drawn by one worker while another one is between
its own draw and its submission, and an answer may come before or after the cancellation.

What holds of every interleaving holds in particular of the engine, whose runs are interleavings.
-/

namespace TransferLoad

inductive Phase where
  | ready
  /-- It has attempts left and has seen that the run is not cancelled. -/
  | cleared
  /-- The attempt is drawn up; the signature or the refusal is in hand. -/
  | holding (attempt : Attempt)
  /-- The node has the signed bytes. -/
  | flying (intent : Intent) (outcome : SubmissionOutcome)
  /-- The answer is counted. -/
  | settled
  | finished

structure Thread where
  worker : Worker
  phase : Phase := .ready

structure Crew (ω : Type) where
  cancelled : Bool := false
  shared : Shared ω
  threads : List Thread

variable {ω : Type} [Writer ω]

/-- The steps of one thread. The flag says whether the run is cancelled. -/
inductive Thread.Step (c : RunContext) (cancelled : Bool) :
    Shared ω → Thread → Shared ω → Thread → Prop where
  | complete {s : Shared ω} {w : Worker} (hquota : w.summary.quota ≤ w.summary.attempted) :
      Step c cancelled s ⟨w, .ready⟩ s ⟨{ w with wait := none }, .finished⟩
  | giveUp {s : Shared ω} {w : Worker} (hquota : w.summary.attempted < w.summary.quota)
      (hcancelled : cancelled = true) :
      Step c cancelled s ⟨w, .ready⟩ s ⟨w.cancelIf true, .finished⟩
  | goAhead {s : Shared ω} {w : Worker} (hquota : w.summary.attempted < w.summary.quota)
      (hcancelled : cancelled = false) : Step c cancelled s ⟨w, .ready⟩ s ⟨w, .cleared⟩
  | draw {s s' : Shared ω} {w w' : Worker} {a : Attempt} (now : Nat)
      (hprepare : w.prepare c now s = (a, s', w')) :
      Step c cancelled s ⟨w, .cleared⟩ s' ⟨w', .holding a⟩
  | refuse {s : Shared ω} {w : Worker} {a : Attempt} {cause : Failure} (now : Nat)
      (hsigned : a.signed = .error cause) :
      Step c cancelled s ⟨w, .holding a⟩ (w.lose c now a.intent .refused cause.message s).1
        ⟨(w.lose c now a.intent .refused cause.message s).2, .ready⟩
  | submit {s : Shared ω} {w : Worker} {a : Attempt} {payload : SignedPayload} (now : Nat)
      (hsigned : a.signed = .ok payload) :
      Step c cancelled s ⟨w, .holding a⟩ (s.submit now payload)
        ⟨w, .flying a.intent (.ofAnswer (c.client.submit s.calls now payload).answer)⟩
  | accept {s : Shared ω} {w : Worker} {intent : Intent} {identifier : String} (now : Nat) :
      Step c cancelled s ⟨w, .flying intent (.success identifier)⟩
        (w.gain c now intent identifier s).1 ⟨(w.gain c now intent identifier s).2, .settled⟩
  | reject {s : Shared ω} {w : Worker} {intent : Intent} {reason : String} (now : Nat) :
      Step c cancelled s ⟨w, .flying intent (.failure reason)⟩
        (w.lose c now intent (.rejected reason) reason s).1
        ⟨(w.lose c now intent (.rejected reason) reason s).2, .settled⟩
  | abandon {s : Shared ω} {w : Worker} {intent : Intent} {outcome : SubmissionOutcome} (now : Nat)
      (hcancelled : cancelled = true) :
      Step c cancelled s ⟨w, .flying intent outcome⟩ (w.abandon c now intent s).1
        ⟨(w.abandon c now intent s).2, .finished⟩
  | goOn {s : Shared ω} {w : Worker} : Step c cancelled s ⟨w, .settled⟩ s ⟨w, .ready⟩
  | breakOff {s : Shared ω} {w : Worker} (hcancelled : cancelled = true) :
      Step c cancelled s ⟨w, .settled⟩ s ⟨w.breakOff, .finished⟩
  /-- Only the count of waits and the worker's own note of its wait change. -/
  | await {s : Shared ω} {w : Worker} {phase : Phase} (due : Nat) (errand : Errand) :
      Step c cancelled s ⟨w, phase⟩ (w.await due errand s).1 ⟨(w.await due errand s).2, phase⟩

inductive Crew.Step (c : RunContext) : Crew ω → Crew ω → Prop where
  | cancel {cancelled : Bool} {s : Shared ω} {threads : List Thread} :
      Step c ⟨cancelled, s, threads⟩ ⟨true, s, threads⟩
  | act {cancelled : Bool} {s s' : Shared ω} {before after : List Thread} {t t' : Thread}
      (hstep : Thread.Step c cancelled s t s' t') :
      Step c ⟨cancelled, s, before ++ t :: after⟩ ⟨cancelled, s', before ++ t' :: after⟩

def Crew.Reaches (c : RunContext) : Crew ω → Crew ω → Prop := Relation.ReflTransGen (Crew.Step c)

theorem Crew.Reaches.keeps {c : RunContext} {P : Crew ω → Prop}
    (hstep : ∀ k k', P k → Crew.Step c k k' → P k') {k k' : Crew ω} (hreach : Crew.Reaches c k k')
    (hstart : P k) : P k' := by
  induction hreach with
  | refl => exact hstart
  | tail _ hlast ih => exact hstep _ _ ih hlast

def Crew.Finished (k : Crew ω) : Prop := ∀ t ∈ k.threads, t.phase = .finished

/-- The workers of a run before any of them has started. -/
def RunInput.crew (r : RunInput) (sink : ResultSink ω) (hsenders : 0 < r.senders.length) : Crew ω where
  shared := r.shared sink
  threads := (r.workers hsenders).map (Thread.mk · .ready)

/-! ### What a worker keeps -/

/-- What is settled about a worker before it starts. -/
structure Worker.Post where
  id : Nat
  quota : Nat
  sender : Nat
  key : Crypto.Ed25519.SigningKey

def Worker.post (w : Worker) : Worker.Post := ⟨w.summary.id, w.summary.quota, w.sender, w.key⟩

theorem Thread.Step.post_eq {c : RunContext} {cancelled : Bool} {s s' : Shared ω} {t t' : Thread}
    (hstep : Thread.Step c cancelled s t s' t') : t'.worker.post = t.worker.post := by
  cases hstep with
  | draw now hprepare =>
    obtain ⟨intent, selector, -, -, -, rfl⟩ := Worker.prepare_eq hprepare
    rfl
  | _ => rfl

/-! ### What a step does -/

/-- A step counts and draws nothing, or draws up one attempt, or counts one failed attempt or one accepted
transfer. All else that is shared stays as it is, but for waits, calls and notices. -/
theorem Thread.Step.effect {c : RunContext} {cancelled : Bool} {s s' : Shared ω} {t t' : Thread}
    (hstep : Thread.Step c cancelled s t s' t') :
    (∃ waits calls mark, s' = { s with waits, calls } ∧
      t'.worker.summary = { t.worker.summary with cancelled := mark }) ∨
    (∃ a : Attempt, a.worker = t.worker.summary.id ∧ a.signed = c.signer a.intent t.worker.key ∧
      a.intent.sender = t.worker.address ∧
      a.intent.sequence = (s.counters.getD t.worker.sender {}).next ∧
      s' = { s with
        counters := s.counters.set t.worker.sender (s.counters.getD t.worker.sender {}).draw.2
        attempts := a :: s.attempts } ∧
      t'.worker.summary = { t.worker.summary with attempted := t.worker.summary.attempted + 1 }) ∨
    (∃ time intent fate mark notices, (∀ identifier, fate ≠ .accepted identifier) ∧
      s' = { s with
        tally := s.tally.add .failed
        settlements := ⟨t.worker.summary.id, time, intent, fate⟩ :: s.settlements
        notices } ∧
      t'.worker.summary =
        { t.worker.summary with errors := t.worker.summary.errors + 1, cancelled := mark }) ∨
    (∃ time intent identifier notices,
      s' = { s with
        tally := s.tally.add .sent
        sink := (s.sink.record identifier).2
        settlements := ⟨t.worker.summary.id, time, intent, .accepted identifier⟩ :: s.settlements
        notices } ∧
      t'.worker.summary = { t.worker.summary with sent := t.worker.summary.sent + 1 }) := by
  cases hstep with
  | draw now hprepare =>
    obtain ⟨intent, selector, hintends, rfl, rfl, rfl⟩ := Worker.prepare_eq hprepare
    exact Or.inr (Or.inl ⟨_, rfl, rfl, hintends.sender, hintends.sequence, rfl, rfl⟩)
  | @refuse w a cause now hsigned =>
    obtain ⟨notices, hlose⟩ := w.lose_eq c now a.intent .refused cause.message s
    rw [hlose]
    exact Or.inr (Or.inr (Or.inl ⟨now, a.intent, .refused, _, notices, by simp, rfl, rfl⟩))
  | @accept w intent identifier now =>
    obtain ⟨notices, hgain⟩ := w.gain_eq c now intent identifier s
    rw [hgain]
    exact Or.inr (Or.inr (Or.inr ⟨now, intent, identifier, notices, rfl, rfl⟩))
  | @reject w intent reason now =>
    obtain ⟨notices, hlose⟩ := w.lose_eq c now intent (.rejected reason) reason s
    rw [hlose]
    exact Or.inr (Or.inr (Or.inl ⟨now, intent, .rejected reason, _, notices, by simp, rfl, rfl⟩))
  | @abandon w intent outcome now hcancelled =>
    obtain ⟨notices, hlose⟩ :=
      w.lose_eq c now intent .abandoned "submission abandoned on shutdown" s
    rw [Worker.abandon, hlose]
    exact Or.inr (Or.inr (Or.inl ⟨now, intent, .abandoned, _, notices, by simp, rfl, rfl⟩))
  | _ => exact Or.inl ⟨_, _, _, rfl, rfl⟩

/-! ### What holds of all threads -/

theorem Crew.Reaches.posts_eq {c : RunContext} {k k' : Crew ω} (hreach : Crew.Reaches c k k') :
    k'.threads.map (·.worker.post) = k.threads.map (·.worker.post) := by
  refine hreach.keeps (P := fun k' => k'.threads.map (·.worker.post) = k.threads.map (·.worker.post))
    (fun k₁ k₂ hkept hstep => ?_) rfl
  cases hstep with
  | cancel => exact hkept
  | act hstep =>
    rw [← hkept]
    simp only [List.map_append, List.map_cons, hstep.post_eq]

omit [Writer ω] in
theorem RunInput.ids_crew (r : RunInput) (sink : ResultSink ω) (hsenders : 0 < r.senders.length) :
    (r.crew sink hsenders).threads.map (·.worker.post.id) = List.range r.settings.workers.toNat := by
  refine List.ext_getElem ?_ ?_ <;>
    simp [crew, workers, worker, Worker.post, RunSettings.plan, QuotaPlan.split]

omit [Writer ω] in
theorem RunInput.quotas_crew (r : RunInput) (sink : ResultSink ω) (hsenders : 0 < r.senders.length) :
    (r.crew sink hsenders).threads.map (·.worker.post.quota) = r.settings.plan.quotas := by
  refine List.ext_getElem ?_ ?_ <;> simp [crew, workers, worker, Worker.post]

theorem RunInput.ids_of_crew {c : RunContext} {r : RunInput} {sink : ResultSink ω}
    {hsenders : 0 < r.senders.length} {k : Crew ω} (hreach : Crew.Reaches c (r.crew sink hsenders) k) :
    k.threads.map (·.worker.summary.id) = List.range r.settings.workers.toNat := by
  have hids := congrArg (List.map Worker.Post.id) hreach.posts_eq
  rw [List.map_map, List.map_map] at hids
  exact hids.trans (r.ids_crew sink hsenders)

theorem RunInput.quotas_of_crew {c : RunContext} {r : RunInput} {sink : ResultSink ω}
    {hsenders : 0 < r.senders.length} {k : Crew ω} (hreach : Crew.Reaches c (r.crew sink hsenders) k) :
    k.threads.map (·.worker.summary.quota) = r.settings.plan.quotas := by
  have hquotas := congrArg (List.map Worker.Post.quota) hreach.posts_eq
  rw [List.map_map, List.map_map] at hquotas
  exact hquotas.trans (r.quotas_crew sink hsenders)

end TransferLoad
