import TransferLoad.Proofs.Run.Accounting
import TransferLoad.Proofs.Run.Budget
import TransferLoad.Proofs.Run.Intents

/-!
# The workload of a run

Where a worker's next transfer goes is up to the settings and to the number of attempts that it has made;
every attempt counts, whatever becomes of it. So there is one list of recipients for each worker that is fixed
before the run, and the attempts that the worker makes follow it from the beginning. A client, a signer, a file
or a cancellation only decides how far it gets, and a worker that is not cut short gets to its quota.

The numbers in the intents of a worker depend on the other workers of its sender as well. Where there are
none, the whole list of its intents is fixed in the same way.
-/

namespace TransferLoad

open Crypto.ChaCha (Stream)

/-! ### Beginnings of a sequence -/

/-- A list that has the first entries of a sequence. -/
def Follows {α : Type} (f : Nat → Option α) (xs : List α) : Prop := ∀ j < xs.length, xs[j]? = f j

section

variable {α : Type} {f : Nat → Option α} {xs ys : List α} {x : α}

theorem Follows.concat (hfollows : Follows f xs) (hx : f xs.length = some x) : Follows f (xs ++ [x]) := by
  intro j hj
  rw [List.length_append, List.length_singleton] at hj
  rcases Nat.lt_succ_iff_lt_or_eq.mp hj with hearlier | rfl
  · rw [List.getElem?_append_left hearlier]
    exact hfollows j hearlier
  · rw [List.getElem?_concat_length, hx]

theorem Follows.isPrefix (hxs : Follows f xs) (hys : Follows f ys) (hle : xs.length ≤ ys.length) :
    xs <+: ys := by
  rw [List.prefix_iff_getElem?]
  intro j hj
  rw [hys j (by omega), ← hxs j hj, List.getElem?_eq_getElem hj]

theorem Follows.map_some_eq (hfollows : Follows f xs) : xs.map some = (List.range xs.length).map f := by
  refine List.ext_getElem (by simp) fun j hj _ => ?_
  rw [List.length_map] at hj
  rw [List.getElem_map, List.getElem_map, List.getElem_range, ← hfollows j hj, List.getElem?_eq_getElem hj]

/-- One of two lists is the beginning of the other, and they are the same when both are whole. -/
def Agree (whole whole' : Prop) (xs ys : List α) : Prop :=
  (xs <+: ys ∨ ys <+: xs) ∧ (whole → whole' → xs = ys)

/-- Lists that follow one sequence agree if their lengths do when both are whole. -/
theorem Follows.agree {whole whole' : Prop} (hxs : Follows f xs) (hys : Follows f ys)
    (hlength : whole → whole' → xs.length = ys.length) : Agree whole whole' xs ys := by
  refine ⟨?_, fun hwhole hwhole' => ?_⟩
  · rcases Nat.le_total xs.length ys.length with hle | hle
    · exact Or.inl (hxs.isPrefix hys hle)
    · exact Or.inr (hys.isPrefix hxs hle)
  · have hsame := hlength hwhole hwhole'
    exact (hxs.isPrefix hys (Nat.le_of_eq hsame)).eq_of_length hsame

end

/-! ### What a worker does, attempt by attempt -/

/-- The recipients of the attempts of one worker, the earliest first. -/
def recipientsOf (worker : Nat) (attempts : List Attempt) : List Address :=
  (attemptsOf worker attempts).reverse.map (·.intent.recipient)

/-- The intents of the attempts of one worker, the earliest first. -/
def intentsOf (worker : Nat) (attempts : List Attempt) : List Intent :=
  (attemptsOf worker attempts).reverse.map (·.intent)

theorem length_recipientsOf (worker : Nat) (attempts : List Attempt) :
    (recipientsOf worker attempts).length = (attemptsOf worker attempts).length := by
  simp [recipientsOf]

theorem length_intentsOf (worker : Nat) (attempts : List Attempt) :
    (intentsOf worker attempts).length = (attemptsOf worker attempts).length := by
  simp [intentsOf]

/-- What is read off each attempt of a worker follows a sequence when every attempt has what comes next. -/
theorem follows_attemptsOf {α : Type} {P : List Attempt → Attempt → Prop} {attempts : List Attempt}
    (hall : EachAttempt P attempts) {worker : Nat} {f : Nat → Option α} {g : Attempt → α}
    (hnext : ∀ earlier a, P earlier a → a.worker = worker →
      f (attemptsOf worker earlier).length = some (g a)) :
    Follows f ((attemptsOf worker attempts).reverse.map g) := by
  induction attempts with
  | nil => exact nofun
  | cons a earlier ih =>
    obtain ⟨hlast, hearlier⟩ := eachAttempt_cons.mp hall
    by_cases hworker : a.worker = worker
    · rw [attemptsOf_cons_of_eq hworker, List.reverse_cons, List.map_append, List.map_singleton]
      refine (ih hearlier).concat ?_
      rw [List.length_map, List.length_reverse]
      exact hnext earlier a hlast hworker
    · rw [attemptsOf_cons_of_ne hworker]
      exact ih hearlier

namespace RunInput

variable {r : RunInput} {attempts : List Attempt} {worker : Nat}

/-- The recipient of a worker's attempt with the given number. -/
def recipientAt? (r : RunInput) (worker attempt : Nat) : Option Address :=
  r.recipients[r.picked worker attempt]?

/-- The intent of a worker's attempt with the given number, if no other worker has the same sender. -/
def intentAt? (r : RunInput) (worker attempt : Nat) : Option Intent :=
  match r.senders[worker % r.senders.length]?, r.recipientAt? worker attempt with
  | some account, some recipient =>
    some
      { sender := account.address, recipient, amount := r.settings.amount, feePrice := r.settings.feePrice
        sequence := account.sequence.next + UInt64.ofNat attempt, chainId := r.settings.chainId }
  | _, _ => none

theorem follows_recipientsOf (hdrawn : EachAttempt r.Drawn attempts) (worker : Nat) :
    Follows (r.recipientAt? worker) (recipientsOf worker attempts) := by
  refine follows_attemptsOf hdrawn ?_
  rintro earlier a ⟨account, hbuilt, -⟩ rfl
  exact hbuilt.recipient

/-- A worker that has its sender for itself. -/
def Alone (r : RunInput) (worker : Nat) : Prop :=
  ∀ other < r.settings.workers.toNat, other ≠ worker → other % r.senders.length ≠ worker % r.senders.length

theorem attemptsAt_of_alone (halone : r.Alone worker)
    (hworkers : ∀ a ∈ attempts, a.worker < r.settings.workers.toNat) :
    attemptsAt r.senders.length (worker % r.senders.length) attempts = attemptsOf worker attempts := by
  refine List.filter_congr fun a ha => decide_eq_decide.mpr ⟨fun hseat => ?_, fun hworker => ?_⟩
  · by_contra hother
    exact halone a.worker (hworkers a ha) hother hseat
  · rw [hworker]

theorem follows_intentsOf (hdrawn : EachAttempt r.Drawn attempts)
    (hworkers : ∀ a ∈ attempts, a.worker < r.settings.workers.toNat) (halone : r.Alone worker) :
    Follows (r.intentAt? worker) (intentsOf worker attempts) := by
  have hboth : EachAttempt (fun earlier a => r.Drawn earlier a ∧
      ∀ b ∈ earlier, b.worker < r.settings.workers.toNat) attempts := by
    rintro later a earlier rfl
    refine ⟨hdrawn later a earlier rfl, fun b hb => hworkers b ?_⟩
    exact List.mem_append_right later (List.mem_cons_of_mem a hb)
  refine follows_attemptsOf hboth ?_
  rintro earlier a ⟨⟨account, hbuilt, -⟩, hearlier⟩ rfl
  obtain ⟨hseat, hsender, hrecipient, hamount, hfee, hsequence, hchain⟩ := hbuilt
  rw [attemptsAt_of_alone halone hearlier] at hsequence
  have hrecipient' : r.recipientAt? a.worker (attemptsOf a.worker earlier).length = some a.intent.recipient :=
    hrecipient
  simp only [intentAt?, hseat, hrecipient', ← hsender, ← hamount, ← hfee, ← hsequence, ← hchain]

/-! ### How far a worker gets -/

def quota (r : RunInput) (worker : Nat) : Nat :=
  QuotaPlan.share r.settings.totalBudget r.settings.workers.toNat r.settings.remainder worker

/-- No attempt that a worker may make has a number so high that the sum with the worker's own number goes
past 64 bits. -/
theorem add_lt_of_lt_quota {attempt : Nat} (hworker : worker < r.settings.workers.toNat)
    (hattempt : attempt < r.quota worker) : worker + attempt < UInt64.size := by
  have hbudget := r.settings.totalBudget_lt
  have hworkers : r.settings.workers.toNat < UInt64.size := r.settings.workers.toNat_lt
  have hshare : r.quota worker ≤ r.settings.totalBudget / r.settings.workers.toNat + 1 := by
    rw [quota, QuotaPlan.share_eq]
    split <;> omega
  have hsplit := Nat.mul_div_le r.settings.totalBudget r.settings.workers.toNat
  rcases Nat.eq_zero_or_pos (r.settings.totalBudget / r.settings.workers.toNat) with hnone | hsome
  · omega
  · have hsum := Nat.add_sub_one_le_mul (Nat.ne_zero_of_lt hworker) (Nat.ne_zero_of_lt hsome)
    omega

variable {ω : Type} [Writer ω] {sink : ResultSink ω} {hsenders : 0 < r.senders.length}
  {hrecipients : 0 < r.recipients.length} {k : Crew ω}

theorem worker_lt_of_crew (hreach : Crew.Reaches (r.context hrecipients) (r.crew sink hsenders) k) :
    ∀ a ∈ k.shared.attempts, a.worker < r.settings.workers.toNat := by
  induction hreach with
  | refl => exact nofun
  | tail hbefore hlast ih =>
    cases hlast with
    | cancel => exact ih
    | @act cancelled s s' before after t t' hstep =>
      dsimp only at ih ⊢
      rcases hstep.draws with ⟨-, hattempts, -⟩ | ⟨a, hworker, -, -, -, hattempts, -⟩
      · rw [hattempts]
        exact ih
      · rw [hattempts, List.forall_mem_cons, hworker]
        exact ⟨id_lt_of_crew hbefore t (List.mem_append_right before List.mem_cons_self), ih⟩

/-- Threads keep what is settled about the workers of the run before they start. -/
theorem posts_of_crew (hreach : Crew.Reaches (r.context hrecipients) (r.crew sink hsenders) k) :
    k.threads.map (·.worker.post) = (List.range r.settings.workers.toNat).map fun id =>
      (r.worker hsenders (r.quota id) id).post := by
  rw [hreach.posts_eq]
  refine List.ext_getElem ?_ ?_ <;> simp [crew, workers, RunSettings.plan, QuotaPlan.split, quota]

theorem exists_thread_of_crew (hreach : Crew.Reaches (r.context hrecipients) (r.crew sink hsenders) k)
    (hworker : worker < r.settings.workers.toNat) :
    ∃ t ∈ k.threads, t.worker.summary.id = worker ∧ t.worker.summary.quota = r.quota worker := by
  have hpost : (r.worker hsenders (r.quota worker) worker).post ∈ k.threads.map (·.worker.post) := by
    rw [posts_of_crew hreach]
    exact List.mem_map.mpr ⟨worker, List.mem_range.mpr hworker, rfl⟩
  obtain ⟨t, ht, hsame⟩ := List.mem_map.mp hpost
  exact ⟨t, ht, congrArg Worker.Post.id hsame, congrArg Worker.Post.quota hsame⟩

theorem quota_of_crew (hreach : Crew.Reaches (r.context hrecipients) (r.crew sink hsenders) k) :
    ∀ t ∈ k.threads, t.worker.summary.quota = r.quota t.worker.summary.id ∧
      t.worker.sender = t.worker.summary.id % r.senders.length := by
  intro t ht
  have hpost : t.worker.post ∈ k.threads.map (·.worker.post) := List.mem_map_of_mem ht
  rw [posts_of_crew hreach] at hpost
  obtain ⟨id, -, hsame⟩ := List.mem_map.mp hpost
  obtain rfl : id = t.worker.summary.id := congrArg Worker.Post.id hsame
  exact ⟨(congrArg Worker.Post.quota hsame).symm, (congrArg Worker.Post.sender hsame).symm⟩

/-- How the attempts of a course relate to what is fixed before it: each was drawn up for a worker of the run in
view of those before it, none goes beyond a quota, and a whole course has all attempts. -/
structure Performs (r : RunInput) (attempts : List Attempt) (whole : Prop) : Prop where
  drawn : EachAttempt r.Drawn attempts
  workers : ∀ a ∈ attempts, a.worker < r.settings.workers.toNat
  within : ∀ worker < r.settings.workers.toNat, (attemptsOf worker attempts).length ≤ r.quota worker
  complete : whole → ∀ worker < r.settings.workers.toNat, (attemptsOf worker attempts).length = r.quota worker

theorem performs_of_crew (hfresh : sink.unrecorded = 0)
    (hreach : Crew.Reaches (r.context hrecipients) (r.crew sink hsenders) k) :
    r.Performs k.shared.attempts (k.Finished ∧ ∀ t ∈ k.threads, t.worker.summary.cancelled = false) := by
  have hbuilding := building_of_crew hreach
  have hbalanced := hreach.balanced (r.crew_balanced sink hsenders hfresh)
  refine ⟨hbuilding.drawn, worker_lt_of_crew hreach, fun worker hworker => ?_, fun hwhole worker hworker => ?_⟩
  · obtain ⟨t, ht, rfl, hquota⟩ := exists_thread_of_crew hreach hworker
    rw [← (hbuilding.threads t ht).counted, ← hquota]
    exact (hbalanced.sound t ht).within
  · obtain ⟨t, ht, rfl, hquota⟩ := exists_thread_of_crew hreach hworker
    rw [← (hbuilding.threads t ht).counted, ← hquota]
    exact (hbalanced.sound t ht).finished (hwhole.1 t ht) (hwhole.2 t ht)

theorem performs_run (r : RunInput) :
    r.Performs r.run.attempts (∃ report, r.run.result = .ok report ∧ report.interrupted = false) := by
  rcases r.run_cases with ⟨cause, files, hrun⟩ | ⟨artifact, files, hsenders, hrecipients, hcreate, hrun⟩
  · rw [hrun]
    refine ⟨eachAttempt_nil, nofun, fun worker _ => Nat.zero_le _, ?_⟩
    rintro ⟨report, hresult, -⟩
    cases hresult
  · obtain ⟨-, hopen⟩ := ArtifactFile.opened_of_create hcreate
    obtain ⟨k, hreach, hfinished, hshared, hworkers⟩ := r.reaches_engine artifact.sink hsenders hrecipients
    obtain ⟨files', notices, hrecord⟩ := r.runInto_eq artifact files hsenders hrecipients
    obtain ⟨hdrawn, hids, hwithin, hcomplete⟩ :=
      performs_of_crew (ResultSink.unrecorded_of_open? hopen) hreach
    have hattempts : r.run.attempts = k.shared.attempts := by
      rw [hrun, hrecord, hshared]
      rfl
    rw [hattempts]
    refine ⟨hdrawn, hids, hwithin, ?_⟩
    rintro ⟨report, hresult, hinterrupted⟩
    rw [hrun, hrecord] at hresult
    obtain rfl := Except.ok.inj hresult
    refine hcomplete ⟨hfinished, fun t ht => ?_⟩
    have hworker : t.worker ∈ (r.engine artifact.sink hsenders hrecipients).workers :=
      hworkers ▸ List.mem_map_of_mem ht
    exact Bool.eq_false_iff.mpr (List.any_eq_false.mp hinterrupted t.worker hworker)

/-- The attempts that some course of a run makes: the run itself, or its workers taking their steps in any order
up to any point. With them goes what makes the course a whole one, in which no worker is cut short. -/
inductive Course (r : RunInput) : (attempts : List Attempt) → (whole : Prop) → Prop where
  | run : Course r r.run.attempts (∃ report, r.run.result = .ok report ∧ report.interrupted = false)
  | interleaving {ω : Type} [Writer ω] {sink : ResultSink ω} {hsenders : 0 < r.senders.length}
      {hrecipients : 0 < r.recipients.length} {k : Crew ω} (hfresh : sink.unrecorded = 0)
      (hreach : Crew.Reaches (r.context hrecipients) (r.crew sink hsenders) k) :
      Course r k.shared.attempts (k.Finished ∧ ∀ t ∈ k.threads, t.worker.summary.cancelled = false)

theorem Course.performs {whole : Prop} (hcourse : r.Course attempts whole) : r.Performs attempts whole := by
  cases hcourse with
  | run => exact r.performs_run
  | interleaving hfresh hreach => exact performs_of_crew hfresh hreach

end RunInput

/-! ### Going round, and drawing -/

/-- The turns at which a position comes up, going round from some place, are one in every round. -/
theorem turn_eq_iff {positions position : Nat} (hposition : position < positions) (first turn : Nat) :
    (first + turn) % positions = position ↔ turn ≡ position + (positions - 1) * first [MOD positions] := by
  have hround : first + (position + (positions - 1) * first) = position + positions * first := by
    obtain ⟨more, rfl⟩ := Nat.exists_eq_succ_of_ne_zero (Nat.ne_zero_of_lt hposition)
    simp only [Nat.succ_mul, Nat.succ_sub_one]
    omega
  have hshift : first + (position + (positions - 1) * first) ≡ position [MOD positions] := by
    rw [hround]
    exact Nat.add_mul_mod_self_left position positions first
  have hself : position % positions = position := Nat.mod_eq_of_lt hposition
  constructor
  · intro hturn
    refine Nat.ModEq.add_left_cancel' first (Nat.ModEq.trans ?_ hshift.symm)
    rw [Nat.ModEq, hturn, hself]
  · intro hturn
    exact Eq.trans ((hturn.add_left first).trans hshift) hself

/-- Going round so many positions for some time, each position comes up once in every full round and at most
once more. -/
theorem count_turns {positions position : Nat} (hposition : position < positions) (first turns : Nat) :
    turns / positions ≤ ((List.range turns).map fun j => (first + j) % positions).count position ∧
      ((List.range turns).map fun j => (first + j) % positions).count position ≤ turns / positions + 1 := by
  have hcount : ((List.range turns).map fun j => (first + j) % positions).count position =
      Nat.count (· ≡ position + (positions - 1) * first [MOD positions]) turns := by
    rw [List.count, List.countP_map, Nat.count]
    refine List.countP_congr fun turn _ => ?_
    simp only [Function.comp_apply, beq_iff_eq, decide_eq_true_eq]
    exact turn_eq_iff hposition first turn
  rw [hcount, Nat.count_modEq_card turns (Nat.zero_lt_of_lt hposition)]
  split <;> omega

/-- A stream behind so many draws of numbers below a bound. -/
def Crypto.ChaCha.Stream.after (bound : Nat) (s : Stream) : Nat → Stream
  | 0 => s
  | draws + 1 => ((s.after bound draws).below bound).2

/-- The draw with the given number. -/
def Crypto.ChaCha.Stream.draw (bound : Nat) (s : Stream) (number : Nat) : Nat :=
  ((s.after bound number).below bound).1

namespace RunInput

/-- The positions of the recipients of a worker's first attempts. -/
def picks (r : RunInput) (worker attempts : Nat) : List Nat := (List.range attempts).map (r.picked worker)

variable {r : RunInput} {worker attempt : Nat}

theorem selector_succ (r : RunInput) (worker attempts : Nat) : r.selector worker (attempts + 1) =
    ((r.selector worker attempts).pick worker attempts r.recipients.length).2 :=
  rfl

theorem selector_of_roundRobin (hpolicy : r.settings.recipientPolicy = .roundRobin) (attempts : Nat) :
    r.selector worker attempts = .roundRobin := by
  induction attempts with
  | zero => rw [selector, hpolicy]; rfl
  | succ attempts ih => rw [selector_succ, ih]; rfl

theorem selector_of_random (hpolicy : r.settings.recipientPolicy = .random) (attempts : Nat) :
    r.selector worker attempts =
      .random ((Stream.ofSeed (r.seed ^^^ UInt64.ofNat worker)).after r.recipients.length attempts) := by
  induction attempts with
  | zero => rw [selector, hpolicy]; rfl
  | succ attempts ih => rw [selector_succ, ih]; rfl

theorem picked_of_roundRobin (hpolicy : r.settings.recipientPolicy = .roundRobin)
    (hfits : worker + attempt < UInt64.size) :
    r.picked worker attempt = (worker + attempt) % r.recipients.length := by
  rw [picked, selector_of_roundRobin hpolicy, RecipientSelector.pick, Nat.mod_eq_of_lt hfits]

theorem picked_of_random (hpolicy : r.settings.recipientPolicy = .random) :
    r.picked worker attempt =
      (Stream.ofSeed (r.seed ^^^ UInt64.ofNat worker)).draw r.recipients.length attempt := by
  rw [picked, selector_of_random hpolicy]
  rfl

theorem picks_of_roundRobin (hpolicy : r.settings.recipientPolicy = .roundRobin)
    (hworker : worker < r.settings.workers.toNat) {count : Nat} (hcount : count ≤ r.quota worker) :
    r.picks worker count = (List.range count).map fun j => (worker + j) % r.recipients.length := by
  refine List.map_congr_left fun j hj => picked_of_roundRobin hpolicy ?_
  have hless := List.mem_range.mp hj
  exact add_lt_of_lt_quota hworker (Nat.lt_of_lt_of_le hless hcount)

/-- Going round treats all positions alike. -/
theorem count_picks_le (hpolicy : r.settings.recipientPolicy = .roundRobin)
    (hworker : worker < r.settings.workers.toNat) {count : Nat} (hcount : count ≤ r.quota worker)
    {first second : Nat} (hfirst : first < r.recipients.length) (hsecond : second < r.recipients.length) :
    (r.picks worker count).count first ≤ (r.picks worker count).count second + 1 := by
  obtain ⟨-, hupper⟩ := count_turns hfirst worker count
  obtain ⟨hlower, -⟩ := count_turns hsecond worker count
  rw [picks_of_roundRobin hpolicy hworker hcount]
  omega

theorem picks_of_random (hpolicy : r.settings.recipientPolicy = .random) {seed : UInt64}
    (hseed : r.settings.seed = some seed) (count : Nat) :
    r.picks worker count = (List.range count).map
      ((Stream.ofSeed (seed ^^^ UInt64.ofNat worker)).draw r.recipients.length) := by
  have hseed' : r.seed = seed := by
    rw [RunInput.seed, hseed]
    rfl
  rw [← hseed']
  exact List.map_congr_left fun j _ => picked_of_random hpolicy

/-! ### Two runs -/

/-- Two runs with the same settings, a seed among them, and the same accounts. Their clients, signers, files and
cancellations are their own. -/
structure SameWorkload (r r' : RunInput) : Prop where
  settings : r'.settings = r.settings
  seeded : r.settings.seed ≠ none
  senders : r'.senders = r.senders
  recipients : r'.recipients = r.recipients

section

variable {r' : RunInput} (hsame : SameWorkload r r')
include hsame

namespace SameWorkload

theorem seed_eq : r'.seed = r.seed := by
  rw [RunInput.seed, RunInput.seed, hsame.settings]
  cases hseed : r.settings.seed with
  | none => exact absurd hseed hsame.seeded
  | some seed => rfl

theorem picked_eq : r'.picked = r.picked := by
  funext worker attempt
  simp only [picked, selector, hsame.settings, hsame.seed_eq, hsame.recipients]

theorem recipientAt?_eq : r'.recipientAt? = r.recipientAt? := by
  funext worker attempt
  simp only [recipientAt?, hsame.picked_eq, hsame.recipients]

theorem intentAt?_eq : r'.intentAt? = r.intentAt? := by
  funext worker attempt
  simp only [intentAt?, hsame.recipientAt?_eq, hsame.settings, hsame.senders]

theorem quota_eq : r'.quota = r.quota := by
  funext worker
  simp only [quota, hsame.settings]

theorem alone_iff : r'.Alone worker ↔ r.Alone worker := by
  simp only [Alone, hsame.settings, hsame.senders]

end SameWorkload

variable {attempts attempts' : List Attempt} {whole whole' : Prop}

theorem Performs.length_eq (hperforms : r.Performs attempts whole) (hperforms' : r'.Performs attempts' whole')
    (hworker : worker < r.settings.workers.toNat) (hwhole : whole) (hwhole' : whole') :
    (attemptsOf worker attempts).length = (attemptsOf worker attempts').length := by
  have hall := hperforms'.complete hwhole' worker (hsame.settings ▸ hworker)
  rw [hsame.quota_eq] at hall
  exact (hperforms.complete hwhole worker hworker).trans hall.symm

theorem Performs.recipients_agree (hperforms : r.Performs attempts whole)
    (hperforms' : r'.Performs attempts' whole') (hworker : worker < r.settings.workers.toNat) :
    Agree whole whole' (recipientsOf worker attempts) (recipientsOf worker attempts') := by
  have hfollows' := follows_recipientsOf hperforms'.drawn worker
  rw [hsame.recipientAt?_eq] at hfollows'
  refine (follows_recipientsOf hperforms.drawn worker).agree hfollows' fun hwhole hwhole' => ?_
  rw [length_recipientsOf, length_recipientsOf]
  exact hperforms.length_eq hsame hperforms' hworker hwhole hwhole'

theorem Performs.intents_agree (hperforms : r.Performs attempts whole)
    (hperforms' : r'.Performs attempts' whole') (hworker : worker < r.settings.workers.toNat)
    (halone : r.Alone worker) :
    Agree whole whole' (intentsOf worker attempts) (intentsOf worker attempts') := by
  have hfollows := follows_intentsOf hperforms.drawn hperforms.workers halone
  have hfollows' := follows_intentsOf hperforms'.drawn hperforms'.workers (hsame.alone_iff.mpr halone)
  rw [hsame.intentAt?_eq] at hfollows'
  refine hfollows.agree hfollows' fun hwhole hwhole' => ?_
  rw [length_intentsOf, length_intentsOf]
  exact hperforms.length_eq hsame hperforms' hworker hwhole hwhole'

/-- Two runs with the same workload send each worker to the same recipients in the same order, whatever their
clients answer and their signers refuse, whichever writes fail and whenever they are cancelled: one of the two
lists is the beginning of the other, and they are the same when no worker is cut short. The intents of a worker
that has its sender for itself are the same as well. Going round, a worker starts at its own position and treats
all positions alike; at random, it makes the draws of a stream that belongs to the seed and to the worker. -/
theorem workload_fixed (hcourse : r.Course attempts whole) (hcourse' : r'.Course attempts' whole')
    (hworker : worker < r.settings.workers.toNat) :
    let count := (attemptsOf worker attempts).length
    Agree whole whole' (recipientsOf worker attempts) (recipientsOf worker attempts') ∧
    (r.Alone worker → Agree whole whole' (intentsOf worker attempts) (intentsOf worker attempts')) ∧
    (recipientsOf worker attempts).map some = (r.picks worker count).map (r.recipients[·]?) ∧
    (r.settings.recipientPolicy = .roundRobin →
      r.picks worker count = (List.range count).map (fun j => (worker + j) % r.recipients.length) ∧
      ∀ first < r.recipients.length, ∀ second < r.recipients.length,
        (r.picks worker count).count first ≤ (r.picks worker count).count second + 1) ∧
    (r.settings.recipientPolicy = .random → ∀ seed, r.settings.seed = some seed →
      r.picks worker count = (List.range count).map
        ((Stream.ofSeed (seed ^^^ UInt64.ofNat worker)).draw r.recipients.length)) := by
  intro count
  have hperforms := hcourse.performs
  have hperforms' := hcourse'.performs
  have hcount : count ≤ r.quota worker := hperforms.within worker hworker
  refine ⟨hperforms.recipients_agree hsame hperforms' hworker,
    hperforms.intents_agree hsame hperforms' hworker, ?_, fun hpolicy => ?_, fun hpolicy seed hseed => ?_⟩
  · rw [(follows_recipientsOf hperforms.drawn worker).map_some_eq, length_recipientsOf, picks, List.map_map]
    rfl
  · exact ⟨picks_of_roundRobin hpolicy hworker hcount,
      fun first hfirst second hsecond => count_picks_le hpolicy hworker hcount hfirst hsecond⟩
  · exact picks_of_random hpolicy hseed count

end

/-- One worker that makes two transfers to two recipients that are drawn by a seed. -/
def seeded (client : Client) (signer : Signer) (cancelAt : Option Nat) : RunInput :=
  { small client cancelAt with
    settings :=
      { targetTps := 2, durationSecs := 1, workers := 1, output := "out", recipientPolicy := .random
        seed := some 7 }
    recipients := (small client).recipients ++ [⟨⟨List.replicate 32 2, rfl⟩⟩]
    signer }

/-- A run in which every signature is refused, and one with the same workload that is cancelled while its first
transfer is under way. -/
theorem workload_fixed_seeded :
    let refused := seeded (.steady 10 (.ok "a")) (fun _ _ => .error (.signing "locked")) none
    let cut := seeded (.steady 70 (.error (.http "down"))) (fun _ _ => .ok ⟨[], ""⟩) (some 50)
    (recipientsOf 0 cut.run.attempts).length = 1 ∧ (recipientsOf 0 refused.run.attempts).length = 2 ∧
      recipientsOf 0 cut.run.attempts <+: recipientsOf 0 refused.run.attempts ∧
      (recipientsOf 0 refused.run.attempts).map some =
        ((List.range 2).map ((Stream.ofSeed (7 ^^^ UInt64.ofNat 0)).draw 2)).map (refused.recipients[·]?) := by
  intro refused cut
  have hcut : (recipientsOf 0 cut.run.attempts).length = 1 := by decide +kernel
  have hrefused : (recipientsOf 0 refused.run.attempts).length = 2 := by decide +kernel
  have hsame : SameWorkload refused cut := ⟨rfl, nofun, rfl, rfl⟩
  have hworker : 0 < refused.settings.workers.toNat := by decide
  obtain ⟨⟨hbeginning, -⟩, -, hpicks, -, hrandom⟩ := workload_fixed hsame .run .run hworker
  refine ⟨hcut, hrefused, hbeginning.resolve_left fun hlonger => ?_, ?_⟩
  · have hle := hlonger.length_le
    omega
  · rw [hpicks, hrandom rfl 7 rfl, ← length_recipientsOf, hrefused]
    rfl

end RunInput

end TransferLoad
