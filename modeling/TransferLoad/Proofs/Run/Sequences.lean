import TransferLoad.Proofs.Run.Dispatch
import TransferLoad.Proofs.Run.Ledger
import TransferLoad.Proofs.Run.Simulation

/-!
# The numbers of a sender's transfers

The workers that are bound to one sender draw from one counter. Whoever draws next gets the next
number, and what becomes of an attempt afterwards makes no difference to the counter. So the numbers in
a sender's intents are consecutive, in the order of the draws, and each worker has an increasing part
of them.
-/

namespace TransferLoad

/-! ### Consecutive numbers -/

/-- So many consecutive numbers; after the last 64-bit number comes zero. -/
def numbersFrom (first : UInt64) (count : Nat) : List UInt64 :=
  (List.range count).map fun i => first + UInt64.ofNat i

theorem numbersFrom_succ (first : UInt64) (count : Nat) :
    numbersFrom first (count + 1) = numbersFrom first count ++ [first + UInt64.ofNat count] := by
  rw [numbersFrom, List.range_succ, List.map_append]
  rfl

/-- As long as none passes 64 bits, consecutive numbers are so as natural numbers. -/
theorem numbersFrom_toNat {first : UInt64} {count : Nat} (hfits : first.toNat + count < 2 ^ 64) :
    (numbersFrom first count).map (·.toNat) = List.range' first.toNat count := by
  rw [numbersFrom, List.map_map, List.range'_eq_map_range]
  refine List.map_congr_left fun i hi => ?_
  have hless := List.mem_range.mp hi
  simp only [Function.comp_apply, UInt64.toNat_add, UInt64.toNat_ofNat']
  omega

/-! ### Who draws from which counter -/

/-- The attempts of the workers that are bound to the sender at a position, when so many senders are
taken in turn. -/
def attemptsAt (senders position : Nat) (attempts : List Attempt) : List Attempt :=
  attempts.filter (·.worker % senders = position)

/-- The attempts that these workers count. -/
def attemptedAt (senders position : Nat) (workers : List WorkerSummary) : Nat :=
  ((workers.filter (·.id % senders = position)).map (·.attempted)).sum

theorem attemptsAt_cons_of_eq {senders position : Nat} {a : Attempt}
    (heq : a.worker % senders = position) (earlier : List Attempt) :
    attemptsAt senders position (a :: earlier) = a :: attemptsAt senders position earlier :=
  List.filter_cons_of_pos (decide_eq_true heq)

theorem attemptsAt_cons_of_ne {senders position : Nat} {a : Attempt}
    (hne : a.worker % senders ≠ position) (earlier : List Attempt) :
    attemptsAt senders position (a :: earlier) = attemptsAt senders position earlier :=
  List.filter_cons_of_neg (by simpa using hne)

theorem attemptedAt_append (senders position : Nat) (before after : List WorkerSummary) :
    attemptedAt senders position (before ++ after) =
      attemptedAt senders position before + attemptedAt senders position after := by
  simp only [attemptedAt, List.filter_append, List.map_append, List.sum_append]

theorem attemptedAt_cons (senders position : Nat) (w : WorkerSummary) (after : List WorkerSummary) :
    attemptedAt senders position (w :: after) =
      (if w.id % senders = position then w.attempted else 0) + attemptedAt senders position after := by
  by_cases heq : w.id % senders = position
  · simp [attemptedAt, heq]
  · simp [attemptedAt, heq]

theorem length_attemptsAt_cons (senders position : Nat) (a : Attempt) (earlier : List Attempt) :
    (attemptsAt senders position (a :: earlier)).length =
      (attemptsAt senders position earlier).length + if a.worker % senders = position then 1 else 0 := by
  by_cases heq : a.worker % senders = position
  · rw [attemptsAt_cons_of_eq heq, if_pos heq, List.length_cons]
  · rw [attemptsAt_cons_of_ne heq, if_neg heq, Nat.add_zero]

theorem attemptedAt_replace (senders position more : Nat) (before after : List WorkerSummary)
    {w w' : WorkerSummary} (hid : w'.id = w.id) (hmore : w'.attempted = w.attempted + more) :
    attemptedAt senders position (before ++ w' :: after) =
      attemptedAt senders position (before ++ w :: after) +
        if w.id % senders = position then more else 0 := by
  simp only [attemptedAt_append, attemptedAt_cons, hid, hmore]
  split <;> omega

variable {ω : Type}

/-- The counter at a position has been drawn from for the attempts of the workers that are bound to it,
and for nothing else. -/
structure Crew.Numbered (addresses : List Address) (position : Nat) (first : UInt64) (k : Crew ω) :
    Prop where
  bound : ∀ t ∈ k.threads, t.worker.sender = t.worker.summary.id % addresses.length
  addressed : ∀ t ∈ k.threads,
    addresses[t.worker.summary.id % addresses.length]? = some t.worker.address
  attempts_addressed : ∀ a ∈ k.shared.attempts,
    addresses[a.worker % addresses.length]? = some a.intent.sender
  total : attemptedAt addresses.length position (k.threads.map (·.worker.summary)) =
    (attemptsAt addresses.length position k.shared.attempts).length
  counter : k.shared.counters[position]? =
    some ⟨first + UInt64.ofNat (attemptsAt addresses.length position k.shared.attempts).length⟩
  numbers : (attemptsAt addresses.length position k.shared.attempts).reverse.map (·.intent.sequence) =
    numbersFrom first (attemptsAt addresses.length position k.shared.attempts).length

variable [Writer ω]

/-- A step draws no number, or one for one attempt of its worker. -/
theorem Thread.Step.draws {c : RunContext} {cancelled : Bool} {s s' : Shared ω} {t t' : Thread}
    (hstep : Thread.Step c cancelled s t s' t') :
    (s'.counters = s.counters ∧ s'.attempts = s.attempts ∧
      t'.worker.summary.attempted = t.worker.summary.attempted) ∨
    (∃ a : Attempt, a.worker = t.worker.summary.id ∧ a.intent.sender = t.worker.address ∧
      a.intent.sequence = (s.counters.getD t.worker.sender {}).next ∧
      s'.counters = s.counters.set t.worker.sender (s.counters.getD t.worker.sender {}).draw.2 ∧
      s'.attempts = a :: s.attempts ∧
      t'.worker.summary.attempted = t.worker.summary.attempted + 1) := by
  rcases hstep.effect with ⟨waits, calls, mark, rfl, hsummary⟩ |
    ⟨a, hworker, -, hsender, hsequence, rfl, hsummary⟩ |
    ⟨time, intent, fate, mark, notices, -, rfl, hsummary⟩ |
    ⟨time, intent, identifier, notices, rfl, hsummary⟩
  · rw [hsummary]
    exact Or.inl ⟨rfl, rfl, rfl⟩
  · rw [hsummary]
    exact Or.inr ⟨a, hworker, hsender, hsequence, rfl, rfl, rfl⟩
  · rw [hsummary]
    exact Or.inl ⟨rfl, rfl, rfl⟩
  · rw [hsummary]
    exact Or.inl ⟨rfl, rfl, rfl⟩

omit [Writer ω] in
/-- A draw from the counter of the watched sender takes the next number; any other leaves it alone. -/
theorem Shared.counter_of_draw {s s' : Shared ω} {a : Attempt} {senders position : Nat} {first : UInt64}
    (hcounter : s.counters[position]? =
      some ⟨first + UInt64.ofNat (attemptsAt senders position s.attempts).length⟩)
    (hnumbers : (attemptsAt senders position s.attempts).reverse.map (·.intent.sequence) =
      numbersFrom first (attemptsAt senders position s.attempts).length)
    (hsequence : a.intent.sequence = (s.counters.getD (a.worker % senders) {}).next)
    (hcounters : s'.counters =
      s.counters.set (a.worker % senders) (s.counters.getD (a.worker % senders) {}).draw.2)
    (hattempts : s'.attempts = a :: s.attempts) :
    s'.counters[position]? =
        some ⟨first + UInt64.ofNat (attemptsAt senders position s'.attempts).length⟩ ∧
      (attemptsAt senders position s'.attempts).reverse.map (·.intent.sequence) =
        numbersFrom first (attemptsAt senders position s'.attempts).length := by
  rw [hattempts]
  by_cases hposition : a.worker % senders = position
  · rw [hposition, List.getD_eq_getElem?_getD, hcounter, Option.getD_some] at hsequence hcounters
    rw [attemptsAt_cons_of_eq hposition]
    refine ⟨?_, ?_⟩
    · have hlt := (List.getElem?_eq_some_iff.mp hcounter).1
      rw [hcounters, List.getElem?_set_self hlt, List.length_cons]
      simp only [SequenceCounter.draw, UInt64.ofNat_add, UInt64.add_assoc]
      rfl
    · rw [List.length_cons, numbersFrom_succ, ← hnumbers, List.reverse_cons, List.map_append,
        List.map_singleton, hsequence]
  · rw [attemptsAt_cons_of_ne hposition, hcounters, List.getElem?_set_ne hposition]
    exact ⟨hcounter, hnumbers⟩

theorem Crew.Step.numbered {c : RunContext} {addresses : List Address} {position : Nat} {first : UInt64}
    {k k' : Crew ω} (hstep : Crew.Step c k k') (hnumbered : k.Numbered addresses position first) :
    k'.Numbered addresses position first := by
  cases hstep with
  | cancel => exact { hnumbered with }
  | @act cancelled s s' before after t t' hstep =>
    obtain ⟨hbound, haddressed, hattempts, htotal, hcounter, hnumbers⟩ := hnumbered
    have hpost := hstep.post_eq
    have hid : t'.worker.summary.id = t.worker.summary.id := congrArg Worker.Post.id hpost
    have hsender : t'.worker.sender = t.worker.sender := congrArg Worker.Post.sender hpost
    have haddress : t'.worker.address = t.worker.address :=
      congrArg (fun post => (⟨post.key.publicKey⟩ : Address)) hpost
    have hmem : t ∈ before ++ t :: after := List.mem_append_right _ List.mem_cons_self
    have hbound' : ∀ u ∈ before ++ t' :: after,
        u.worker.sender = u.worker.summary.id % addresses.length := by
      refine forall_mem_replace hbound ?_
      rw [hsender, hid]
      exact hbound t hmem
    have haddressed' : ∀ u ∈ before ++ t' :: after,
        addresses[u.worker.summary.id % addresses.length]? = some u.worker.address := by
      refine forall_mem_replace haddressed ?_
      rw [hid, haddress]
      exact haddressed t hmem
    simp only [List.map_append, List.map_cons] at htotal
    rcases hstep.draws with ⟨hcounters, hattempted, hcount⟩ |
      ⟨a, haworker, hasender, hasequence, hcounters, hattempted, hcount⟩
    · refine ⟨hbound', haddressed', ?_, ?_, ?_, ?_⟩
      · simpa only [hattempted] using hattempts
      · rw [List.map_append, List.map_cons, attemptedAt_replace _ _ 0 _ _ hid hcount, htotal,
          ite_self, Nat.add_zero, hattempted]
      · simpa only [hcounters, hattempted] using hcounter
      · simpa only [hattempted] using hnumbers
    · rw [hbound t hmem, ← haworker] at hasequence hcounters
      obtain ⟨hcounter', hnumbers'⟩ :=
        s.counter_of_draw hcounter hnumbers hasequence hcounters hattempted
      refine ⟨hbound', haddressed', ?_, ?_, hcounter', hnumbers'⟩
      · rw [hattempted]
        refine List.forall_mem_cons.mpr ⟨?_, hattempts⟩
        rw [haworker, hasender]
        exact haddressed t hmem
      · rw [List.map_append, List.map_cons, attemptedAt_replace _ _ 1 _ _ hid hcount, htotal, hattempted,
          length_attemptsAt_cons, haworker]

theorem Crew.Reaches.numbered {c : RunContext} {addresses : List Address} {position : Nat}
    {first : UInt64} {k k' : Crew ω} (hreach : Crew.Reaches c k k')
    (hnumbered : k.Numbered addresses position first) : k'.Numbered addresses position first :=
  hreach.keeps (fun _ _ hnumbered hstep => hstep.numbered hnumbered) hnumbered

/-! ### The numbers in the intents of one sender -/

/-- The numbers in the intents of some attempts that name a sender, the earliest first. -/
def numbersOf (sender : Address) (attempts : List Attempt) : List Nat :=
  (attempts.reverse.filter (·.intent.sender = sender)).map (·.intent.sequence.toNat)

namespace RunInput

/-- The workers that are bound to the sender at a position have made so many attempts, with consecutive
numbers that start from the sender's counter. -/
structure DrawsInOrder (r : RunInput) (position : Nat) (account : Account) (count : Nat)
    (attempts : List Attempt) (counter : Option SequenceCounter) : Prop where
  bound : ∀ a ∈ attempts, a.intent.sender = account.address ↔ a.worker % r.senders.length = position
  numbers : numbersOf account.address attempts = List.range' account.sequence.next.toNat count
  own_increase : ∀ id, id % r.senders.length = position →
    ((attempts.reverse.filter (·.worker = id)).map (·.intent.sequence.toNat)).Pairwise (· < ·)
  counter : counter.map (·.next.toNat) = some (account.sequence.next.toNat + count)

/-- The signed attempts of a sender reach the client in the order of their numbers; only numbers of
attempts that were not signed are left out. -/
structure DeliversInOrder (account : Account) (count : Nat) (attempts : List Attempt)
    (calls : List Call) : Prop where
  calls_eq : calls = callsOf attempts
  increase : (numbersOf account.address (attempts.filter (·.signed.isOk))).Pairwise (· < ·)
  gaps : ∀ n, account.sequence.next.toNat ≤ n → n < account.sequence.next.toNat + count →
    n ∉ numbersOf account.address (attempts.filter (·.signed.isOk)) →
    ∃ a ∈ attempts, a.intent.sender = account.address ∧ a.intent.sequence.toNat = n ∧
      ∃ cause, a.signed = .error cause

variable {r : RunInput} {position : Nat} {account : Account} {attempts : List Attempt} {count : Nat}

theorem DrawsInOrder.deliversInOrder {counter : Option SequenceCounter} {calls : List Call}
    (hdraws : r.DrawsInOrder position account count attempts counter) (hcalls : calls = callsOf attempts) :
    DeliversInOrder account count attempts calls where
  calls_eq := hcalls
  increase := by
    have hall : (numbersOf account.address attempts).Pairwise (· < ·) := by
      rw [hdraws.numbers]
      exact List.pairwise_lt_range'
    refine hall.sublist ?_
    exact ((List.filter_sublist.reverse).filter _).map _
  gaps := by
    intro n hfirst hlast hmissing
    have hn : n ∈ numbersOf account.address attempts := by
      rw [hdraws.numbers, List.mem_range'_1]
      exact ⟨hfirst, hlast⟩
    obtain ⟨a, ha, rfl⟩ := List.mem_map.mp hn
    obtain ⟨hmem, hsender⟩ := List.mem_filter.mp ha
    refine ⟨a, List.mem_reverse.mp hmem, of_decide_eq_true hsender, rfl, ?_⟩
    cases hsigned : a.signed with
    | error cause => exact ⟨cause, rfl⟩
    | ok payload =>
      refine absurd ?_ hmissing
      have hok : a.signed.isOk = true := by rw [hsigned]; rfl
      refine List.mem_map.mpr ⟨a, List.mem_filter.mpr ⟨?_, hsender⟩, rfl⟩
      exact List.mem_reverse.mpr (List.mem_filter.mpr ⟨List.mem_reverse.mp hmem, hok⟩)

variable {ω : Type} {sink : ResultSink ω} {hsenders : 0 < r.senders.length}

theorem crew_numbered (haccount : r.senders[position]? = some account) :
    (r.crew sink hsenders).Numbered (r.senders.map Account.address) position account.sequence.next := by
  have hthreads : ∀ t ∈ (r.crew sink hsenders).threads, ∃ id quota, t.worker = r.worker hsenders quota id := by
    intro t ht
    obtain ⟨w, hw, rfl⟩ := List.mem_map.mp ht
    obtain ⟨id, quota, -, rfl⟩ := List.mem_mapIdx.mp hw
    exact ⟨_, _, rfl⟩
  constructor
  · intro t ht
    obtain ⟨id, quota, hworker⟩ := hthreads t ht
    rw [hworker, List.length_map]
    rfl
  · intro t ht
    obtain ⟨id, quota, hworker⟩ := hthreads t ht
    have hlt := Nat.mod_lt id hsenders
    rw [hworker, List.length_map, List.getElem?_map]
    change (r.senders[id % r.senders.length]?).map Account.address = _
    rw [List.getElem?_eq_getElem hlt]
    rfl
  · exact nofun
  · refine List.sum_eq_zero_iff_forall_eq_nat.mpr fun n hn => ?_
    obtain ⟨w, hw, rfl⟩ := List.mem_map.mp hn
    obtain ⟨t, ht, rfl⟩ := List.mem_map.mp (List.mem_filter.mp hw).1
    obtain ⟨id, quota, hworker⟩ := hthreads t ht
    rw [hworker]
    rfl
  · change (r.senders.map (·.sequence))[position]? = some ⟨account.sequence.next + 0⟩
    rw [List.getElem?_map, haccount, UInt64.add_zero]
    rfl
  · rfl

variable [Writer ω] {hrecipients : 0 < r.recipients.length}

theorem drawsInOrder_of_crew {k : Crew ω} (hdistinct : (r.senders.map Account.address).Nodup)
    (haccount : r.senders[position]? = some account)
    (hreach : Crew.Reaches (r.context hrecipients) (r.crew sink hsenders) k)
    (hcount : attemptedAt r.senders.length position (k.threads.map (·.worker.summary)) = count)
    (hfits : account.sequence.next.toNat + count < 2 ^ 64) :
    r.DrawsInOrder position account count k.shared.attempts k.shared.counters[position]? := by
  obtain ⟨-, -, haddressed, htotal, hcounter, hnumbers⟩ :=
    hreach.numbered (crew_numbered haccount)
  rw [List.length_map] at haddressed htotal hcounter hnumbers
  rw [← htotal, hcount] at hcounter hnumbers
  have hposition : (r.senders.map Account.address)[position]? = some account.address := by
    rw [List.getElem?_map, haccount]
    rfl
  have hbound : ∀ a ∈ k.shared.attempts,
      a.intent.sender = account.address ↔ a.worker % r.senders.length = position := by
    intro a ha
    have hsender := haddressed a ha
    constructor
    · intro heq
      rw [heq, ← hposition] at hsender
      have hlt : a.worker % r.senders.length < (r.senders.map Account.address).length := by
        rw [List.length_map]
        exact Nat.mod_lt _ hsenders
      exact (List.getElem?_inj hlt hdistinct).mp hsender
    · intro heq
      rw [heq, hposition] at hsender
      exact (Option.some.inj hsender).symm
  have hnumbersOf : ((attemptsAt r.senders.length position k.shared.attempts).reverse.map
      (·.intent.sequence.toNat)) = List.range' account.sequence.next.toNat count := by
    rw [← numbersFrom_toNat hfits, ← hnumbers, List.map_map]
    rfl
  refine ⟨hbound, ?_, ?_, ?_⟩
  · rw [← hnumbersOf, numbersOf, attemptsAt, List.filter_reverse]
    congr 2
    exact List.filter_congr fun a ha => decide_eq_decide.mpr (hbound a ha)
  · intro id hid
    have hall : ((attemptsAt r.senders.length position k.shared.attempts).reverse.map
        (·.intent.sequence.toNat)).Pairwise (· < ·) := by
      rw [hnumbersOf]
      exact List.pairwise_lt_range'
    refine hall.sublist (List.Sublist.map _ ?_)
    rw [List.filter_reverse]
    refine List.Sublist.reverse (List.monotone_filter_right _ fun a ha => ?_)
    rw [of_decide_eq_true ha, decide_eq_true_eq]
    exact hid
  · rw [hcounter, Option.map_some, UInt64.toNat_add, UInt64.toNat_ofNat']
    congr 1
    omega

theorem id_lt_of_crew {k : Crew ω} (hreach : Crew.Reaches (r.context hrecipients) (r.crew sink hsenders) k) :
    ∀ t ∈ k.threads, t.worker.summary.id < r.settings.workers.toNat := by
  intro t ht
  have hid : t.worker.summary.id ∈ k.threads.map (·.worker.summary.id) := List.mem_map_of_mem ht
  exact List.mem_range.mp (ids_of_crew hreach ▸ hid)

theorem attemptedAt_of_unbound {k : Crew ω}
    (hreach : Crew.Reaches (r.context hrecipients) (r.crew sink hsenders) k)
    (hunbound : ∀ id < r.settings.workers.toNat, id % r.senders.length ≠ position) :
    attemptedAt r.senders.length position (k.threads.map (·.worker.summary)) = 0 := by
  refine List.sum_eq_zero_iff_forall_eq_nat.mpr fun n hn => ?_
  obtain ⟨w, hw, rfl⟩ := List.mem_map.mp hn
  obtain ⟨hmem, hbound⟩ := List.mem_filter.mp hw
  obtain ⟨t, ht, rfl⟩ := List.mem_map.mp hmem
  exact absurd (of_decide_eq_true hbound) (hunbound _ (id_lt_of_crew hreach t ht))

/-- The numbers of a sender are drawn one by one, in whatever order its workers take their steps and
whatever becomes of their attempts; the engine delivers them in this order. -/
theorem numbers_consecutive (r : RunInput) {position : Nat} {account : Account}
    (hdistinct : (r.senders.map Account.address).Nodup) (haccount : r.senders[position]? = some account) :
    (∀ report, r.run.result = .ok report →
      account.sequence.next.toNat + attemptedAt r.senders.length position report.workers < 2 ^ 64 →
      r.DrawsInOrder position account (attemptedAt r.senders.length position report.workers)
        r.run.attempts (r.run.senders[position]?.map (·.sequence)) ∧
      DeliversInOrder account (attemptedAt r.senders.length position report.workers)
        r.run.attempts r.run.calls) ∧
    (∀ (ω : Type) [Writer ω] (sink : ResultSink ω) (hsenders : 0 < r.senders.length)
      (hrecipients : 0 < r.recipients.length) (k : Crew ω),
      Crew.Reaches (r.context hrecipients) (r.crew sink hsenders) k →
      account.sequence.next.toNat +
        attemptedAt r.senders.length position (k.threads.map (·.worker.summary)) < 2 ^ 64 →
      r.DrawsInOrder position account
        (attemptedAt r.senders.length position (k.threads.map (·.worker.summary)))
        k.shared.attempts k.shared.counters[position]?) ∧
    ((∀ id < r.settings.workers.toNat, id % r.senders.length ≠ position) →
      r.run.senders[position]? = some account) := by
  refine ⟨fun report hresult hfits => ?_, ?_, fun hunbound => ?_⟩
  · obtain ⟨sink, hsenders, hrecipients, files, notices, -, rfl, hrun⟩ := run_of_ok hresult
    obtain ⟨k, hreach, -, hshared, hworkers⟩ := r.reaches_engine sink hsenders hrecipients
    have hcount : attemptedAt r.senders.length position (k.threads.map (·.worker.summary)) =
        attemptedAt r.senders.length position (r.report (r.engine sink hsenders hrecipients)).workers := by
      rw [report, ← hworkers, List.map_map]
      rfl
    have hdraws := drawsInOrder_of_crew hdistinct haccount hreach hcount hfits
    rw [hshared] at hdraws
    have hcounter : (r.run.senders[position]?.map (·.sequence)) =
        (r.engine sink hsenders hrecipients).shared.counters[position]? := by
      rw [hrun, getElem?_senders_recordOf haccount, Option.map_map]
      exact Option.map_id'
    rw [hcounter, hrun]
    exact ⟨hdraws, hdraws.deliversInOrder (r.ledger_engine sink hsenders hrecipients).calls_eq⟩
  · intro ω _ sink hsenders hrecipients k hreach hfits
    exact drawsInOrder_of_crew hdistinct haccount hreach rfl hfits
  · cases hresult : r.run.result with
    | error cause => rw [senders_run_of_error hresult, haccount]
    | ok report =>
      obtain ⟨sink, hsenders, hrecipients, files, notices, -, rfl, hrun⟩ := run_of_ok hresult
      obtain ⟨k, hreach, -, hshared, -⟩ := r.reaches_engine sink hsenders hrecipients
      obtain ⟨-, -, -, htotal, hcounter, -⟩ :=
        hreach.numbered (crew_numbered haccount)
      have hnone := attemptedAt_of_unbound hreach hunbound
      rw [List.length_map] at htotal hcounter
      rw [← htotal, hnone, hshared] at hcounter
      rw [hrun, getElem?_senders_recordOf haccount, hcounter]
      change some { account with sequence := ⟨account.sequence.next + 0⟩ } = some account
      rw [UInt64.add_zero]

/-- The sender of the first and the third worker, and that of the second. -/
def firstSender : Account := ⟨.ofSeed [1], ⟨5⟩⟩

def secondSender : Account := ⟨.ofSeed [2], ⟨0⟩⟩

/-- Three workers, of which two share a sender, and a signer that refuses one number. -/
def crowded : RunInput :=
  { small (.steady 10 (.ok "a")) with
    settings := { targetTps := 6, durationSecs := 1, workers := 3, output := "out" }
    senders := [firstSender, secondSender]
    signer := fun intent _ => if intent.sequence.toNat = 6 then .error (.signing "refused") else .ok ⟨[], ""⟩ }

/-- Two workers draw the numbers of the first sender, one those of the second; the number that was not signed is
left out of what the client sees. -/
theorem numbers_consecutive_crowded :
    crowded.DrawsInOrder 0 firstSender 4 crowded.run.attempts (crowded.run.senders[0]?.map (·.sequence)) ∧
      numbersOf firstSender.address crowded.run.attempts = [5, 6, 7, 8] ∧
      crowded.DrawsInOrder 1 secondSender 2 crowded.run.attempts (crowded.run.senders[1]?.map (·.sequence)) ∧
      numbersOf secondSender.address crowded.run.attempts = [0, 1] ∧
      DeliversInOrder firstSender 4 crowded.run.attempts crowded.run.calls ∧
      crowded.run.attempts.length = 6 ∧ crowded.run.calls.length = 5 := by
  have hdistinct : (crowded.senders.map Account.address).Nodup := by decide +kernel
  have hcounts : (crowded.run.result.map fun report =>
      (attemptedAt 2 0 report.workers, attemptedAt 2 1 report.workers)).toOption = some (4, 2) := by
    decide +kernel
  have hlengths : crowded.run.attempts.length = 6 ∧ crowded.run.calls.length = 5 := by decide +kernel
  obtain ⟨report, hresult, hcounts'⟩ := ok_of_map_eq_some hcounts
  obtain ⟨hfirst, hsecond⟩ := Prod.mk.inj hcounts'
  have haccount : crowded.senders[0]? = some firstSender := rfl
  have haccount' : crowded.senders[1]? = some secondSender := rfl
  obtain ⟨hdraws, hdelivers⟩ := (numbers_consecutive crowded hdistinct haccount).1 report hresult
    (show 5 + attemptedAt 2 0 report.workers < 2 ^ 64 by omega)
  obtain ⟨hdraws', -⟩ := (numbers_consecutive crowded hdistinct haccount').1 report hresult
    (show 0 + attemptedAt 2 1 report.workers < 2 ^ 64 by omega)
  have hlength : crowded.senders.length = 2 := rfl
  rw [hlength, hfirst] at hdraws hdelivers
  rw [hlength, hsecond] at hdraws'
  exact ⟨hdraws, hdraws.numbers, hdraws', hdraws'.numbers, hdelivers, hlengths⟩

end RunInput

end TransferLoad
