import TransferLoad.Proofs.Run.Dispatch
import TransferLoad.Proofs.Run.Worker

/-!
# Failures are isolated

What a client answers decides whether a transfer counts as sent or as failed, and nothing else. To
show this, two runs are looked at through a veil that hides the verdicts: it adds up what a worker has
sent and what has failed, and it forgets the answers that are under way. Clients that take the same
time for every submission make no difference behind the veil, whatever the artifacts are written to.
-/

namespace TransferLoad

variable {ω ω' : Type}

/-- The clients take the same time for every submission. -/
def Client.KeepsTime (client client' : Client) : Prop :=
  ∀ earlier now payload,
    (client'.submit earlier now payload).latency = (client.submit earlier now payload).latency

/-! ### The veil -/

def Errand.veil : Errand → Errand
  | .answer intent started _ => .answer intent started (.failure "")
  | .pause => .pause

def Wait.veil (wait : Wait) : Wait := { wait with errand := wait.errand.veil }

def WorkerSummary.veil (w : WorkerSummary) : WorkerSummary :=
  { w with sent := w.sent + w.errors, errors := 0 }

def Worker.veil (w : Worker) : Worker :=
  { w with summary := w.summary.veil, wait := w.wait.map Wait.veil }

def Shared.veil (s : Shared ω) : Shared Unit where
  tally := ⟨s.tally.attempted, 0⟩
  sink := ⟨(), 0⟩
  counters := s.counters
  waits := s.waits
  calls := s.calls
  attempts := s.attempts

/-- Two workers with what they share look the same behind the veil. -/
def Alike (p : Shared ω × Worker) (q : Shared ω' × Worker) : Prop :=
  p.1.veil = q.1.veil ∧ p.2.veil = q.2.veil

/-! ### One worker -/

section

variable {c : RunContext} {client : Client} {now : Nat} {s : Shared ω} {s' : Shared ω'} {w w' : Worker}

theorem Worker.left_of_veil (hworker : w.veil = w'.veil) : w.left = w'.left := by
  change w.veil.left = w'.veil.left
  rw [hworker]

/-- Behind the veil every ended attempt looks accepted. -/
theorem Worker.veil_lose (c : RunContext) (now : Nat) (intent : Intent) (fate : Fate) (reason : String)
    (s : Shared ω) (w : Worker) :
    (w.lose c now intent fate reason s).1.veil = { s.veil with tally := s.veil.tally.add .sent } ∧
      (w.lose c now intent fate reason s).2.veil = w.veil.accepted := by
  obtain ⟨notices, hlose⟩ := w.lose_eq c now intent fate reason s
  rw [hlose]
  exact ⟨rfl, rfl⟩

theorem Alike.lose (halike : Alike (s, w) (s', w')) (c : RunContext) (client : Client) (now : Nat)
    (intent : Intent) (fate fate' : Fate) (reason reason' : String) :
    Alike (w.lose c now intent fate reason s)
      (w'.lose { c with client } now intent fate' reason' s') := by
  obtain ⟨hshared, hworker⟩ := halike
  obtain ⟨hs, hw⟩ := w.veil_lose c now intent fate reason s
  obtain ⟨hs', hw'⟩ := w'.veil_lose { c with client } now intent fate' reason' s'
  refine ⟨?_, ?_⟩
  · rw [hs, hs', hshared]
  · rw [hw, hw', hworker]

theorem Alike.await {errand errand' : Errand} (halike : Alike (s, w) (s', w'))
    (herrand : errand.veil = errand'.veil) (due : Nat) :
    Alike (w.await due errand s) (w'.await due errand' s') := by
  obtain ⟨hshared, hworker⟩ := halike
  have hwaits : s.waits = s'.waits := congrArg Shared.waits hshared
  refine ⟨?_, ?_⟩
  · change ({ s.veil with waits := s.veil.waits + 1 } : Shared Unit) = { s'.veil with waits := s'.veil.waits + 1 }
    rw [hshared]
  · change ({ w.veil with wait := some ⟨due, s.waits, errand.veil⟩ } : Worker) =
      { w'.veil with wait := some ⟨due, s'.waits, errand'.veil⟩ }
    rw [hworker, hwaits, herrand]

/-- The next attempt does not depend on what became of the earlier ones. -/
theorem Alike.prepare (halike : Alike (s, w) (s', w')) (c : RunContext) (client : Client) (now : Nat) :
    (w.prepare c now s).1 = (w'.prepare { c with client } now s').1 ∧
      Alike (w.prepare c now s).2 (w'.prepare { c with client } now s').2 := by
  obtain ⟨hshared, hworker⟩ := halike
  have hattempt : (w.veil.prepare c now s.veil).1 = (w'.veil.prepare c now s'.veil).1 := by
    rw [hshared, hworker]
  have hshared' : (w.veil.prepare c now s.veil).2.1 = (w'.veil.prepare c now s'.veil).2.1 := by
    rw [hshared, hworker]
  have hworker' : (w.veil.prepare c now s.veil).2.2 = (w'.veil.prepare c now s'.veil).2.2 := by
    rw [hshared, hworker]
  exact ⟨hattempt, hshared', hworker'⟩

variable [Writer ω] [Writer ω']

theorem Worker.veil_gain (c : RunContext) (now : Nat) (intent : Intent) (identifier : String)
    (s : Shared ω) (w : Worker) :
    (w.gain c now intent identifier s).1.veil = { s.veil with tally := s.veil.tally.add .sent } ∧
      (w.gain c now intent identifier s).2.veil = w.veil.accepted := by
  obtain ⟨notices, hgain⟩ := w.gain_eq c now intent identifier s
  rw [hgain]
  refine ⟨?_, ?_⟩
  · simp only [Shared.veil, Tally.add, Tally.attempted, Nat.add_right_comm]
  · simp only [Worker.veil, WorkerSummary.veil, Worker.accepted, Nat.add_right_comm]

theorem Worker.veil_conclude (c : RunContext) (now : Nat) (intent : Intent) (outcome : SubmissionOutcome)
    (s : Shared ω) (w : Worker) :
    (w.conclude c now intent outcome s).1.veil = { s.veil with tally := s.veil.tally.add .sent } ∧
      (w.conclude c now intent outcome s).2.veil = w.veil.accepted := by
  cases outcome with
  | success identifier => exact w.veil_gain c now intent identifier s
  | failure reason => exact w.veil_lose c now intent (.rejected reason) reason s

theorem Alike.conclude (halike : Alike (s, w) (s', w')) (c : RunContext) (client : Client) (now : Nat)
    (intent : Intent) (outcome outcome' : SubmissionOutcome) :
    Alike (w.conclude c now intent outcome s) (w'.conclude { c with client } now intent outcome' s') := by
  obtain ⟨hshared, hworker⟩ := halike
  obtain ⟨hs, hw⟩ := w.veil_conclude c now intent outcome s
  obtain ⟨hs', hw'⟩ := w'.veil_conclude { c with client } now intent outcome' s'
  refine ⟨?_, ?_⟩
  · rw [hs, hs', hshared]
  · rw [hw, hw', hworker]

/-- Two workers are alike, and either both go on or both do not. -/
def AlikeNext (x : Bool × Shared ω × Worker) (y : Bool × Shared ω' × Worker) : Prop :=
  x.1 = y.1 ∧ Alike x.2 y.2

omit [Writer ω] [Writer ω'] in
theorem Alike.rest (halike : Alike (s, w) (s', w')) (c : RunContext) (client : Client)
    (now started : Nat) :
    AlikeNext (w.rest c now started s) (w'.rest { c with client } now started s') := by
  unfold Worker.rest
  dsimp only
  split
  · exact ⟨rfl, halike.await rfl _⟩
  · exact ⟨rfl, halike⟩

theorem Alike.attempt (halike : Alike (s, w) (s', w')) (htime : c.client.KeepsTime client) (now : Nat) :
    AlikeNext (w.attempt c now s) (w'.attempt { c with client } now s') := by
  have hprepared := halike.prepare c client now
  rcases hprepare : w.prepare c now s with ⟨a, s₁, w₁⟩
  rcases hprepare' : w'.prepare { c with client } now s' with ⟨a', s₁', w₁'⟩
  rw [hprepare, hprepare'] at hprepared
  obtain ⟨rfl, hafter⟩ : a = a' ∧ Alike (s₁, w₁) (s₁', w₁') := hprepared
  have hcalls : s₁.calls = s₁'.calls := congrArg Shared.calls hafter.1
  cases hsigned : a.signed with
  | error cause =>
    simp only [Worker.attempt, hprepare, hprepare', hsigned]
    exact ⟨rfl, hafter.lose c client now a.intent .refused .refused _ _⟩
  | ok payload =>
    have hlatency := htime s₁.calls now payload
    have hsubmitted : Alike (s₁.submit now payload, w₁) (s₁'.submit now payload, w₁') := by
      refine ⟨?_, hafter.2⟩
      change s₁.veil.submit now payload = s₁'.veil.submit now payload
      rw [hafter.1]
    simp only [Worker.attempt, hprepare, hprepare', hsigned, ← hcalls, hlatency]
    split
    · have hconcluded := hsubmitted.conclude c client now a.intent
        (.ofAnswer (c.client.submit s₁.calls now payload).answer)
        (.ofAnswer (client.submit s₁.calls now payload).answer)
      exact hconcluded.rest c client now now
    · exact ⟨rfl, hsubmitted.await rfl _⟩

theorem Alike.proceed (htime : c.client.KeepsTime client) (left : Nat) (halike : Alike (s, w) (s', w')) :
    Alike (w.proceed c now left s) (w'.proceed { c with client } now left s') := by
  induction left generalizing s s' w w' with
  | zero =>
    refine ⟨halike.1, ?_⟩
    change ({ w.veil with wait := none } : Worker) = { w'.veil with wait := none }
    rw [halike.2]
  | succ left ih =>
    have hnext := halike.attempt htime now
    rcases hattempt : w.attempt c now s with ⟨goes, s₁, w₁⟩
    rcases hattempt' : w'.attempt { c with client } now s' with ⟨goes', s₁', w₁'⟩
    rw [hattempt, hattempt'] at hnext
    obtain ⟨rfl, hafter⟩ : goes = goes' ∧ Alike (s₁, w₁) (s₁', w₁') := hnext
    rw [Worker.proceed, Worker.proceed, hattempt, hattempt']
    cases goes with
    | true => exact ih hafter
    | false => exact hafter

theorem Alike.resume (htime : c.client.KeepsTime client) {errand errand' : Errand}
    (herrand : errand.veil = errand'.veil) (halike : Alike (s, w) (s', w')) :
    Alike (w.resume c now errand s) (w'.resume { c with client } now errand' s') := by
  cases errand with
  | pause =>
    cases errand' with
    | answer intent' started' outcome' => cases herrand
    | pause =>
      have hleft := Worker.left_of_veil halike.2
      simp only [Worker.resume, hleft]
      exact halike.proceed htime w'.left
  | answer intent started outcome =>
    cases errand' with
    | pause => cases herrand
    | answer intent' started' outcome' =>
      obtain ⟨rfl, rfl⟩ : intent = intent' ∧ started = started' := by
        simpa only [Errand.veil, Errand.answer.injEq, and_true] using herrand
      have hconcluded := halike.conclude c client now intent outcome outcome'
      rcases hconclude : w.conclude c now intent outcome s with ⟨s₁, w₁⟩
      rcases hconclude' : w'.conclude { c with client } now intent outcome' s' with ⟨s₁', w₁'⟩
      rw [hconclude, hconclude'] at hconcluded
      have hnext := hconcluded.rest c client now started
      rcases hrest : w₁.rest c now started s₁ with ⟨goes, s₂, w₂⟩
      rcases hrest' : w₁'.rest { c with client } now started s₁' with ⟨goes', s₂', w₂'⟩
      rw [hrest, hrest'] at hnext
      obtain ⟨rfl, hafter⟩ : goes = goes' ∧ Alike (s₂, w₂) (s₂', w₂') := hnext
      have hleft := Worker.left_of_veil hafter.2
      simp only [Worker.resume, hconclude, hconclude', hrest, hrest']
      cases goes with
      | true =>
        dsimp only
        rw [hleft]
        exact hafter.proceed htime w₂'.left
      | false => exact hafter

omit [Writer ω] [Writer ω'] in
theorem Worker.veil_breakOff (hworker : w.veil = w'.veil) : w.breakOff.veil = w'.breakOff.veil := by
  change w.veil.breakOff = w'.veil.breakOff
  rw [hworker]

theorem Alike.stop {wait wait' : Wait} (hwait : wait.veil = wait'.veil) (halike : Alike (s, w) (s', w')) :
    Alike (w.stop c now wait s) (w'.stop { c with client } now wait' s') := by
  obtain ⟨due, order, errand⟩ := wait
  obtain ⟨due', order', errand'⟩ := wait'
  obtain ⟨rfl, rfl, herrand⟩ : due = due' ∧ order = order' ∧ errand.veil = errand'.veil := by
    simpa only [Wait.veil, Wait.mk.injEq] using hwait
  cases errand with
  | pause =>
    cases errand' with
    | answer intent' started' outcome' => cases herrand
    | pause => exact ⟨halike.1, Worker.veil_breakOff halike.2⟩
  | answer intent started outcome =>
    cases errand' with
    | pause => cases herrand
    | answer intent' started' outcome' =>
      obtain ⟨rfl, rfl⟩ : intent = intent' ∧ started = started' := by
        simpa only [Errand.veil, Errand.answer.injEq, and_true] using herrand
      simp only [Worker.stop]
      split
      · obtain ⟨hshared, hworker⟩ := halike.conclude c client now intent outcome outcome'
        exact ⟨hshared, Worker.veil_breakOff hworker⟩
      · obtain ⟨hshared, hworker⟩ := halike.lose c client now intent .abandoned .abandoned
          "submission abandoned on shutdown" "submission abandoned on shutdown"
        refine ⟨hshared, ?_⟩
        change (w.failed.veil.cancelIf true) = (w'.failed.veil.cancelIf true)
        exact congrArg (Worker.cancelIf · true) hworker

theorem Alike.start (htime : c.client.KeepsTime client) (halike : Alike (s, w) (s', w')) :
    Alike (w.start c s) (w'.start { c with client } s') := by
  have hleft := Worker.left_of_veil halike.2
  have hlive : RunContext.isLiveAt { c with client } 0 = c.isLiveAt 0 := rfl
  unfold Worker.start
  rw [hlive, hleft]
  split
  · exact halike.proceed htime w'.left
  · exact ⟨halike.1, Worker.veil_breakOff halike.2⟩

end

/-! ### All workers -/

theorem Wait.due_of_veil {wait wait' : Wait} (hwait : wait.veil = wait'.veil) : wait.due = wait'.due := by
  change wait.veil.due = wait'.veil.due
  rw [hwait]

theorem Wait.endsBefore_veil (first second : Wait) :
    first.veil.endsBefore second.veil = first.endsBefore second := rfl

theorem earliest?_veil (index : Nat) (workers : List Worker) :
    earliest? index (workers.map Worker.veil) =
      (earliest? index workers).map fun found => (found.1, found.2.veil) := by
  induction workers generalizing index with
  | nil => rfl
  | cons w rest ih =>
    rw [List.map_cons, earliest?, earliest?, ih]
    have hwait : w.veil.wait = w.wait.map Wait.veil := rfl
    rw [hwait]
    cases w.wait with
    | none => rfl
    | some wait =>
      cases earliest? (index + 1) rest with
      | none => rfl
      | some found =>
        obtain ⟨i, other⟩ := found
        simp only [Option.map_some]
        by_cases hbefore : other.endsBefore wait = true
        · rw [if_pos hbefore, if_pos ((Wait.endsBefore_veil other wait).trans hbefore)]
          rfl
        · have hbefore' : ¬ other.veil.endsBefore wait.veil = true := hbefore
          rw [if_neg hbefore, if_neg hbefore']
          rfl

theorem openWaits_veil (workers : List Worker) :
    openWaits (workers.map Worker.veil) =
      (openWaits workers).map fun x => (x.1, x.2.veil) := by
  have hsort := fun waits => List.map_mergeSort (f := fun x : Nat × Wait => (x.1, x.2.veil))
    (l := waits) (r := fun first second => first.2.order ≤ second.2.order)
    (s := fun first second => first.2.order ≤ second.2.order) fun _ _ _ _ => rfl
  rw [openWaits, openWaits, hsort, List.map_filterMap, List.zipIdx_map, List.filterMap_map]
  congr 2
  funext x
  change (x.1.wait.map Wait.veil).map (fun wait => (x.2, wait)) =
    (x.1.wait.map fun wait => (x.2, wait)).map fun y => (y.1, y.2.veil)
  rw [Option.map_map, Option.map_map]
  rfl

theorem closingWaits_veil (time : Nat) (workers : List Worker) :
    closingWaits time (workers.map Worker.veil) =
      (closingWaits time workers).map fun x => (x.1, x.2.veil) := by
  simp only [closingWaits, openWaits_veil, List.partition_eq_filter_filter, List.filter_map,
    List.map_append]
  rfl

theorem Worker.potential_veil (w : Worker) : w.veil.potential = w.potential := by
  have hwait : w.veil.wait = w.wait.map Wait.veil := rfl
  rw [Worker.potential, Worker.potential, hwait]
  cases w.wait with
  | none => rfl
  | some wait =>
    obtain ⟨due, order, errand⟩ := wait
    cases errand <;> rfl

structure Engine.Alike (e : Engine ω) (e' : Engine ω') : Prop where
  now : e.now = e'.now
  shared : e.shared.veil = e'.shared.veil
  workers : e.workers.map Worker.veil = e'.workers.map Worker.veil

namespace Engine

variable {c : RunContext} {client : Client} {reporter : Option Reporter} {e : Engine ω} {e' : Engine ω'}

theorem Alike.moveTo (halike : e.Alike e') (time : Nat) :
    (e.moveTo reporter time).Alike (e'.moveTo reporter time) :=
  ⟨rfl, halike.shared, halike.workers⟩

theorem Alike.update {step : Shared ω → Worker → Shared ω × Worker}
    {step' : Shared ω' → Worker → Shared ω' × Worker} (halike : e.Alike e') (index : Nat)
    (hstep : ∀ {s s' w w'}, TransferLoad.Alike (s, w) (s', w') →
      TransferLoad.Alike (step s w) (step' s' w')) :
    (e.update index step).Alike (e'.update index step') := by
  have hlookup : e.workers[index]?.map Worker.veil = e'.workers[index]?.map Worker.veil := by
    rw [← List.getElem?_map, ← List.getElem?_map, halike.workers]
  unfold Engine.update
  cases hw : e.workers[index]? with
  | none =>
    cases hw' : e'.workers[index]? with
    | none => exact halike
    | some w' =>
      rw [hw, hw'] at hlookup
      cases hlookup
  | some w =>
    cases hw' : e'.workers[index]? with
    | none =>
      rw [hw, hw'] at hlookup
      cases hlookup
    | some w' =>
      rw [hw, hw'] at hlookup
      obtain ⟨hshared, hworker⟩ := hstep ⟨halike.shared, Option.some.inj hlookup⟩
      refine ⟨halike.now, hshared, ?_⟩
      change (e.workers.set index (step e.shared w).2).map Worker.veil =
        (e'.workers.set index (step' e'.shared w').2).map Worker.veil
      rw [List.map_set, List.map_set, halike.workers, hworker]

theorem Alike.potential (halike : e.Alike e') : e.potential = e'.potential := by
  have hpotentials := congrArg (List.map Worker.potential) halike.workers
  rw [List.map_map, List.map_map] at hpotentials
  have hveil : Worker.potential ∘ Worker.veil = Worker.potential := funext Worker.potential_veil
  rw [hveil] at hpotentials
  rw [Engine.potential, Engine.potential, hpotentials]

theorem Alike.waiting (halike : e.Alike e') :
    e.workers.any (·.wait.isSome) = e'.workers.any (·.wait.isSome) := by
  have hwaiting : ∀ workers : List Worker,
      (workers.map Worker.veil).any (·.wait.isSome) = workers.any (·.wait.isSome) := by
    intro workers
    rw [List.any_map]
    refine congrArg workers.any (funext fun w => ?_)
    exact Option.isSome_map
  rw [← hwaiting e.workers, ← hwaiting e'.workers, halike.workers]

variable [Writer ω] [Writer ω']

theorem Alike.wake (htime : c.client.KeepsTime client) {wait wait' : Wait} (halike : e.Alike e')
    (index : Nat) (hwait : wait.veil = wait'.veil) :
    (e.wake c reporter index wait).Alike (e'.wake { c with client } reporter index wait') := by
  have herrand : wait.veil.errand = wait'.veil.errand := congrArg Wait.errand hwait
  unfold Engine.wake
  rw [Wait.due_of_veil hwait]
  exact (halike.moveTo wait'.due).update index fun halike => halike.resume htime herrand

theorem Alike.advance (htime : c.client.KeepsTime client) (steps : Nat) (halike : e.Alike e') :
    (e.advance c reporter steps).Alike (e'.advance { c with client } reporter steps) := by
  induction steps generalizing e e' with
  | zero => exact halike
  | succ steps ih =>
    have hfound : (earliest? 0 e.workers).map (fun found => (found.1, found.2.veil)) =
        (earliest? 0 e'.workers).map fun found => (found.1, found.2.veil) := by
      rw [← earliest?_veil, ← earliest?_veil, halike.workers]
    rw [Engine.advance, Engine.advance]
    cases hearliest : earliest? 0 e.workers with
    | none =>
      cases hearliest' : earliest? 0 e'.workers with
      | none => exact halike
      | some found' =>
        rw [hearliest, hearliest'] at hfound
        cases hfound
    | some found =>
      cases hearliest' : earliest? 0 e'.workers with
      | none =>
        rw [hearliest, hearliest'] at hfound
        cases hfound
      | some found' =>
        obtain ⟨index, wait⟩ := found
        obtain ⟨index', wait'⟩ := found'
        rw [hearliest, hearliest'] at hfound
        obtain ⟨rfl, hwait⟩ : index = index' ∧ wait.veil = wait'.veil := by
          simpa only [Option.map_some, Option.some.injEq, Prod.mk.injEq] using hfound
        have hlive : RunContext.isLiveAt { c with client } wait'.due = c.isLiveAt wait.due := by
          rw [Wait.due_of_veil hwait]
          rfl
        dsimp only
        rw [hlive]
        split
        · exact ih (halike.wake htime index hwait)
        · exact halike

theorem Alike.foldl_close (client : Client) (time : Nat) {waits waits' : List (Nat × Wait)}
    (hwaits : waits.map (fun x => (x.1, x.2.veil)) = waits'.map fun x => (x.1, x.2.veil))
    (halike : e.Alike e') :
    (waits.foldl (close c time) e).Alike (waits'.foldl (close { c with client } time) e') := by
  induction waits generalizing waits' e e' with
  | nil =>
    obtain rfl : waits' = [] := List.map_eq_nil_iff.mp hwaits.symm
    exact halike
  | cons x rest ih =>
    cases waits' with
    | nil => cases hwaits
    | cons x' rest' =>
      obtain ⟨⟨hindex, hwait⟩, hrest⟩ :
          (x.1 = x'.1 ∧ x.2.veil = x'.2.veil) ∧
            rest.map (fun x => (x.1, x.2.veil)) = rest'.map fun x => (x.1, x.2.veil) := by
        simpa only [List.map_cons, List.cons.injEq, Prod.mk.injEq] using hwaits
      rw [List.foldl_cons, List.foldl_cons]
      refine ih hrest ?_
      rw [close, close, hindex]
      exact halike.update x'.1 fun halike => halike.stop hwait

theorem Alike.finish (halike : e.Alike e') :
    (e.finish c reporter).Alike (e'.finish { c with client } reporter) := by
  unfold Engine.finish Engine.interrupt
  dsimp only
  cases c.cancelAt with
  | none => exact halike
  | some time =>
    dsimp only
    rw [halike.waiting]
    split
    · refine (halike.moveTo time).foldl_close client time ?_
      rw [← closingWaits_veil, ← closingWaits_veil, halike.workers]
    · exact halike

theorem alike_startAll (htime : c.client.KeepsTime client) {s : Shared ω} {s' : Shared ω'}
    (hshared : s.veil = s'.veil) (workers : List Worker) :
    (startAll c s workers).1.veil = (startAll { c with client } s' workers).1.veil ∧
      (startAll c s workers).2.map Worker.veil =
        (startAll { c with client } s' workers).2.map Worker.veil := by
  induction workers generalizing s s' with
  | nil => exact ⟨hshared, rfl⟩
  | cons w rest ih =>
    have hstarted : TransferLoad.Alike (w.start c s) (w.start { c with client } s') :=
      TransferLoad.Alike.start htime ⟨hshared, rfl⟩
    obtain ⟨hrest, hworkers⟩ := ih hstarted.1
    refine ⟨hrest, ?_⟩
    simp only [startAll, List.map_cons, hstarted.2, hworkers]

theorem alike_run (htime : c.client.KeepsTime client) {s : Shared ω} {s' : Shared ω'}
    (hshared : s.veil = s'.veil) (workers : List Worker) :
    (run c reporter s workers).Alike (run { c with client } reporter s' workers) := by
  obtain ⟨hstarted, hworkers⟩ := alike_startAll htime hshared workers
  have hstart : (start c s workers).Alike (start { c with client } s' workers) := ⟨rfl, hstarted, hworkers⟩
  unfold run
  dsimp only
  rw [← hstart.potential]
  exact (hstart.advance htime _).finish

end Engine

/-! ### Two runs -/

/-- Two reports that may differ in how many attempts were accepted and how many failed, in the rates
that follow from this, and in how many identifiers were lost. -/
structure FinalReport.SameButVerdicts (report report' : FinalReport) : Prop where
  workers : report.workers.map (fun w => (w.id, w.quota, w.attempted, w.cancelled)) =
    report'.workers.map fun w => (w.id, w.quota, w.attempted, w.cancelled)
  workers_counted : report.workers.map (fun w => w.sent + w.errors) =
    report'.workers.map fun w => w.sent + w.errors
  counted : report.sent + report.errors = report'.sent + report'.errors
  totalTime : report.totalTime = report'.totalTime
  planned : report.planned = report'.planned
  scheduled : report.scheduled = report'.scheduled
  interrupted : report.interrupted = report'.interrupted

theorem Engine.Alike.sameButVerdicts {r r' : RunInput} {e : Engine ω} {e' : Engine ω'}
    (halike : e.Alike e') (hsettings : r.settings = r'.settings) :
    (r.report e).SameButVerdicts (r'.report e') := by
  have hsummaries : (e.workers.map (·.summary)).map WorkerSummary.veil =
      (e'.workers.map (·.summary)).map WorkerSummary.veil := by
    have hveiled := congrArg (List.map Worker.summary) halike.workers
    rw [List.map_map, List.map_map] at hveiled ⊢
    exact hveiled
  constructor
  · have hkept := congrArg (List.map fun w => (w.id, w.quota, w.attempted, w.cancelled)) hsummaries
    rw [List.map_map, List.map_map (l := List.map (·.summary) e'.workers)] at hkept
    exact hkept
  · have hkept := congrArg (List.map WorkerSummary.sent) hsummaries
    rw [List.map_map, List.map_map (l := List.map (·.summary) e'.workers)] at hkept
    exact hkept
  · exact congrArg (·.tally.sent) halike.shared
  · exact congrArg nanosOfMillis halike.now
  · exact congrArg (·.plan.totalBudget) hsettings
  · exact congrArg (·.plan.scheduled) hsettings
  · have hkept := congrArg (List.any · (·.cancelled)) hsummaries
    simp only [List.any_map] at hkept
    exact hkept

namespace RunInput

variable {r : RunInput} {client : Client} [Writer ω] [Writer ω']

theorem alike_engine (htime : r.client.KeepsTime client) (files : FileTree) (sink : ResultSink ω)
    (sink' : ResultSink ω') (hsenders : 0 < r.senders.length) (hrecipients : 0 < r.recipients.length) :
    (r.engine sink hsenders hrecipients).Alike
      (engine { r with client, files } sink' hsenders hrecipients) := by
  have hshared : (r.shared sink).veil = (r.shared sink').veil := rfl
  exact Engine.alike_run (c := r.context hrecipients) htime hshared (r.workers hsenders)

theorem same_of_ok (r : RunInput) (client : Client) (htime : r.client.KeepsTime client) {files : FileTree}
    {report report' : FinalReport} (hresult : r.run.result = .ok report)
    (hresult' : (run { r with client, files }).result = .ok report') :
    (run { r with client, files }).calls = r.run.calls ∧
      (run { r with client, files }).attempts = r.run.attempts ∧ report.SameButVerdicts report' := by
  obtain ⟨sink, hsenders, hrecipients, filesAfter, notices, -, rfl, hrun⟩ := run_of_ok hresult
  obtain ⟨sink', _, _, filesAfter', notices', -, rfl, hrun'⟩ := run_of_ok hresult'
  have halike := alike_engine htime files sink sink' hsenders hrecipients
  rw [hrun, hrun']
  exact ⟨(congrArg Shared.calls halike.shared).symm, (congrArg Shared.attempts halike.shared).symm,
    halike.sameButVerdicts rfl⟩

end RunInput

/-- What the client answers and what the artifact takes have no effect on the attempts, the calls and
the times of a run, and none on where its workers stop. -/
theorem RunInput.verdicts_isolated (r : RunInput) (client : Client) (htime : r.client.KeepsTime client)
    (files : FileTree) :
    (∀ report report', r.run.result = .ok report →
      (run { r with client, files }).result = .ok report' →
      (run { r with client, files }).calls = r.run.calls ∧
      (run { r with client, files }).attempts = r.run.attempts ∧ report.SameButVerdicts report') ∧
    ∀ (ω ω' : Type) [Writer ω] [Writer ω'] (sink : ResultSink ω) (sink' : ResultSink ω')
      (hsenders : 0 < r.senders.length) (hrecipients : 0 < r.recipients.length),
      (engine { r with client, files } sink' hsenders hrecipients).shared.calls =
        (r.engine sink hsenders hrecipients).shared.calls ∧
      (engine { r with client, files } sink' hsenders hrecipients).shared.attempts =
        (r.engine sink hsenders hrecipients).shared.attempts ∧
      (r.report (r.engine sink hsenders hrecipients)).SameButVerdicts
        (report { r with client, files } (engine { r with client, files } sink' hsenders hrecipients)) := by
  refine ⟨?_, ?_⟩
  · intro report report' hresult hresult'
    exact r.same_of_ok client htime hresult hresult'
  · intro ω ω' _ _ sink sink' hsenders hrecipients
    have halike := alike_engine htime files sink sink' hsenders hrecipients
    exact ⟨(congrArg Shared.calls halike.shared).symm, (congrArg Shared.attempts halike.shared).symm,
      halike.sameButVerdicts rfl⟩

/-- One client takes both transfers, the other refuses both. -/
theorem RunInput.verdicts_isolated_small :
    ∃ report report', (small (.steady 10 (.ok "a"))).run.result = .ok report ∧
      (small (.steady 10 (.error (.http "no")))).run.result = .ok report' ∧
      report.sent = 2 ∧ report'.errors = 2 ∧
      (small (.steady 10 (.error (.http "no")))).run.calls = (small (.steady 10 (.ok "a"))).run.calls ∧
      report.SameButVerdicts report' := by
  have hsent : ((small (.steady 10 (.ok "a"))).run.result.map (·.sent)).toOption = some 2 := by
    decide +kernel
  have herrors : ((small (.steady 10 (.error (.http "no")))).run.result.map (·.errors)).toOption =
      some 2 := by
    decide +kernel
  obtain ⟨report, hresult, hsent'⟩ := ok_of_map_eq_some hsent
  obtain ⟨report', hresult', herrors'⟩ := ok_of_map_eq_some herrors
  obtain ⟨hcalls, -, hsame⟩ := (verdicts_isolated (small (.steady 10 (.ok "a")))
    (.steady 10 (.error (.http "no"))) (fun _ _ _ => rfl) {}).1 report report' hresult hresult'
  exact ⟨report, report', hresult, hresult', hsent', herrors', hcalls, hsame⟩

end TransferLoad
