import TransferLoad.Proofs.Run.Worker

/-!
# How the engine proceeds

A worker that goes on makes one attempt after the other until it has to wait. The engine lets one
worker go on after the other, and a cancellation ends all waits. This module turns these loops into
rules: what each operation keeps is kept by a turn of a worker, what each turn keeps is kept by the
engine. The bound on the number of steps is large enough, so in the end no worker waits.
-/

namespace TransferLoad

variable {ω : Type}

/-! ### One turn of a worker -/

theorem Worker.left_of_prepare {c : RunContext} {now : Nat} {s s₁ : Shared ω} {w w₁ : Worker}
    {a : Attempt} (hprepare : w.prepare c now s = (a, s₁, w₁)) : w₁.left = w.left - 1 := by
  obtain ⟨intent, selector, -, -, -, rfl⟩ := Worker.prepare_eq hprepare
  simp only [Worker.left]
  omega

theorem Worker.rest_of_some {c : RunContext} {now started due : Nat} {s : Shared ω} {w : Worker}
    (hpause : pauseEnd? c.settings.pacingDelay started now = some due) :
    w.rest c now started s = (false, w.await due .pause s) := by
  rw [Worker.rest, hpause]

theorem Worker.rest_of_none {c : RunContext} {now started : Nat} {s : Shared ω} {w : Worker}
    (hpause : pauseEnd? c.settings.pacingDelay started now = none) :
    w.rest c now started s = (true, s, w) := by
  rw [Worker.rest, hpause]

variable [Writer ω]

theorem Worker.left_conclude (c : RunContext) (now : Nat) (intent : Intent)
    (outcome : SubmissionOutcome) (s : Shared ω) (w : Worker) :
    (w.conclude c now intent outcome s).2.left = w.left := by
  cases outcome <;> rfl

/-- What has to be shown of the operations of a worker so that `P`, which holds before an attempt,
leads to `Q`, which holds when the worker waits or is finished. In between, `A` holds after an answer
to an attempt that was started at some time. -/
structure Worker.TurnRule (c : RunContext) (now : Nat) (P : Shared ω × Worker → Prop)
    (A : Nat → Shared ω × Worker → Prop) (Q : Shared ω × Worker → Prop) : Prop where
  refused : ∀ {s s₁ : Shared ω} {w w₁ : Worker} {a : Attempt} {cause : Failure}, P (s, w) →
    0 < w.left → w.prepare c now s = (a, s₁, w₁) → a.signed = .error cause →
    P (w₁.lose c now a.intent .refused cause.message s₁)
  /-- The node answers at once. -/
  answered : ∀ {s s₁ : Shared ω} {w w₁ : Worker} {a : Attempt} {payload : SignedPayload}, P (s, w) →
    0 < w.left → w.prepare c now s = (a, s₁, w₁) → a.signed = .ok payload →
    (c.client.submit s₁.calls now payload).latency = 0 →
    A now (w₁.conclude c now a.intent (.ofAnswer (c.client.submit s₁.calls now payload).answer)
      (s₁.submit now payload))
  /-- The node takes its time. -/
  departed : ∀ {s s₁ : Shared ω} {w w₁ : Worker} {a : Attempt} {payload : SignedPayload}, P (s, w) →
    0 < w.left → w.prepare c now s = (a, s₁, w₁) → a.signed = .ok payload →
    (c.client.submit s₁.calls now payload).latency ≠ 0 →
    Q (w₁.await (now + (c.client.submit s₁.calls now payload).latency)
      (.answer a.intent now (.ofAnswer (c.client.submit s₁.calls now payload).answer))
      (s₁.submit now payload))
  paused : ∀ {s : Shared ω} {w : Worker} {started due : Nat}, A started (s, w) →
    pauseEnd? c.settings.pacingDelay started now = some due → Q (w.await due .pause s)
  goesOn : ∀ {s : Shared ω} {w : Worker} {started : Nat}, A started (s, w) →
    pauseEnd? c.settings.pacingDelay started now = none → P (s, w)
  done : ∀ {s : Shared ω} {w : Worker}, P (s, w) → w.left = 0 → Q (s, { w with wait := none })

section

variable {c : RunContext} {now : Nat} {P Q : Shared ω × Worker → Prop}
  {A : Nat → Shared ω × Worker → Prop}

theorem Worker.TurnRule.rest (hrule : Worker.TurnRule c now P A Q) {s : Shared ω} {w : Worker}
    {started : Nat} (hanswered : A started (s, w)) :
    (∃ p, w.rest c now started s = (false, p) ∧ Q p) ∨
      w.rest c now started s = (true, s, w) ∧ P (s, w) := by
  cases hpause : pauseEnd? c.settings.pacingDelay started now with
  | none => exact Or.inr ⟨Worker.rest_of_none hpause, hrule.goesOn hanswered hpause⟩
  | some due => exact Or.inl ⟨_, Worker.rest_of_some hpause, hrule.paused hanswered hpause⟩

theorem Worker.TurnRule.attempt (hrule : Worker.TurnRule c now P A Q) {s : Shared ω} {w : Worker}
    (hready : P (s, w)) (hleft : 0 < w.left) :
    (∃ p, w.attempt c now s = (false, p) ∧ Q p) ∨
      ∃ s' w', w.attempt c now s = (true, s', w') ∧ P (s', w') ∧ w'.left = w.left - 1 := by
  rcases hprepare : w.prepare c now s with ⟨a, s₁, w₁⟩
  have hleft₁ := Worker.left_of_prepare hprepare
  cases hsigned : a.signed with
  | error cause =>
    have hattempt : w.attempt c now s = (true, w₁.lose c now a.intent .refused cause.message s₁) := by
      simp only [Worker.attempt, hprepare, hsigned]
    exact Or.inr ⟨_, _, hattempt, hrule.refused hready hleft hprepare hsigned, hleft₁⟩
  | ok payload =>
    by_cases hlatency : (c.client.submit s₁.calls now payload).latency = 0
    · have hanswered := hrule.answered hready hleft hprepare hsigned hlatency
      rcases hconclude : w₁.conclude c now a.intent
        (.ofAnswer (c.client.submit s₁.calls now payload).answer) (s₁.submit now payload) with ⟨s₂, w₂⟩
      have hleft₂ := Worker.left_conclude c now a.intent
        (.ofAnswer (c.client.submit s₁.calls now payload).answer) (s₁.submit now payload) w₁
      rw [hconclude] at hanswered hleft₂
      have hattempt : w.attempt c now s = w₂.rest c now now s₂ := by
        simp only [Worker.attempt, hprepare, hsigned, hlatency, if_true, hconclude]
      rw [hattempt]
      rcases hrule.rest hanswered with hwaits | ⟨hgoes, hready'⟩
      · exact Or.inl hwaits
      · exact Or.inr ⟨s₂, w₂, hgoes, hready', hleft₂.trans hleft₁⟩
    · have hdeparted := hrule.departed hready hleft hprepare hsigned hlatency
      refine Or.inl ⟨_, ?_, hdeparted⟩
      simp only [Worker.attempt, hprepare, hsigned, if_neg hlatency]

theorem Worker.TurnRule.proceed (hrule : Worker.TurnRule c now P A Q) {s : Shared ω} {w : Worker}
    (hready : P (s, w)) : Q (w.proceed c now w.left s) := by
  induction hleft : w.left generalizing s w with
  | zero => exact hrule.done hready hleft
  | succ left ih =>
    rw [Worker.proceed]
    rcases hrule.attempt hready (by omega : 0 < w.left) with
      ⟨p, hattempt, hwaits⟩ | ⟨s', w', hattempt, hready', hleft'⟩
    · rw [hattempt]
      exact hwaits
    · rw [hattempt]
      exact ih hready' (by omega)

theorem Worker.TurnRule.resume_answer (hrule : Worker.TurnRule c now P A Q) {s : Shared ω}
    {w : Worker} {intent : Intent} {outcome : SubmissionOutcome} (started : Nat)
    (hanswered : A started (w.conclude c now intent outcome s)) :
    Q (w.resume c now (.answer intent started outcome) s) := by
  rcases hconclude : w.conclude c now intent outcome s with ⟨s₁, w₁⟩
  rw [hconclude] at hanswered
  rcases hrule.rest hanswered with ⟨p, hrest, hwaits⟩ | ⟨hgoes, hready⟩
  · have hresume : w.resume c now (.answer intent started outcome) s = p := by
      simp only [Worker.resume, hconclude, hrest]
    rw [hresume]
    exact hwaits
  · have hresume : w.resume c now (.answer intent started outcome) s = w₁.proceed c now w₁.left s₁ := by
      simp only [Worker.resume, hconclude, hgoes]
    rw [hresume]
    exact hrule.proceed hready

end

/-! ### Which wait ends first -/

theorem earliest?_eq_none {workers : List Worker} {index : Nat} (hnone : earliest? index workers = none) :
    ∀ w ∈ workers, w.wait = none := by
  induction workers generalizing index with
  | nil => simp
  | cons w rest ih =>
    rw [earliest?] at hnone
    cases hwait : w.wait with
    | none =>
      simp only [hwait] at hnone
      simpa [hwait] using ih hnone
    | some wait =>
      simp only [hwait] at hnone
      split at hnone
      · contradiction
      · cases hnone
      · split at hnone <;> cases hnone

theorem Wait.due_le_of_endsBefore {first second : Wait} (hbefore : first.endsBefore second = true) :
    first.due ≤ second.due := by
  simp only [Wait.endsBefore, Bool.or_eq_true, Bool.and_eq_true, decide_eq_true_eq] at hbefore
  omega

theorem Wait.due_le_of_not_endsBefore {first second : Wait} (hbefore : ¬ first.endsBefore second = true) :
    second.due ≤ first.due := by
  simp only [Wait.endsBefore, Bool.or_eq_true, Bool.and_eq_true, decide_eq_true_eq] at hbefore
  omega

/-- The wait that ends first belongs to the worker at its position, and no other ends before it. -/
theorem earliest?_eq_some {workers : List Worker} {index position : Nat} {wait : Wait}
    (hsome : earliest? index workers = some (position, wait)) :
    (∃ k w, position = index + k ∧ workers[k]? = some w ∧ w.wait = some wait) ∧
      ∀ w ∈ workers, ∀ other, w.wait = some other → wait.due ≤ other.due := by
  induction workers generalizing index position wait with
  | nil => cases hsome
  | cons w rest ih =>
    rw [earliest?] at hsome
    cases hwait : w.wait with
    | none =>
      simp only [hwait] at hsome
      obtain ⟨⟨k, v, rfl, hv, hvwait⟩, hfirst⟩ := ih hsome
      refine ⟨⟨k + 1, v, by omega, hv, hvwait⟩, List.forall_mem_cons.mpr ⟨?_, hfirst⟩⟩
      intro other hother
      rw [hwait] at hother
      cases hother
    | some own =>
      have hown : ∀ due, due ≤ own.due → ∀ other, w.wait = some other → due ≤ other.due := by
        intro due hdue other hother
        rw [hwait] at hother
        cases hother
        exact hdue
      cases hlater : earliest? (index + 1) rest with
      | none =>
        simp only [hwait, hlater, Option.some.injEq, Prod.mk.injEq] at hsome
        obtain ⟨rfl, rfl⟩ := hsome
        refine ⟨⟨0, w, rfl, rfl, hwait⟩, List.forall_mem_cons.mpr ⟨hown _ (Nat.le_refl _), ?_⟩⟩
        intro v hv other hother
        rw [earliest?_eq_none hlater v hv] at hother
        cases hother
      | some found =>
        obtain ⟨i, later⟩ := found
        obtain ⟨⟨k, v, hi, hv, hvwait⟩, hfirst⟩ := ih hlater
        simp only [hwait, hlater] at hsome
        by_cases hbefore : later.endsBefore own
        · rw [if_pos hbefore] at hsome
          cases hsome
          have hdue := Wait.due_le_of_endsBefore hbefore
          exact ⟨⟨k + 1, v, by omega, hv, hvwait⟩, List.forall_mem_cons.mpr ⟨hown _ hdue, hfirst⟩⟩
        · rw [if_neg hbefore] at hsome
          cases hsome
          have hdue := Wait.due_le_of_not_endsBefore hbefore
          refine ⟨⟨0, w, rfl, rfl, hwait⟩, List.forall_mem_cons.mpr ⟨hown _ (Nat.le_refl _), ?_⟩⟩
          intro v hv other hother
          exact Nat.le_trans hdue (hfirst v hv other hother)

/-! ### The open waits -/

theorem mem_openWaits {workers : List Worker} {index : Nat} {wait : Wait} :
    (index, wait) ∈ openWaits workers ↔ ∃ w, workers[index]? = some w ∧ w.wait = some wait := by
  simp only [openWaits, List.mem_mergeSort, List.mem_filterMap, Option.map_eq_some_iff,
    Prod.mk.injEq, Prod.exists]
  constructor
  · rintro ⟨w, i, hmem, found, hwait, rfl, rfl⟩
    exact ⟨w, List.mem_zipIdx_iff_getElem?.mp hmem, hwait⟩
  · rintro ⟨w, hw, hwait⟩
    exact ⟨w, index, List.mem_zipIdx_iff_getElem?.mpr hw, wait, hwait, rfl, rfl⟩

theorem openWaits_positions_nodup (workers : List Worker) :
    ((openWaits workers).map Prod.fst).Nodup := by
  refine ((List.mergeSort_perm _ _).map Prod.fst).nodup_iff.mpr ?_
  refine List.pairwise_map.mpr (List.pairwise_filterMap.mpr ?_)
  have hpositions : (workers.zipIdx.map Prod.snd).Nodup := by
    rw [List.zipIdx_map_snd]
    exact List.nodup_range'
  refine (List.pairwise_map.mp hpositions).imp ?_
  rintro ⟨w, i⟩ ⟨v, j⟩ hne first hfirst second hsecond
  obtain ⟨_, -, rfl⟩ := Option.map_eq_some_iff.mp hfirst
  obtain ⟨_, -, rfl⟩ := Option.map_eq_some_iff.mp hsecond
  exact hne

theorem closingWaits_perm (time : Nat) (workers : List Worker) :
    (closingWaits time workers).Perm (openWaits workers) := by
  simp only [closingWaits, List.partition_eq_filter_filter]
  exact List.filter_append_perm _ _

/-! ### Rules for the loops of the engine -/

namespace Engine

variable {c : RunContext} {reporter : Option Reporter} {P : Engine ω → Prop}

omit [Writer ω] in
/-- A step of the worker at a position leaves the workers before and after it as they are. -/
theorem update_split {e : Engine ω} {index : Nat} {w : Worker} (hw : e.workers[index]? = some w) :
    ∃ before after, e.workers = before ++ w :: after ∧ before.length = index ∧ ∀ step,
      e.update index step =
        { e with
          shared := (step e.shared w).1
          workers := before ++ (step e.shared w).2 :: after } := by
  obtain ⟨hindex, rfl⟩ := List.getElem?_eq_some_iff.mp hw
  refine ⟨e.workers.take index, e.workers.drop (index + 1), ?_, ?_, fun step => ?_⟩
  · rw [← List.drop_eq_getElem_cons hindex, List.take_append_drop]
  · exact List.length_take_of_le (Nat.le_of_lt hindex)
  · simp only [update, hw, List.set_eq_take_append_cons_drop, if_pos hindex]

/-- What every end of a wait keeps is kept until the run is cancelled. -/
theorem advance_keeps
    (hwake : ∀ {e : Engine ω} {before after : List Worker} {w : Worker} {wait : Wait}, P e →
      e.workers = before ++ w :: after → w.wait = some wait →
      (∀ v ∈ e.workers, ∀ other, v.wait = some other → wait.due ≤ other.due) →
      c.isLiveAt wait.due = true →
      P { e.moveTo reporter wait.due with
          shared := (w.resume c wait.due wait.errand e.shared).1
          workers := before ++ (w.resume c wait.due wait.errand e.shared).2 :: after })
    (steps : Nat) {e : Engine ω} (hstart : P e) : P (e.advance c reporter steps) := by
  induction steps generalizing e with
  | zero => exact hstart
  | succ steps ih =>
    rw [advance]
    split
    · exact hstart
    · rename_i index wait hearliest
      split
      · rename_i hlive
        obtain ⟨⟨k, w, rfl, hw, hwait⟩, hfirst⟩ := earliest?_eq_some hearliest
        rw [Nat.zero_add]
        obtain ⟨before, after, hsplit, -, hupdate⟩ :=
          update_split (e := e.moveTo reporter wait.due) hw
        apply ih
        rw [wake, hupdate]
        exact hwake hstart hsplit hwait hfirst hlive
      · exact hstart

/-- Closing some waits of different workers keeps what closing one of them keeps. -/
theorem foldl_close_keeps {time : Nat}
    (hstop : ∀ {e : Engine ω} {before after : List Worker} {w : Worker} {wait : Wait}, P e →
      e.workers = before ++ w :: after → w.wait = some wait →
      P { e with
          shared := (w.stop c time wait e.shared).1
          workers := before ++ (w.stop c time wait e.shared).2 :: after })
    {waits : List (Nat × Wait)} {e : Engine ω} (hdistinct : (waits.map Prod.fst).Nodup)
    (hopen : ∀ x ∈ waits, ∃ w, e.workers[x.1]? = some w ∧ w.wait = some x.2) (hstart : P e) :
    P (waits.foldl (close c time) e) := by
  induction waits generalizing e with
  | nil => exact hstart
  | cons x rest ih =>
    obtain ⟨w, hw, hwait⟩ := hopen x List.mem_cons_self
    obtain ⟨hnew, hrest⟩ := List.nodup_cons.mp hdistinct
    obtain ⟨before, after, hsplit, hlength, hupdate⟩ := update_split hw
    have hclose : close c time e x =
        { e with
          shared := (w.stop c time x.2 e.shared).1
          workers := before ++ (w.stop c time x.2 e.shared).2 :: after } := hupdate _
    rw [List.foldl_cons, hclose]
    refine ih hrest (fun y hy => ?_) (hstop hstart hsplit hwait)
    obtain ⟨v, hv, hvwait⟩ := hopen y (List.mem_cons_of_mem x hy)
    refine ⟨v, ?_, hvwait⟩
    have hne : y.1 ≠ before.length := by
      rw [hlength]
      intro heq
      exact hnew (heq ▸ List.mem_map_of_mem hy)
    rw [hsplit] at hv
    rcases Nat.lt_or_gt_of_ne hne with hbefore | hafter
    · rwa [List.getElem?_append_left hbefore] at hv ⊢
    · rw [List.getElem?_append_right (Nat.le_of_lt hafter)] at hv ⊢
      obtain ⟨k, hk⟩ : ∃ k, y.1 - before.length = k + 1 := ⟨y.1 - before.length - 1, by omega⟩
      rwa [hk, List.getElem?_cons_succ] at hv ⊢

theorem interrupt_keeps {time : Nat}
    (hstop : ∀ {e : Engine ω} {before after : List Worker} {w : Worker} {wait : Wait}, P e →
      e.workers = before ++ w :: after → w.wait = some wait →
      P { e with
          shared := (w.stop c time wait e.shared).1
          workers := before ++ (w.stop c time wait e.shared).2 :: after })
    {e : Engine ω} (hstart : P (e.moveTo reporter time)) : P (e.interrupt c reporter time) := by
  have hperm := closingWaits_perm time e.workers
  refine foldl_close_keeps hstop ?_ (fun x hx => ?_) hstart
  · exact (hperm.map Prod.fst).nodup_iff.mpr (openWaits_positions_nodup e.workers)
  · exact mem_openWaits.mp (hperm.mem_iff.mp hx)

theorem startAll_keeps {P : Shared ω → List Worker → List Worker → Prop}
    (hstart : ∀ {s : Shared ω} {started rest : List Worker} {w : Worker}, P s started (w :: rest) →
      P (w.start c s).1 (started ++ [(w.start c s).2]) rest)
    {s : Shared ω} {started rest : List Worker} (hbefore : P s started rest) :
    P (startAll c s rest).1 (started ++ (startAll c s rest).2) [] := by
  induction rest generalizing s started with
  | nil => simpa only [startAll, List.append_nil] using hbefore
  | cons w rest ih =>
    have hall := ih (hstart hbefore)
    rwa [List.append_assoc, List.singleton_append] at hall

end Engine

/-! ### Every run comes to its end -/

theorem RunContext.isLiveAt_iff {c : RunContext} {time : Nat} :
    c.isLiveAt time = true ↔ ∀ stop, c.cancelAt = some stop → time < stop := by
  unfold RunContext.isLiveAt
  cases c.cancelAt <;> simp

theorem RunContext.isLiveAt_of_le {c : RunContext} {earlier later : Nat} (hle : earlier ≤ later)
    (hlive : c.isLiveAt later = true) : c.isLiveAt earlier = true := by
  rw [RunContext.isLiveAt_iff] at hlive ⊢
  intro stop hstop
  exact Nat.lt_of_le_of_lt hle (hlive stop hstop)

/-- A turn that starts with an attempt, for `k = 1`, or with an answer, for `k = 0`, uses up waits. -/
theorem Worker.potential_turn (c : RunContext) (now n : Nat) {k : Nat} (hk : k ≤ 1) :
    Worker.TurnRule (ω := ω) c now (fun p => p.2.left ≤ n) (fun _ p => p.2.left + k ≤ n)
      (fun p => p.2.potential + k ≤ 2 * n + 1) where
  refused := by
    intro s s₁ w w₁ a cause hleft _ hprepare _
    have hleft₁ := Worker.left_of_prepare hprepare
    change w₁.left ≤ n
    change w.left ≤ n at hleft
    omega
  answered := by
    intro s s₁ w w₁ a payload hleft hpos hprepare _ _
    have hleft₁ := Worker.left_of_prepare hprepare
    change w.left ≤ n at hleft
    rw [Worker.left_conclude]
    omega
  departed := by
    intro s s₁ w w₁ a payload hleft hpos hprepare _ _
    have hleft₁ := Worker.left_of_prepare hprepare
    change w.left ≤ n at hleft
    change 2 * w₁.left + 2 + k ≤ _
    omega
  paused := by
    intro s w started due hleft _
    change w.left + k ≤ n at hleft
    change 2 * w.left + 1 + k ≤ _
    omega
  goesOn := by
    intro s w started hleft _
    change w.left + k ≤ n at hleft
    change w.left ≤ n
    omega
  done := by
    intro s w _ _
    change 0 + k ≤ _
    omega

theorem Worker.potential_resume_lt (c : RunContext) (now : Nat) (s : Shared ω) {w : Worker} {wait : Wait}
    (hwait : w.wait = some wait) :
    (w.resume c now wait.errand s).2.potential < w.potential := by
  cases herrand : wait.errand with
  | pause =>
    have hpotential : w.potential = 2 * w.left + 1 := by
      simp only [Worker.potential, hwait, herrand]
    have hturn := (Worker.potential_turn (ω := ω) c now w.left (Nat.le_refl 1)).proceed (s := s) (w := w)
      (Nat.le_refl _)
    change (w.proceed c now w.left s).2.potential < _
    omega
  | answer intent started outcome =>
    have hpotential : w.potential = 2 * w.left + 2 := by
      simp only [Worker.potential, hwait, herrand]
    have hanswered : (w.conclude c now intent outcome s).2.left + 0 ≤ w.left :=
      Nat.le_of_eq (Worker.left_conclude c now intent outcome s w)
    have hturn := (Worker.potential_turn c now w.left (Nat.zero_le 1)).resume_answer started hanswered
    omega

theorem Worker.potential_pos {w : Worker} {wait : Wait} (hwait : w.wait = some wait) :
    0 < w.potential := by
  cases herrand : wait.errand <;> simp only [Worker.potential, hwait, herrand] <;> omega

theorem Worker.wait_stop (c : RunContext) (now : Nat) (wait : Wait) (s : Shared ω) (w : Worker) :
    (w.stop c now wait s).2.wait = none := by
  unfold Worker.stop
  split
  · rfl
  · split <;> rfl

namespace Engine

variable {c : RunContext} {reporter : Option Reporter}

omit [Writer ω] in
theorem potential_split {e : Engine ω} {before after : List Worker} {w : Worker}
    (hsplit : e.workers = before ++ w :: after) :
    e.potential =
      (before.map Worker.potential).sum + (w.potential + (after.map Worker.potential).sum) := by
  change (e.workers.map Worker.potential).sum = _
  rw [hsplit, List.map_append, List.map_cons, List.sum_append, List.sum_cons]

/-- The waits that are left end when the run is cancelled or later. -/
def WaitsLate (c : RunContext) (e : Engine ω) : Prop :=
  ∀ w ∈ e.workers, ∀ wait, w.wait = some wait → c.isLiveAt wait.due = false

theorem waitsLate_advance {steps : Nat} {e : Engine ω} (hsteps : e.potential ≤ steps) :
    WaitsLate c (e.advance c reporter steps) := by
  induction steps generalizing e with
  | zero =>
    intro w hw wait hwait
    obtain ⟨before, after, hsplit⟩ := List.append_of_mem hw
    have hpotential := Worker.potential_pos hwait
    change e.workers = _ at hsplit
    rw [potential_split hsplit] at hsteps
    omega
  | succ steps ih =>
    rw [advance]
    cases hearliest : earliest? 0 e.workers with
    | none =>
      intro w hw wait hwait
      rw [earliest?_eq_none hearliest w hw] at hwait
      cases hwait
    | some found =>
      obtain ⟨index, wait⟩ := found
      obtain ⟨⟨k, w, rfl, hw, hwait⟩, hfirst⟩ := earliest?_eq_some hearliest
      rw [Nat.zero_add]
      dsimp only
      split
      · obtain ⟨before, after, hsplit, -, hupdate⟩ :=
          update_split (e := e.moveTo reporter wait.due) hw
        have hless := w.potential_resume_lt c wait.due e.shared hwait
        have hpotential : (e.wake c reporter k wait).potential < e.potential := by
          rw [wake, hupdate, potential_split (e := e) hsplit]
          exact (potential_split rfl).trans_lt (Nat.add_lt_add_left (Nat.add_lt_add_right hless _) _)
        exact ih (by omega)
      · rename_i hlate
        intro v hv other hother
        rw [← Bool.not_eq_true]
        intro hlive
        exact hlate (RunContext.isLiveAt_of_le (hfirst v hv other hother) hlive)

/-- Closing waits leaves only workers open whose positions are not among them. -/
theorem wait_foldl_close {time : Nat} (waits : List (Nat × Wait)) (e : Engine ω) {index : Nat} {w : Worker}
    (hw : (waits.foldl (close c time) e).workers[index]? = some w) (hopen : w.wait ≠ none) :
    index ∉ waits.map Prod.fst ∧ e.workers[index]? = some w := by
  induction waits generalizing e with
  | nil => exact ⟨List.not_mem_nil, hw⟩
  | cons x rest ih =>
    obtain ⟨hrest, hclosed⟩ := ih _ hw
    rw [close, update] at hclosed
    cases hx : e.workers[x.1]? with
    | none =>
      simp only [hx] at hclosed
      refine ⟨?_, hclosed⟩
      rw [List.map_cons, List.mem_cons, not_or]
      refine ⟨fun heq => ?_, hrest⟩
      rw [heq, hx] at hclosed
      cases hclosed
    | some v =>
      simp only [hx] at hclosed
      by_cases heq : index = x.1
      · have hlt := (List.getElem?_eq_some_iff.mp hx).1
        rw [heq, List.getElem?_set_self hlt, Option.some.injEq] at hclosed
        exact absurd (hclosed ▸ Worker.wait_stop c time x.2 e.shared v) hopen
      · rw [List.getElem?_set_ne (Ne.symm heq)] at hclosed
        refine ⟨?_, hclosed⟩
        rw [List.map_cons, List.mem_cons, not_or]
        exact ⟨heq, hrest⟩

theorem wait_interrupt {time : Nat} (e : Engine ω) :
    ∀ w ∈ (e.interrupt c reporter time).workers, w.wait = none := by
  intro w hw
  by_contra hopen
  obtain ⟨index, hindex⟩ := List.mem_iff_getElem?.mp hw
  obtain ⟨hclosed, hbefore⟩ := wait_foldl_close _ _ hindex hopen
  obtain ⟨wait, hwait⟩ := Option.ne_none_iff_exists'.mp hopen
  apply hclosed
  have hmem : (index, wait) ∈ closingWaits time e.workers :=
    (closingWaits_perm time e.workers).mem_iff.mpr (mem_openWaits.mpr ⟨w, hbefore, hwait⟩)
  exact List.mem_map_of_mem hmem

/-- A run is cancelled if one of its workers still waits and there is a time for that. -/
theorem finish_cases (c : RunContext) (reporter : Option Reporter) (e : Engine ω) :
    (e.finish c reporter = e ∧ (c.cancelAt = none ∨ ∀ w ∈ e.workers, w.wait = none)) ∨
      ∃ time, c.cancelAt = some time ∧ e.finish c reporter = e.interrupt c reporter time := by
  unfold finish
  split
  · rename_i hcancel
    exact Or.inl ⟨rfl, Or.inl hcancel⟩
  · rename_i time hcancel
    split
    · exact Or.inr ⟨time, hcancel, rfl⟩
    · rename_i hidle
      refine Or.inl ⟨rfl, Or.inr fun w hw => ?_⟩
      by_contra hwait
      exact hidle (List.any_eq_true.mpr ⟨w, hw, Option.isSome_iff_ne_none.mpr hwait⟩)

/-- What every end of a wait keeps, and every stop of a worker whose wait ends too late, is kept by the
whole run. -/
theorem run_keeps {P : Engine ω → Prop} {s : Shared ω} {workers : List Worker}
    (hmove : ∀ {e : Engine ω} time, P e → P (e.moveTo reporter time))
    (hwake : ∀ {e : Engine ω} {before after : List Worker} {w : Worker} {wait : Wait}, P e →
      e.workers = before ++ w :: after → w.wait = some wait → c.isLiveAt wait.due = true →
      P { e with
          shared := (w.resume c wait.due wait.errand e.shared).1
          workers := before ++ (w.resume c wait.due wait.errand e.shared).2 :: after })
    (hstop : ∀ {time : Nat}, c.cancelAt = some time → ∀ {e : Engine ω} {before after : List Worker}
      {w : Worker} {wait : Wait}, P e → e.workers = before ++ w :: after → w.wait = some wait →
      c.isLiveAt wait.due = false →
      P { e with
          shared := (w.stop c time wait e.shared).1
          workers := before ++ (w.stop c time wait e.shared).2 :: after })
    (hstart : P (start c s workers)) : P (run c reporter s workers) := by
  have hadvanced : P ((start c s workers).advance c reporter (start c s workers).potential) :=
    advance_keeps (fun hP hsplit hwait _ hlive => hwake (hmove _ hP) hsplit hwait hlive) _ hstart
  rw [run]
  rcases finish_cases (ω := ω) c reporter _ with ⟨hfinish, -⟩ | ⟨time, hcancel, hfinish⟩
  · rw [hfinish]
    exact hadvanced
  · rw [hfinish]
    refine (interrupt_keeps (P := fun e => P e ∧ WaitsLate c e) ?_
      ⟨hmove time hadvanced, waitsLate_advance (Nat.le_refl _)⟩).1
    intro e before after w wait ⟨hP, hlate⟩ hsplit hwait
    rw [WaitsLate, hsplit] at hlate
    refine ⟨hstop hcancel hP hsplit hwait (hlate w (by simp) wait hwait), ?_⟩
    refine forall_mem_replace hlate fun other hother => ?_
    rw [w.wait_stop] at hother
    cases hother

theorem wait_run (c : RunContext) (reporter : Option Reporter) (s : Shared ω) (workers : List Worker) :
    ∀ w ∈ (run c reporter s workers).workers, w.wait = none := by
  have hlate : WaitsLate c ((start c s workers).advance c reporter (start c s workers).potential) :=
    waitsLate_advance (Nat.le_refl _)
  unfold run
  rcases finish_cases c reporter ((start c s workers).advance c reporter (start c s workers).potential) with
    ⟨hfinish, hcancel | hidle⟩ | ⟨time, -, hfinish⟩
  · rw [hfinish]
    intro w hw
    by_contra hopen
    obtain ⟨wait, hwait⟩ := Option.ne_none_iff_exists'.mp hopen
    have hlive : c.isLiveAt wait.due = true := by
      rw [RunContext.isLiveAt_iff, hcancel]
      simp
    rw [hlate w hw wait hwait] at hlive
    cases hlive
  · rw [hfinish]
    exact hidle
  · rw [hfinish]
    exact wait_interrupt _

end Engine

end TransferLoad
