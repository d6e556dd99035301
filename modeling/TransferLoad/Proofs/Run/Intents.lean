import TransferLoad.Proofs.Run.Sequences

/-!
# The intents of a run

An intent is built from the settings, from the number of attempts that its worker has made, which says
which recipient comes next, and from the number of attempts that have been made for its sender. What has
become of these attempts makes no difference, nor does what the other workers do in between. The node is
handed nothing but what was signed for an attempt.
-/

namespace TransferLoad

/-! ### One attempt after the other -/

/-- Each attempt is as it should be in view of the attempts before it; the latest comes first. -/
def EachAttempt (P : List Attempt → Attempt → Prop) (attempts : List Attempt) : Prop :=
  ∀ later a earlier, attempts = later ++ a :: earlier → P earlier a

section

variable {P : List Attempt → Attempt → Prop} {a : Attempt} {attempts earlier : List Attempt}

theorem eachAttempt_nil : EachAttempt P [] := by
  intro later a earlier heq
  cases later <;> cases heq

theorem eachAttempt_cons : EachAttempt P (a :: earlier) ↔ P earlier a ∧ EachAttempt P earlier := by
  constructor
  · intro hall
    refine ⟨hall [] a earlier rfl, fun later b before heq => ?_⟩
    exact hall (a :: later) b before (congrArg (a :: ·) heq)
  · rintro ⟨hlast, hall⟩ later b before heq
    cases later with
    | nil =>
      cases heq
      exact hlast
    | cons c later =>
      cases heq
      exact hall later b before rfl

theorem EachAttempt.exists_of_mem (hall : EachAttempt P attempts) (hmem : a ∈ attempts) :
    ∃ earlier, P earlier a := by
  obtain ⟨later, earlier, hsplit⟩ := List.append_of_mem hmem
  exact ⟨earlier, hall later a earlier hsplit⟩

end

/-- The attempts of one worker. -/
def attemptsOf (worker : Nat) (attempts : List Attempt) : List Attempt := attempts.filter (·.worker = worker)

theorem attemptsOf_cons_of_eq {worker : Nat} {a : Attempt} (heq : a.worker = worker) (earlier : List Attempt) :
    attemptsOf worker (a :: earlier) = a :: attemptsOf worker earlier :=
  List.filter_cons_of_pos (decide_eq_true heq)

theorem attemptsOf_cons_of_ne {worker : Nat} {a : Attempt} (hne : a.worker ≠ worker) (earlier : List Attempt) :
    attemptsOf worker (a :: earlier) = attemptsOf worker earlier :=
  List.filter_cons_of_neg (by simpa using hne)

/-! ### Picks -/

/-- The selector of a worker when it has picked so many recipients. -/
def RecipientSelector.after (s : RecipientSelector) (worker recipients : Nat) : Nat → RecipientSelector
  | 0 => s
  | picks + 1 => ((s.after worker recipients picks).pick worker picks recipients).2

namespace RunInput

/-- How a worker picks its next recipient when it has made so many attempts. -/
def selector (r : RunInput) (worker attempts : Nat) : RecipientSelector :=
  (RecipientSelector.ofPolicy r.settings.recipientPolicy r.seed worker).after worker r.recipients.length attempts

/-- The position of the recipient of a worker's attempt with the given number. -/
def picked (r : RunInput) (worker attempt : Nat) : Nat :=
  ((r.selector worker attempt).pick worker attempt r.recipients.length).1

/-- The intent that a worker builds for an account after some attempts. -/
structure Built (r : RunInput) (account : Account) (earlier : List Attempt) (worker : Nat) (intent : Intent) :
    Prop where
  seat : r.senders[worker % r.senders.length]? = some account
  sender : intent.sender = account.address
  recipient : r.recipients[r.picked worker (attemptsOf worker earlier).length]? = some intent.recipient
  amount : intent.amount = r.settings.amount
  feePrice : intent.feePrice = r.settings.feePrice
  sequence : intent.sequence = account.sequence.next +
    UInt64.ofNat (attemptsAt r.senders.length (worker % r.senders.length) earlier).length
  chainId : intent.chainId = r.settings.chainId

/-- An attempt whose intent was built and then signed with the key of its sender. -/
def Drawn (r : RunInput) (earlier : List Attempt) (a : Attempt) : Prop :=
  ∃ account, r.Built account earlier a.worker a.intent ∧ a.signed = r.signer a.intent account.key

end RunInput

/-! ### What a step builds -/

variable {ω : Type}

/-- The whole of an attempt that a worker draws up, and what it moves on. -/
structure Worker.Draws (c : RunContext) (s : Shared ω) (w : Worker) (a : Attempt) (w' : Worker) : Prop where
  worker : a.worker = w.summary.id
  signed : a.signed = c.signer a.intent w.key
  sender : a.intent.sender = w.address
  recipient : c.recipients[(w.selector.pick w.summary.id w.summary.attempted c.recipients.length).1]? =
    some a.intent.recipient
  amount : a.intent.amount = c.settings.amount
  feePrice : a.intent.feePrice = c.settings.feePrice
  sequence : a.intent.sequence = (s.counters.getD w.sender {}).next
  chainId : a.intent.chainId = c.settings.chainId
  selector : w'.selector = (w.selector.pick w.summary.id w.summary.attempted c.recipients.length).2
  attempted : w'.summary.attempted = w.summary.attempted + 1

theorem Worker.draws_of_prepare {c : RunContext} {now : Nat} {s s₁ : Shared ω} {w w₁ : Worker} {a : Attempt}
    (hprepare : w.prepare c now s = (a, s₁, w₁)) : w.Draws c s a w₁ := by
  simp only [Worker.prepare, Worker.intend, Shared.draw, Prod.mk.injEq] at hprepare
  obtain ⟨rfl, -, rfl⟩ := hprepare
  exact ⟨rfl, rfl, rfl, List.getElem?_eq_getElem _, rfl, rfl, rfl, rfl, rfl, rfl⟩

variable [Writer ω]

/-- A step draws up an attempt and holds it, or it draws nothing, and then it hands over nothing but what
was signed for an attempt that is held. -/
theorem Thread.Step.builds {c : RunContext} {cancelled : Bool} {s s' : Shared ω} {t t' : Thread}
    (hstep : Thread.Step c cancelled s t s' t') :
    (∃ a, t.worker.Draws c s a t'.worker ∧ s'.attempts = a :: s.attempts ∧ s'.calls = s.calls ∧
      t'.phase = .holding a) ∨
    (s'.attempts = s.attempts ∧ t'.worker.selector = t.worker.selector ∧
      t'.worker.summary.attempted = t.worker.summary.attempted ∧
      (∀ a, t'.phase = .holding a → t.phase = .holding a) ∧
      (s'.calls = s.calls ∨ ∃ a now payload, t.phase = .holding a ∧ a.signed = .ok payload ∧
        s'.calls = ⟨now, .submission payload⟩ :: s.calls)) := by
  cases hstep with
  | draw now hprepare =>
    obtain ⟨intent, selector, -, -, hs, -⟩ := Worker.prepare_eq hprepare
    exact Or.inl ⟨_, Worker.draws_of_prepare hprepare, by rw [hs], by rw [hs], rfl⟩
  | @refuse w a cause now hsigned =>
    obtain ⟨notices, hlose⟩ := w.lose_eq c now a.intent .refused cause.message s
    rw [hlose]
    exact Or.inr ⟨rfl, rfl, rfl, by rintro _ ⟨⟩, Or.inl rfl⟩
  | @submit w a payload now hsigned =>
    exact Or.inr ⟨rfl, rfl, rfl, by rintro _ ⟨⟩, Or.inr ⟨a, now, payload, rfl, hsigned, rfl⟩⟩
  | @accept w intent identifier now =>
    obtain ⟨notices, hgain⟩ := w.gain_eq c now intent identifier s
    rw [hgain]
    exact Or.inr ⟨rfl, rfl, rfl, by rintro _ ⟨⟩, Or.inl rfl⟩
  | @reject w intent reason now =>
    obtain ⟨notices, hlose⟩ := w.lose_eq c now intent (.rejected reason) reason s
    rw [hlose]
    exact Or.inr ⟨rfl, rfl, rfl, by rintro _ ⟨⟩, Or.inl rfl⟩
  | @abandon w intent outcome now hcancelled =>
    obtain ⟨notices, hlose⟩ :=
      w.lose_eq c now intent .abandoned "submission abandoned on shutdown" s
    rw [Worker.abandon, hlose]
    exact Or.inr ⟨rfl, rfl, rfl, by rintro _ ⟨⟩, Or.inl rfl⟩
  | await due errand => exact Or.inr ⟨rfl, rfl, rfl, fun _ hphase => hphase, Or.inl rfl⟩
  | _ => exact Or.inr ⟨rfl, rfl, rfl, by rintro _ ⟨⟩, Or.inl rfl⟩

/-! ### What holds of all workers -/

/-- A worker knows which recipient comes next, and the attempt that it holds is one of the run. -/
structure Thread.Building (r : RunInput) (attempts : List Attempt) (t : Thread) : Prop where
  seat : ∃ account, r.senders[t.worker.summary.id % r.senders.length]? = some account ∧
    t.worker.key = account.key
  counted : t.worker.summary.attempted = (attemptsOf t.worker.summary.id attempts).length
  selector : t.worker.selector = r.selector t.worker.summary.id t.worker.summary.attempted
  held : ∀ a, t.phase = .holding a → a ∈ attempts

structure Crew.Building (r : RunInput) (k : Crew ω) : Prop where
  ids : (k.threads.map (·.worker.summary.id)).Nodup
  threads : ∀ t ∈ k.threads, t.Building r k.shared.attempts
  numbered : ∀ position account, r.senders[position]? = some account →
    k.Numbered (r.senders.map Account.address) position account.sequence.next
  drawn : EachAttempt r.Drawn k.shared.attempts
  called : ∀ call ∈ k.shared.calls, ∃ a ∈ k.shared.attempts, ∃ payload,
    a.signed = .ok payload ∧ call.question = .submission payload

omit [Writer ω] in
/-- The attempts of other workers make no difference to a worker. -/
theorem Thread.Building.cons_of_ne {r : RunInput} {attempts : List Attempt} {t : Thread} {a : Attempt}
    (hbuilding : t.Building r attempts) (hne : a.worker ≠ t.worker.summary.id) :
    t.Building r (a :: attempts) where
  seat := hbuilding.seat
  counted := by
    rw [attemptsOf_cons_of_ne hne]
    exact hbuilding.counted
  selector := hbuilding.selector
  held := fun b hphase => List.mem_cons_of_mem a (hbuilding.held b hphase)

omit [Writer ω] in
theorem Worker.Draws.drawn {r : RunInput} {hrecipients : 0 < r.recipients.length} {s : Shared ω}
    {w w' : Worker} {a : Attempt} {account : Account} (hdraws : w.Draws (r.context hrecipients) s a w')
    (hseat : r.senders[w.summary.id % r.senders.length]? = some account) (hkey : w.key = account.key)
    (hcounted : w.summary.attempted = (attemptsOf w.summary.id s.attempts).length)
    (hselector : w.selector = r.selector w.summary.id w.summary.attempted)
    (hcounter : s.counters.getD w.sender {} = ⟨account.sequence.next + UInt64.ofNat
      (attemptsAt r.senders.length (w.summary.id % r.senders.length) s.attempts).length⟩) :
    r.Drawn s.attempts a := by
  obtain ⟨hworker, hsigned, hsender, hrecipient, hamount, hfee, hsequence, hchain, -, -⟩ := hdraws
  rw [hcounted] at hselector hrecipient
  rw [hkey] at hsigned
  refine ⟨account, ⟨hworker ▸ hseat, ?_, ?_, hamount, hfee, ?_, hchain⟩, hsigned⟩
  · rw [hsender, Worker.address, hkey]
    rfl
  · rw [hselector] at hrecipient
    rw [hworker]
    exact hrecipient
  · rw [hsequence, hcounter, hworker]

omit [Writer ω] in
theorem Crew.Numbered.counter_of_mem {addresses : List Address} {first : UInt64} {k : Crew ω} {t : Thread}
    (hnumbered : k.Numbered addresses (t.worker.summary.id % addresses.length) first) (hmem : t ∈ k.threads) :
    k.shared.counters.getD t.worker.sender {} = ⟨first + UInt64.ofNat
      (attemptsAt addresses.length (t.worker.summary.id % addresses.length) k.shared.attempts).length⟩ := by
  rw [hnumbered.bound t hmem, List.getD_eq_getElem?_getD, hnumbered.counter, Option.getD_some]

theorem Crew.Step.building {r : RunInput} {hrecipients : 0 < r.recipients.length} {k k' : Crew ω}
    (hstep : Crew.Step (r.context hrecipients) k k') (hbuilding : k.Building r) : k'.Building r := by
  have hnumbered : ∀ position account, r.senders[position]? = some account →
      k'.Numbered (r.senders.map Account.address) position account.sequence.next :=
    fun position account haccount => hstep.numbered (hbuilding.numbered position account haccount)
  cases hstep with
  | cancel => exact { hbuilding with numbered := hnumbered }
  | @act cancelled s s' before after t t' hstep =>
    obtain ⟨hids, hthreads, hnumbers, hdrawn, hcalled⟩ := hbuilding
    have hpost := hstep.post_eq
    have hid : t'.worker.summary.id = t.worker.summary.id := congrArg Worker.Post.id hpost
    have hkey : t'.worker.key = t.worker.key := congrArg Worker.Post.key hpost
    have hids' : ((before ++ t' :: after).map (·.worker.summary.id)).Nodup := by
      simpa only [List.map_append, List.map_cons, hid] using hids
    have hmem : t ∈ before ++ t :: after := List.mem_append_right _ List.mem_cons_self
    obtain ⟨⟨account, hseat, haccount⟩, hcounted, hselector, hheld⟩ := hthreads t hmem
    have hseat' : ∃ account, r.senders[t'.worker.summary.id % r.senders.length]? = some account ∧
        t'.worker.key = account.key := ⟨account, hid ▸ hseat, hkey.trans haccount⟩
    rcases hstep.builds with ⟨a, hdraws, hattempts, hcalls, hphase⟩ |
      ⟨hattempts, hsame, hattempted, hkept, hcalls⟩
    · have hcounter := Crew.Numbered.counter_of_mem (t := t) (hnumbers _ account (by rwa [List.length_map])) hmem
      rw [List.length_map] at hcounter
      have hlast := hdraws.drawn hseat haccount hcounted hselector hcounter
      refine ⟨hids', ?_, hnumbered, ?_, ?_⟩
      · dsimp only at hthreads ⊢
        rw [hattempts]
        refine forall_mem_replace_of_nodup hids hthreads (fun u hne hu => ?_) ⟨hseat', ?_, ?_, ?_⟩
        · exact hu.cons_of_ne (hdraws.worker ▸ hne)
        · rw [hdraws.attempted, hid, attemptsOf_cons_of_eq hdraws.worker, List.length_cons, hcounted]
        · rw [hdraws.selector, hdraws.attempted, hid, hselector]
          rfl
        · intro b hheld
          rw [hphase] at hheld
          cases hheld
          exact List.mem_cons_self
      · dsimp only
        rw [hattempts]
        exact eachAttempt_cons.mpr ⟨hlast, hdrawn⟩
      · dsimp only at hcalled ⊢
        rw [hattempts, hcalls]
        intro call hcall
        obtain ⟨b, hb, payload, hpayload⟩ := hcalled call hcall
        exact ⟨b, List.mem_cons_of_mem a hb, payload, hpayload⟩
    · refine ⟨hids', ?_, hnumbered, ?_, ?_⟩
      · dsimp only at hthreads ⊢
        rw [hattempts]
        refine forall_mem_replace hthreads ⟨hseat', ?_, ?_, fun a hphase => hheld a (hkept a hphase)⟩
        · rw [hattempted, hid]
          exact hcounted
        · rw [hsame, hattempted, hid]
          exact hselector
      · dsimp only
        rw [hattempts]
        exact hdrawn
      · dsimp only at hcalled ⊢
        rw [hattempts]
        rcases hcalls with hcalls | ⟨a, now, payload, hphase, hsigned, hcalls⟩
        · rw [hcalls]
          exact hcalled
        · rw [hcalls, List.forall_mem_cons]
          exact ⟨⟨a, hheld a hphase, payload, hsigned, rfl⟩, hcalled⟩

namespace RunInput

variable {r : RunInput} {sink : ResultSink ω} {hsenders : 0 < r.senders.length}

omit [Writer ω] in
theorem crew_building : (r.crew sink hsenders).Building r := by
  refine ⟨?_, ?_, fun position account haccount => crew_numbered haccount, eachAttempt_nil, nofun⟩
  · have hids := r.ids_crew sink hsenders
    change ((r.crew sink hsenders).threads.map (·.worker.post.id)).Nodup
    rw [hids]
    exact List.nodup_range
  · intro t ht
    obtain ⟨w, hw, rfl⟩ := List.mem_map.mp ht
    obtain ⟨id, quota, -, rfl⟩ := List.mem_mapIdx.mp hw
    exact ⟨⟨_, List.getElem?_eq_getElem (Nat.mod_lt id hsenders), rfl⟩, rfl, rfl, nofun⟩

theorem building_of_crew {hrecipients : 0 < r.recipients.length} {k : Crew ω}
    (hreach : Crew.Reaches (r.context hrecipients) (r.crew sink hsenders) k) : k.Building r :=
  hreach.keeps (P := Crew.Building r) (fun _ _ hbuilding hstep => hstep.building hbuilding) crew_building

end RunInput

end TransferLoad
