import TransferLoad.Proofs.Verification.Window

/-!
# Lookups come to an end

The checker is a window with a clock: a lookup is under way while it is queued or waits for its answer. Each
of its steps lets some identifiers into the window, settles one, or only moves the clock, and uses up some of
the steps that are left. So it stops with nothing left, however long the lookups take, and its report is that
of a pass in the order in which the answers came.
-/

namespace TransferLoad

def Ready.identifier : Ready → String
  | fresh identifier => identifier
  | answered identifier _ => identifier

/-- The steps that a lookup in the queue can still take. -/
def Ready.potential : Ready → Nat
  | fresh _ => 3
  | answered .. => 1

theorem Ready.potential_pos (ready : Ready) : 0 < ready.potential := by
  cases ready <;> simp [potential]

/-- A client that gives its answer to each of some identifiers whenever it is asked for it. -/
def Client.GivesAnswers (client : Client) (answers : Answers) (identifiers : List String) : Prop :=
  ∀ identifier ∈ identifiers, ∀ earlier now, (client.status earlier now identifier).answer = answers identifier

namespace Checker

/-- The identifiers of the lookups that have been started and not been settled. -/
def underWay (v : Checker) : List String :=
  v.queue.map Ready.identifier ++ v.waiting.map Lookup.identifier

/-- As many lookups are under way as may be, unless no more are left. -/
def Full (width : Nat) (v : Checker) : Prop := v.remaining = [] ∨ width ≤ v.underWay.length

/-- The steps that are left at most. -/
def potential (v : Checker) : Nat :=
  3 * v.remaining.length + (v.queue.map Ready.potential).sum + 2 * v.waiting.length

theorem length_underWay (v : Checker) : v.underWay.length = v.queue.length + v.waiting.length := by
  simp [underWay]

variable {answers : Answers} {client : Client} {total width : Nat} {v v' : Checker} {w : Window}

/-! ### What a step does -/

/-- The first lookup in the queue is settled with an answer that was there or that the client gave. -/
structure Concludes (client : Client) (ready : Ready) (answer : Except Failure TransferStatus)
    (v v' : Checker) : Prop where
  queue : v.queue = ready :: v'.queue
  given : ready = .answered ready.identifier answer ∨
    ∃ earlier now, answer = (client.status earlier now ready.identifier).answer
  remaining : v'.remaining = v.remaining
  waiting : v'.waiting = v.waiting
  report : v'.report = v.report.take ready.identifier answer

theorem nextDue_mem (first : Lookup) (rest : List Lookup) :
    ∃ lookup ∈ first :: rest, lookup.due = nextDue first rest := by
  have hfold : ∀ time, rest.foldl (fun time lookup => min time lookup.due) time = time ∨
      ∃ lookup ∈ rest, lookup.due = rest.foldl (fun time lookup => min time lookup.due) time := by
    induction rest with
    | nil => exact fun time => Or.inl rfl
    | cons lookup rest ih =>
      intro time
      rw [List.foldl_cons]
      rcases ih (min time lookup.due) with hkept | ⟨other, hother, hdue⟩
      · rw [hkept]
        rcases Nat.le_total time lookup.due with hle | hle
        · exact Or.inl (Nat.min_eq_left hle)
        · exact Or.inr ⟨lookup, List.mem_cons_self, (Nat.min_eq_right hle).symm⟩
      · exact Or.inr ⟨other, List.mem_cons_of_mem lookup hother, hdue⟩
  rcases hfold first.due with hkept | ⟨lookup, hlookup, hdue⟩
  · exact ⟨first, List.mem_cons_self, hkept.symm⟩
  · exact ⟨lookup, List.mem_cons_of_mem first hlookup, hdue⟩

/-- A step settles a lookup and starts others, or makes a lookup wait, or moves the clock to the next time at
which one that waits is answered. -/
theorem step_cases (hstep : v.step client width = some v') :
    (∃ ready answer settled, Concludes client ready answer v settled ∧ v' = settled.fill width) ∨
    (∃ lookup queue journal, v.queue = .fresh lookup.identifier :: queue ∧
      (∃ earlier now, lookup.answer = (client.status earlier now lookup.identifier).answer) ∧
      v' = { v with queue, waiting := v.waiting ++ [lookup], journal }) ∨
    (∃ answered waiting journal, v.queue = [] ∧ answered ≠ [] ∧ (answered ++ waiting).Perm v.waiting ∧
      v' = { v with
        queue := answered.map fun lookup => .answered lookup.identifier lookup.answer
        waiting, journal }) := by
  unfold step at hstep
  split at hstep
  · rename_i identifier answer queue hqueue
    cases hstep
    exact Or.inl ⟨.answered identifier answer, answer, ({ v with queue } : Checker).conclude identifier answer,
      ⟨hqueue, Or.inl rfl, rfl, rfl, rfl⟩, rfl⟩
  · rename_i identifier queue hqueue
    dsimp only at hstep
    split at hstep
    · cases hstep
      exact Or.inl ⟨.fresh identifier, _,
        ({ v with queue, journal := v.journal.note (.status identifier) } : Checker).conclude identifier _,
        ⟨hqueue, Or.inr ⟨_, _, rfl⟩, rfl, rfl, rfl⟩, rfl⟩
    · cases hstep
      exact Or.inr (Or.inl ⟨⟨identifier, _, _⟩, queue, _, hqueue, ⟨_, _, rfl⟩, rfl⟩)
  · rename_i first rest hqueue hwaiting
    simp only [List.partition_eq_filter_filter] at hstep
    cases hstep
    obtain ⟨lookup, hlookup, hdue⟩ := nextDue_mem first rest
    refine Or.inr (Or.inr ⟨_, _, _, hqueue, ?_, hwaiting ▸ List.filter_append_perm _ _, rfl⟩)
    refine List.ne_nil_of_mem (a := lookup) (List.mem_filter.mpr ⟨hlookup, ?_⟩)
    exact decide_eq_true (Nat.le_of_eq hdue)
  · cases hstep

theorem done_of_step_eq_none (hnone : v.step client width = none) : v.queue = [] ∧ v.waiting = [] := by
  unfold step at hnone
  split at hnone
  · cases hnone
  · dsimp only at hnone
    split at hnone <;> cases hnone
  · cases hnone
  · rename_i hqueue hwaiting
    exact ⟨hqueue, hwaiting⟩

/-! ### Steps are used up -/

theorem sum_potential_fresh (identifiers : List String) :
    ((identifiers.map Ready.fresh).map Ready.potential).sum = 3 * identifiers.length := by
  induction identifiers with
  | nil => rfl
  | cons identifier rest ih =>
    rw [List.map_cons, List.map_cons, List.sum_cons, ih, List.length_cons, Ready.potential]
    omega

theorem sum_potential_answered (lookups : List Lookup) :
    ((lookups.map fun lookup => Ready.answered lookup.identifier lookup.answer).map Ready.potential).sum =
      lookups.length := by
  simp [Function.comp_def, Ready.potential]

theorem potential_fill (width : Nat) (v : Checker) : (v.fill width).potential = v.potential := by
  have hparts : ∀ room, (v.remaining.drop room).length + (v.remaining.take room).length =
      v.remaining.length := by
    intro room
    rw [List.length_drop, List.length_take]
    omega
  have hroom := hparts (width - (v.queue.length + v.waiting.length))
  simp only [potential, fill, List.map_append, List.sum_append, sum_potential_fresh]
  omega

theorem potential_step_lt (hstep : v.step client width = some v') : v'.potential < v.potential := by
  rcases step_cases hstep with ⟨ready, answer, settled, hconcludes, rfl⟩ |
    ⟨lookup, queue, journal, hqueue, -, rfl⟩ | ⟨answered, waiting, journal, hqueue, hsome, hperm, rfl⟩
  · have hpos := ready.potential_pos
    rw [potential_fill]
    simp only [potential, hconcludes.queue, hconcludes.remaining, hconcludes.waiting, List.map_cons,
      List.sum_cons]
    omega
  · simp only [potential, hqueue, List.map_cons, List.sum_cons, Ready.potential, List.length_append,
      List.length_singleton]
    omega
  · have hpos := List.length_pos_iff.mpr hsome
    have hlength := hperm.length_eq
    simp only [potential, hqueue, sum_potential_answered, List.map_nil, List.sum_nil, List.length_append]
      at hlength ⊢
    omega

/-- When no step is left, nothing is left to do. -/
theorem step_loop_eq_none {steps : Nat} (hsteps : v.potential ≤ steps) :
    (v.loop client width steps).step client width = none := by
  induction steps generalizing v with
  | zero =>
    rw [loop]
    by_contra hsome
    obtain ⟨v', hstep⟩ := Option.ne_none_iff_exists'.mp hsome
    have hless := potential_step_lt hstep
    omega
  | succ steps ih =>
    rw [loop]
    cases hstep : v.step client width with
    | none => exact hstep
    | some v' =>
      have hless := potential_step_lt hstep
      exact ih (by omega)

theorem loop_keeps {P : Checker → Prop}
    (hkeeps : ∀ {v v' : Checker}, P v → v.step client width = some v' → P v') (steps : Nat) (hstart : P v) :
    P (v.loop client width steps) := by
  induction steps generalizing v with
  | zero => exact hstart
  | succ steps ih =>
    rw [loop]
    cases hstep : v.step client width with
    | none => exact hstart
    | some v' => exact ih (hkeeps hstart hstep)

/-! ### The window behind a checker -/

/-- A checker that stands for a window, of so many identifiers in all. -/
structure Shows (answers : Answers) (total : Nat) (v : Checker) (w : Window) : Prop where
  remaining : v.remaining = w.remaining
  flying : v.underWay.Perm w.flying
  answered : ∀ identifier answer, .answered identifier answer ∈ v.queue → answer = answers identifier
  waiting : ∀ lookup ∈ v.waiting, lookup.answer = answers lookup.identifier
  report : v.report = .pass answers total w.settled

theorem full_fill (width : Nat) (v : Checker) : (v.fill width).Full width := by
  by_cases hfew : v.remaining.length ≤ width - (v.queue.length + v.waiting.length)
  · exact Or.inl (List.drop_eq_nil_of_le hfew)
  · refine Or.inr ?_
    rw [length_underWay]
    simp only [fill, List.length_append, List.length_map, List.length_take]
    omega

/-- Starting lookups lets their identifiers into the window. -/
theorem Shows.fill (hshows : v.Shows answers total w) :
    ∃ w', Window.Reaches width w w' ∧ (v.fill width).Shows answers total w' := by
  obtain ⟨remaining, flying, settled⟩ := w
  obtain ⟨hremaining, hflying, hanswered, hwaiting, hreport⟩ := hshows
  have hlength := hflying.length_eq
  rw [length_underWay] at hlength
  obtain rfl : v.remaining = remaining := hremaining
  refine ⟨_, Window.reaches_launch (Nat.le_refl _), ?_⟩
  rw [← hlength]
  refine ⟨rfl, ?_, ?_, hwaiting, hreport⟩
  · have hstarted : ∀ identifiers : List String,
        (identifiers.map Ready.fresh).map Ready.identifier = identifiers := by
      intro identifiers
      rw [List.map_map]
      exact List.map_id _
    simp only [Checker.underWay, Checker.fill, List.map_append, hstarted, List.append_assoc]
    refine (List.Perm.append_left _ List.perm_append_comm).trans ?_
    rw [← List.append_assoc]
    exact hflying.append_right _
  · intro identifier answer hmem
    rcases List.mem_append.mp hmem with hold | hnew
    · exact hanswered identifier answer hold
    · obtain ⟨_, -, hfresh⟩ := List.mem_map.mp hnew
      cases hfresh

/-- Settling a lookup takes its identifier out of the window. -/
theorem Shows.land {ready : Ready} {answer : Except Failure TransferStatus} (hshows : v.Shows answers total w)
    (hconcludes : Concludes client ready answer v v') (hanswer : answer = answers ready.identifier) :
    ∃ w', Window.Step width w w' ∧ v'.Shows answers total w' := by
  obtain ⟨remaining, flying, settled⟩ := w
  obtain ⟨hremaining, hflying, hanswered, hwaiting, hreport⟩ := hshows
  have hready : v.underWay = ready.identifier :: v'.underWay := by
    rw [Checker.underWay, Checker.underWay, hconcludes.queue, hconcludes.waiting]
    rfl
  rw [hready] at hflying
  obtain ⟨before, after, rfl⟩ := List.append_of_mem (hflying.mem_iff.mp List.mem_cons_self)
  refine ⟨_, .land, hconcludes.remaining.trans hremaining, ?_, ?_, ?_, ?_⟩
  · exact (hflying.trans List.perm_middle).cons_inv
  · intro identifier other hmem
    exact hanswered identifier other (hconcludes.queue ▸ List.mem_cons_of_mem ready hmem)
  · rw [hconcludes.waiting]
    exact hwaiting
  · rw [hconcludes.report, hreport, hanswer, VerificationReport.pass_concat]

/-- A step of the checker is a chain of steps of its window. -/
theorem Shows.step (hshows : v.Shows answers total w) (hfull : v.Full width)
    (hgives : client.GivesAnswers answers w.flying) (hstep : v.step client width = some v') :
    ∃ w', Window.Reaches width w w' ∧ v'.Shows answers total w' ∧ v'.Full width := by
  have hasked : ∀ ready ∈ v.queue, ∀ earlier now,
      (client.status earlier now ready.identifier).answer = answers ready.identifier := by
    intro ready hready
    refine hgives _ (hshows.flying.mem_iff.mp ?_)
    exact List.mem_append_left _ (List.mem_map_of_mem hready)
  rcases step_cases hstep with ⟨ready, answer, settled, hconcludes, rfl⟩ |
    ⟨lookup, queue, journal, hqueue, ⟨earlier, now, hanswer⟩, rfl⟩ |
    ⟨answered, waiting, journal, hqueue, -, hperm, rfl⟩
  · have hready : ready ∈ v.queue := hconcludes.queue ▸ List.mem_cons_self
    have hanswer : answer = answers ready.identifier := by
      rcases hconcludes.given with hthere | ⟨earlier, now, rfl⟩
      · exact hshows.answered _ _ (hthere ▸ hready)
      · exact hasked ready hready earlier now
    obtain ⟨w₁, hland, hshows₁⟩ := hshows.land hconcludes hanswer
    obtain ⟨w₂, hlaunch, hshows₂⟩ := hshows₁.fill
    exact ⟨w₂, Relation.ReflTransGen.head hland hlaunch, hshows₂, full_fill width settled⟩
  · obtain ⟨hremaining, hflying, hanswered, hwaiting, hreport⟩ := hshows
    have hsame : ({ v with queue, waiting := v.waiting ++ [lookup], journal } : Checker).underWay.Perm
        v.underWay := by
      simp only [Checker.underWay, hqueue, List.map_cons, List.map_append, List.map_nil, Ready.identifier]
      rw [← List.append_assoc]
      exact List.perm_append_singleton _ _
    refine ⟨w, Relation.ReflTransGen.refl, ⟨hremaining, hsame.trans hflying, ?_, ?_, hreport⟩, ?_⟩
    · intro identifier answer hmem
      exact hanswered identifier answer (hqueue ▸ List.mem_cons_of_mem _ hmem)
    · rw [List.forall_mem_append, List.forall_mem_singleton]
      have hfresh : .fresh lookup.identifier ∈ v.queue := hqueue ▸ List.mem_cons_self
      exact ⟨hwaiting, hanswer.trans (hasked _ hfresh earlier now)⟩
    · rw [Full, hsame.length_eq]
      exact hfull
  · obtain ⟨hremaining, hflying, hanswered, hwaiting, hreport⟩ := hshows
    have hsame : ({ v with
        queue := answered.map fun lookup => .answered lookup.identifier lookup.answer
        waiting, journal } : Checker).underWay.Perm v.underWay := by
      simp only [Checker.underWay, hqueue, List.map_nil, List.nil_append, List.map_map]
      refine List.Perm.trans (List.Perm.of_eq ?_) (hperm.map _)
      rw [List.map_append]
      rfl
    refine ⟨w, Relation.ReflTransGen.refl, ⟨hremaining, hsame.trans hflying, ?_, ?_, hreport⟩, ?_⟩
    · intro identifier answer hmem
      obtain ⟨lookup, hlookup, hsame⟩ := List.mem_map.mp hmem
      cases hsame
      exact hwaiting lookup (hperm.mem_iff.mp (List.mem_append_left _ hlookup))
    · intro lookup hlookup
      exact hwaiting lookup (hperm.mem_iff.mp (List.mem_append_right _ hlookup))
    · rw [Full, hsame.length_eq]
      exact hfull

/-! ### All lookups -/

/-- The checker before the first lookup. -/
def ofIdentifiers (identifiers : List String) (j : Journal) : Checker where
  remaining := identifiers
  report := { total := identifiers.length }
  journal := j

/-- The checker when it has taken all the steps it may take. -/
def final (client : Client) (identifiers : List String) (concurrency : Nat) (j : Journal) : Checker :=
  ((ofIdentifiers identifiers j).fill (max concurrency 1)).loop client (max concurrency 1)
    (3 * identifiers.length)

theorem verifyIdentifiers_eq_final (client : Client) (identifiers : List String) (concurrency : Nat)
    (j : Journal) : verifyIdentifiers client identifiers concurrency j =
      ((final client identifiers concurrency j).report, (final client identifiers concurrency j).journal) :=
  rfl

theorem step_final (client : Client) (identifiers : List String) (concurrency : Nat) (j : Journal) :
    (final client identifiers concurrency j).step client (max concurrency 1) = none := by
  refine step_loop_eq_none ?_
  rw [potential_fill]
  simp [potential, ofIdentifiers]

theorem final_done (client : Client) (identifiers : List String) (concurrency : Nat) (j : Journal) :
    (final client identifiers concurrency j).queue = [] ∧
      (final client identifiers concurrency j).waiting = [] :=
  done_of_step_eq_none (step_final client identifiers concurrency j)

/-- A checker whose window has come from that of all identifiers and is as full as it can be. -/
def Tracks (answers : Answers) (identifiers : List String) (width : Nat) (v : Checker) : Prop :=
  v.Full width ∧
    ∃ w, Window.Reaches width { remaining := identifiers } w ∧ v.Shows answers identifiers.length w

variable {identifiers : List String}

theorem tracks_start (answers : Answers) (identifiers : List String) (width : Nat) (j : Journal) :
    ((ofIdentifiers identifiers j).fill width).Tracks answers identifiers width := by
  have hstart : (ofIdentifiers identifiers j).Shows answers identifiers.length { remaining := identifiers } :=
    ⟨rfl, List.Perm.refl _, fun _ _ hnone => (List.not_mem_nil hnone).elim,
      fun _ hnone => (List.not_mem_nil hnone).elim, rfl⟩
  exact ⟨full_fill _ _, hstart.fill⟩

theorem Tracks.step (htracks : v.Tracks answers identifiers width)
    (hgives : client.GivesAnswers answers identifiers) (hstep : v.step client width = some v') :
    v'.Tracks answers identifiers width := by
  obtain ⟨hfull, w, hreach, hshows⟩ := htracks
  have hgives' : client.GivesAnswers answers w.flying := by
    intro identifier hmem
    refine hgives identifier ?_
    have hentry : identifier ∈ w.entries := List.mem_append_right _ (List.mem_append_left _ hmem)
    simpa [Window.entries] using hreach.entries_perm.mem_iff.mp hentry
  obtain ⟨w', hreach', hshows', hfull'⟩ := hshows.step hfull hgives' hstep
  exact ⟨hfull', w', Relation.ReflTransGen.trans hreach hreach', hshows'⟩

/-- A checker that has stopped has let all identifiers through its window, and its report is that of a pass in
the order in which it settled them. -/
theorem Tracks.settles (htracks : v.Tracks answers identifiers width) (hwidth : 0 < width)
    (hqueue : v.queue = []) (hwaiting : v.waiting = []) :
    v.remaining = [] ∧ ∃ order, Window.Settles width identifiers order ∧
      v.report = .pass answers identifiers.length order := by
  obtain ⟨hfull, ⟨remaining, flying, settled⟩, hreach, hshows⟩ := htracks
  have hnone : v.underWay = [] := by
    rw [underWay, hqueue, hwaiting]
    rfl
  have hremaining : v.remaining = [] := by
    refine hfull.resolve_right fun hwide => ?_
    rw [hnone, List.length_nil] at hwide
    omega
  obtain rfl : remaining = [] := hshows.remaining.symm.trans hremaining
  obtain rfl : flying = [] := (hnone ▸ hshows.flying).nil_eq.symm
  exact ⟨hremaining, settled, ⟨_, hreach, Window.not_step_done settled, rfl⟩, hshows.report⟩

theorem final_settles (hgives : client.GivesAnswers answers identifiers) (concurrency : Nat) (j : Journal) :
    (final client identifiers concurrency j).remaining = [] ∧
      ∃ order, Window.Settles (max concurrency 1) identifiers order ∧
        (final client identifiers concurrency j).report = .pass answers identifiers.length order := by
  have htracks : (final client identifiers concurrency j).Tracks answers identifiers (max concurrency 1) :=
    loop_keeps (fun htracks hstep => htracks.step hgives hstep) _ (tracks_start _ _ _ _)
  obtain ⟨hqueue, hwaiting⟩ := final_done client identifiers concurrency j
  exact htracks.settles (by omega) hqueue hwaiting

end Checker

variable {client : Client} {answers : Answers} {identifiers : List String}

/-- What the checker reports covers the identifiers. -/
theorem covers_of_verifyIdentifiers (hgives : client.GivesAnswers answers identifiers) (concurrency : Nat)
    (j : Journal) : (verifyIdentifiers client identifiers concurrency j).1.Covers answers identifiers := by
  obtain ⟨-, order, hsettles, hreport⟩ := Checker.final_settles hgives concurrency j
  rw [Checker.verifyIdentifiers_eq_final, hreport]
  exact VerificationReport.covers_pass (hsettles.perm (by omega))

end TransferLoad
