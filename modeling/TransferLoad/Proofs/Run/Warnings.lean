import TransferLoad.Proofs.Artifact.LostLines
import TransferLoad.Proofs.Run.Artifact
import TransferLoad.Proofs.Run.Isolation

/-!
# Warnings that are limited in number

A run warns of transfers that failed and of identifiers that it could not write down, and of each kind only
up to a limit. The limit is for all workers together, and the first ones count, in the order in which they
were counted. So the warnings of a kind are a beginning of what there is to warn of, and how much there is of
one kind has no effect on the other.
-/

namespace TransferLoad

open Text.Utf8 (encode)

/-! ### What there is to warn of -/

namespace Notice

def isTransferFailed : Notice → Bool
  | transferFailed .. => true
  | _ => false

def isIdentifierLost : Notice → Bool
  | identifierLost .. => true
  | _ => false

/-- The notices of one kind, the earliest first. -/
def select (kind : Notice → Bool) (notices : List Notice) : List Notice := (notices.filter kind).reverse

variable {kind : Notice → Bool} {notice : Notice}

theorem select_cons_of_pos (hkind : kind notice = true) (notices : List Notice) :
    select kind (notice :: notices) = select kind notices ++ [notice] := by
  rw [select, List.filter_cons_of_pos hkind, List.reverse_cons]
  rfl

theorem select_cons_of_neg (hkind : kind notice = false) (notices : List Notice) :
    select kind (notice :: notices) = select kind notices := by
  rw [select, List.filter_cons_of_neg (Bool.eq_false_iff.mp hkind)]
  rfl

end Notice

def Settlement.isFailure (settlement : Settlement) : Bool := settlement.fate.identifier?.isNone

/-- The settlements that count as failures, in the order in which they were counted. -/
def failuresOf (settlements : List Settlement) : List Settlement :=
  (settlements.filter Settlement.isFailure).reverse

theorem failuresOf_cons_of_ne (settlement : Settlement)
    (hfate : ∀ identifier, settlement.fate ≠ .accepted identifier) (earlier : List Settlement) :
    failuresOf (settlement :: earlier) = failuresOf earlier ++ [settlement] := by
  have hfailure : settlement.isFailure = true := by
    rw [Settlement.isFailure, Fate.identifier?_eq_none hfate]
    rfl
  rw [failuresOf, List.filter_cons_of_pos hfailure, List.reverse_cons]
  rfl

theorem failuresOf_cons_of_eq (settlement : Settlement) {identifier : String}
    (hfate : settlement.fate = .accepted identifier) (earlier : List Settlement) :
    failuresOf (settlement :: earlier) = failuresOf earlier := by
  have hsuccess : ¬ settlement.isFailure = true := by
    rw [Settlement.isFailure, hfate]
    exact Bool.false_ne_true
  rw [failuresOf, List.filter_cons_of_neg hsuccess]
  rfl

/-- Why a settlement is a failure, in words. -/
def Settlement.FailsFor (signer : Signer) (settlement : Settlement) (reason : String) : Prop :=
  match settlement.fate with
  | .refused => ∃ key cause, settlement.intent.sender = ⟨key.publicKey⟩ ∧
      signer settlement.intent key = .error cause ∧ reason = cause.message
  | .accepted _ => False
  | .rejected answer => reason = answer
  | .abandoned => reason = "submission abandoned on shutdown"

/-- The notice warns of this failure. -/
def Settlement.WarnedBy (signer : Signer) (settlement : Settlement) (notice : Notice) : Prop :=
  ∃ reason, settlement.FailsFor signer reason ∧
    notice = .transferFailed settlement.worker settlement.intent.sender settlement.intent.sequence reason

/-- An identifier that was accepted and could not be written down. -/
structure Loss where
  worker : Nat
  identifier : String
  cause : IoError

def Loss.notice (loss : Loss) : Notice := .identifierLost loss.worker loss.identifier (.io loss.cause)

section

variable {ω : Type} [Writer ω]

/-- What is lost if a transfer is settled while the artifact is in some state. -/
def ResultSink.loss? (sink : ResultSink ω) (settlement : Settlement) : Option Loss :=
  settlement.fate.identifier?.bind fun identifier =>
    match (sink.record identifier).1 with
    | .ok () => none
    | .error cause => some ⟨settlement.worker, identifier, cause⟩

/-- All that is lost of what goes into an artifact, the earliest first. -/
def ResultSink.losses (sink : ResultSink ω) : List Settlement → List Loss
  | [] => []
  | settlement :: earlier => losses sink earlier ++ ((recordAll sink earlier).loss? settlement).toList

theorem ResultSink.losses_cons_of_ne (sink : ResultSink ω) (settlement : Settlement)
    (hfate : ∀ identifier, settlement.fate ≠ .accepted identifier) (earlier : List Settlement) :
    sink.losses (settlement :: earlier) = sink.losses earlier := by
  have hnone : (recordAll sink earlier).loss? settlement = none := by
    rw [loss?, Fate.identifier?_eq_none hfate, Option.bind_none]
  rw [losses, hnone, Option.toList_none, List.append_nil]

end

/-- Into a device that takes nothing, identifiers that do not fit into the buffer are all lost. -/
theorem ResultSink.losses_of_sealed {sink : ResultSink BufferedDevice} (hsealed : sink.writer.device.Sealed)
    (hfits : sink.writer.pending.length ≤ bufferSize) {settlements : List Settlement}
    (hlong : ∀ identifier ∈ acceptedIdentifiers settlements, bufferSize ≤ (encode identifier).length) :
    (sink.losses settlements).map Loss.identifier = acceptedIdentifiers settlements := by
  induction settlements with
  | nil => rfl
  | cons settlement earlier ih =>
    by_cases hfate : ∃ identifier, settlement.fate = .accepted identifier
    · obtain ⟨identifier, hfate⟩ := hfate
      rw [acceptedIdentifiers_cons_of_eq hfate, List.forall_mem_append, List.forall_mem_singleton] at hlong
      have hcontinues : sink.writer.Continues (recordAll sink earlier).writer := by
        rw [recordAll_eq_recordEach]
        exact sink.continues_recordEach (acceptedIdentifiers earlier)
      have hsealed' : (recordAll sink earlier).writer.device.Sealed := by
        rw [hcontinues.stays hsealed]
        exact hsealed
      obtain ⟨cause, hrecord⟩ := record_fails_of_sealed hsealed' (hcontinues.fits hfits) hlong.2
      have hloss : (recordAll sink earlier).loss? settlement = some ⟨settlement.worker, identifier, cause⟩ := by
        rw [loss?, hfate, Fate.identifier?, Option.bind_some, hrecord]
      rw [losses, hloss, List.map_append, ih hlong.1, acceptedIdentifiers_cons_of_eq hfate]
      rfl
    · have hother := not_exists.mp hfate
      rw [acceptedIdentifiers_cons_of_ne hother] at hlong ⊢
      rw [losses_cons_of_ne sink settlement hother, ih hlong]

/-! ### Beginnings -/

/-- At most one more behind a list that is limited in length. -/
theorem take_append_toList {α : Type} (xs : List α) (more : Option α) (limit : Nat) :
    (xs ++ more.toList).take limit = xs.take limit ++ if xs.length + 1 ≤ limit then more.toList else [] := by
  split
  · rename_i hroom
    have hall : (xs ++ more.toList).length ≤ limit := by
      rw [List.length_append]
      exact (Nat.add_le_add_left (by cases more <;> simp) _).trans hroom
    rw [List.take_of_length_le hall, List.take_of_length_le (Nat.le_of_succ_le hroom)]
  · rename_i hfull
    rw [List.take_append_of_le_length (by omega), List.append_nil]

/-! ### What one settlement warns of -/

variable {ω : Type}

theorem Shared.failed_fail (c : RunContext) (s : Shared ω) (w : Worker) (sequence : UInt64) (reason : String) :
    Notice.select Notice.isTransferFailed (s.fail c w sequence reason).notices =
      Notice.select Notice.isTransferFailed s.notices ++
        if s.tally.errors + 1 ≤ c.settings.errorLogLimit.toNat then
          [.transferFailed w.summary.id w.address sequence reason]
        else [] := by
  unfold Shared.fail
  dsimp only [Tally.add]
  split
  · exact Notice.select_cons_of_pos rfl _
  · exact (List.append_nil _).symm

theorem Shared.lost_fail (c : RunContext) (s : Shared ω) (w : Worker) (sequence : UInt64) (reason : String) :
    Notice.select Notice.isIdentifierLost (s.fail c w sequence reason).notices =
      Notice.select Notice.isIdentifierLost s.notices := by
  unfold Shared.fail
  dsimp only
  split
  · exact Notice.select_cons_of_neg rfl _
  · rfl

variable [Writer ω]

theorem Shared.failed_accept (c : RunContext) (s : Shared ω) (w : Worker) (identifier : String) :
    Notice.select Notice.isTransferFailed (s.accept c w identifier).notices =
      Notice.select Notice.isTransferFailed s.notices := by
  unfold Shared.accept
  dsimp only
  split
  · rfl
  · split
    · exact Notice.select_cons_of_neg rfl _
    · rfl

/-- An accepted transfer counts a loss if there is one, and warns of it as long as the limit is not reached. -/
theorem Shared.lost_gain (c : RunContext) (now : Nat) (intent : Intent) (identifier : String) (s : Shared ω)
    (w : Worker) :
    let gained := (w.gain c now intent identifier s).1
    let loss := (s.sink.loss? ⟨w.summary.id, now, intent, .accepted identifier⟩).toList
    gained.sink.unrecorded = s.sink.unrecorded + loss.length ∧
      Notice.select Notice.isIdentifierLost gained.notices =
        Notice.select Notice.isIdentifierLost s.notices ++
          if s.sink.unrecorded + 1 ≤ c.settings.errorLogLimit.toNat then loss.map Loss.notice else [] := by
  dsimp only
  unfold Worker.gain Shared.accept ResultSink.loss? ResultSink.record
  dsimp only [Shared.settle, Fate.identifier?, Option.bind_some]
  rcases Writer.writeTexts s.sink.writer (identifierPieces identifier) with ⟨cause | done, writer⟩
  · dsimp only
    split
    · exact ⟨rfl, Notice.select_cons_of_pos rfl _⟩
    · exact ⟨rfl, (List.append_nil _).symm⟩
  · dsimp only
    simp

/-! ### What holds at all times -/

/-- What a worker has in hand is its own. -/
structure Thread.Carries (c : RunContext) (t : Thread) : Prop where
  held : ∀ a, t.phase = .holding a →
    a.intent.sender = t.worker.address ∧ a.signed = c.signer a.intent t.worker.key
  sent : ∀ intent outcome, t.phase = .flying intent outcome → intent.sender = t.worker.address

theorem Thread.Step.carries {c : RunContext} {cancelled : Bool} {s s' : Shared ω} {t t' : Thread}
    (hstep : Thread.Step c cancelled s t s' t') (hcarries : t.Carries c) : t'.Carries c := by
  cases hstep with
  | draw now hprepare =>
    obtain ⟨intent, selector, hintends, rfl, -, rfl⟩ := Worker.prepare_eq hprepare
    refine ⟨fun a hphase => ?_, nofun⟩
    cases hphase
    exact ⟨hintends.sender, rfl⟩
  | @submit w a payload now hsigned =>
    refine ⟨nofun, fun intent outcome hphase => ?_⟩
    cases hphase
    exact (hcarries.held a rfl).1
  | await due errand => exact ⟨hcarries.held, hcarries.sent⟩
  | _ => exact ⟨nofun, nofun⟩

/-- The warnings of a run with an artifact that began as `sink`: of each kind there are as many as there is to
warn of, up to the limit, and they are about the first of it. -/
structure Shared.Warns (c : RunContext) (sink : ResultSink ω) (s : Shared ω) : Prop where
  recorded : s.sink = recordAll sink s.settlements
  errors_eq : s.tally.errors = (failuresOf s.settlements).length
  unrecorded_eq : s.sink.unrecorded = (sink.losses s.settlements).length
  failed : List.Forall₂ (Settlement.WarnedBy c.signer)
    ((failuresOf s.settlements).take c.settings.errorLogLimit.toNat)
    (Notice.select Notice.isTransferFailed s.notices)
  lost : Notice.select Notice.isIdentifierLost s.notices =
    ((sink.losses s.settlements).take c.settings.errorLogLimit.toNat).map Loss.notice

namespace Shared.Warns

variable {c : RunContext} {sink : ResultSink ω} {s : Shared ω} {w : Worker} {intent : Intent} {fate : Fate}
  {reason identifier : String}

/-- One more failure is reported if the limit leaves room for it. -/
theorem lose (hwarns : s.Warns c sink) (now : Nat) (hsender : intent.sender = w.address)
    (hfate : ∀ identifier, fate ≠ .accepted identifier)
    (hfails : Settlement.FailsFor c.signer ⟨w.summary.id, now, intent, fate⟩ reason) :
    (w.lose c now intent fate reason s).1.Warns c sink := by
  obtain ⟨hrecorded, herrors, hunrecorded, hfailed, hlost⟩ := hwarns
  have hwarned := (s.settle w now intent fate).failed_fail c w intent.sequence reason
  have hsame := (s.settle w now intent fate).lost_fail c w intent.sequence reason
  obtain ⟨notices, hlose⟩ := w.lose_eq c now intent fate reason s
  change Notice.select _ (w.lose c now intent fate reason s).1.notices = _ at hwarned hsame
  rw [hlose] at hwarned hsame ⊢
  have hfailures := failuresOf_cons_of_ne ⟨w.summary.id, now, intent, fate⟩ hfate s.settlements
  have hlosses := sink.losses_cons_of_ne ⟨w.summary.id, now, intent, fate⟩ hfate s.settlements
  constructor
  · exact hrecorded.trans (recordAll_cons_of_ne sink hfate _).symm
  · rw [hfailures, List.length_append]
    exact congrArg (· + 1) herrors
  · rw [hlosses]
    exact hunrecorded
  · dsimp only at hwarned ⊢
    rw [hfailures, ← Option.toList_some, take_append_toList, hwarned, ← herrors]
    refine List.rel_append hfailed ?_
    change List.Forall₂ _ (if s.tally.errors + 1 ≤ _ then _ else _) (if s.tally.errors + 1 ≤ _ then _ else _)
    split
    · exact .cons ⟨reason, hfails, by rw [hsender]⟩ .nil
    · exact .nil
  · rw [hlosses]
    exact hsame.trans hlost

theorem gain (hwarns : s.Warns c sink) (now : Nat) (intent : Intent) (identifier : String) (w : Worker) :
    (w.gain c now intent identifier s).1.Warns c sink := by
  obtain ⟨hrecorded, herrors, hunrecorded, hfailed, hlost⟩ := hwarns
  have hsame := (s.settle w now intent (.accepted identifier)).failed_accept c w identifier
  obtain ⟨hcounted, hwarned⟩ := Shared.lost_gain c now intent identifier s w
  obtain ⟨notices, hgain⟩ := w.gain_eq c now intent identifier s
  change Notice.select _ (w.gain c now intent identifier s).1.notices = _ at hsame
  rw [hgain] at hsame hcounted hwarned ⊢
  have hfailures := failuresOf_cons_of_eq ⟨w.summary.id, now, intent, .accepted identifier⟩ rfl
    s.settlements
  rw [hunrecorded] at hcounted hwarned
  constructor
  · exact congrArg (fun sink => (ResultSink.record sink identifier).2) hrecorded
  · rw [hfailures]
    exact herrors
  · rw [ResultSink.losses, List.length_append, ← hrecorded]
    exact hcounted
  · rw [hfailures]
    exact hsame ▸ hfailed
  · rw [ResultSink.losses, take_append_toList, List.map_append, ← hlost, ← hrecorded, apply_ite (List.map _)]
    exact hwarned

end Shared.Warns

/-- The warnings are as they should be, and all threads carry what is theirs. -/
structure Crew.Warns (c : RunContext) (sink : ResultSink ω) (k : Crew ω) : Prop where
  shared : k.shared.Warns c sink
  threads : ∀ t ∈ k.threads, t.Carries c

theorem Thread.Step.warns {c : RunContext} {cancelled : Bool} {sink : ResultSink ω} {s s' : Shared ω}
    {t t' : Thread} (hstep : Thread.Step c cancelled s t s' t') (hcarries : t.Carries c)
    (hwarns : s.Warns c sink) : s'.Warns c sink := by
  cases hstep with
  | draw now hprepare =>
    obtain ⟨intent, selector, -, -, rfl, -⟩ := Worker.prepare_eq hprepare
    exact { hwarns with }
  | @refuse w a cause now hsigned =>
    obtain ⟨hsender, hsigned'⟩ := hcarries.held a rfl
    exact hwarns.lose now hsender nofun ⟨w.key, cause, hsender, hsigned'.symm.trans hsigned, rfl⟩
  | accept now => exact hwarns.gain now _ _ _
  | reject now => exact hwarns.lose now (hcarries.sent _ _ rfl) nofun rfl
  | abandon now hcancelled => exact hwarns.lose now (hcarries.sent _ _ rfl) nofun rfl
  | _ => exact { hwarns with }

theorem Crew.Step.warns {c : RunContext} {sink : ResultSink ω} {k k' : Crew ω} (hstep : Crew.Step c k k')
    (hwarns : k.Warns c sink) : k'.Warns c sink := by
  cases hstep with
  | cancel => exact { hwarns with }
  | @act cancelled s s' before after t t' hstep =>
    have hcarries : t.Carries c := hwarns.threads t (List.mem_append_right _ List.mem_cons_self)
    exact ⟨hstep.warns hcarries hwarns.shared, forall_mem_replace hwarns.threads (hstep.carries hcarries)⟩

/-! ### The whole run -/

/-- Nothing of this kind is said at the beginning or the end of a run. -/
structure Notice.AboutTransfers (kind : Notice → Bool) : Prop where
  remainder : ∀ dropped totalBudget workers, kind (.budgetRemainder dropped totalBudget workers) = false
  starting : ∀ workers senders targetTps durationSecs scheduled delayMicros,
    kind (.starting workers senders targetTps durationSecs scheduled delayMicros) = false
  missing : ∀ unrecorded, kind (.identifiersMissing unrecorded) = false
  summary : ∀ cause, kind (.summaryFailed cause) = false
  finished : ∀ sent errors actualTps deviation interrupted,
    kind (.finished sent errors actualTps deviation interrupted) = false

theorem Notice.aboutTransfers_failed : AboutTransfers isTransferFailed := by
  constructor <;> intros <;> rfl

theorem Notice.aboutTransfers_lost : AboutTransfers isIdentifierLost := by
  constructor <;> intros <;> rfl

namespace RunInput

theorem select_opening (r : RunInput) {kind : Notice → Bool} (hkind : Notice.AboutTransfers kind) :
    Notice.select kind r.opening = [] := by
  rw [opening, Notice.select_cons_of_neg (hkind.starting ..)]
  split
  · exact Notice.select_cons_of_neg (hkind.remainder ..) []
  · rfl

theorem select_conclude (report : FinalReport) (s : Shared ω) {kind : Notice → Bool}
    (hkind : Notice.AboutTransfers kind) :
    Notice.select kind (conclude report s).notices = Notice.select kind s.notices := by
  have hmissing : ∀ s' : Shared ω, Notice.select kind
      (if 0 < report.unrecorded then s'.notify (.identifiersMissing report.unrecorded) else s').notices =
        Notice.select kind s'.notices := by
    intro s'
    split
    · exact Notice.select_cons_of_neg (hkind.missing _) _
    · rfl
  rw [← hmissing s, conclude]
  generalize (if 0 < report.unrecorded then s.notify _ else s) = s'
  refine (Notice.select_cons_of_neg (hkind.finished ..) _).trans ?_
  split
  · rfl
  · exact Notice.select_cons_of_neg (hkind.summary _) _

/-- Whatever an artifact is written to, the warnings of a run are as they should be in the end. -/
theorem warns_engine (r : RunInput) {sink : ResultSink ω} (hfresh : sink.unrecorded = 0)
    (hsenders : 0 < r.senders.length) (hrecipients : 0 < r.recipients.length) :
    (r.engine sink hsenders hrecipients).shared.Warns (r.context hrecipients) sink := by
  refine engine_of_crew (P := Shared.Warns (r.context hrecipients) sink) fun k hreach => ?_
  refine (hreach.keeps (P := Crew.Warns (r.context hrecipients) sink)
    (fun _ _ hwarns hstep => hstep.warns hwarns) ⟨⟨rfl, rfl, hfresh, ?_, ?_⟩, ?_⟩).shared
  · change List.Forall₂ _ (List.take _ []) (Notice.select _ r.opening)
    rw [r.select_opening Notice.aboutTransfers_failed, List.take_nil]
    exact .nil
  · change Notice.select _ r.opening = (List.take _ []).map _
    rw [r.select_opening Notice.aboutTransfers_lost, List.take_nil]
    rfl
  · intro t ht
    obtain ⟨w, -, rfl⟩ := List.mem_map.mp ht
    exact ⟨nofun, nofun⟩

/-- Of the transfers that fail, the first ones are warned of, up to the limit, each with its worker, its sender,
its number and the reason. So it is with the identifiers that cannot be written down, for which the limit counts
anew. -/
theorem warnings_of_run {r : RunInput} {report : FinalReport} (hresult : r.run.result = .ok report) :
    ∃ artifact files, ArtifactFile.create r.files r.settings.output r.header = (.ok artifact, files) ∧
      let limit := r.settings.errorLogLimit.toNat
      let failures := failuresOf r.run.settlements
      let losses := artifact.sink.losses r.run.settlements
      let failed := Notice.select Notice.isTransferFailed r.run.notices
      let lost := Notice.select Notice.isIdentifierLost r.run.notices
      failures.length = report.errors ∧ losses.length = report.unrecorded ∧
        List.Forall₂ (Settlement.WarnedBy r.signer) (failures.take limit) failed ∧
        failed.length = min report.errors limit ∧
        lost = (losses.take limit).map Loss.notice ∧ lost.length = min report.unrecorded limit := by
  obtain ⟨-, artifact, files, hsenders, hrecipients, hcreate, hrun, hreport⟩ := start_of_ok hresult
  have hfresh := ResultSink.unrecorded_of_open? (ArtifactFile.opened_of_create hcreate).2
  have hwarns := r.warns_engine hfresh hsenders hrecipients
  have hsettlements : r.run.settlements =
      (r.engine artifact.sink hsenders hrecipients).shared.settlements := by
    obtain ⟨files', notices, hrecord⟩ := r.runInto_eq artifact files hsenders hrecipients
    rw [hrun, hrecord]
    rfl
  have hnotices : r.run.notices =
      (conclude report (r.engine artifact.sink hsenders hrecipients).shared).notices := by
    rw [hrun, runInto, hreport]
  generalize r.engine artifact.sink hsenders hrecipients = e at *
  have herrors : (failuresOf e.shared.settlements).length = report.errors := by
    rw [hreport, ← hwarns.errors_eq]
    rfl
  have hunrecorded : (artifact.sink.losses e.shared.settlements).length = report.unrecorded := by
    rw [hreport, ← hwarns.unrecorded_eq]
    rfl
  refine ⟨artifact, files, hcreate, ?_⟩
  dsimp only
  rw [hsettlements, hnotices, select_conclude _ _ Notice.aboutTransfers_failed,
    select_conclude _ _ Notice.aboutTransfers_lost]
  refine ⟨herrors, hunrecorded, hwarns.failed, ?_, hwarns.lost, ?_⟩
  · rw [← hwarns.failed.length_eq, List.length_take, herrors, Nat.min_comm]
    rfl
  · rw [hwarns.lost, List.length_map, List.length_take, hunrecorded, Nat.min_comm]
    rfl

/-- A run whose transfers are all rejected, and which may warn of one. -/
def tactful : RunInput :=
  { small (.steady 10 (.error (.http "no answer"))) with
    settings := { targetTps := 2, durationSecs := 1, workers := 1, errorLogLimit := 1, output := "out" } }

def fullDevice : FileTree := { entries := [(["dev"], .directory), (["dev", "full"], .full)] }

/-- A run that may warn of one lost identifier, into a device that takes nothing. Both transfers are accepted under
the same identifier. -/
def lossy (identifier : String) : RunInput :=
  { small (.steady 10 (.ok identifier)) with
    settings := { targetTps := 2, durationSecs := 1, workers := 1, errorLogLimit := 1, output := "/dev/full" }
    files := fullDevice }

theorem lossy_starts (identifier : String) : ∃ report, (lossy identifier).run.result = .ok report := by
  have hstarts : ((lossy "a").run.result.map fun _ => ()).toOption = some () := by
    decide +kernel
  obtain ⟨_, hresult, -⟩ := ok_of_map_eq_some hstarts
  obtain ⟨hvalid, artifact, files, hsenders, hrecipients, hcreate, -, -⟩ := start_of_ok hresult
  have hrun := run_of_start (r := lossy identifier) hvalid hsenders hrecipients hcreate
  rw [hrun]
  exact ⟨_, rfl⟩

/-- What the identifiers are does not matter for the calls. -/
theorem acceptedIdentifiers_lossy (identifier : String) :
    acceptedIdentifiers (lossy identifier).run.settlements = [identifier, identifier] := by
  obtain ⟨report, hresult⟩ := lossy_starts identifier
  obtain ⟨_, hlight⟩ := lossy_starts "a"
  have hcalls : (lossy identifier).run.calls = (lossy "a").run.calls :=
    ((lossy "a").same_of_ok (.steady 10 (.ok identifier)) (fun _ _ _ => rfl) hlight hresult).1
  have hsubmitted : (lossy "a").run.calls =
      [⟨500, .submission ⟨[], ""⟩⟩, ⟨0, .submission ⟨[], ""⟩⟩] := by
    decide +kernel
  have hperm := (lossy identifier).identifiers_run
  rw [hcalls, hsubmitted] at hperm
  exact (List.perm_replicate (n := 2) (a := identifier)).mp hperm

theorem losses_lossy {identifier : String} (hlong : bufferSize ≤ (encode identifier).length)
    {artifact : ArtifactFile} {files : FileTree}
    (hcreate : ArtifactFile.create fullDevice "/dev/full" (lossy identifier).header = (.ok artifact, files)) :
    (artifact.sink.losses (lossy identifier).run.settlements).map Loss.identifier = [identifier, identifier] := by
  obtain ⟨hplace, hopen⟩ := ArtifactFile.opened_of_create hcreate
  have hplace' : fullDevice.createWithParents "/dev/full" = (.ok ["dev", "full"], fullDevice) := by
    decide +kernel
  obtain ⟨hplaced, rfl⟩ := Prod.mk.inj (hplace.symm.trans hplace')
  rw [Except.ok.inj hplaced] at hopen
  have hsealed : (fullDevice.deviceAt ["dev", "full"]).Sealed := rfl
  have hcontinues := ResultSink.continues_open? hopen
  have haccepted := acceptedIdentifiers_lossy identifier
  rw [← haccepted]
  refine ResultSink.losses_of_sealed ?_ (hcontinues.fits (Nat.zero_le _)) ?_
  · rw [hcontinues.stays hsealed]
    exact hsealed
  · rw [haccepted]
    simp [hlong]

/-- An identifier that no buffer holds together with the end of its line. -/
def longName : String := String.ofList (List.replicate bufferSize 'x')

theorem length_encode_longName : (encode longName).length = bufferSize := by
  have hchars : longName.toList = List.replicate bufferSize 'x' := String.toList_ofList
  have hascii : ∀ c ∈ longName.toList, c.toNat < 0x80 := by
    rw [hchars]
    intro c hc
    rw [List.eq_of_mem_replicate hc]
    decide
  rw [Text.Utf8.encode_of_ascii hascii, hchars, List.length_map, List.length_replicate]

/-- In one run both transfers fail, in the other both identifiers are lost. Each time the first one is warned of. -/
theorem warnings_of_run_tactful :
    (∃ report first, tactful.run.result = .ok report ∧ report.errors = 2 ∧
      (failuresOf tactful.run.settlements).head? = some first ∧
      Notice.select Notice.isTransferFailed tactful.run.notices =
        [.transferFailed first.worker first.intent.sender first.intent.sequence "HTTP error: no answer"] ∧
      Notice.select Notice.isIdentifierLost tactful.run.notices = []) ∧
    ∃ report worker cause, (lossy longName).run.result = .ok report ∧ report.unrecorded = 2 ∧
      Notice.select Notice.isIdentifierLost (lossy longName).run.notices =
        [.identifierLost worker longName (.io cause)] := by
  constructor
  · have hcounts : (tactful.run.result.map fun report => (report.errors, report.unrecorded)).toOption =
        some (2, 0) := by
      decide +kernel
    have hfates : (failuresOf tactful.run.settlements).map (·.fate) =
        [.rejected "HTTP error: no answer", .rejected "HTTP error: no answer"] := by
      decide +kernel
    obtain ⟨report, hresult, hcounts'⟩ := ok_of_map_eq_some hcounts
    obtain ⟨herrors, hunrecorded⟩ := Prod.mk.inj hcounts'
    obtain ⟨artifact, files, -, -, -, hfailed, -, -, hlost⟩ := warnings_of_run hresult
    obtain ⟨first, rest, hfailures, hfirst, -⟩ := List.map_eq_cons_iff.mp hfates
    have hlimit : tactful.settings.errorLogLimit.toNat = 1 := rfl
    rw [hlimit, hfailures, List.take_succ_cons, List.take_zero] at hfailed
    obtain ⟨notice, others, ⟨reason, hreason, rfl⟩, hothers, hnotices⟩ :=
      List.forall₂_cons_left_iff.mp hfailed
    obtain rfl := List.forall₂_nil_left_iff.mp hothers
    rw [Settlement.FailsFor, hfirst] at hreason
    subst hreason
    refine ⟨report, first, hresult, herrors, ?_, hnotices, List.length_eq_zero_iff.mp ?_⟩
    · rw [hfailures, List.head?_cons]
    · rw [hlost, hunrecorded, Nat.zero_min]
  · obtain ⟨report, hresult⟩ := lossy_starts longName
    obtain ⟨artifact, files, hcreate, -, hunrecorded, -, -, hlost, -⟩ := warnings_of_run hresult
    have hlosses := losses_lossy length_encode_longName.ge hcreate
    obtain ⟨first, rest, hsplit, hidentifier, hrest⟩ := List.map_eq_cons_iff.mp hlosses
    have hlimit : (lossy longName).settings.errorLogLimit.toNat = 1 := rfl
    rw [hlimit, hsplit, List.take_succ_cons, List.take_zero, List.map_singleton, Loss.notice, hidentifier] at hlost
    refine ⟨report, first.worker, first.cause, hresult, ?_, hlost⟩
    rw [← hunrecorded, ← List.length_map, hlosses]
    rfl

end RunInput

end TransferLoad
