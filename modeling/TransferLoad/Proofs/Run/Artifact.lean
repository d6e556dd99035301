import TransferLoad.Proofs.Artifact.Sink
import TransferLoad.Proofs.FileTree
import TransferLoad.Proofs.Run.Cancellation

/-!
# What a run writes

The identifiers that a run writes down are those that the client gave in time, one for each accepted
transfer, in the order in which the transfers were accepted. They go into a fresh file at the output path,
between the header and the summary, and what the file holds when the run is over can be read there.
-/

namespace TransferLoad

variable {ω : Type}

/-! ### The identifiers of a run -/

def Fate.identifier? : Fate → Option String
  | accepted identifier => some identifier
  | _ => none

theorem Fate.identifier?_eq_none {fate : Fate} (hfate : ∀ identifier, fate ≠ .accepted identifier) :
    fate.identifier? = none := by
  cases fate with
  | accepted identifier => exact absurd rfl (hfate identifier)
  | _ => rfl

/-- The identifiers of the accepted transfers, the earliest first. -/
def acceptedIdentifiers (settlements : List Settlement) : List String :=
  (settlements.filterMap (·.fate.identifier?)).reverse

/-- The identifiers that a client gave in time, the latest call first. -/
def Client.identifiers (client : Client) (cancelAt : Option Nat) (calls : List Call) : List String :=
  (client.answers calls).filterMap fun x => if arrivesInTime cancelAt x.1 then x.2.toOption else none

theorem acceptedIdentifiers_cons_of_eq {settlement : Settlement} {identifier : String}
    (hfate : settlement.fate = .accepted identifier) (earlier : List Settlement) :
    acceptedIdentifiers (settlement :: earlier) = acceptedIdentifiers earlier ++ [identifier] := by
  simp [acceptedIdentifiers, hfate, Fate.identifier?]

theorem acceptedIdentifiers_cons_of_ne {settlement : Settlement}
    (hfate : ∀ identifier, settlement.fate ≠ .accepted identifier) (earlier : List Settlement) :
    acceptedIdentifiers (settlement :: earlier) = acceptedIdentifiers earlier := by
  simp [acceptedIdentifiers, Fate.identifier?_eq_none hfate]

theorem length_acceptedIdentifiers (settlements : List Settlement) :
    (acceptedIdentifiers settlements).length = (Outcomes.ofFates (settlements.map (·.fate))).accepted := by
  induction settlements with
  | nil => rfl
  | cons settlement earlier ih =>
    rw [List.map_cons, Outcomes.ofFates]
    by_cases hfate : ∃ identifier, settlement.fate = .accepted identifier
    · obtain ⟨identifier, hfate⟩ := hfate
      rw [acceptedIdentifiers_cons_of_eq hfate, List.length_append, ih, hfate]
      rfl
    · have hother := not_exists.mp hfate
      rw [acceptedIdentifiers_cons_of_ne hother, ih, Outcomes.add_accepted_eq _ hother]

theorem recordAll_eq_recordEach [Writer ω] (sink : ResultSink ω) (settlements : List Settlement) :
    recordAll sink settlements = sink.recordEach (acceptedIdentifiers settlements) := by
  induction settlements with
  | nil => rfl
  | cons settlement earlier ih =>
    by_cases hfate : ∃ identifier, settlement.fate = .accepted identifier
    · obtain ⟨identifier, hfate⟩ := hfate
      rw [recordAll, hfate, acceptedIdentifiers_cons_of_eq hfate, ResultSink.recordEach_append, ← ih]
      rfl
    · have hother := not_exists.mp hfate
      rw [recordAll_cons_of_ne sink hother, acceptedIdentifiers_cons_of_ne hother, ih]

/-! ### What the client gave -/

theorem RunContext.identifiers_endings (c : RunContext) (attempts : List Attempt) :
    (c.endings attempts).filterMap (·.fate.identifier?) =
      c.client.identifiers c.cancelAt (callsOf attempts) := by
  induction attempts with
  | nil => rfl
  | cons a earlier ih =>
    rw [RunContext.endings, List.filterMap_cons, ih]
    cases hsigned : a.signed with
    | error cause =>
      have hending : (c.ending earlier a).fate = .refused := by rw [RunContext.ending, hsigned]
      rw [hending, callsOf_cons_refused hsigned]
      rfl
    | ok payload =>
      rcases hreply : c.replyTo earlier a.time payload with ⟨latency, answer⟩
      have hending : (c.ending earlier a).fate =
          if arrivesInTime c.cancelAt (a.time + latency) then (SubmissionOutcome.ofAnswer answer).fate
          else .abandoned := by
        simp only [RunContext.ending, hsigned, hreply, RunContext.verdict]
        split <;> rfl
      have hanswers : c.client.answers (callsOf (a :: earlier)) =
          (a.time + latency, answer) :: c.client.answers (callsOf earlier) := by
        rw [RunContext.replyTo] at hreply
        rw [callsOf_cons_signed hsigned, Client.answers, hreply]
      unfold Client.identifiers
      rw [hending, hanswers, List.filterMap_cons]
      by_cases hinTime : arrivesInTime c.cancelAt (a.time + latency) = true
      · rw [if_pos hinTime, if_pos hinTime]
        cases answer <;> rfl
      · rw [if_neg hinTime, if_neg hinTime]
        rfl

/-- When nothing is pending, the accepted identifiers are those that the client gave in time. -/
theorem Ledger.identifiers_perm {c : RunContext} {s : Shared ω} (hledger : Ledger c s []) :
    (acceptedIdentifiers s.settlements).Perm (c.client.identifiers c.cancelAt s.calls) := by
  rw [hledger.calls_eq, ← c.identifiers_endings]
  exact (List.reverse_perm _).trans (hledger.settled.filterMap _)

theorem Client.submission_of_mem_identifiers {client : Client} {cancelAt : Option Nat} {calls : List Call}
    {identifier : String} (hmem : identifier ∈ client.identifiers cancelAt calls) :
    ∃ earlier time payload, ⟨time, .submission payload⟩ ∈ calls ∧
      (client.submit earlier time payload).answer = .ok identifier := by
  obtain ⟨⟨arrival, answer⟩, hanswer, hgiven⟩ := List.mem_filterMap.mp hmem
  have hok : answer = .ok identifier := by
    dsimp only at hgiven
    split at hgiven
    · cases answer with
      | error cause => cases hgiven
      | ok given => exact congrArg Except.ok (Option.some.inj hgiven)
    · cases hgiven
  subst hok
  clear hmem hgiven
  induction calls with
  | nil => cases hanswer
  | cons call earlier ih =>
    have hlater : (arrival, Except.ok identifier) ∈ client.answers earlier →
        ∃ earlier' time payload, ⟨time, .submission payload⟩ ∈ call :: earlier ∧
          (client.submit earlier' time payload).answer = .ok identifier := by
      intro hmem
      obtain ⟨earlier', time, payload, hcall, hsubmit⟩ := ih hmem
      exact ⟨earlier', time, payload, List.mem_cons_of_mem _ hcall, hsubmit⟩
    obtain ⟨time, question⟩ := call
    cases question with
    | submission payload =>
      rcases List.mem_cons.mp hanswer with hfirst | hrest
      · exact ⟨earlier, time, payload, List.mem_cons_self, (congrArg Prod.snd hfirst).symm⟩
      · exact hlater hrest
    | sequence account => exact hlater hanswer
    | balance account => exact hlater hanswer
    | status other => exact hlater hanswer

/-! ### What was signed -/

variable [Writer ω]

/-- Every attempt carries what the signer made of its intent. -/
def Crew.Signed (c : RunContext) (k : Crew ω) : Prop :=
  ∀ a ∈ k.shared.attempts, ∃ key, a.signed = c.signer a.intent key

theorem Crew.Step.signed {c : RunContext} {k k' : Crew ω} (hstep : Crew.Step c k k')
    (hsigned : k.Signed c) : k'.Signed c := by
  cases hstep with
  | cancel => exact hsigned
  | @act cancelled s s' before after t t' hstep =>
    unfold Signed at hsigned ⊢
    dsimp only at hsigned ⊢
    rcases hstep.effect with ⟨waits, calls, mark, rfl, -⟩ | ⟨a, -, hkey, -, -, rfl, -⟩ |
      ⟨time, intent, fate, mark, notices, -, rfl, -⟩ | ⟨time, intent, identifier, notices, rfl, -⟩
    · exact hsigned
    · exact List.forall_mem_cons.mpr ⟨⟨t.worker.key, hkey⟩, hsigned⟩
    · exact hsigned
    · exact hsigned

/-! ### What was said -/

/-- The workers warn, but they report no error. -/
def Crew.Quiet (k : Crew ω) : Prop := ∀ notice ∈ k.shared.notices, notice.level ≠ .error

omit [Writer ω] in
theorem Shared.notices_fail (c : RunContext) (s : Shared ω) (w : Worker) (sequence : UInt64)
    (reason : String) : ∀ notice ∈ (s.fail c w sequence reason).notices,
      notice ∈ s.notices ∨ notice.level = .warn := by
  unfold Shared.fail
  dsimp only
  intro notice hnotice
  split at hnotice
  · rcases List.mem_cons.mp hnotice with rfl | hnotice
    · exact Or.inr rfl
    · exact Or.inl hnotice
  · exact Or.inl hnotice

theorem Shared.notices_accept (c : RunContext) (s : Shared ω) (w : Worker) (identifier : String) :
    ∀ notice ∈ (s.accept c w identifier).notices, notice ∈ s.notices ∨ notice.level = .warn := by
  unfold Shared.accept
  dsimp only
  intro notice hnotice
  split at hnotice
  · exact Or.inl hnotice
  · split at hnotice
    · rcases List.mem_cons.mp hnotice with rfl | hnotice
      · exact Or.inr rfl
      · exact Or.inl hnotice
    · exact Or.inl hnotice

theorem Thread.Step.notices {c : RunContext} {cancelled : Bool} {s s' : Shared ω} {t t' : Thread}
    (hstep : Thread.Step c cancelled s t s' t') :
    ∀ notice ∈ s'.notices, notice ∈ s.notices ∨ notice.level = .warn := by
  cases hstep with
  | draw now hprepare =>
    obtain ⟨intent, selector, -, -, rfl, -⟩ := Worker.prepare_eq hprepare
    exact fun _ hnotice => Or.inl hnotice
  | refuse now hsigned => exact Shared.notices_fail c _ _ _ _
  | accept now => exact Shared.notices_accept c _ _ _
  | reject now => exact Shared.notices_fail c _ _ _ _
  | abandon now hcancelled => exact Shared.notices_fail c _ _ _ _
  | _ => exact fun _ hnotice => Or.inl hnotice

theorem Crew.Step.quiet {c : RunContext} {k k' : Crew ω} (hstep : Crew.Step c k k') (hquiet : k.Quiet) :
    k'.Quiet := by
  cases hstep with
  | cancel => exact hquiet
  | act hstep =>
    intro notice hnotice
    rcases hstep.notices notice hnotice with hold | hwarn
    · exact hquiet notice hold
    · rw [hwarn]
      nofun

/-! ### The end of a run -/

namespace RunInput

section

variable (r : RunInput) (sink : ResultSink ω) (hsenders : 0 < r.senders.length)
  (hrecipients : 0 < r.recipients.length)

theorem quiet_engine : ∀ notice ∈ (r.engine sink hsenders hrecipients).shared.notices,
    notice.level ≠ .error := by
  refine engine_of_crew (P := fun s => ∀ notice ∈ s.notices, notice.level ≠ .error) fun k hreach => ?_
  refine hreach.keeps (P := Crew.Quiet) (fun _ _ hquiet hstep => hstep.quiet hquiet) ?_
  intro notice hnotice
  change notice ∈ r.opening at hnotice
  unfold opening at hnotice
  split at hnotice
  · simp only [List.mem_cons, List.not_mem_nil, or_false] at hnotice
    rcases hnotice with rfl | rfl <;> nofun
  · rw [List.mem_singleton] at hnotice
    subst hnotice
    nofun

theorem signed_engine : ∀ a ∈ (r.engine sink hsenders hrecipients).shared.attempts,
    ∃ key, a.signed = r.signer a.intent key := by
  refine engine_of_crew (P := fun s => ∀ a ∈ s.attempts, ∃ key, a.signed = r.signer a.intent key) ?_
  intro k hreach
  exact hreach.keeps (P := Crew.Signed (r.context hrecipients))
    (fun _ _ hsigned hstep => hstep.signed hsigned) (fun _ hmem => nomatch hmem)

theorem sink_engine : (r.engine sink hsenders hrecipients).shared.sink =
    sink.recordEach (acceptedIdentifiers (r.engine sink hsenders hrecipients).shared.settlements) := by
  rw [← recordAll_eq_recordEach]
  exact recorded_engine

theorem sent_engine (hfresh : sink.unrecorded = 0) :
    (r.report (r.engine sink hsenders hrecipients)).sent =
      (acceptedIdentifiers (r.engine sink hsenders hrecipients).shared.settlements).length := by
  have hadds : (r.report (r.engine sink hsenders hrecipients)).AddsUp r.settings _ := report_of_engine hfresh
  have houtcomes := (r.ledger_engine sink hsenders hrecipients).outcomes_eq
  rw [length_acceptedIdentifiers, hadds.sent_eq_accepted]
  exact congrArg Outcomes.accepted houtcomes.symm

end

/-- The file of an artifact that is closed behind its summary holds what the device held in the end. -/
theorem read_close {files files' : FileTree} {path : String} {header : RunHeader} {artifact : ArtifactFile}
    (hcreate : ArtifactFile.create files path header = (.ok artifact, files')) (identifiers : List String)
    (report : FinalReport) :
    (({ artifact with sink := ((artifact.sink.recordEach identifiers).writeSummary report).2 } :
        ArtifactFile).close files').read (.ofText path) =
      .ok ((artifact.sink.recordEach identifiers).writeSummary report).2.writer.close.content := by
  obtain ⟨hplace, hopen⟩ := ArtifactFile.opened_of_create hcreate
  refine (FileTree.created_of_createWithParents hplace).read_store fun hfull => ?_
  have hsealed : (files'.deviceAt artifact.place).Sealed := if_pos hfull
  rw [ResultSink.close_of_sealed hsealed hopen]
  rfl

/-- How a run that has a report came by its artifact: the header was written to a fresh device, then the
accepted identifiers and the summary, and the file holds what the device held in the end. -/
structure Wrote (r : RunInput) (report : FinalReport) (device : Device) (sink : ResultSink BufferedDevice) :
    Prop where
  fresh : device.content = []
  roomy : r.files.Roomy → device.room = none
  opened : ResultSink.open? { device } r.header = .ok sink
  sent : report.sent = (acceptedIdentifiers r.run.settlements).length
  unrecorded : report.unrecorded = (sink.recordEach (acceptedIdentifiers r.run.settlements)).unrecorded
  failed : (∃ cause, .summaryFailed cause ∈ r.run.notices) ↔
    ((sink.recordEach (acceptedIdentifiers r.run.settlements)).writeSummary report).1 ≠ .ok ()
  stored : r.run.files.read (.ofText r.settings.output) = .ok
    ((sink.recordEach (acceptedIdentifiers r.run.settlements)).writeSummary report).2.writer.close.content

theorem wrote_of_run {r : RunInput} {report : FinalReport} (hresult : r.run.result = .ok report) :
    ∃ device sink, r.Wrote report device sink := by
  obtain ⟨-, artifact, files, hsenders, hrecipients, hcreate, hrun, hreport⟩ := start_of_ok hresult
  obtain ⟨hplace, hopen⟩ := ArtifactFile.opened_of_create hcreate
  have hsink := sink_engine r artifact.sink hsenders hrecipients
  obtain ⟨notices, hconclude⟩ := conclude_eq (r.report (r.engine artifact.sink hsenders hrecipients))
    (r.engine artifact.sink hsenders hrecipients).shared
  have hsettlements : r.run.settlements =
      (r.engine artifact.sink hsenders hrecipients).shared.settlements := by
    rw [hrun]
    simp only [runInto, hconclude]
  have hfiles : r.run.files = ({ artifact with
      sink := ((r.engine artifact.sink hsenders hrecipients).shared.sink.writeSummary report).2 } :
        ArtifactFile).close files := by
    rw [hrun]
    simp only [runInto, hconclude, hreport]
  refine ⟨files.deviceAt artifact.place, artifact.sink, ?_⟩
  constructor
  · rfl
  · intro hroomy
    have hroomy' := hroomy.createWithParents r.settings.output
    rw [hplace] at hroomy'
    exact hroomy'.room_deviceAt artifact.place
  · exact hopen
  · rw [hreport, hsettlements]
    exact sent_engine r _ hsenders hrecipients (ResultSink.unrecorded_of_open? hopen)
  · rw [hreport, hsettlements, ← hsink]
    rfl
  · rw [hsettlements, ← hsink, hrun, hreport]
    exact summaryFailed_mem_conclude _ (quiet_engine r _ hsenders hrecipients)
  · rw [hfiles, hsettlements, hsink]
    exact read_close hcreate _ report

theorem Wrote.summary_eq_ok {r : RunInput} {report : FinalReport} {device : Device}
    {sink : ResultSink BufferedDevice} (hwrote : r.Wrote report device sink)
    (hwritten : ∀ cause, .summaryFailed cause ∉ r.run.notices) :
    ((sink.recordEach (acceptedIdentifiers r.run.settlements)).writeSummary report).1 = .ok () := by
  by_contra hfailed
  obtain ⟨cause, hmem⟩ := hwrote.failed.mpr hfailed
  exact hwritten cause hmem

/-- When a run does not complain about its summary, the file at its output path ends with it. -/
theorem summary_of_run {r : RunInput} {report : FinalReport} (hresult : r.run.result = .ok report)
    (hwritten : ∀ cause, .summaryFailed cause ∉ r.run.notices) :
    ∃ before, r.run.files.read (.ofText r.settings.output) =
      .ok (before ++ Text.Utf8.encode report.summaryText) := by
  obtain ⟨device, sink, hwrote⟩ := wrote_of_run hresult
  have hok := hwrote.summary_eq_ok hwritten
  rcases hsummary : (sink.recordEach (acceptedIdentifiers r.run.settlements)).writeSummary report with
    ⟨result, after⟩
  rw [hsummary] at hok
  obtain rfl : result = .ok () := hok
  obtain ⟨hcontent, hempty⟩ := ResultSink.content_of_writeSummary hsummary
  refine ⟨(sink.recordEach (acceptedIdentifiers r.run.settlements)).writer.given, ?_⟩
  rw [hwrote.stored, hsummary, BufferedDevice.content_close hempty, hcontent]

/-- Where there is room for everything, no summary fails. -/
theorem summary_of_roomy {r : RunInput} {report : FinalReport} (hresult : r.run.result = .ok report)
    (hroomy : r.files.Roomy) (cause : Failure) : .summaryFailed cause ∉ r.run.notices := by
  obtain ⟨device, sink, hwrote⟩ := wrote_of_run hresult
  obtain ⟨sink', hopen, -, hgood, -⟩ := ResultSink.open?_never_fails BufferedDevice.takes
    BufferedDevice.neverFails (w := { device }) (hwrote.roomy hroomy) r.header
  obtain rfl : sink' = sink := Except.ok.inj (hopen.symm.trans hwrote.opened)
  obtain ⟨-, hgood', -⟩ := ResultSink.recordEach_never_fails BufferedDevice.takes BufferedDevice.neverFails
    hgood (acceptedIdentifiers r.run.settlements)
  obtain ⟨after, hsummary, -, -⟩ := ResultSink.writeSummary_never_fails BufferedDevice.takes
    BufferedDevice.neverFails hgood' report
  intro hfailed
  refine hwrote.failed.mp ⟨cause, hfailed⟩ ?_
  rw [hsummary]

/-- The accepted identifiers of a run are those that its client gave in time. -/
theorem identifiers_run (r : RunInput) :
    (acceptedIdentifiers r.run.settlements).Perm (r.client.identifiers r.cancelAt r.run.calls) := by
  rcases r.run_cases with ⟨cause, files, hrun⟩ | ⟨artifact, files, hsenders, hrecipients, -, hrun⟩
  · rw [hrun]
    exact List.Perm.refl _
  · obtain ⟨files', notices, hrecord⟩ := r.runInto_eq artifact files hsenders hrecipients
    rw [hrun, hrecord]
    exact (r.ledger_engine artifact.sink hsenders hrecipients).identifiers_perm

/-- What was submitted in a run had been signed by its signer. -/
theorem signed_run {r : RunInput} {time : Nat} {payload : SignedPayload}
    (hcall : ⟨time, .submission payload⟩ ∈ r.run.calls) : ∃ intent key, r.signer intent key = .ok payload := by
  rcases r.run_cases with ⟨cause, files, hrun⟩ | ⟨artifact, files, hsenders, hrecipients, -, hrun⟩
  · rw [hrun] at hcall
    cases hcall
  · obtain ⟨files', notices, hrecord⟩ := r.runInto_eq artifact files hsenders hrecipients
    rw [hrun, hrecord] at hcall
    change _ ∈ (r.engine artifact.sink hsenders hrecipients).shared.calls at hcall
    rw [(r.ledger_engine artifact.sink hsenders hrecipients).calls_eq] at hcall
    obtain ⟨a, ha, hmade⟩ := List.mem_filterMap.mp hcall
    obtain ⟨key, hsigned⟩ := signed_engine r artifact.sink hsenders hrecipients a ha
    unfold Attempt.call? at hmade
    split at hmade
    · rename_i payload' hpayload
      cases hmade
      exact ⟨a.intent, key, hsigned.symm.trans hpayload⟩
    · cases hmade

/-- Each accepted identifier is one that the client gave for something which the signer had signed. -/
theorem submission_of_mem_accepted {r : RunInput} {identifier : String}
    (hmem : identifier ∈ acceptedIdentifiers r.run.settlements) :
    ∃ earlier time payload, (r.client.submit earlier time payload).answer = .ok identifier ∧
      ∃ intent key, r.signer intent key = .ok payload := by
  obtain ⟨earlier, time, payload, hcall, hanswer⟩ :=
    Client.submission_of_mem_identifiers (r.identifiers_run.mem_iff.mp hmem)
  exact ⟨earlier, time, payload, hanswer, signed_run hcall⟩

end RunInput

end TransferLoad
