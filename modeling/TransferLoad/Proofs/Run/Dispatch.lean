import TransferLoad.Proofs.Artifact.Sink
import TransferLoad.Run.Dispatch

/-!
# Runs that start

A run either fails before its workers start, and then nothing has happened, or it leaves behind what
the engine came to. Writing the summary changes the artifact and the notices and nothing else.
-/

namespace TransferLoad

/-- An artifact that was created is a file with a header in its buffer or behind it. -/
theorem ArtifactFile.opened_of_create {files files' : FileTree} {path : String} {header : RunHeader}
    {artifact : ArtifactFile} (hcreate : ArtifactFile.create files path header = (.ok artifact, files')) :
    files.createWithParents path = (.ok artifact.place, files') ∧
      ResultSink.open? { device := files'.deviceAt artifact.place } header = .ok artifact.sink := by
  unfold ArtifactFile.create at hcreate
  split at hcreate
  · cases hcreate
  · rename_i place created hplace
    dsimp only at hcreate
    split at hcreate
    · rename_i hopen
      cases hcreate
      exact ⟨hplace, hopen⟩
    · cases hcreate

namespace RunInput

/-- What keeps a run from starting, with the files that it leaves: the first of four checks that fails.
Only the last one touches a file. -/
inductive Obstacle (r : RunInput) : Failure → FileTree → Prop where
  | settings {cause : Failure} (hinvalid : r.settings.validate = .error cause) : Obstacle r cause r.files
  | senders (hvalid : r.settings.validate = .ok ()) (hnone : ¬ 0 < r.senders.length) :
      Obstacle r (.invalidConfig "no sender accounts") r.files
  | recipients (hvalid : r.settings.validate = .ok ()) (hsenders : 0 < r.senders.length)
      (hnone : ¬ 0 < r.recipients.length) : Obstacle r (.invalidConfig "no recipient accounts") r.files
  | artifact {cause : Failure} {files : FileTree} (hvalid : r.settings.validate = .ok ())
      (hsenders : 0 < r.senders.length) (hrecipients : 0 < r.recipients.length)
      (hcreate : ArtifactFile.create r.files r.settings.output r.header = (.error cause, files)) :
      Obstacle r cause files

theorem run_of_obstacle {r : RunInput} {cause : Failure} {files : FileTree}
    (hobstacle : r.Obstacle cause files) : r.run = r.refusal cause files := by
  cases hobstacle with
  | settings hinvalid => simp only [run, hinvalid]
  | senders hvalid hnone => simp only [run, hvalid, dif_neg hnone]
  | recipients hvalid hsenders hnone => simp only [run, hvalid, dif_pos hsenders, dif_neg hnone]
  | artifact hvalid hsenders hrecipients hcreate =>
    simp only [run, hvalid, dif_pos hsenders, dif_pos hrecipients, hcreate]

theorem run_of_start {r : RunInput} {artifact : ArtifactFile} {files : FileTree}
    (hvalid : r.settings.validate = .ok ()) (hsenders : 0 < r.senders.length) (hrecipients : 0 < r.recipients.length)
    (hcreate : ArtifactFile.create r.files r.settings.output r.header = (.ok artifact, files)) :
    r.run = r.runInto artifact files hsenders hrecipients := by
  simp only [run, hvalid, dif_pos hsenders, dif_pos hrecipients, hcreate]

/-- A run meets an obstacle, or it passes all four checks and goes into a new artifact. -/
theorem obstacle_or_start (r : RunInput) :
    (∃ cause files, r.Obstacle cause files) ∨
      r.settings.validate = .ok () ∧ ∃ artifact files hsenders hrecipients,
        ArtifactFile.create r.files r.settings.output r.header = (.ok artifact, files) ∧
        r.run = r.runInto artifact files hsenders hrecipients := by
  cases hvalid : r.settings.validate with
  | error cause => exact Or.inl ⟨_, _, .settings hvalid⟩
  | ok _ =>
    by_cases hsenders : 0 < r.senders.length
    · by_cases hrecipients : 0 < r.recipients.length
      · rcases hcreate : ArtifactFile.create r.files r.settings.output r.header with ⟨cause | artifact, files⟩
        · exact Or.inl ⟨_, _, .artifact hvalid hsenders hrecipients hcreate⟩
        · exact Or.inr ⟨rfl, artifact, files, hsenders, hrecipients, rfl,
            run_of_start hvalid hsenders hrecipients hcreate⟩
      · exact Or.inl ⟨_, _, .recipients hvalid hsenders hrecipients⟩
    · exact Or.inl ⟨_, _, .senders hvalid hsenders⟩

/-- A run either does not start, or goes into a new artifact. -/
theorem run_cases (r : RunInput) :
    (∃ cause files, r.run = r.refusal cause files) ∨
      ∃ artifact files hsenders hrecipients,
        ArtifactFile.create r.files r.settings.output r.header = (.ok artifact, files) ∧
        r.run = r.runInto artifact files hsenders hrecipients := by
  rcases r.obstacle_or_start with ⟨cause, files, hobstacle⟩ | ⟨-, hstart⟩
  · exact Or.inl ⟨cause, files, run_of_obstacle hobstacle⟩
  · exact Or.inr hstart

/-- What a run leaves behind whose workers have come to their ends. -/
def recordOf {ω : Type} (r : RunInput) (e : Engine ω) (files : FileTree) (notices : List Notice) :
    RunRecord where
  result := .ok (r.report e)
  senders := List.zipWith (fun a counter => { a with sequence := counter }) r.senders e.shared.counters
  files
  calls := e.shared.calls
  attempts := e.shared.attempts
  settlements := e.shared.settlements
  console := e.console
  notices

/-- What the end of a run does: it warns of identifiers that are missing, writes the summary, reports it
when that fails, and says that the run is over. -/
theorem conclude_cases {ω : Type} [Writer ω] (report : FinalReport) (s : Shared ω) :
    ∃ warnings last : List Notice, (∀ notice ∈ warnings ++ last, notice.level ≠ .error) ∧
      ((∃ sink, s.sink.writeSummary report = (.ok (), sink) ∧
          conclude report s = { s with sink, notices := last ++ (warnings ++ s.notices) }) ∨
        ∃ cause sink, s.sink.writeSummary report = (.error cause, sink) ∧
          conclude report s = { s with
            sink, notices := last ++ .summaryFailed (.io cause) :: (warnings ++ s.notices) }) := by
  let last : List Notice :=
    [.finished report.sent report.errors report.actualTps report.deviation report.interrupted]
  by_cases hmissing : 0 < report.unrecorded
  · refine ⟨[.identifiersMissing report.unrecorded], last, ?_, ?_⟩
    · simp [last, Notice.level]
    · unfold conclude
      rw [if_pos hmissing]
      dsimp only [Shared.notify]
      rcases s.sink.writeSummary report with ⟨cause | _, sink⟩
      · exact Or.inr ⟨cause, sink, rfl, rfl⟩
      · exact Or.inl ⟨sink, rfl, rfl⟩
  · refine ⟨[], last, ?_, ?_⟩
    · simp [last, Notice.level]
    · unfold conclude
      rw [if_neg hmissing]
      dsimp only [Shared.notify]
      rcases s.sink.writeSummary report with ⟨cause | _, sink⟩
      · exact Or.inr ⟨cause, sink, rfl, rfl⟩
      · exact Or.inl ⟨sink, rfl, rfl⟩

theorem conclude_eq {ω : Type} [Writer ω] (report : FinalReport) (s : Shared ω) :
    ∃ notices, conclude report s = { s with sink := (s.sink.writeSummary report).2, notices } := by
  obtain ⟨warnings, last, -, hcases⟩ := conclude_cases report s
  rcases hcases with ⟨sink, hsummary, hconclude⟩ | ⟨cause, sink, hsummary, hconclude⟩
  all_goals rw [hconclude, hsummary]
  all_goals exact ⟨_, rfl⟩

/-- The summary is reported as failed exactly if it failed, when nothing else was an error. -/
theorem summaryFailed_mem_conclude {ω : Type} [Writer ω] (report : FinalReport) {s : Shared ω}
    (hquiet : ∀ notice ∈ s.notices, notice.level ≠ .error) :
    (∃ cause, .summaryFailed cause ∈ (conclude report s).notices) ↔
      (s.sink.writeSummary report).1 ≠ .ok () := by
  obtain ⟨warnings, last, hlevels, hcases⟩ := conclude_cases report s
  rcases hcases with ⟨sink, hsummary, hconclude⟩ | ⟨cause, sink, hsummary, hconclude⟩
  · rw [hconclude, hsummary]
    refine iff_of_false ?_ (fun hfailed => hfailed rfl)
    rintro ⟨cause, hmem⟩
    rw [List.forall_mem_append] at hlevels
    have hnone : ∀ notice ∈ last ++ (warnings ++ s.notices), notice.level ≠ .error := by
      simp only [List.forall_mem_append]
      exact ⟨hlevels.2, hlevels.1, hquiet⟩
    exact hnone _ hmem rfl
  · rw [hconclude, hsummary]
    exact iff_of_true ⟨_, List.mem_append_right _ List.mem_cons_self⟩ nofun

theorem runInto_eq (r : RunInput) (artifact : ArtifactFile) (files : FileTree)
    (hsenders : 0 < r.senders.length) (hrecipients : 0 < r.recipients.length) :
    ∃ files' notices, r.runInto artifact files hsenders hrecipients =
      r.recordOf (r.engine artifact.sink hsenders hrecipients) files' notices := by
  obtain ⟨notices, hconclude⟩ := conclude_eq (r.report (r.engine artifact.sink hsenders hrecipients))
    (r.engine artifact.sink hsenders hrecipients).shared
  simp only [runInto, hconclude]
  exact ⟨_, _, rfl⟩

/-- A run that has a report went into a new artifact, and the report is about what the engine came to there. -/
theorem start_of_ok {r : RunInput} {report : FinalReport} (hresult : r.run.result = .ok report) :
    r.settings.validate = .ok () ∧ ∃ artifact files hsenders hrecipients,
      ArtifactFile.create r.files r.settings.output r.header = (.ok artifact, files) ∧
      r.run = r.runInto artifact files hsenders hrecipients ∧
      report = r.report (r.engine artifact.sink hsenders hrecipients) := by
  rcases r.obstacle_or_start with ⟨cause, files, hobstacle⟩ |
    ⟨hvalid, artifact, files, hsenders, hrecipients, hcreate, hrun⟩
  · rw [run_of_obstacle hobstacle] at hresult
    cases hresult
  · rw [hrun] at hresult
    exact ⟨hvalid, artifact, files, hsenders, hrecipients, hcreate, hrun, (Except.ok.inj hresult).symm⟩

/-- A run that has a report leaves behind what the engine came to with a fresh artifact. -/
theorem run_of_ok {r : RunInput} {report : FinalReport} (hresult : r.run.result = .ok report) :
    ∃ (sink : ResultSink BufferedDevice) (hsenders : 0 < r.senders.length)
      (hrecipients : 0 < r.recipients.length) (files : FileTree) (notices : List Notice),
      sink.unrecorded = 0 ∧ report = r.report (r.engine sink hsenders hrecipients) ∧
        r.run = r.recordOf (r.engine sink hsenders hrecipients) files notices := by
  obtain ⟨-, artifact, files, hsenders, hrecipients, hcreate, hrun, hreport⟩ := start_of_ok hresult
  have hfresh := ResultSink.unrecorded_of_open? (ArtifactFile.opened_of_create hcreate).2
  obtain ⟨files', notices, hrecord⟩ := r.runInto_eq artifact files hsenders hrecipients
  exact ⟨artifact.sink, hsenders, hrecipients, files', notices, hfresh, hreport, hrun.trans hrecord⟩

theorem senders_run_of_error {r : RunInput} {cause : Failure} (hresult : r.run.result = .error cause) :
    r.run.senders = r.senders := by
  rcases r.run_cases with ⟨cause', files, hrun⟩ | ⟨artifact, files, hsenders, hrecipients, -, hrun⟩
  · rw [hrun]
    rfl
  · rw [hrun] at hresult
    cases hresult

theorem getElem?_senders_recordOf {ω : Type} {r : RunInput} {position : Nat} {account : Account}
    (haccount : r.senders[position]? = some account) (e : Engine ω) (files : FileTree)
    (notices : List Notice) :
    (r.recordOf e files notices).senders[position]? =
      e.shared.counters[position]?.map fun counter => { account with sequence := counter } := by
  rw [recordOf, List.getElem?_zipWith, haccount]
  cases e.shared.counters[position]? <;> rfl

end RunInput

/-! ### A small run -/

/-- The client that gives every submission the same answer after the same time. -/
def Client.steady (latency : Nat) (answer : Except Failure String) : Client where
  submit _ _ _ := { latency, answer }
  sequence _ _ _ := { answer := .ok 0 }
  balance _ _ _ := { answer := .ok 0 }
  status _ _ _ := { answer := .ok .unknown }

/-- One worker that makes two transfers, half a second apart. -/
def RunInput.small (client : Client) (cancelAt : Option Nat := none) : RunInput where
  settings := { targetTps := 2, durationSecs := 1, workers := 1, output := "out" }
  senders := [.ofSeed []]
  recipients := [⟨⟨List.replicate 32 0, rfl⟩⟩]
  client
  signer _ _ := .ok ⟨[], ""⟩
  cancelAt
  startedAt := ⟨0, 0⟩

/-- What can be read off a report shows that there is one. -/
theorem ok_of_map_eq_some {α β : Type} {result : Except Failure α} {f : α → β} {b : β}
    (hread : (result.map f).toOption = some b) : ∃ a, result = .ok a ∧ f a = b := by
  cases result with
  | error cause => cases hread
  | ok a => exact ⟨a, rfl, Option.some.inj hread⟩

end TransferLoad
