import TransferLoad.Proofs.Run.ReadBack
import TransferLoad.Proofs.Verification.Lookups

/-!
# Verifying a run

What a run leaves behind and what verification takes up meet at the text of the artifact. A run that could
write down everything leaves a whole artifact, with a line for each transfer that was accepted in time; from a
whole artifact verification reads these identifiers and asks about each of them once. So when the node knows
what it accepted, the report of the verification has the number that the run reported, and nothing is missing.

Nothing is said about when the run ended. One that was interrupted has accepted less, and reports less.
-/

namespace TransferLoad

open Text.Utf8 (encode decode)

namespace VerificationReport

/-- A report on some identifiers of which none is missing. -/
structure FindsAll (v : VerificationReport) (identifiers : List String) : Prop where
  total : v.total = identifiers.length
  known : v.known = identifiers.length
  unknown : v.unknown = 0
  failed : v.failed = 0
  samples_length : v.samples.length = min 10 identifiers.length
  samples_count : ∀ sample, v.samples.count sample ≤ identifiers.count sample

theorem Covers.findsAll {v : VerificationReport} {answers : Answers} {identifiers : List String}
    (hcovers : v.Covers answers identifiers)
    (hanswers : ∀ identifier ∈ identifiers, answers identifier = .ok .known) : v.FindsAll identifiers := by
  have hknown : v.known = identifiers.length := by
    rw [hcovers.known, pass_eq]
    refine List.countP_eq_length.mpr fun identifier hmem => ?_
    exact decide_eq_true (hanswers identifier hmem)
  have hchecked := hcovers.checked
  rw [hcovers.total, hknown] at hchecked
  exact
    { total := hcovers.total
      known := hknown
      unknown := by omega
      failed := by omega
      samples_length := hknown ▸ hcovers.samples_length
      samples_count := hcovers.samples_count }

theorem FindsAll.of_perm {v : VerificationReport} {identifiers identifiers' : List String}
    (hfinds : v.FindsAll identifiers) (hperm : identifiers.Perm identifiers') : v.FindsAll identifiers' := by
  obtain ⟨htotal, hknown, hunknown, hfailed, hlength, hcount⟩ := hfinds
  rw [hperm.length_eq] at htotal hknown hlength
  refine ⟨htotal, hknown, hunknown, hfailed, hlength, fun sample => ?_⟩
  rw [← hperm.count_eq]
  exact hcount sample

end VerificationReport

/-- A client that says of some identifiers that it knows them, sooner or later. -/
def Client.Knows (client : Client) (identifiers : List String) : Prop :=
  client.GivesAnswers (fun _ => .ok .known) identifiers

/-- Verification of the artifact at a path finds some identifiers, however many lookups are made at a time. -/
def Client.Confirms (client : Client) (files : FileTree) (path : String) (identifiers : List String) : Prop :=
  ∀ concurrency j, ∃ v j',
    verifyArtifact client files path concurrency j = (.ok v, j') ∧ v.FindsAll identifiers

/-- When the artifact is a text, what is read from it is looked up. -/
theorem verifyArtifact_eq {files : FileTree} {path contents : String}
    (hread : files.read (.ofText path) = .ok (encode contents)) (client : Client) (concurrency : Nat)
    (j : Journal) :
    let identifiers := readIdentifiers contents
    let (report, j') := verifyIdentifiers client identifiers concurrency
      (j.notify (.verifying identifiers.length path))
    verifyArtifact client files path concurrency j = (.ok report, j') := by
  delta verifyArtifact
  simp only [hread, Text.Utf8.decode_encode]

/-- In a whole artifact, verification finds all identifiers that the node knows. -/
theorem confirms_artifactText {node : Client} {files : FileTree} {path : String} {header : RunHeader}
    {identifiers : List String} {reports : List FinalReport}
    (hread : files.read (.ofText path) = .ok (encode (artifactText header identifiers reports)))
    (hheader : header.Unbroken) (hrecordable : ∀ identifier ∈ identifiers, Recordable identifier)
    (hknows : node.Knows identifiers) : node.Confirms files path identifiers := by
  have hidentifiers : readIdentifiers (artifactText header identifiers reports) = identifiers := by
    rw [readIdentifiers_artifactText hheader]
    exact flatMap_readIdentifiers_eq_self_iff.mpr hrecordable
  intro concurrency j
  have hverify := verifyArtifact_eq hread node concurrency j
  rw [hidentifiers] at hverify
  exact ⟨_, _, hverify, (covers_of_verifyIdentifiers hknows _ _).findsAll fun _ _ => rfl⟩

/-- The client that says after a while that it knows the identifier. -/
def Client.knowing : Client :=
  { steady 0 (.ok "") with status := fun _ _ _ => { latency := 3, answer := .ok .known } }

namespace RunInput

/-- A run that was written down without complaint can be verified, however long it was and whatever was
refused, rejected or abandoned in it: when the node knows the identifiers that it gave in time, verification
finds all of them, as many as the run reports as sent. Neither the order in which the workers took their
steps nor the number of lookups at a time matters, nor how long any of them takes. -/
theorem verify_run (r : RunInput) (node : Client) (hlabel : '\n' ∉ r.settings.label.toList) :
    (∀ report, r.run.result = .ok report → (∀ cause, .summaryFailed cause ∉ r.run.notices) →
      let identifiers := r.client.identifiers r.cancelAt r.run.calls
      (∀ identifier ∈ identifiers, Recordable identifier) → node.Knows identifiers →
      identifiers.length = report.sent ∧ node.Confirms r.run.files r.settings.output identifiers) ∧
    ∀ (artifact : ArtifactFile) (files : FileTree) (hsenders : 0 < r.senders.length)
      (hrecipients : 0 < r.recipients.length) (k : Crew BufferedDevice) (now : Nat),
      ArtifactFile.create r.files r.settings.output r.header = (.ok artifact, files) →
      Crew.Reaches (r.context hrecipients) (r.crew artifact.sink hsenders) k → k.Finished →
      let report := r.report (k.toEngine now)
      let summary := k.shared.sink.writeSummary report
      let identifiers := acceptedIdentifiers k.shared.settlements
      summary.1 = .ok () → (∀ identifier ∈ identifiers, Recordable identifier) → node.Knows identifiers →
      identifiers.length = report.sent ∧
        node.Confirms (({ artifact with sink := summary.2 } : ArtifactFile).close files) r.settings.output
          identifiers := by
  refine ⟨?_, ?_⟩
  · intro report hresult hwritten identifiers hrecordable hknows
    obtain ⟨hread, hsent⟩ := artifact_of_run hresult hwritten
    have hperm : (acceptedIdentifiers r.run.settlements).Perm identifiers := r.identifiers_run
    have hconfirms := confirms_artifactText hread (unbroken_header hlabel)
      (fun identifier hmem => hrecordable identifier (hperm.mem_iff.mp hmem))
      (fun identifier hmem => hknows identifier (hperm.mem_iff.mp hmem))
    refine ⟨hperm.length_eq.symm.trans hsent.symm, fun concurrency j => ?_⟩
    obtain ⟨v, j', hverify, hfinds⟩ := hconfirms concurrency j
    exact ⟨v, j', hverify, hfinds.of_perm hperm⟩
  · intro artifact files hsenders hrecipients k now hcreate hreach hfinished report summary identifiers hok
      hrecordable hknows
    have hsink : k.shared.sink = artifact.sink.recordEach identifiers := by
      rw [← recordAll_eq_recordEach]
      exact recorded_of_crew hreach
    obtain ⟨-, hopen⟩ := ArtifactFile.opened_of_create hcreate
    have hadds : report.AddsUp r.settings k.shared.outcomes :=
      report_of_crew (ResultSink.unrecorded_of_open? hopen) hreach hfinished now
    have hlength : identifiers.length = report.sent :=
      (length_acceptedIdentifiers _).trans hadds.sent_eq_accepted.symm
    simp only [summary, hsink] at hok ⊢
    have hread := read_close hcreate identifiers report
    rw [content_of_summary rfl hopen hok] at hread
    exact ⟨hlength, confirms_artifactText hread (unbroken_header hlabel) hrecordable hknows⟩

/-- A run of two transfers that is cancelled after the first. -/
def cutShort : RunInput := small (.steady 10 (.ok "0xfeed")) (some 100)

theorem verify_run_cutShort :
    ∃ report, cutShort.run.result = .ok report ∧ report.interrupted = true ∧ report.sent = 1 ∧
      Client.knowing.Confirms cutShort.run.files "out" ["0xfeed"] := by
  have hreport : (cutShort.run.result.map fun report => (report.interrupted, report.sent)).toOption =
      some (true, 1) := by
    decide +kernel
  have hidentifiers : cutShort.client.identifiers cutShort.cancelAt cutShort.run.calls = ["0xfeed"] := by
    decide +kernel
  obtain ⟨report, hresult, hfields⟩ := ok_of_map_eq_some hreport
  obtain ⟨hinterrupted, hsent⟩ := Prod.mk.inj hfields
  have hroomy : cutShort.files.Roomy := FileTree.roomy_empty
  have hverify := (cutShort.verify_run .knowing (by decide)).1 report hresult (summary_of_roomy hresult hroomy)
  rw [hidentifiers] at hverify
  have hplain : Plain "0xfeed" := ⟨by simp, by simp, by simp⟩
  obtain ⟨-, hconfirms⟩ := hverify (by simp [hplain.recordable]) fun _ _ _ _ => rfl
  exact ⟨report, hresult, hinterrupted, hsent, hconfirms⟩

end RunInput

end TransferLoad
