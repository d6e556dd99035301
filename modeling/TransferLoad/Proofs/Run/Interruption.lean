import TransferLoad.Proofs.Artifact.Summary
import TransferLoad.Proofs.Run.Artifact

/-!
# What an interrupted run leaves behind

A cancelled run ends at its cancellation, marks the workers that it has cut short, and closes its artifact
with a summary like any other run. The summary has a line about the interruption exactly if a worker is marked.
-/

namespace TransferLoad

namespace RunInput

/-- A cancelled run begins nothing and waits for nothing after the cancellation; its workers are marked,
and its summary, with which the file at its output path ends, says that it was interrupted, exactly if that
cost something. -/
theorem cancelled_run (r : RunInput) {time : Nat} (hcancel : r.cancelAt = some time) :
    (∀ (ω : Type) [Writer ω] (sink : ResultSink ω) (hsenders : 0 < r.senders.length)
      (hrecipients : 0 < r.recipients.length),
      r.CancelledAt time sink (r.untilCancelled sink hsenders hrecipients)
        (r.engine sink hsenders hrecipients)) ∧
    ∀ report, r.run.result = .ok report →
      (∃ (sink : ResultSink BufferedDevice) (hsenders : 0 < r.senders.length)
        (hrecipients : 0 < r.recipients.length) (files : FileTree) (notices : List Notice),
        r.run = r.recordOf (r.engine sink hsenders hrecipients) files notices ∧
        report = r.report (r.engine sink hsenders hrecipients) ∧
        r.CancelledAt time sink (r.untilCancelled sink hsenders hrecipients)
          (r.engine sink hsenders hrecipients)) ∧
      ((∀ cause, .summaryFailed cause ∉ r.run.notices) →
        ∃ before, r.run.files.read (.ofText r.settings.output) =
          .ok (before ++ Text.Utf8.encode report.summaryText)) ∧
      (FinalReport.interruptedLine.toList ∈ splitLines report.summaryText.toList ↔
        report.interrupted = true) := by
  refine ⟨?_, fun report hresult => ⟨?_, summary_of_run hresult, report.interruptedLine_mem_summary⟩⟩
  · intro ω _ sink hsenders hrecipients
    exact cancelledAt_engine hcancel
  · obtain ⟨sink, hsenders, hrecipients, files, notices, -, hreport, hrun⟩ := run_of_ok hresult
    exact ⟨sink, hsenders, hrecipients, files, notices, hrun, hreport, cancelledAt_engine hcancel⟩

/-- The cancellation comes while the second of two transfers is in flight. -/
theorem cancelled_run_small :
    ∃ report, (small (.steady 10 (.ok "a")) (some 505)).run.result = .ok report ∧
      report.sent = 1 ∧ report.errors = 1 ∧ report.totalTime = nanosOfMillis 505 ∧
      FinalReport.interruptedLine.toList ∈ splitLines report.summaryText.toList ∧
      (∃ before, (small (.steady 10 (.ok "a")) (some 505)).run.files.read (.ofText "out") =
        .ok (before ++ Text.Utf8.encode report.summaryText)) ∧
      ∃ (sink : ResultSink BufferedDevice) (hsenders : 0 < 1) (hrecipients : 0 < 1),
        (small (.steady 10 (.ok "a")) (some 505)).CancelledAt 505 sink
          ((small (.steady 10 (.ok "a")) (some 505)).untilCancelled sink hsenders hrecipients)
          ((small (.steady 10 (.ok "a")) (some 505)).engine sink hsenders hrecipients) := by
  have hfacts : ((small (.steady 10 (.ok "a")) (some 505)).run.result.map fun report =>
      (report.sent, report.errors, report.totalTime, report.interrupted)).toOption =
      some (1, 1, nanosOfMillis 505, true) := by
    decide +kernel
  obtain ⟨report, hresult, hfacts'⟩ := ok_of_map_eq_some hfacts
  simp only [Prod.mk.injEq] at hfacts'
  obtain ⟨hsent, herrors, htime, hinterrupted⟩ := hfacts'
  have hcancel : (small (.steady 10 (.ok "a")) (some 505)).cancelAt = some 505 := rfl
  obtain ⟨⟨sink, hsenders, hrecipients, -, -, -, -, hcancelled⟩, hsummary, hline⟩ :=
    (RunInput.cancelled_run (small (.steady 10 (.ok "a")) (some 505)) hcancel).2 report hresult
  have hwritten := summary_of_roomy hresult FileTree.roomy_empty
  exact ⟨report, hresult, hsent, herrors, htime, hline.mpr hinterrupted, hsummary hwritten, sink, hsenders,
    hrecipients, hcancelled⟩

end RunInput

end TransferLoad
