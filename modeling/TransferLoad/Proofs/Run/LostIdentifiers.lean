import TransferLoad.Proofs.Artifact.LostLines
import TransferLoad.Proofs.Run.Artifact

/-!
# Identifiers that are lost

A run writes through a buffer, so an identifier may be missing from the file without having been counted as
unrecorded: its line was taken by the buffer and never reached the file. The file then holds the first
accepted identifiers only, at most a buffer of them is missing without being counted, and the run reports
that its summary failed. Without such a report none is missing.
-/

namespace TransferLoad

open Text.Utf8 (encode)

namespace RunInput

/-- The complete lines that a run leaves in its file, wherever the file begins to refuse bytes: those of
the first accepted identifiers, as many as were sent and not counted as unrecorded, unless the summary is
reported as failed; then they may be fewer, by a buffer at most. -/
theorem lost_identifiers (r : RunInput) {report : FinalReport} (hresult : r.run.result = .ok report)
    (hrecordable : ∀ earlier now payload identifier,
      (r.client.submit earlier now payload).answer = .ok identifier → Recordable identifier) :
    ∃ content count, r.run.files.read (.ofText r.settings.output) = .ok content ∧
      closedIdentifiers (content.drop (encode r.header.text).length) =
        (acceptedIdentifiers r.run.settlements).take count ∧
      count + report.unrecorded ≤ report.sent ∧
      report.sent ≤ count + report.unrecorded + bufferSize ∧
      (count + report.unrecorded ≠ report.sent → ∃ cause, .summaryFailed cause ∈ r.run.notices) := by
  obtain ⟨device, sink, hwrote⟩ := wrote_of_run hresult
  have haccepted : ∀ identifier ∈ acceptedIdentifiers r.run.settlements, Recordable identifier := by
    intro identifier hmem
    obtain ⟨earlier, time, payload, hanswer, -⟩ := submission_of_mem_accepted hmem
    exact hrecordable earlier time payload identifier hanswer
  obtain ⟨count, hlines, hupper, hlower, hcomplete⟩ :=
    ResultSink.lines_of_closed hwrote.fresh hwrote.opened haccepted report
  rw [← hwrote.unrecorded, ← hwrote.sent] at hupper hlower hcomplete
  refine ⟨_, count, hwrote.stored, hlines, hupper, hlower, fun hmissing => ?_⟩
  exact hwrote.failed.mpr fun hok => hmissing (hcomplete hok)

/-- A run into a device that takes nothing: both identifiers are lost, and none is counted. -/
def intoFullDevice : RunInput :=
  { small (.steady 10 (.ok "a")) with
    settings := { targetTps := 2, durationSecs := 1, workers := 1, output := "/dev/full" }
    files := { entries := [(["dev"], .directory), (["dev", "full"], .full)] } }

theorem lost_identifiers_full :
    ∃ report, intoFullDevice.run.result = .ok report ∧ report.sent = 2 ∧ report.unrecorded = 0 ∧
      intoFullDevice.run.files.read (.ofText "/dev/full") = .ok [] ∧ closedIdentifiers [] = [] ∧
      ∃ cause, .summaryFailed cause ∈ intoFullDevice.run.notices := by
  have hcounts : (intoFullDevice.run.result.map fun report => (report.sent, report.unrecorded)).toOption =
      some (2, 0) := by
    decide +kernel
  have hread : intoFullDevice.run.files.read (.ofText "/dev/full") = .ok [] := by
    decide +kernel
  have haccepted : acceptedIdentifiers intoFullDevice.run.settlements = ["a", "a"] := by
    decide +kernel
  obtain ⟨report, hresult, hcounts'⟩ := ok_of_map_eq_some hcounts
  obtain ⟨hsent, hunrecorded⟩ := Prod.mk.inj hcounts'
  have hplain : Plain "a" := ⟨by simp, by simp, by simp⟩
  obtain ⟨content, count, hcontent, hlines, -, -, hsilent⟩ := intoFullDevice.lost_identifiers hresult
    (by
      intro earlier now payload identifier hanswer
      obtain rfl : "a" = identifier := Except.ok.inj hanswer
      exact hplain.recordable)
  obtain rfl : content = [] := Except.ok.inj (hcontent.symm.trans hread)
  refine ⟨report, hresult, hsent, hunrecorded, hread, rfl, hsilent ?_⟩
  rw [hsent, hunrecorded, Nat.add_zero]
  rintro rfl
  rw [haccepted, List.drop_nil] at hlines
  cases hlines

end RunInput

end TransferLoad
