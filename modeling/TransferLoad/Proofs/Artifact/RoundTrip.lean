import TransferLoad.Proofs.Artifact.Sink

/-!
# Identifiers come back

An artifact that nothing failed on is the text of its header, one line for each identifier and the lines
of its summaries. Only the lines in the middle give identifiers, so what is read from the artifact is what
is read from each identifier by itself: the same list exactly if every identifier is recordable.
-/

namespace TransferLoad

open Text.Utf8 (encode decode)

/-- The text of an artifact on which nothing has failed. -/
def artifactText (header : RunHeader) (identifiers : List String) (reports : List FinalReport) : String :=
  unlines (header.lines ++ (identifiers ++ reports.flatMap FinalReport.summaryLines))

theorem encode_artifactText (header : RunHeader) (identifiers : List String) (reports : List FinalReport) :
    encode (artifactText header identifiers reports) =
      encode header.text ++ encode (unlines identifiers) ++
        encode (unlines (reports.flatMap FinalReport.summaryLines)) := by
  rw [artifactText, unlines_append, unlines_append, header.text_eq_unlines, Text.Utf8.encode_append,
    Text.Utf8.encode_append, List.append_assoc]

theorem readIdentifiers_artifactText {header : RunHeader} (hheader : header.Unbroken)
    (identifiers : List String) (reports : List FinalReport) :
    readIdentifiers (artifactText header identifiers reports) = identifiers.flatMap readIdentifiers := by
  have hhead : header.lines.flatMap readIdentifiers = [] :=
    flatMap_readIdentifiers_skipped hheader.isSkipped
  have hsummaries : (reports.flatMap FinalReport.summaryLines).flatMap readIdentifiers = [] := by
    apply flatMap_readIdentifiers_skipped
    intro line hline
    obtain ⟨report, -, hline⟩ := List.mem_flatMap.mp hline
    exact report.isSkipped line hline
  rw [artifactText, readIdentifiers_unlines, List.flatMap_append, List.flatMap_append, hhead, hsummaries,
    List.nil_append, List.append_nil]

/-- A writer that never fails has the whole text in the end. -/
theorem ResultSink.taken_never_fails {ω : Type} [Writer ω] {taken : ω → Bytes} {good : ω → Prop}
    (htakes : Writer.Takes taken) (hnever : Writer.NeverFails good) {w : ω} (hgood : good w)
    (hempty : taken w = []) (header : RunHeader) (identifiers : List String) (reports : List FinalReport) :
    ∃ sink, open? w header = .ok sink ∧ (sink.recordEach identifiers).unrecorded = 0 ∧
      taken ((sink.recordEach identifiers).writeSummaries reports).writer =
        encode (artifactText header identifiers reports) := by
  obtain ⟨sink, hopen, hfresh, hgood, hheaderTaken⟩ := open?_never_fails htakes hnever hgood header
  obtain ⟨hunrecorded, hgood', hrecorded⟩ := recordEach_never_fails htakes hnever hgood identifiers
  have hsummaries := writeSummaries_never_fail htakes hnever hgood' reports
  refine ⟨sink, hopen, hunrecorded.trans hfresh, ?_⟩
  rw [hsummaries, hrecorded, hheaderTaken, hempty, List.nil_append, encode_artifactText]

/-- Writing identifiers on a writer that never fails and reading the artifact gives the same list exactly
if each of them is recordable, whatever the header and the summaries say. -/
theorem readIdentifiers_written_iff {ω : Type} [Writer ω] {taken : ω → Bytes} {good : ω → Prop}
    (htakes : Writer.Takes taken) (hnever : Writer.NeverFails good) {w : ω} (hgood : good w)
    (hempty : taken w = []) {header : RunHeader} (hheader : header.Unbroken) (identifiers : List String)
    (reports : List FinalReport) :
    ∃ sink contents, ResultSink.open? w header = .ok sink ∧
      (sink.recordEach identifiers).unrecorded = 0 ∧
      decode (taken ((sink.recordEach identifiers).writeSummaries reports).writer) = .ok contents ∧
      (readIdentifiers contents = identifiers ↔
        ∀ identifier ∈ identifiers, Recordable identifier) := by
  obtain ⟨sink, hopen, hunrecorded, htaken⟩ :=
    ResultSink.taken_never_fails htakes hnever hgood hempty header identifiers reports
  refine ⟨sink, artifactText header identifiers reports, hopen, hunrecorded, ?_, ?_⟩
  · rw [htaken, Text.Utf8.decode_encode]
  · rw [readIdentifiers_artifactText hheader]
    exact flatMap_readIdentifiers_eq_self_iff

/-- Two identifiers and two summaries on a device without a limit. -/
theorem readIdentifiers_written_small :
    ∃ sink contents, ResultSink.open? ({} : Device) { label := "run", startedAt := ⟨0, 0⟩ } = .ok sink ∧
      decode (Device.content ((sink.recordEach ["0xfeed", "0xcafe"]).writeSummaries [{}, {}]).writer) =
        .ok contents ∧
      readIdentifiers contents = ["0xfeed", "0xcafe"] := by
  have hheader : RunHeader.Unbroken { label := "run", startedAt := ⟨0, 0⟩ } := ⟨by simp, by simp⟩
  obtain ⟨sink, contents, hopen, -, hdecode, hread⟩ :=
    readIdentifiers_written_iff Device.takes Device.neverFails (w := {}) rfl rfl hheader ["0xfeed", "0xcafe"]
      [{}, {}]
  refine ⟨sink, contents, hopen, hdecode, hread.mpr ?_⟩
  have hfirst : Plain "0xfeed" := ⟨by simp, by simp, by simp⟩
  have hsecond : Plain "0xcafe" := ⟨by simp, by simp, by simp⟩
  simp [hfirst.recordable, hsecond.recordable]

end TransferLoad
