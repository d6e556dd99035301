import TransferLoad.Proofs.Artifact.Lines
import TransferLoad.Proofs.Text.Utf8

/-!
# What is written into an artifact

A call for an identifier leaves its whole line behind when it succeeds, and else some of the first bytes
of the identifier, without a line feed. What holds of a writer through every write and every flush holds
of it through all calls.
-/

namespace TransferLoad

open Text.Utf8 (encode lineFeed)

theorem encode_unlines (lines : List String) :
    encode (unlines lines) = lines.flatMap fun line => encode line ++ [lineFeed] := by
  rw [unlines, Text.Utf8.encode_join, List.flatMap_map]
  exact List.flatMap_congr fun line _ => Text.Utf8.encode_append line "\n"

theorem encode_identifierPieces (identifier : String) :
    encode (String.join (identifierPieces identifier)) = encode identifier ++ [lineFeed] := by
  rw [Text.Utf8.encode_join, identifierPieces, List.flatMap_cons, List.flatMap_singleton]
  rfl

namespace ResultSink

variable {ω : Type} [Writer ω]

/-- One call for each of some identifiers, whatever comes of the earlier ones. -/
def recordEach (s : ResultSink ω) (identifiers : List String) : ResultSink ω :=
  identifiers.foldl (fun s identifier => (s.record identifier).2) s

/-- What calls for some identifiers say, one after the other. -/
def recordResults (s : ResultSink ω) : List String → List (Except IoError Unit)
  | [] => []
  | identifier :: rest => (s.record identifier).1 :: recordResults (s.record identifier).2 rest

def writeSummaries (s : ResultSink ω) (reports : List FinalReport) : ResultSink ω :=
  reports.foldl (fun s report => (s.writeSummary report).2) s

theorem recordEach_cons (s : ResultSink ω) (identifier : String) (rest : List String) :
    s.recordEach (identifier :: rest) = (s.record identifier).2.recordEach rest := rfl

theorem recordEach_append (s : ResultSink ω) (before after : List String) :
    s.recordEach (before ++ after) = (s.recordEach before).recordEach after := by
  rw [recordEach, List.foldl_append]
  rfl

theorem record_eq (s : ResultSink ω) (identifier : String) :
    (s.record identifier).1 = (Writer.writeTexts s.writer (identifierPieces identifier)).1 ∧
    (s.record identifier).2.writer = (Writer.writeTexts s.writer (identifierPieces identifier)).2 ∧
    (s.record identifier).2.unrecorded = s.unrecorded + (if (s.record identifier).1.isOk then 0 else 1) := by
  unfold record
  rcases Writer.writeTexts s.writer (identifierPieces identifier) with ⟨cause | _, w⟩
  · exact ⟨rfl, rfl, rfl⟩
  · exact ⟨rfl, rfl, rfl⟩

/-- Each call that fails is counted, and no other. -/
theorem unrecorded_recordEach (s : ResultSink ω) (identifiers : List String) :
    (s.recordEach identifiers).unrecorded =
      s.unrecorded + (s.recordResults identifiers).countP fun result => !result.isOk := by
  induction identifiers generalizing s with
  | nil => rfl
  | cons identifier rest ih =>
    rw [recordEach_cons, ih, (s.record_eq identifier).2.2, recordResults, List.countP_cons]
    cases (s.record identifier).1.isOk with
    | true => rfl
    | false => exact Nat.add_right_comm _ _ _

theorem unrecorded_writeSummary (s : ResultSink ω) (report : FinalReport) :
    (s.writeSummary report).2.unrecorded = s.unrecorded := by
  unfold writeSummary
  split <;> rfl

theorem unrecorded_writeSummaries (s : ResultSink ω) (reports : List FinalReport) :
    (s.writeSummaries reports).unrecorded = s.unrecorded := by
  induction reports generalizing s with
  | nil => rfl
  | cons report rest ih => exact (ih _).trans (s.unrecorded_writeSummary report)

/-! ### What a call leaves behind -/

section

variable {taken : ω → Bytes} {s s' : ResultSink ω} {identifier : String}

theorem unrecorded_of_open? {w : ω} {header : RunHeader} (hopen : open? w header = .ok s) :
    s.unrecorded = 0 := by
  unfold open? at hopen
  split at hopen
  · cases hopen
    rfl
  · cases hopen

theorem taken_of_open? (htakes : Writer.Takes taken) {w : ω} {header : RunHeader}
    (hopen : open? w header = .ok s) : taken s.writer = taken w ++ encode header.text := by
  unfold open? at hopen
  split at hopen
  · rename_i w' hwrite
    cases hopen
    exact htakes.writeTexts_ok hwrite
  · cases hopen

theorem record_ok (htakes : Writer.Takes taken) (hrecord : s.record identifier = (.ok (), s')) :
    s'.unrecorded = s.unrecorded ∧ taken s'.writer = taken s.writer ++ (encode identifier ++ [lineFeed]) := by
  unfold record at hrecord
  split at hrecord
  · rename_i w' hwrite
    cases hrecord
    rw [← encode_identifierPieces]
    exact ⟨rfl, htakes.writeTexts_ok hwrite⟩
  · cases hrecord

theorem record_error (htakes : Writer.Takes taken) {cause : IoError}
    (hrecord : s.record identifier = (.error cause, s')) :
    s'.unrecorded = s.unrecorded + 1 ∧
      ∃ torn, torn <+: encode identifier ∧ taken s'.writer = taken s.writer ++ torn := by
  unfold record at hrecord
  split at hrecord
  · cases hrecord
  · rename_i w' hwrite
    cases hrecord
    obtain ⟨count, hcount, htaken⟩ := htakes.writeTexts_error hwrite
    rw [encode_identifierPieces] at hcount htaken
    rw [List.length_append, List.length_singleton] at hcount
    rw [List.take_append_of_le_length (Nat.le_of_lt_succ hcount)] at htaken
    exact ⟨rfl, _, List.take_prefix count _, htaken⟩

theorem taken_writeSummary (htakes : Writer.Takes taken) (s : ResultSink ω) (report : FinalReport) :
    ∃ part, part <+: encode report.summaryText ∧
      taken (s.writeSummary report).2.writer = taken s.writer ++ part := by
  unfold writeSummary
  split
  · rename_i cause w htexts
    obtain ⟨count, -, htaken⟩ := htakes.writeTexts_error htexts
    exact ⟨_, List.take_prefix count _, htaken⟩
  · rename_i w htexts
    exact ⟨_, List.prefix_rfl, (htakes.of_flush w).trans (htakes.writeTexts_ok htexts)⟩

end

/-! ### What all calls keep -/

theorem open?_keeps {P : ω → Prop} (hwrite : ∀ w bytes, P w → P (Writer.write w bytes).2) {w : ω}
    {header : RunHeader} {s : ResultSink ω} (hopen : open? w header = .ok s) (hstart : P w) : P s.writer := by
  have hkept := Writer.writeTexts_keeps hwrite header.pieces hstart
  unfold open? at hopen
  split at hopen
  · rename_i w' htexts
    rw [htexts] at hkept
    cases hopen
    exact hkept
  · cases hopen

theorem record_keeps {P : ω → Prop} (hwrite : ∀ w bytes, P w → P (Writer.write w bytes).2)
    (s : ResultSink ω) (identifier : String) (hstart : P s.writer) : P (s.record identifier).2.writer := by
  rw [(s.record_eq identifier).2.1]
  exact Writer.writeTexts_keeps hwrite (identifierPieces identifier) hstart

theorem recordEach_keeps {P : ω → Prop} (hwrite : ∀ w bytes, P w → P (Writer.write w bytes).2)
    (s : ResultSink ω) (identifiers : List String) (hstart : P s.writer) :
    P (s.recordEach identifiers).writer := by
  induction identifiers generalizing s with
  | nil => exact hstart
  | cons identifier rest ih => exact ih _ (record_keeps hwrite s identifier hstart)

theorem writeSummary_keeps {P : ω → Prop} (hwrite : ∀ w bytes, P w → P (Writer.write w bytes).2)
    (hflush : ∀ w, P w → P (Writer.flush w).2) (s : ResultSink ω) (report : FinalReport)
    (hstart : P s.writer) : P (s.writeSummary report).2.writer := by
  have hkept := Writer.writeTexts_keeps hwrite report.summaryPieces hstart
  rcases htexts : Writer.writeTexts s.writer report.summaryPieces with ⟨_ | _, w⟩
  all_goals rw [htexts] at hkept
  all_goals simp only [writeSummary, htexts]
  · exact hkept
  · exact hflush w hkept

/-! ### Buffered devices -/

theorem continues_write {b : BufferedDevice} (w : BufferedDevice) (bytes : Bytes) (h : b.Continues w) :
    b.Continues (Writer.write w bytes).2 :=
  h.trans (w.continues_write bytes)

theorem continues_open? {b : BufferedDevice} {header : RunHeader} {s : ResultSink BufferedDevice}
    (hopen : open? b header = .ok s) : b.Continues s.writer :=
  open?_keeps continues_write hopen (.refl b)

theorem continues_recordEach (s : ResultSink BufferedDevice) (identifiers : List String) :
    s.writer.Continues (s.recordEach identifiers).writer :=
  recordEach_keeps continues_write s identifiers (.refl _)

theorem continues_writeSummary (s : ResultSink BufferedDevice) (report : FinalReport) :
    s.writer.Continues (s.writeSummary report).2.writer :=
  writeSummary_keeps continues_write (fun w h => h.trans w.continues_drain) s report (.refl _)

/-- A device that takes nothing from the start is the same when the artifact is closed. -/
theorem close_of_sealed {device : Device} (hsealed : device.Sealed) {header : RunHeader}
    {s : ResultSink BufferedDevice} (hopen : open? { device } header = .ok s) (identifiers : List String)
    (report : FinalReport) : ((s.recordEach identifiers).writeSummary report).2.writer.close = device := by
  have hheader := continues_open? hopen
  have hrecords := s.continues_recordEach identifiers
  have hsummary := (s.recordEach identifiers).continues_writeSummary report
  have hall := ((hheader.trans hrecords).trans hsummary).trans (BufferedDevice.continues_drain _)
  exact hall.stays hsealed

/-! ### Writers that never fail -/

section

variable {taken : ω → Bytes} {good : ω → Prop}

theorem open?_never_fails (htakes : Writer.Takes taken) (hnever : Writer.NeverFails good) {w : ω}
    (hgood : good w) (header : RunHeader) :
    ∃ s, open? w header = .ok s ∧ s.unrecorded = 0 ∧ good s.writer ∧
      taken s.writer = taken w ++ encode header.text := by
  obtain ⟨w', hwrite, hgood'⟩ := hnever.writeTexts hgood header.pieces
  have hopen : open? w header = .ok { writer := w' } := by rw [open?, hwrite]
  exact ⟨{ writer := w' }, hopen, rfl, hgood', taken_of_open? htakes hopen⟩

theorem recordEach_never_fails (htakes : Writer.Takes taken) (hnever : Writer.NeverFails good)
    {s : ResultSink ω} (hgood : good s.writer) (identifiers : List String) :
    (s.recordEach identifiers).unrecorded = s.unrecorded ∧ good (s.recordEach identifiers).writer ∧
      taken (s.recordEach identifiers).writer = taken s.writer ++ encode (unlines identifiers) := by
  rw [encode_unlines]
  induction identifiers generalizing s with
  | nil => exact ⟨rfl, hgood, (List.append_nil _).symm⟩
  | cons identifier rest ih =>
    obtain ⟨w', hwrite, hgood'⟩ := hnever.writeTexts hgood (identifierPieces identifier)
    have hrecord : s.record identifier = (.ok (), { s with writer := w' }) := by rw [record, hwrite]
    obtain ⟨hunrecorded, hgood'', htaken⟩ := ih (s := { s with writer := w' }) hgood'
    obtain ⟨-, hline⟩ := record_ok htakes hrecord
    rw [recordEach_cons, hrecord]
    refine ⟨hunrecorded, hgood'', ?_⟩
    rw [htaken, hline, List.flatMap_cons, List.append_assoc]

theorem writeSummary_never_fails (htakes : Writer.Takes taken) (hnever : Writer.NeverFails good)
    {s : ResultSink ω} (hgood : good s.writer) (report : FinalReport) :
    ∃ s', s.writeSummary report = (.ok (), s') ∧ good s'.writer ∧
      taken s'.writer = taken s.writer ++ encode report.summaryText := by
  obtain ⟨w₁, hwrite, hgood₁⟩ := hnever.writeTexts hgood report.summaryPieces
  obtain ⟨w₂, hflush, hgood₂⟩ := hnever.flush hgood₁
  refine ⟨{ s with writer := w₂ }, ?_, hgood₂, ?_⟩
  · simp only [writeSummary, hwrite, hflush]
  · have hkept := htakes.of_flush w₁
    rw [hflush] at hkept
    exact hkept.trans (htakes.writeTexts_ok hwrite)

theorem writeSummaries_never_fail (htakes : Writer.Takes taken) (hnever : Writer.NeverFails good)
    {s : ResultSink ω} (hgood : good s.writer) (reports : List FinalReport) :
    taken (s.writeSummaries reports).writer =
      taken s.writer ++ encode (unlines (reports.flatMap FinalReport.summaryLines)) := by
  induction reports generalizing s with
  | nil => exact (List.append_nil _).symm
  | cons report rest ih =>
    obtain ⟨s', hsummary, hgood', htaken⟩ := writeSummary_never_fails htakes hnever hgood report
    have hfirst : s.writeSummaries (report :: rest) = s'.writeSummaries rest := by
      rw [writeSummaries, List.foldl_cons, hsummary]
      rfl
    rw [hfirst, ih hgood', htaken, List.flatMap_cons, unlines_append, Text.Utf8.encode_append,
      report.summaryText_eq_unlines, List.append_assoc]

end

end ResultSink

end TransferLoad
