import TransferLoad.Proofs.Artifact.Sink

/-!
# Lines that never left the buffer

A buffered artifact counts the calls that fail, and a call fails only when the buffer has to be handed on
and the device refuses. By then the buffer may hold the lines of many calls that succeeded, and from then
on nothing reaches the device any more, while calls go on to succeed as long as the buffer takes their
lines. So the complete lines on the device and the counted failures may fall short of the calls, by a
buffer at most, and they never exceed them. If the summary is written without complaint, nothing is
missing.
-/

namespace TransferLoad

open Text.Utf8 (encode decodeLossy lineFeed)

/-! ### Closed lines -/

/-- The lines that are ended by a line feed. -/
def closedLines (bytes : Bytes) : List Bytes := (bytes.splitOn lineFeed).dropLast

/-- The identifiers in the closed lines. -/
def closedIdentifiers (bytes : Bytes) : List String :=
  (closedLines bytes).flatMap fun line => readIdentifiers (decodeLossy line)

theorem closedLines_append_lineFeed {line : Bytes} (hline : lineFeed ∉ line) (rest : Bytes) :
    closedLines (line ++ lineFeed :: rest) = line :: closedLines rest := by
  rw [closedLines, List.splitOn_append_cons_self_of_not_mem hline,
    List.dropLast_cons_of_ne_nil (List.splitOn_ne_nil _ _)]
  rfl

theorem closedLines_cons_of_ne {byte : UInt8} (hbyte : byte ≠ lineFeed) (rest : Bytes) :
    closedLines (byte :: rest) = (closedLines rest).modifyHead (byte :: ·) := by
  obtain ⟨line, lines, hsplit⟩ := List.exists_cons_of_ne_nil (List.splitOn_ne_nil lineFeed rest)
  rw [closedLines, closedLines, List.splitOn_cons_eq_if_modifyHead, if_neg (by simpa using hbyte), hsplit]
  cases lines <;> rfl

theorem length_closedLines (bytes : Bytes) : (closedLines bytes).length = bytes.count lineFeed := by
  induction bytes with
  | nil => rfl
  | cons byte rest ih =>
    by_cases hbyte : byte = lineFeed
    · subst hbyte
      have hclosed := closedLines_append_lineFeed (List.not_mem_nil (a := lineFeed)) rest
      rw [List.nil_append] at hclosed
      rw [hclosed, List.length_cons, ih, List.count_cons_self]
    · rw [closedLines_cons_of_ne hbyte, List.length_modifyHead, ih, List.count_cons_of_ne hbyte]

theorem closedLines_initial (before after : Bytes) : closedLines before <+: closedLines (before ++ after) := by
  induction before with
  | nil => exact List.nil_prefix
  | cons byte rest ih =>
    by_cases hbyte : byte = lineFeed
    · subst hbyte
      have hclosed := closedLines_append_lineFeed (List.not_mem_nil (a := lineFeed))
      simp only [List.nil_append] at hclosed
      rw [List.cons_append, hclosed, hclosed]
      exact (List.prefix_cons_inj []).mpr ih
    · rw [List.cons_append, closedLines_cons_of_ne hbyte, closedLines_cons_of_ne hbyte]
      obtain ⟨further, hfurther⟩ := ih
      rw [← hfurther]
      cases closedLines rest with
      | nil => exact List.nil_prefix
      | cons line lines => exact ⟨further, rfl⟩

theorem closedLines_mono {before after : Bytes} (hbefore : before <+: after) :
    closedLines before <+: closedLines after := by
  obtain ⟨further, rfl⟩ := hbefore
  exact closedLines_initial before further

theorem closedIdentifiers_mono {before after : Bytes} (hbefore : before <+: after) :
    closedIdentifiers before <+: closedIdentifiers after :=
  (closedLines_mono hbefore).flatMap _

theorem lineFeed_notMem_encode {text : String} (htext : '\n' ∉ text.toList) : lineFeed ∉ encode text :=
  fun hmem => htext (Text.Utf8.lineFeed_mem_encodeChars.mp hmem)

theorem closedLines_unlines {lines : List String} (hlines : ∀ line ∈ lines, '\n' ∉ line.toList)
    (rest : Bytes) : closedLines (encode (unlines lines) ++ rest) = lines.map encode ++ closedLines rest := by
  rw [encode_unlines]
  induction lines with
  | nil => rfl
  | cons line lines ih =>
    rw [List.forall_mem_cons] at hlines
    rw [List.flatMap_cons, List.append_assoc, List.append_assoc, List.singleton_append,
      closedLines_append_lineFeed (lineFeed_notMem_encode hlines.1), ih hlines.2, List.map_cons,
      List.cons_append]

theorem closedIdentifiers_unlines {lines : List String} (hlines : ∀ line ∈ lines, '\n' ∉ line.toList)
    (rest : Bytes) : closedIdentifiers (encode (unlines lines) ++ rest) =
      lines.flatMap readIdentifiers ++ closedIdentifiers rest := by
  rw [closedIdentifiers, closedLines_unlines hlines, List.flatMap_append, List.flatMap_map]
  simp only [Text.Utf8.decodeLossy_encode]
  rfl

/-- In the first bytes of the lines of some identifiers, each line feed ends one of them. -/
theorem length_closedIdentifiers {bytes : Bytes} {identifiers : List String}
    (hrecordable : ∀ identifier ∈ identifiers, Recordable identifier)
    (hbytes : bytes <+: encode (unlines identifiers)) :
    (closedIdentifiers bytes).length = bytes.count lineFeed := by
  have hlines : closedLines bytes <+: identifiers.map encode := by
    have hclosed := closedLines_unlines (fun identifier hmem => (hrecordable identifier hmem).one_line) []
    rw [List.append_nil] at hclosed
    have hmono := closedLines_mono hbytes
    rw [hclosed] at hmono
    simpa [closedLines] using hmono
  have heach : closedIdentifiers bytes =
      (closedLines bytes).flatMap fun line => [decodeLossy line] := by
    refine List.flatMap_congr fun line hline => ?_
    obtain ⟨identifier, hmem, rfl⟩ := List.mem_map.mp (hlines.subset hline)
    rw [Text.Utf8.decodeLossy_encode]
    exact readIdentifiers_eq_self_iff.mpr (hrecordable identifier hmem)
  rw [heach, ← length_closedLines, ← List.map_eq_flatMap, List.length_map]

/-! ### What the device has -/

namespace ResultSink

variable {head : Bytes} {identifiers : List String} {s s' : ResultSink BufferedDevice} {identifier : String}

theorem given_of_open? {device : Device} (hfresh : device.content = []) {header : RunHeader}
    (hopen : open? { device } header = .ok s) : s.writer.given = encode header.text := by
  rw [taken_of_open? BufferedDevice.takes hopen, BufferedDevice.given, hfresh]
  rfl

theorem sealed_of_record {cause : IoError} (hrecord : s.record identifier = (.error cause, s')) :
    s'.writer.device.Sealed := by
  unfold record at hrecord
  split at hrecord
  · cases hrecord
  · rename_i cause' w hwrite
    cases hrecord
    exact Writer.of_writeTexts_error (P := fun b : BufferedDevice => b.device.Sealed)
      (fun hfailed => (BufferedDevice.sealed_of_write hfailed).1) hwrite

theorem continues_record (s : ResultSink BufferedDevice) (identifier : String) :
    s.writer.Continues (s.record identifier).2.writer :=
  record_keeps continues_write s identifier (.refl _)

/-- A device that takes nothing refuses what the buffer cannot hold. -/
theorem record_fails_of_sealed (hsealed : s.writer.device.Sealed) (hfits : s.writer.pending.length ≤ bufferSize)
    (hlong : bufferSize ≤ (encode identifier).length) : ∃ cause, (s.record identifier).1 = .error cause := by
  have hcontinues := s.continues_record identifier
  rcases hrecord : s.record identifier with ⟨cause | _, s'⟩
  · exact ⟨cause, rfl⟩
  · rw [hrecord] at hcontinues
    obtain ⟨-, hgiven⟩ := record_ok BufferedDevice.takes hrecord
    rw [BufferedDevice.given, BufferedDevice.given, hcontinues.stays hsealed, List.append_assoc,
      List.append_cancel_left_eq] at hgiven
    have hpending : s'.writer.pending.length ≤ bufferSize := hcontinues.fits hfits
    rw [hgiven, List.length_append, List.length_append, List.length_singleton] at hpending
    omega

theorem encode_unlines_concat (identifiers : List String) (identifier : String) :
    encode (unlines (identifiers ++ [identifier])) =
      encode (unlines identifiers) ++ (encode identifier ++ [lineFeed]) := by
  rw [unlines_append, Text.Utf8.encode_append, encode_unlines [identifier], List.flatMap_singleton]

/-- Until a call fails all lines have been given, and a call that fails seals the device. -/
def IntactOrSealed (head : Bytes) (identifiers : List String) (s : ResultSink BufferedDevice) : Prop :=
  s.writer.given = head ++ encode (unlines identifiers) ∧ s.unrecorded = 0 ∨ s.writer.device.Sealed

theorem IntactOrSealed.record (h : IntactOrSealed head identifiers s) (identifier : String) :
    IntactOrSealed head (identifiers ++ [identifier]) (s.record identifier).2 := by
  have hcontinues := s.continues_record identifier
  rcases hrecord : s.record identifier with ⟨cause | _, s'⟩
  · exact Or.inr (sealed_of_record hrecord)
  · obtain ⟨hunrecorded, htaken⟩ := record_ok BufferedDevice.takes hrecord
    rcases h with ⟨hintact, hnone⟩ | hsealed
    · refine Or.inl ⟨?_, hunrecorded.trans hnone⟩
      rw [htaken, hintact, encode_unlines_concat, List.append_assoc]
    · rw [hrecord] at hcontinues
      right
      rw [hcontinues.stays hsealed]
      exact hsealed

theorem IntactOrSealed.recordEach (h : IntactOrSealed head identifiers s) (more : List String) :
    IntactOrSealed head (identifiers ++ more) (s.recordEach more) := by
  induction more generalizing identifiers s with
  | nil =>
    rw [List.append_nil]
    exact h
  | cons identifier rest ih =>
    have hrest := ih (h.record identifier)
    rwa [List.append_assoc] at hrest

theorem intactOrSealed_recordEach {device : Device} (hfresh : device.content = []) {header : RunHeader}
    (hopen : open? { device } header = .ok s) (identifiers : List String) :
    IntactOrSealed (encode header.text) identifiers (s.recordEach identifiers) := by
  have hstart : IntactOrSealed (encode header.text) [] s :=
    Or.inl ⟨(given_of_open? hfresh hopen).trans (List.append_nil _).symm, unrecorded_of_open? hopen⟩
  exact hstart.recordEach identifiers

/-- A summary cannot be written without complaint on a sealed device, which would have grown by its bytes. -/
theorem IntactOrSealed.of_summary (h : IntactOrSealed head identifiers s) {report : FinalReport}
    (hwritten : (s.writeSummary report).1 = .ok ()) :
    s.unrecorded = 0 ∧ (s.writeSummary report).2.writer.close.content =
      head ++ (encode (unlines identifiers) ++ encode report.summaryText) := by
  rcases hsummary : s.writeSummary report with ⟨result, s'⟩
  rw [hsummary] at hwritten
  cases hwritten
  obtain ⟨hcontent, hpending⟩ := content_of_writeSummary hsummary
  have hclosed : s'.writer.close.content = s.writer.given ++ encode report.summaryText :=
    (BufferedDevice.content_close hpending).trans hcontent
  rcases h with ⟨hintact, hnone⟩ | hsealed
  · refine ⟨hnone, ?_⟩
    change s'.writer.close.content = _
    rw [hclosed, hintact, List.append_assoc]
  · have hsame := (s.continues_writeSummary report).stays hsealed
    rw [hsummary] at hsame
    have hlength : s.writer.given.length + (encode report.summaryText).length =
        s.writer.device.content.length := by
      rw [← List.length_append, ← hcontent]
      exact congrArg (fun device => device.content.length) hsame
    have hgiven : s.writer.device.content.length ≤ s.writer.given.length :=
      (List.prefix_append _ s.writer.pending).length_le
    have hpositive : 0 < (encode report.summaryText).length := by
      rw [report.summaryText_eq_unlines, encode_unlines, FinalReport.summaryLines, FinalReport.summaryHead]
      simp
    omega

/-- A buffered artifact after calls for some identifiers behind some bytes of a header. What the device has
is the beginning of the header and all lines. Each line feed that was given, to the device or only to the
buffer, is that of a call which succeeded. -/
structure Recorded (head : Bytes) (identifiers : List String) (s : ResultSink BufferedDevice) : Prop where
  state : IntactOrSealed head identifiers s
  content : s.writer.device.content <+: head ++ encode (unlines identifiers)
  counted : ∃ behind, s.writer.given = head ++ behind ∧
    behind.count lineFeed + s.unrecorded = identifiers.length
  fits : s.writer.pending.length ≤ bufferSize

theorem recorded_open? {device : Device} (hfresh : device.content = []) {header : RunHeader}
    (hopen : open? { device } header = .ok s) : Recorded (encode header.text) [] s := by
  have hgiven := given_of_open? hfresh hopen
  have hnone := unrecorded_of_open? hopen
  refine ⟨intactOrSealed_recordEach hfresh hopen [], ?_, ⟨[], ?_, ?_⟩,
    (continues_open? hopen).fits (Nat.zero_le _)⟩
  · have hcontent : s.writer.device.content <+: s.writer.given := List.prefix_append _ _
    rw [hgiven] at hcontent
    exact hcontent.trans (List.prefix_append _ _)
  · rw [hgiven, List.append_nil]
  · rw [hnone]
    rfl

/-- What the device gets from a call is part of its line, and a sealed device gets nothing. -/
theorem Recorded.record (h : Recorded head identifiers s) (hline : '\n' ∉ identifier.toList) :
    Recorded head (identifiers ++ [identifier]) (s.record identifier).2 := by
  have hstate := h.state.record identifier
  have hcontinues := s.continues_record identifier
  obtain ⟨hbefore, hcontent, ⟨behind, hgiven, hcount⟩, hfits⟩ := h
  have hfeedless : (encode identifier).count lineFeed = 0 :=
    List.count_eq_zero.mpr (lineFeed_notMem_encode hline)
  have hgrown : ∀ part, (s.record identifier).2.writer.given = s.writer.given ++ part →
      part <+: encode identifier ++ [lineFeed] →
      (s.record identifier).2.writer.device.content <+:
        head ++ encode (unlines (identifiers ++ [identifier])) := by
    intro part htaken hpart
    rw [encode_unlines_concat, ← List.append_assoc]
    rcases hbefore with ⟨hintact, -⟩ | hsealed
    · have hinitial : (s.record identifier).2.writer.device.content <+:
          (s.record identifier).2.writer.given := List.prefix_append _ _
      rw [htaken, hintact] at hinitial
      exact hinitial.trans ((List.prefix_append_right_inj _).mpr hpart)
    · rw [hcontinues.stays hsealed]
      exact hcontent.trans (List.prefix_append _ _)
  rcases hrecord : s.record identifier with ⟨cause | _, s'⟩
  · rw [hrecord] at hstate hcontinues hgrown
    obtain ⟨hunrecorded, torn, htorn, htaken⟩ := record_error BufferedDevice.takes hrecord
    refine ⟨hstate, hgrown torn htaken (htorn.trans (List.prefix_append _ _)), ⟨behind ++ torn, ?_, ?_⟩,
      hcontinues.fits hfits⟩
    · rw [htaken, hgiven, List.append_assoc]
    · have htornCount := htorn.sublist.count_le lineFeed
      rw [List.count_append, hunrecorded, List.length_append, List.length_singleton]
      omega
  · rw [hrecord] at hstate hcontinues hgrown
    obtain ⟨hunrecorded, htaken⟩ := record_ok BufferedDevice.takes hrecord
    refine ⟨hstate, hgrown _ htaken List.prefix_rfl, ⟨behind ++ (encode identifier ++ [lineFeed]), ?_, ?_⟩,
      hcontinues.fits hfits⟩
    · rw [htaken, hgiven, List.append_assoc]
    · rw [List.count_append, List.count_append, hfeedless, List.count_singleton_self, hunrecorded,
        List.length_append, List.length_singleton]
      omega

theorem Recorded.recordEach (h : Recorded head identifiers s) {more : List String}
    (hlines : ∀ identifier ∈ more, '\n' ∉ identifier.toList) :
    Recorded head (identifiers ++ more) (s.recordEach more) := by
  induction more generalizing identifiers s with
  | nil =>
    rw [List.append_nil]
    exact h
  | cons identifier rest ih =>
    rw [List.forall_mem_cons] at hlines
    have hrest := ih (h.record hlines.1) hlines.2
    rwa [List.append_assoc] at hrest

/-! ### What the device has in the end -/

/-- The line feeds behind the header that the device has are all there are, but for those in the buffer. -/
theorem Recorded.feeds (h : Recorded head identifiers s) :
    (s.writer.device.content.drop head.length).count lineFeed + s.unrecorded ≤ identifiers.length ∧
      identifiers.length ≤
        (s.writer.device.content.drop head.length).count lineFeed + s.unrecorded + bufferSize := by
  obtain ⟨-, -, ⟨behind, hgiven, hcount⟩, hfits⟩ := h
  have hsplit : behind = s.writer.device.content.drop head.length ++
      s.writer.pending.drop (head.length - s.writer.device.content.length) := by
    rw [← List.drop_append, ← BufferedDevice.given, hgiven, List.drop_left]
  have hbuffer : (s.writer.pending.drop (head.length - s.writer.device.content.length)).count lineFeed ≤
      s.writer.pending.length :=
    List.count_le_length.trans (by rw [List.length_drop]; omega)
  rw [hsplit, List.count_append] at hcount
  omega

theorem Recorded.initial_close (h : Recorded head identifiers s) (report : FinalReport) :
    (s.writeSummary report).2.writer.close.content <+:
      head ++ (encode (unlines identifiers) ++ encode report.summaryText) := by
  have hclose := BufferedDevice.continues_drain (s.writeSummary report).2.writer
  rcases h.state with ⟨hintact, -⟩ | hsealed
  · obtain ⟨part, hpart, htaken⟩ := taken_writeSummary BufferedDevice.takes s report
    have hgiven := BufferedDevice.given_drain (s.writeSummary report).2.writer
    have hcontent : (s.writeSummary report).2.writer.close.content <+:
        (s.writeSummary report).2.writer.drain.2.given := List.prefix_append _ _
    rw [hgiven, htaken, hintact, List.append_assoc] at hcontent
    refine hcontent.trans ?_
    rw [List.prefix_append_right_inj, List.prefix_append_right_inj]
    exact hpart
  · have hsame := ((s.continues_writeSummary report).trans hclose).stays hsealed
    have hcontent : (s.writeSummary report).2.writer.close.content = s.writer.device.content :=
      congrArg Device.content hsame
    rw [hcontent, ← List.append_assoc]
    exact h.content.trans (List.prefix_append _ _)

theorem closedIdentifiers_written (hrecordable : ∀ identifier ∈ identifiers, Recordable identifier)
    (report : FinalReport) :
    closedIdentifiers (encode (unlines identifiers) ++ encode report.summaryText) = identifiers := by
  have hsummary : closedIdentifiers (encode report.summaryText) = [] := by
    have hclosed := closedIdentifiers_unlines report.newline_notMem_summaryLines []
    rw [List.append_nil, ← report.summaryText_eq_unlines, flatMap_readIdentifiers_skipped report.isSkipped]
      at hclosed
    exact hclosed
  rw [closedIdentifiers_unlines fun identifier hmem => (hrecordable identifier hmem).one_line, hsummary,
    List.append_nil]
  exact flatMap_readIdentifiers_eq_self_iff.mpr hrecordable

/-- The complete lines that a closed artifact holds behind its header are those of the first identifiers.
They and the calls that were counted as failed are not more than all calls, and less by at most a buffer;
when the summary was written without complaint, they are all calls. -/
theorem lines_of_closed {device : Device} (hfresh : device.content = []) {header : RunHeader}
    {sink : ResultSink BufferedDevice} (hopen : open? { device } header = .ok sink)
    (hrecordable : ∀ identifier ∈ identifiers, Recordable identifier) (report : FinalReport) :
    ∃ count, closedIdentifiers
        (((sink.recordEach identifiers).writeSummary report).2.writer.close.content.drop
          (encode header.text).length) = identifiers.take count ∧
      count + (sink.recordEach identifiers).unrecorded ≤ identifiers.length ∧
      identifiers.length ≤ count + (sink.recordEach identifiers).unrecorded + bufferSize ∧
      (((sink.recordEach identifiers).writeSummary report).1 = .ok () →
        count + (sink.recordEach identifiers).unrecorded = identifiers.length) := by
  have hrecorded : Recorded (encode header.text) identifiers (sink.recordEach identifiers) := by
    have hall := (recorded_open? hfresh hopen).recordEach
      fun identifier hmem => (hrecordable identifier hmem).one_line
    rwa [List.nil_append] at hall
  generalize sink.recordEach identifiers = after at hrecorded ⊢
  generalize encode header.text = head at hrecorded ⊢
  have hwritten := closedIdentifiers_written hrecordable report
  have hcontinues := (after.continues_writeSummary report).trans (BufferedDevice.continues_drain _)
  have hgrows : after.writer.device.content <+: (after.writeSummary report).2.writer.close.content :=
    hcontinues.grows
  have hfinal : closedIdentifiers ((after.writeSummary report).2.writer.close.content.drop head.length) <+:
      identifiers := by
    have hbehind := (hrecorded.initial_close report).drop head.length
    rw [List.drop_left] at hbehind
    have hmono := closedIdentifiers_mono hbehind
    rwa [hwritten] at hmono
  have hearlier : after.writer.device.content.drop head.length <+: encode (unlines identifiers) := by
    have hbehind := hrecorded.content.drop head.length
    rwa [List.drop_left] at hbehind
  have hkept := (closedIdentifiers_mono (hgrows.drop head.length)).length_le
  rw [length_closedIdentifiers hrecordable hearlier] at hkept
  obtain ⟨hupper, hlower⟩ := hrecorded.feeds
  refine ⟨_, List.prefix_iff_eq_take.mp hfinal, ?_, ?_, ?_⟩
  · rcases hrecorded.state with ⟨-, hnone⟩ | hsealed
    · rw [hnone, Nat.add_zero]
      exact hfinal.length_le
    · have hsame : (after.writeSummary report).2.writer.close.content = after.writer.device.content :=
        congrArg Device.content (hcontinues.stays hsealed)
      rw [hsame, length_closedIdentifiers hrecordable hearlier]
      exact hupper
  · omega
  · intro hok
    obtain ⟨hnone, hcontent⟩ := hrecorded.state.of_summary hok
    rw [hcontent, List.drop_left, hwritten, hnone, Nat.add_zero]

end ResultSink

end TransferLoad
