import TransferLoad.Proofs.Artifact.RoundTrip
import TransferLoad.Proofs.Artifact.TornLines

/-!
# Writers that fill up

A writer that takes so many bytes altogether cuts the write that goes past them short and refuses what comes
later. So it has the first bytes of what a writer without a limit would have. The calls that succeed are those
at the beginning whose lines fit, and what is read are the identifiers of these calls and at most a start of
the next one, wherever the cut is.
-/

namespace TransferLoad

open Text.Utf8 (encode decode lineFeed)

theorem take_append_take {α : Type} (count : Nat) (xs ys : List α) :
    (xs.take count ++ ys).take count = (xs ++ ys).take count := by
  rw [List.take_append, List.take_append, List.take_take, Nat.min_self, List.length_take]
  congr 2
  omega

/-! ### Writers with a limit -/

namespace Writer

variable {ω : Type} [Writer ω] {taken : ω → Bytes} {limit : Nat} {good : ω → Prop}

/-- A writer that takes so many bytes altogether, as long as it is in a good state: it accepts the writes that fit
and has the first bytes of all that it was given. -/
structure Fills (taken : ω → Bytes) (limit : Nat) (good : ω → Prop) : Prop where
  within : ∀ {w : ω}, good w → (taken w).length ≤ limit
  good_write : ∀ {w : ω}, good w → ∀ bytes, good (write w bytes).2
  accepts : ∀ {w : ω}, good w → ∀ bytes,
    (write w bytes).1.isOk = decide ((taken w).length + bytes.length ≤ limit)
  taken_write : ∀ {w : ω}, good w → ∀ bytes, taken (write w bytes).2 = (taken w ++ bytes).take limit
  good_flush : ∀ {w : ω}, good w → good (flush w).2
  taken_flush : ∀ {w : ω}, good w → taken (flush w).2 = taken w

theorem Fills.writeTexts (hfills : Fills taken limit good) {w : ω} (hgood : good w) (texts : List String) :
    good (writeTexts w texts).2 ∧
    (writeTexts w texts).1.isOk =
      decide ((taken w).length + (encode (String.join texts)).length ≤ limit) ∧
    taken (writeTexts w texts).2 = (taken w ++ encode (String.join texts)).take limit := by
  rw [Text.Utf8.encode_join]
  induction texts generalizing w with
  | nil =>
    have hwithin := hfills.within hgood
    refine ⟨hgood, (decide_eq_true hwithin).symm, ?_⟩
    rw [List.flatMap_nil, List.append_nil, List.take_of_length_le hwithin]
    rfl
  | cons text rest ih =>
    have hgood₁ := hfills.good_write hgood (encode text)
    have haccepts := hfills.accepts hgood (encode text)
    have htaken := hfills.taken_write hgood (encode text)
    rw [List.flatMap_cons, List.length_append, ← List.append_assoc, Writer.writeTexts]
    rcases hwrite : write w (encode text) with ⟨cause | _, w₁⟩
    · rw [hwrite] at hgood₁ haccepts htaken
      have hpast := of_decide_eq_false haccepts.symm
      refine ⟨hgood₁, (decide_eq_false (by omega)).symm, ?_⟩
      rw [List.take_append_of_le_length (by rw [List.length_append]; omega)]
      exact htaken
    · rw [hwrite] at hgood₁ haccepts htaken
      have hfits := of_decide_eq_true haccepts.symm
      rw [List.take_of_length_le (by rwa [List.length_append])] at htaken
      obtain ⟨hgood', haccepts', htaken'⟩ := ih hgood₁
      rw [htaken] at haccepts' htaken'
      rw [List.length_append, Nat.add_assoc] at haccepts'
      exact ⟨hgood', haccepts', htaken'⟩

end Writer

/-- A device fills up when there is a limit to its room. -/
theorem Device.fills (limit : Nat) :
    Writer.Fills Device.content limit
      fun d : Device => ∃ room, d.room = some room ∧ d.content.length + room = limit where
  within := by
    rintro d ⟨room, -, rfl⟩
    exact Nat.le_add_right _ _
  good_write := by
    rintro d ⟨room, hroom, rfl⟩ bytes
    change ∃ room', (d.write bytes).2.room = some room' ∧ (d.write bytes).2.content.length + room' = _
    simp only [Device.write, hroom]
    split
    · refine ⟨_, rfl, ?_⟩
      rw [List.length_append]
      omega
    · refine ⟨_, rfl, ?_⟩
      rw [List.length_append, List.length_take]
      omega
  accepts := by
    rintro d ⟨room, hroom, rfl⟩ bytes
    change (d.write bytes).1.isOk = _
    simp only [Device.write, hroom, Nat.add_le_add_iff_left]
    split <;> simp [*, Except.isOk, Except.toBool]
  taken_write := by
    rintro d ⟨room, hroom, rfl⟩ bytes
    change (d.write bytes).2.content = _
    simp only [Device.write, hroom, List.take_length_add_append]
    split
    · rw [List.take_of_length_le ‹_›]
    · rfl
  good_flush := fun hgood => hgood
  taken_flush := fun _ => rfl

/-! ### Calls on a writer with a limit -/

/-- How many of some lines fit from the first on, each with its line feed. -/
def linesWithin : (room : Nat) → List String → Nat
  | _, [] => 0
  | room, line :: rest =>
    if (encode line).length < room then linesWithin (room - ((encode line).length + 1)) rest + 1 else 0

theorem linesWithin_zero (lines : List String) : linesWithin 0 lines = 0 := by
  cases lines with
  | nil => rfl
  | cons line rest => rw [linesWithin, if_neg (Nat.not_lt_zero _)]

namespace ResultSink

variable {ω : Type} [Writer ω] {taken : ω → Bytes} {limit : Nat} {good : ω → Prop} {s : ResultSink ω}

theorem open?_fills (hfills : Writer.Fills taken limit good) {w : ω} (hgood : good w) (hempty : taken w = [])
    {header : RunHeader} (hopen : open? w header = .ok s) :
    good s.writer ∧ taken s.writer = encode header.text ∧ (encode header.text).length ≤ limit := by
  obtain ⟨hgood', haccepts, htaken⟩ := hfills.writeTexts hgood header.pieces
  rw [hempty, List.length_nil, Nat.zero_add] at haccepts
  rw [hempty, List.nil_append] at htaken
  unfold open? at hopen
  split at hopen
  · rename_i w' hwrite
    cases hopen
    rw [hwrite] at hgood' haccepts htaken
    have hfits : (encode header.text).length ≤ limit := of_decide_eq_true haccepts.symm
    exact ⟨hgood', htaken.trans (List.take_of_length_le hfits), hfits⟩
  · cases hopen

theorem record_fills (hfills : Writer.Fills taken limit good) (hgood : good s.writer) (identifier : String) :
    good (s.record identifier).2.writer ∧
    (s.record identifier).1.isOk = decide ((encode identifier).length < limit - (taken s.writer).length) ∧
    taken (s.record identifier).2.writer =
      (taken s.writer ++ (encode identifier ++ [lineFeed])).take limit := by
  obtain ⟨hgood', haccepts, htaken⟩ := hfills.writeTexts hgood (identifierPieces identifier)
  obtain ⟨hresult, hwriter, -⟩ := s.record_eq identifier
  rw [encode_identifierPieces] at haccepts htaken
  rw [hresult, hwriter]
  refine ⟨hgood', haccepts.trans (decide_eq_decide.mpr ?_), htaken⟩
  rw [List.length_append, List.length_singleton]
  omega

/-- The calls whose lines fit succeed, and all calls after the first that does not fit fail. -/
theorem recordEach_fills (hfills : Writer.Fills taken limit good) (hgood : good s.writer)
    (identifiers : List String) :
    let count := linesWithin (limit - (taken s.writer).length) identifiers
    good (s.recordEach identifiers).writer ∧
    (s.recordResults identifiers).map (·.isOk) =
      List.replicate count true ++ List.replicate (identifiers.length - count) false ∧
    taken (s.recordEach identifiers).writer = (taken s.writer ++ encode (unlines identifiers)).take limit := by
  rw [encode_unlines]
  induction identifiers generalizing s with
  | nil =>
    refine ⟨hgood, rfl, ?_⟩
    rw [List.flatMap_nil, List.append_nil, List.take_of_length_le (hfills.within hgood)]
    rfl
  | cons identifier rest ih =>
    obtain ⟨hgood₁, haccepts, htaken₁⟩ := record_fills hfills hgood identifier
    obtain ⟨hgood', hresults, htaken'⟩ := ih hgood₁
    rw [htaken₁, take_append_take, List.append_assoc] at htaken'
    have hroom : limit - (taken (s.record identifier).2.writer).length =
        limit - (taken s.writer).length - ((encode identifier).length + 1) := by
      rw [htaken₁, List.length_take, List.length_append, List.length_append, List.length_singleton]
      omega
    rw [hroom] at hresults
    refine ⟨hgood', ?_, htaken'⟩
    rw [recordResults, List.map_cons, hresults, haccepts, linesWithin]
    by_cases hfits : (encode identifier).length < limit - (taken s.writer).length
    · rw [if_pos hfits, decide_eq_true hfits, List.length_cons, Nat.add_sub_add_right]
      rfl
    · have hnone : limit - (taken s.writer).length - ((encode identifier).length + 1) = 0 := by omega
      rw [if_neg hfits, decide_eq_false hfits, hnone, linesWithin_zero]
      rfl

theorem writeSummaries_fills (hfills : Writer.Fills taken limit good) (hgood : good s.writer)
    (reports : List FinalReport) :
    taken (s.writeSummaries reports).writer =
      (taken s.writer ++ encode (unlines (reports.flatMap FinalReport.summaryLines))).take limit := by
  induction reports generalizing s with
  | nil =>
    change taken s.writer = (taken s.writer ++ []).take limit
    rw [List.append_nil, List.take_of_length_le (hfills.within hgood)]
  | cons report rest ih =>
    obtain ⟨hgood₁, -, htaken₁⟩ := hfills.writeTexts hgood report.summaryPieces
    have hsummary : good (s.writeSummary report).2.writer ∧ taken (s.writeSummary report).2.writer =
        (taken s.writer ++ encode report.summaryText).take limit := by
      unfold writeSummary
      rcases htexts : Writer.writeTexts s.writer report.summaryPieces with ⟨cause | _, w⟩
      all_goals rw [htexts] at hgood₁ htaken₁
      · exact ⟨hgood₁, htaken₁⟩
      · exact ⟨hfills.good_flush hgood₁, (hfills.taken_flush hgood₁).trans htaken₁⟩
    have hrest := ih hsummary.1
    rw [hsummary.2, take_append_take, List.append_assoc, report.summaryText_eq_unlines,
      ← Text.Utf8.encode_append, ← unlines_append] at hrest
    exact hrest

end ResultSink

/-! ### What is read from lines that were cut -/

theorem IsSkipped.start {line : String} (hskipped : IsSkipped line) (count : Nat) :
    IsSkipped (String.ofList (line.toList.take count)) := by
  rcases hskipped with rfl | ⟨hline, hhead⟩
  · exact Or.inl (by simp)
  · cases count with
    | zero => exact Or.inl rfl
    | succ count =>
      refine Or.inr ⟨?_, ?_⟩
      · rw [String.toList_ofList]
        exact fun hmem => hline (List.mem_of_mem_take hmem)
      · rwa [String.toList_ofList, List.head?_take, if_neg (Nat.succ_ne_zero count)]

/-- The first bytes of some lines hold the first line, or only a start of it. -/
theorem take_encode_lines {line : String} (hascii : ∀ c ∈ line.toList, c.toNat < 0x80) (rest : List String)
    (room : Nat) :
    (encode (unlines (line :: rest))).take room =
      if (encode line).length < room then
        encode (unlines [line]) ++ (encode (unlines rest)).take (room - ((encode line).length + 1))
      else encode (String.ofList (line.toList.take room)) := by
  have hlines : encode (unlines (line :: rest)) = encode line ++ [lineFeed] ++ encode (unlines rest) := by
    rw [encode_unlines, encode_unlines, List.flatMap_cons]
  have hone : encode (unlines [line]) = encode line ++ [lineFeed] := by
    rw [encode_unlines, List.flatMap_singleton]
  rw [hlines, hone]
  split
  · rename_i hfits
    rw [List.take_append, List.take_of_length_le (by rw [List.length_append]; exact hfits), List.length_append]
    rfl
  · rename_i hpast
    rw [List.append_assoc, List.take_append_of_le_length (Nat.le_of_not_lt hpast),
      Text.Utf8.take_encode_of_ascii hascii]

theorem readIdentifiers_unlines_singleton (line rest : String) :
    readIdentifiers (unlines [line] ++ rest) = readIdentifiers line ++ readIdentifiers rest := by
  rw [readIdentifiers_unlines_append, List.flatMap_singleton]

/-- Nothing is read from lines that are skipped, wherever they are cut. -/
theorem exists_text_of_skipped {lines : List String}
    (hlines : ∀ line ∈ lines, IsSkipped line ∧ ∀ c ∈ line.toList, c.toNat < 0x80) (room : Nat) :
    ∃ text, (encode (unlines lines)).take room = encode text ∧ readIdentifiers text = [] := by
  induction lines generalizing room with
  | nil => exact ⟨"", List.take_nil, rfl⟩
  | cons line rest ih =>
    rw [List.forall_mem_cons] at hlines
    obtain ⟨⟨hskipped, hascii⟩, hrest⟩ := hlines
    rw [take_encode_lines hascii]
    split
    · obtain ⟨text, htext, hread⟩ := ih hrest (room - ((encode line).length + 1))
      refine ⟨unlines [line] ++ text, ?_, ?_⟩
      · rw [htext, Text.Utf8.encode_append]
      · rw [readIdentifiers_unlines_singleton, hskipped.readIdentifiers_eq_nil, hread]
        rfl
    · exact ⟨_, rfl, (hskipped.start room).readIdentifiers_eq_nil⟩

/-- So many of some identifiers, and at most one more entry: a start of the next identifier. -/
def EntriesUpTo (identifiers : List String) (count : Nat) (entries : List String) : Prop :=
  entries = identifiers.take count ∨ ∃ failed start, identifiers[count]? = some failed ∧ start ≠ "" ∧
    start.toList <+: failed.toList ∧ entries = identifiers.take count ++ [start]

theorem EntriesUpTo.cons {identifiers entries : List String} {count : Nat}
    (hentries : EntriesUpTo identifiers count entries) (identifier : String) :
    EntriesUpTo (identifier :: identifiers) (count + 1) (identifier :: entries) := by
  rcases hentries with rfl | ⟨failed, start, hfailed, hstart, hprefix, rfl⟩
  · exact Or.inl rfl
  · exact Or.inr ⟨failed, start, hfailed, hstart, hprefix, rfl⟩

/-- From the lines of some identifiers with skipped lines behind them, the identifiers are read whose lines are
whole, and a start of the next one at most. -/
theorem exists_text_of_lines {identifiers more : List String}
    (hplain : ∀ identifier ∈ identifiers, Plain identifier)
    (hmore : ∀ line ∈ more, IsSkipped line ∧ ∀ c ∈ line.toList, c.toNat < 0x80) (room : Nat) :
    ∃ text, (encode (unlines (identifiers ++ more))).take room = encode text ∧
      EntriesUpTo identifiers (linesWithin room identifiers) (readIdentifiers text) := by
  induction identifiers generalizing room with
  | nil =>
    obtain ⟨text, htext, hread⟩ := exists_text_of_skipped hmore room
    exact ⟨text, htext, Or.inl hread⟩
  | cons identifier rest ih =>
    rw [List.forall_mem_cons] at hplain
    rw [List.cons_append, take_encode_lines hplain.1.ascii, linesWithin]
    split
    · obtain ⟨text, htext, hread⟩ := ih hplain.2 (room - ((encode identifier).length + 1))
      refine ⟨unlines [identifier] ++ text, ?_, ?_⟩
      · rw [htext, Text.Utf8.encode_append]
      · rw [readIdentifiers_unlines_singleton, readIdentifiers_eq_self_iff.mpr hplain.1.recordable]
        exact hread.cons identifier
    · refine ⟨_, rfl, ?_⟩
      rw [(hplain.1.start room).readIdentifiers_eq]
      split
      · exact Or.inl rfl
      · rename_i hstart
        refine Or.inr ⟨identifier, _, rfl, hstart, ?_, rfl⟩
        rw [String.toList_ofList]
        exact List.take_prefix room identifier.toList

/-! ### The whole artifact -/

theorem FinalReport.skipped_ascii (reports : List FinalReport) :
    ∀ line ∈ reports.flatMap FinalReport.summaryLines, IsSkipped line ∧ ∀ c ∈ line.toList, c.toNat < 0x80 := by
  intro line hline
  obtain ⟨report, -, hline⟩ := List.mem_flatMap.mp hline
  refine ⟨report.isSkipped line hline, fun c hc => ?_⟩
  exact Nat.lt_of_le_of_lt (report.printing_summaryLines line hline c hc).2 (by decide)

theorem RunHeader.Unbroken.readIdentifiers_append {header : RunHeader} (hheader : header.Unbroken) (rest : String) :
    readIdentifiers (header.text ++ rest) = readIdentifiers rest := by
  rw [header.text_eq_unlines, readIdentifiers_unlines_append,
    flatMap_readIdentifiers_skipped hheader.isSkipped, List.nil_append]

/-- Behind a whole header, the cut goes through the lines of the identifiers and the summaries. -/
theorem take_artifactText {header : RunHeader} {limit : Nat} (hfits : (encode header.text).length ≤ limit)
    (identifiers : List String) (reports : List FinalReport) :
    (encode (artifactText header identifiers reports)).take limit =
      encode header.text ++
        (encode (unlines (identifiers ++ reports.flatMap FinalReport.summaryLines))).take
          (limit - (encode header.text).length) := by
  rw [artifactText, unlines_append, Text.Utf8.encode_append, ← header.text_eq_unlines, List.take_append,
    List.take_of_length_le hfits]

/-- What becomes of an artifact whose writer fills up at any byte behind the header. It has the first bytes of what
is written to a device without a limit. The calls that succeed are the first ones, and each of the others is
counted. What is read are the identifiers of the calls that succeeded and at most a start of the next one. -/
theorem readIdentifiers_cut {ω : Type} [Writer ω] {taken : ω → Bytes} {limit : Nat} {good : ω → Prop}
    (hfills : Writer.Fills taken limit good) {w : ω} (hgood : good w) (hempty : taken w = [])
    {header : RunHeader} (hheader : header.Unbroken) {sink : ResultSink ω}
    (hopen : ResultSink.open? w header = .ok sink) {identifiers : List String}
    (hplain : ∀ identifier ∈ identifiers, Plain identifier) (reports : List FinalReport) :
    let written := (sink.recordEach identifiers).writeSummaries reports
    let results := sink.recordResults identifiers
    (∃ unlimited, ResultSink.open? ({} : Device) header = .ok unlimited ∧ taken written.writer =
      (((unlimited.recordEach identifiers).writeSummaries reports).writer.content).take limit) ∧
    written.unrecorded = results.countP (fun result => !result.isOk) ∧
    ∃ count contents,
      results.map (·.isOk) = List.replicate count true ++ List.replicate (identifiers.length - count) false ∧
      decode (taken written.writer) = .ok contents ∧ EntriesUpTo identifiers count (readIdentifiers contents) := by
  intro written results
  obtain ⟨hgood₀, htaken₀, hfits⟩ := ResultSink.open?_fills hfills hgood hempty hopen
  obtain ⟨hgood₁, hresults, htaken₁⟩ := ResultSink.recordEach_fills hfills hgood₀ identifiers
  have htaken : taken written.writer = (encode (artifactText header identifiers reports)).take limit := by
    rw [ResultSink.writeSummaries_fills hfills hgood₁ reports, htaken₁, take_append_take, htaken₀,
      encode_artifactText]
  refine ⟨?_, ?_, ?_⟩
  · obtain ⟨unlimited, hunlimited, -, hcontent⟩ :=
      ResultSink.taken_never_fails Device.takes Device.neverFails (w := {}) rfl rfl header identifiers reports
    exact ⟨unlimited, hunlimited, hcontent ▸ htaken⟩
  · have hunrecorded := sink.unrecorded_recordEach identifiers
    rw [ResultSink.unrecorded_of_open? hopen, Nat.zero_add] at hunrecorded
    exact (ResultSink.unrecorded_writeSummaries _ reports).trans hunrecorded
  · obtain ⟨text, htext, hread⟩ :=
      exists_text_of_lines hplain (FinalReport.skipped_ascii reports) (limit - (encode header.text).length)
    rw [htaken₀] at hresults
    refine ⟨_, header.text ++ text, hresults, ?_, ?_⟩
    · rw [htaken, take_artifactText hfits, htext, ← Text.Utf8.encode_append, Text.Utf8.decode_encode]
    · rw [hheader.readIdentifiers_append]
      exact hread

/-- Room for the header, a line and three bytes more. -/
theorem readIdentifiers_cut_small :
    ∃ sink contents,
      ResultSink.open? ({ room := some 39 } : Device) { label := "run", startedAt := ⟨0, 0⟩ } = .ok sink ∧
      (sink.recordResults ["0xaaa", "0xbbb"]).map (·.isOk) = [true, false] ∧
      ((sink.recordEach ["0xaaa", "0xbbb"]).writeSummaries [{}]).unrecorded = 1 ∧
      decode (Device.content ((sink.recordEach ["0xaaa", "0xbbb"]).writeSummaries [{}]).writer) = .ok contents ∧
      readIdentifiers contents = ["0xaaa", "0xb"] := by
  have hheader : RunHeader.Unbroken { label := "run", startedAt := ⟨0, 0⟩ } := ⟨by simp, by simp⟩
  have hplain : ∀ identifier ∈ ["0xaaa", "0xbbb"], Plain identifier := by
    simp only [List.forall_mem_cons]
    exact ⟨⟨by simp, by simp, by simp⟩, ⟨by simp, by simp, by simp⟩, nofun⟩
  obtain ⟨sink, hopen, hresults, hcontent⟩ : ∃ sink,
      ResultSink.open? ({ room := some 39 } : Device) { label := "run", startedAt := ⟨0, 0⟩ } = .ok sink ∧
      (sink.recordResults ["0xaaa", "0xbbb"]).map (·.isOk) = [true, false] ∧
      decode (Device.content ((sink.recordEach ["0xaaa", "0xbbb"]).writeSummaries [{}]).writer) =
        .ok "# run - 1970-01-01T00:00:00Z\n\n0xaaa\n0xb" :=
    ⟨_, rfl, by decide +kernel, by decide +kernel⟩
  obtain ⟨-, hunrecorded, -, contents, -, hdecode, -⟩ :=
    readIdentifiers_cut (Device.fills 39) ⟨39, rfl, rfl⟩ rfl hheader hopen hplain [{}]
  refine ⟨sink, contents, hopen, hresults, ?_, hdecode, ?_⟩
  · have hcount := congrArg (List.countP (!·)) hresults
    rw [List.countP_map] at hcount
    exact hunrecorded.trans hcount
  · obtain rfl := Except.ok.inj (hdecode.symm.trans hcontent)
    decide +kernel

end TransferLoad
