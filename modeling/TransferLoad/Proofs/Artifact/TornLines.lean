import TransferLoad.Proofs.Artifact.Sink

/-!
# Lines that were not finished

A call that fails may leave the start of its identifier in the artifact, and nothing ends that line: the
next call that succeeds writes behind it. So an identifier that was written does come back, but as the end
of an entry that begins with the starts which failed calls have left since the last line feed, and a start
that no line follows is an entry of its own. What is read is the list of the identifiers that were written
exactly if no failed call has left anything.
-/

namespace TransferLoad

open Text.Utf8 (encode decode decodeLossy lineFeed)

/-- What a call for an identifier leaves in an artifact: its line, or some first characters of it. -/
inductive Piece where
  | line (identifier : String)
  | torn (start : String)
  deriving Repr, DecidableEq

namespace Piece

def text : Piece → String
  | line identifier => identifier ++ "\n"
  | torn start => start

/-- The identifiers whose calls succeeded. -/
def written : List Piece → List String
  | [] => []
  | line identifier :: rest => identifier :: written rest
  | torn _ :: rest => written rest

/-- The entries that are ended by a line feed, when a start stands before the first piece. -/
def closedEntries : (start : String) → List Piece → List String
  | _, [] => []
  | start, line identifier :: rest => (start ++ identifier) :: closedEntries "" rest
  | start, torn more :: rest => closedEntries (start ++ more) rest

/-- What stands behind the last line feed. -/
def openEntry : (start : String) → List Piece → String
  | start, [] => start
  | _, line _ :: rest => openEntry "" rest
  | start, torn more :: rest => openEntry (start ++ more) rest

/-- The entries of an artifact into which some pieces were written. -/
def entries (pieces : List Piece) : List String :=
  closedEntries "" pieces ++ if openEntry "" pieces = "" then [] else [openEntry "" pieces]

theorem text_eq_entries (start : String) (pieces : List Piece) :
    start ++ String.join (pieces.map text) =
      unlines (closedEntries start pieces) ++ openEntry start pieces := by
  induction pieces generalizing start with
  | nil =>
    rw [closedEntries, openEntry]
    simp [unlines]
  | cons piece rest ih =>
    cases piece with
    | line identifier =>
      rw [closedEntries, openEntry]
      have hrest := ih ""
      simp only [← String.toList_inj, String.toList_append, List.map_cons, unlines, String.join_cons, text,
        List.append_assoc, String.toList_empty, List.nil_append] at hrest ⊢
      rw [hrest]
    | torn more =>
      rw [closedEntries, openEntry, ← ih, List.map_cons, String.join_cons, text, String.append_assoc]

/-- Each identifier that was written is the end of an entry of its own, in the same order. -/
theorem written_in_closedEntries (start : String) (pieces : List Piece) :
    List.Forall₂ (fun identifier entry => ∃ start, entry = start ++ identifier) (written pieces)
      (closedEntries start pieces) := by
  induction pieces generalizing start with
  | nil => exact .nil
  | cons piece rest ih =>
    cases piece with
    | line identifier => exact .cons ⟨start, rfl⟩ (ih "")
    | torn more => exact ih (start ++ more)

theorem closedEntries_eq_written (pieces : List Piece) (hnothing : ∀ start, .torn start ∈ pieces → start = "") :
    closedEntries "" pieces = written pieces ∧ openEntry "" pieces = "" := by
  induction pieces with
  | nil => exact ⟨rfl, rfl⟩
  | cons piece rest ih =>
    obtain ⟨hclosed, hopen⟩ := ih fun start hstart => hnothing start (List.mem_cons_of_mem _ hstart)
    cases piece with
    | line identifier =>
      refine ⟨?_, hopen⟩
      rw [closedEntries, hclosed, String.empty_append]
      rfl
    | torn more =>
      obtain rfl := hnothing more List.mem_cons_self
      exact ⟨hclosed, hopen⟩

theorem nothing_torn {start : String} {pieces : List Piece}
    (hclosed : closedEntries start pieces = written pieces) (hopen : openEntry start pieces = "") :
    start = "" ∧ ∀ more, .torn more ∈ pieces → more = "" := by
  induction pieces generalizing start with
  | nil => exact ⟨hopen, fun _ hmem => nomatch hmem⟩
  | cons piece rest ih =>
    cases piece with
    | line identifier =>
      obtain ⟨hfirst, hrest⟩ := List.cons.inj hclosed
      have hstart : start = "" := by
        have hlength := congrArg String.length hfirst
        rw [String.length_append] at hlength
        exact String.length_eq_zero_iff.mp (by omega)
      refine ⟨hstart, fun more hmem => ?_⟩
      rcases List.mem_cons.mp hmem with heq | hmem
      · cases heq
      · exact (ih hrest hopen).2 more hmem
    | torn first =>
      obtain ⟨hjoined, hnothing⟩ := ih hclosed hopen
      obtain ⟨hstart, hfirst⟩ := String.append_eq_empty_iff.mp hjoined
      refine ⟨hstart, fun more hmem => ?_⟩
      rcases List.mem_cons.mp hmem with heq | hmem
      · cases heq
        exact hfirst
      · exact hnothing more hmem

/-- The entries are the identifiers that were written exactly if no failed call has left anything. -/
theorem entries_eq_written_iff (pieces : List Piece) :
    entries pieces = written pieces ↔ ∀ start, .torn start ∈ pieces → start = "" := by
  constructor
  · intro hentries
    have hlength : (closedEntries "" pieces).length = (written pieces).length :=
      (written_in_closedEntries "" pieces).length_eq.symm
    by_cases hopen : openEntry "" pieces = ""
    · rw [entries, if_pos hopen, List.append_nil] at hentries
      exact (nothing_torn hentries hopen).2
    · have hlonger := congrArg List.length hentries
      rw [entries, if_neg hopen, List.length_append, List.length_singleton] at hlonger
      omega
  · intro hnothing
    obtain ⟨hclosed, hopen⟩ := closedEntries_eq_written pieces hnothing
    rw [entries, hclosed, if_pos hopen, List.append_nil]

end Piece

/-! ### Starts of plain identifiers -/

/-- Nothing, or something that is a plain identifier by itself. -/
def PlainStart (text : String) : Prop := text = "" ∨ Plain text

theorem PlainStart.append {start identifier : String} (hstart : PlainStart start) (h : Plain identifier) :
    Plain (start ++ identifier) := by
  rcases hstart with rfl | hstart
  · rwa [String.empty_append]
  · have hnonempty : start.toList ≠ [] := fun hnil => hstart.not_empty (String.toList_eq_nil_iff.mp hnil)
    refine ⟨fun hempty => hstart.not_empty (String.append_eq_empty_iff.mp hempty).1, ?_, ?_⟩
    · intro c hc
      rw [String.toList_append, List.mem_append] at hc
      exact hc.elim (hstart.printable c) (h.printable c)
    · rw [String.toList_append, List.head?_append_of_ne_nil _ hnonempty]
      exact hstart.not_comment

theorem PlainStart.append_start {start more : String} (hstart : PlainStart start) (hmore : PlainStart more) :
    PlainStart (start ++ more) := by
  rcases hmore with rfl | hmore
  · rwa [String.append_empty]
  · exact Or.inr (hstart.append hmore)

theorem PlainStart.readIdentifiers_eq {text : String} (h : PlainStart text) :
    readIdentifiers text = if text = "" then [] else [text] := by
  rcases h with rfl | h
  · rfl
  · rw [if_neg h.not_empty]
    exact readIdentifiers_eq_self_iff.mpr h.recordable

theorem Plain.ascii {identifier : String} (h : Plain identifier) : ∀ c ∈ identifier.toList, c.toNat < 0x80 :=
  fun c hc => Nat.lt_of_le_of_lt (h.printable c hc).2 (by decide)

theorem Plain.start {identifier : String} (h : Plain identifier) (count : Nat) :
    PlainStart (String.ofList (identifier.toList.take count)) := by
  rcases hchars : identifier.toList.take count with _ | ⟨c, rest⟩
  · exact Or.inl rfl
  · obtain ⟨further, hsplit⟩ := List.take_prefix count identifier.toList
    rw [hchars] at hsplit
    refine Or.inr ⟨?_, ?_, ?_⟩
    · intro hempty
      rw [← String.toList_inj, String.toList_ofList] at hempty
      cases hempty
    · rw [String.toList_ofList]
      exact fun c' hc' => h.printable c' (hsplit ▸ List.mem_append_left _ hc')
    · have hhead := h.not_comment
      rw [← hsplit] at hhead
      rwa [String.toList_ofList]

/-- The first bytes of a plain identifier are the bytes of its first characters. -/
theorem Plain.start_of_torn {identifier : String} (h : Plain identifier) {torn : Bytes}
    (htorn : torn <+: encode identifier) : ∃ start, PlainStart start ∧ torn = encode start := by
  rw [List.prefix_iff_eq_take.mp htorn, Text.Utf8.take_encode_of_ascii h.ascii]
  exact ⟨_, h.start _, rfl⟩

/-! ### The whole artifact -/

namespace ResultSink

variable {ω : Type} [Writer ω]

/-- What calls for some identifiers leave, one after the other, as the bytes that the writer has taken
show. -/
def pieces (taken : ω → Bytes) (s : ResultSink ω) : List String → List Piece
  | [] => []
  | identifier :: rest =>
    match s.record identifier with
    | (.ok (), s') => .line identifier :: pieces taken s' rest
    | (.error _, s') =>
      .torn (decodeLossy ((taken s'.writer).drop (taken s.writer).length)) :: pieces taken s' rest

variable {taken : ω → Bytes}

theorem taken_recordEach (htakes : Writer.Takes taken) (s : ResultSink ω) {identifiers : List String}
    (hplain : ∀ identifier ∈ identifiers, Plain identifier) :
    taken (s.recordEach identifiers).writer =
        taken s.writer ++ encode (String.join ((s.pieces taken identifiers).map Piece.text)) ∧
      (∀ identifier, .line identifier ∈ s.pieces taken identifiers → Plain identifier) ∧
      ∀ start, .torn start ∈ s.pieces taken identifiers → PlainStart start := by
  induction identifiers generalizing s with
  | nil => exact ⟨(List.append_nil _).symm, fun _ hmem => (nomatch hmem), fun _ hmem => (nomatch hmem)⟩
  | cons identifier rest ih =>
    have hfirst := hplain identifier List.mem_cons_self
    have hrest := fun other hother => hplain other (List.mem_cons_of_mem identifier hother)
    rcases hrecord : s.record identifier with ⟨cause | _, s'⟩
    · obtain ⟨-, torn, htorn, htaken⟩ := record_error htakes hrecord
      obtain ⟨start, hstart, rfl⟩ := hfirst.start_of_torn htorn
      obtain ⟨hafter, hlines, hstarts⟩ := ih s' hrest
      have hpieces : s.pieces taken (identifier :: rest) = .torn start :: s'.pieces taken rest := by
        simp only [pieces, hrecord]
        rw [htaken, List.drop_left, Text.Utf8.decodeLossy_encode]
      rw [hpieces, recordEach_cons, hrecord]
      refine ⟨?_, ?_, ?_⟩
      · rw [hafter, htaken, List.map_cons, String.join_cons, Piece.text, Text.Utf8.encode_append,
          List.append_assoc]
      · simpa using hlines
      · simpa using ⟨hstart, hstarts⟩
    · obtain ⟨-, htaken⟩ := record_ok htakes hrecord
      obtain ⟨hafter, hlines, hstarts⟩ := ih s' hrest
      have hpieces : s.pieces taken (identifier :: rest) = .line identifier :: s'.pieces taken rest := by
        simp only [pieces, hrecord]
      rw [hpieces, recordEach_cons, hrecord]
      refine ⟨?_, ?_, ?_⟩
      · rw [hafter, htaken, List.map_cons, String.join_cons, Piece.text, Text.Utf8.encode_append,
          Text.Utf8.encode_append, List.append_assoc]
        rfl
      · simpa using ⟨hfirst, hlines⟩
      · simpa using hstarts

end ResultSink

theorem Piece.plain_entries {start : String} {pieces : List Piece} (hstart : PlainStart start)
    (hlines : ∀ identifier, .line identifier ∈ pieces → Plain identifier)
    (hstarts : ∀ start, .torn start ∈ pieces → PlainStart start) :
    (∀ entry ∈ closedEntries start pieces, Plain entry) ∧ PlainStart (openEntry start pieces) := by
  induction pieces generalizing start with
  | nil => exact ⟨fun _ hmem => (nomatch hmem), hstart⟩
  | cons piece rest ih =>
    have hlines' := fun identifier hmem => hlines identifier (List.mem_cons_of_mem piece hmem)
    have hstarts' := fun start hmem => hstarts start (List.mem_cons_of_mem piece hmem)
    cases piece with
    | line identifier =>
      obtain ⟨hclosed, hopen⟩ := ih (Or.inl rfl) hlines' hstarts'
      refine ⟨?_, hopen⟩
      rw [closedEntries, List.forall_mem_cons]
      exact ⟨hstart.append (hlines identifier List.mem_cons_self), hclosed⟩
    | torn more => exact ih (hstart.append_start (hstarts more List.mem_cons_self)) hlines' hstarts'

theorem Piece.readIdentifiers_pieces {header : RunHeader} (hheader : header.Unbroken) {pieces : List Piece}
    (hlines : ∀ identifier, .line identifier ∈ pieces → Plain identifier)
    (hstarts : ∀ start, .torn start ∈ pieces → PlainStart start) :
    readIdentifiers (header.text ++ String.join (pieces.map text)) = entries pieces := by
  obtain ⟨hclosed, hopen⟩ := plain_entries (Or.inl rfl) hlines hstarts
  have hhead : header.lines.flatMap readIdentifiers = [] := flatMap_readIdentifiers_skipped hheader.isSkipped
  have hentries : (closedEntries "" pieces).flatMap readIdentifiers = closedEntries "" pieces :=
    flatMap_readIdentifiers_eq_self_iff.mpr fun entry hentry => (hclosed entry hentry).recordable
  have htext := text_eq_entries "" pieces
  rw [String.empty_append] at htext
  rw [htext, ← String.append_assoc, header.text_eq_unlines, ← unlines_append,
    readIdentifiers_unlines_append, List.flatMap_append, hhead, hentries, hopen.readIdentifiers_eq, entries,
    List.nil_append]

/-- What is read after calls of which any may have failed, at any byte of its line: every identifier that
was written is the end of an entry of its own, in order, and there is nothing else to be read exactly if no
failed call has left anything. -/
theorem readIdentifiers_torn {ω : Type} [Writer ω] {taken : ω → Bytes} (htakes : Writer.Takes taken) {w : ω}
    (hempty : taken w = []) {header : RunHeader} (hheader : header.Unbroken) {sink : ResultSink ω}
    (hopen : ResultSink.open? w header = .ok sink) {identifiers : List String}
    (hplain : ∀ identifier ∈ identifiers, Plain identifier) :
    ∃ contents, decode (taken (sink.recordEach identifiers).writer) = .ok contents ∧
      readIdentifiers contents = Piece.entries (sink.pieces taken identifiers) ∧
      List.Forall₂ (fun identifier entry => ∃ start, entry = start ++ identifier)
        (Piece.written (sink.pieces taken identifiers))
        (Piece.closedEntries "" (sink.pieces taken identifiers)) ∧
      (readIdentifiers contents = Piece.written (sink.pieces taken identifiers) ↔
        ∀ start, .torn start ∈ sink.pieces taken identifiers → start = "") := by
  obtain ⟨htaken, hlines, hstarts⟩ := ResultSink.taken_recordEach htakes sink hplain
  have hread := Piece.readIdentifiers_pieces hheader hlines hstarts
  refine ⟨header.text ++ String.join ((sink.pieces taken identifiers).map Piece.text), ?_, hread, ?_, ?_⟩
  · rw [htaken, ResultSink.taken_of_open? htakes hopen, hempty, List.nil_append, ← Text.Utf8.encode_append,
      Text.Utf8.decode_encode]
  · exact Piece.written_in_closedEntries "" _
  · rw [hread]
    exact Piece.entries_eq_written_iff _

/-! ### A writer that recovers -/

/-- A writer that takes what its script says: all of a write, or so many bytes of it at most. After the
script it takes everything. -/
structure ScriptedWriter where
  content : Bytes := []
  script : List (Option Nat) := []

def ScriptedWriter.write (w : ScriptedWriter) (bytes : Bytes) : Except IoError Unit × ScriptedWriter :=
  match w.script with
  | some limit :: rest =>
    if bytes.length ≤ limit then (.ok (), ⟨w.content ++ bytes, rest⟩)
    else (.error .noSpace, ⟨w.content ++ bytes.take limit, rest⟩)
  | _ => (.ok (), ⟨w.content ++ bytes, w.script.tail⟩)

instance : Writer ScriptedWriter where
  write := ScriptedWriter.write
  flush w := (.ok (), w)

theorem ScriptedWriter.takes : Writer.Takes ScriptedWriter.content where
  of_ok := by
    intro w w' bytes hwrite
    change w.write bytes = _ at hwrite
    unfold ScriptedWriter.write at hwrite
    split at hwrite
    · split at hwrite
      · cases hwrite
        rfl
      · cases hwrite
    · cases hwrite
      rfl
  of_error := by
    intro w w' bytes cause hwrite
    change w.write bytes = _ at hwrite
    unfold ScriptedWriter.write at hwrite
    split at hwrite
    · rename_i limit rest hscript
      split at hwrite
      · cases hwrite
      · rename_i hlong
        cases hwrite
        exact ⟨limit, Nat.lt_of_not_le hlong, rfl⟩
    · cases hwrite
  of_flush := fun _ => rfl

/-- The second of three calls fails after two bytes. -/
theorem readIdentifiers_torn_small :
    ∃ (sink : ResultSink ScriptedWriter) (contents : String),
      ResultSink.open? (ω := ScriptedWriter) { script := List.replicate 8 none ++ [some 2] }
        { label := "run", startedAt := ⟨0, 0⟩ } = .ok sink ∧
      sink.pieces ScriptedWriter.content ["0xaaa", "0xbbb", "0xccc"] =
        [.line "0xaaa", .torn "0x", .line "0xccc"] ∧
      decode (ScriptedWriter.content (sink.recordEach ["0xaaa", "0xbbb", "0xccc"]).writer) = .ok contents ∧
      readIdentifiers contents = ["0xaaa", "0x0xccc"] := by
  have hheader : RunHeader.Unbroken { label := "run", startedAt := ⟨0, 0⟩ } := ⟨by simp, by simp⟩
  have hplain : ∀ identifier ∈ ["0xaaa", "0xbbb", "0xccc"], Plain identifier := by
    simp only [List.forall_mem_cons]
    exact ⟨⟨by simp, by simp, by simp⟩, ⟨by simp, by simp, by simp⟩, ⟨by simp, by simp, by simp⟩, nofun⟩
  obtain ⟨sink, hopen⟩ : ∃ sink, ResultSink.open? (ω := ScriptedWriter)
      { script := List.replicate 8 none ++ [some 2] } { label := "run", startedAt := ⟨0, 0⟩ } = .ok sink :=
    ⟨_, rfl⟩
  have hpieces : sink.pieces ScriptedWriter.content ["0xaaa", "0xbbb", "0xccc"] =
      [.line "0xaaa", .torn "0x", .line "0xccc"] := by
    obtain ⟨content, rfl⟩ : ∃ content, sink = { writer := ⟨content, [none, none, some 2]⟩ } := by
      cases hopen
      exact ⟨_, rfl⟩
    have hlong : encode "0xbbb" = [48, 120, 98, 98, 98] := by
      simp [encode, Text.Utf8.encodeChars, Text.Utf8.encodeChar]
    have hstart : encode "0x" = [48, 120] := by simp [encode, Text.Utf8.encodeChars, Text.Utf8.encodeChar]
    have hsecond : ∀ content, ResultSink.record (ω := ScriptedWriter) { writer := ⟨content, [some 2]⟩ } "0xbbb" =
        (.error .noSpace, { writer := ⟨content ++ encode "0x", []⟩, unrecorded := 1 }) := by
      intro content
      simp [ResultSink.record, identifierPieces, Writer.writeTexts, Writer.write, ScriptedWriter.write, hlong,
        hstart]
    change .line "0xaaa" :: ResultSink.pieces ScriptedWriter.content { writer := ⟨_, [some 2]⟩ }
      ["0xbbb", "0xccc"] = _
    rw [ResultSink.pieces, hsecond]
    dsimp only
    rw [List.drop_left, Text.Utf8.decodeLossy_encode]
    rfl
  obtain ⟨contents, hdecode, hread, -, -⟩ :=
    readIdentifiers_torn ScriptedWriter.takes rfl hheader hopen hplain
  refine ⟨sink, contents, hopen, hpieces, hdecode, ?_⟩
  rw [hread, hpieces]
  simp [Piece.entries, Piece.closedEntries, Piece.openEntry]

end TransferLoad
