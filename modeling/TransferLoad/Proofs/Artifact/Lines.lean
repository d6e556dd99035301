import TransferLoad.Proofs.Artifact.Summary
import TransferLoad.Proofs.Text.Blank

/-!
# What is read from lines

An artifact is read line by line, and a line gives its own identifier or none, whatever the others hold.
So what is read from a text is what is read from its lines one after the other. Headers whose parts bring
no line feed with them give nothing, and summaries never do; an identifier comes back from its line as it
was exactly if it can stand on a line of its own without being trimmed or skipped.
-/

namespace TransferLoad

/-! ### Reading line by line -/

theorem readIdentifierLines_append (before after : List Char) :
    readIdentifierLines (before ++ '\n' :: after) =
      readIdentifierLines before ++ readIdentifierLines after := by
  rw [readIdentifierLines, splitLines_append, List.map_append, List.filter_append]
  rfl

theorem readIdentifierLines_line {line : List Char} (hline : '\n' ∉ line) :
    readIdentifierLines line = [Text.trim line].filter isIdentifierLine := by
  rw [readIdentifierLines, splitLines_line hline]
  rfl

/-- Lines one after the other, each with a line feed behind it. -/
def unlines (lines : List String) : String := String.join (lines.map (· ++ "\n"))

theorem unlines_append (before after : List String) :
    unlines (before ++ after) = unlines before ++ unlines after := by
  rw [unlines, List.map_append, String.join_append]
  rfl

theorem toList_unlines (lines : List String) :
    (unlines lines).toList = (lines.map String.toList).flatMap (· ++ ['\n']) := by
  rw [unlines, String.toList_join, List.flatMap_map, List.flatMap_map]
  exact List.flatMap_congr fun line _ => String.toList_append

/-- What is read from lines is read from them one after the other, and then from what stands behind. -/
theorem readIdentifiers_unlines_append (lines : List String) (rest : String) :
    readIdentifiers (unlines lines ++ rest) = lines.flatMap readIdentifiers ++ readIdentifiers rest := by
  induction lines with
  | nil => rw [unlines, List.map_nil, String.join_nil, String.empty_append, List.flatMap_nil, List.nil_append]
  | cons line lines ih =>
    have hsplit : (unlines (line :: lines) ++ rest).toList =
        line.toList ++ '\n' :: (unlines lines ++ rest).toList := by
      simp [unlines, String.toList_append]
    rw [List.flatMap_cons, List.append_assoc, ← ih]
    simp only [readIdentifiers, hsplit, readIdentifierLines_append, List.map_append]

theorem readIdentifiers_unlines (lines : List String) :
    readIdentifiers (unlines lines) = lines.flatMap readIdentifiers := by
  rw [← String.append_empty (s := unlines lines), readIdentifiers_unlines_append]
  exact List.append_nil _

theorem newline_notMem_splitLines (chars : List Char) : ∀ line ∈ splitLines chars, '\n' ∉ line := by
  induction chars with
  | nil => simp [splitLines]
  | cons c rest ih =>
    rw [splitLines_eq_splitOn] at ih ⊢
    rw [List.splitOn_cons_eq_if_modifyHead]
    split
    · simpa using ih
    · rename_i hc
      obtain ⟨line, lines, hsplit⟩ := List.exists_cons_of_ne_nil (List.splitOn_ne_nil '\n' rest)
      rw [hsplit, List.forall_mem_cons] at ih
      rw [hsplit, List.modifyHead_cons, List.forall_mem_cons]
      refine ⟨?_, ih.2⟩
      rw [List.mem_cons, not_or]
      exact ⟨fun heq => hc (beq_iff_eq.mpr heq.symm), ih.1⟩

/-! ### Lines that give nothing -/

theorem readIdentifierLines_comment {rest : List Char} (hrest : '\n' ∉ rest) :
    readIdentifierLines ('#' :: rest) = [] := by
  obtain ⟨kept, htrim⟩ := Text.trim_cons_of_not_blank (c := '#') (by decide) rest
  rw [readIdentifierLines_line (by simpa using hrest), htrim]
  rfl

/-- A line that is skipped: it is empty or a comment. -/
def IsSkipped (line : String) : Prop := line = "" ∨ '\n' ∉ line.toList ∧ line.toList.head? = some '#'

theorem IsSkipped.readIdentifiers_eq_nil {line : String} (hskipped : IsSkipped line) :
    readIdentifiers line = [] := by
  rw [readIdentifiers, List.map_eq_nil_iff]
  rcases hskipped with rfl | ⟨hline, hhead⟩
  · rfl
  · obtain ⟨rest, hrest⟩ := List.head?_eq_some_iff.mp hhead
    rw [hrest] at hline ⊢
    exact readIdentifierLines_comment fun hmem => hline (List.mem_cons_of_mem _ hmem)

theorem flatMap_readIdentifiers_skipped {lines : List String} (hskipped : ∀ line ∈ lines, IsSkipped line) :
    lines.flatMap readIdentifiers = [] :=
  List.flatMap_eq_nil_iff.mpr fun line hline => (hskipped line hline).readIdentifiers_eq_nil

/-! ### Identifiers that can be read back -/

/-- An identifier that stands on a line of its own, without blanks around it, and is no comment. -/
structure Recordable (identifier : String) : Prop where
  not_empty : identifier ≠ ""
  one_line : '\n' ∉ identifier.toList
  trimmed : Text.Trimmed identifier.toList
  not_comment : identifier.toList.head? ≠ some '#'

theorem recordable_iff {identifier : String} :
    Recordable identifier ↔ identifier ≠ "" ∧ '\n' ∉ identifier.toList ∧
      Text.Trimmed identifier.toList ∧ identifier.toList.head? ≠ some '#' :=
  ⟨fun h => ⟨h.not_empty, h.one_line, h.trimmed, h.not_comment⟩, fun ⟨h₁, h₂, h₃, h₄⟩ => ⟨h₁, h₂, h₃, h₄⟩⟩

instance : DecidablePred Recordable := fun _ => decidable_of_iff' _ recordable_iff

theorem isIdentifierLine_iff {line : List Char} :
    isIdentifierLine line = true ↔ line ≠ [] ∧ line.head? ≠ some '#' := by
  cases line with
  | nil => simp [isIdentifierLine]
  | cons c rest => simp [isIdentifierLine]

theorem Recordable.readIdentifierLines {identifier : String} (h : Recordable identifier) :
    TransferLoad.readIdentifierLines identifier.toList = [identifier.toList] := by
  have hline : isIdentifierLine identifier.toList = true :=
    isIdentifierLine_iff.mpr ⟨fun hnil => h.not_empty (String.toList_eq_nil_iff.mp hnil), h.not_comment⟩
  rw [readIdentifierLines_line h.one_line, h.trimmed.trim_eq, List.filter_cons_of_pos hline]
  rfl

/-- Whatever is read from an artifact is recordable. -/
theorem recordable_of_mem_readIdentifiers {contents identifier : String}
    (hmem : identifier ∈ readIdentifiers contents) : Recordable identifier := by
  obtain ⟨line, hline, rfl⟩ := List.mem_map.mp hmem
  obtain ⟨htrimmed, hkept⟩ := List.mem_filter.mp hline
  obtain ⟨whole, hwhole, rfl⟩ := List.mem_map.mp htrimmed
  obtain ⟨hnonempty, hhead⟩ := isIdentifierLine_iff.mp hkept
  rw [recordable_iff, String.toList_ofList]
  refine ⟨fun hempty => hnonempty ?_, fun hnewline => ?_, Text.trimmed_trim whole, hhead⟩
  · rw [← String.toList_ofList (l := Text.trim whole), hempty]
    rfl
  · exact newline_notMem_splitLines contents.toList whole hwhole (Text.mem_of_mem_trim hnewline)

theorem readIdentifiers_eq_self_iff {identifier : String} :
    readIdentifiers identifier = [identifier] ↔ Recordable identifier := by
  constructor
  · intro hread
    exact recordable_of_mem_readIdentifiers (hread ▸ List.mem_singleton_self identifier)
  · intro h
    rw [readIdentifiers, h.readIdentifierLines, List.map_singleton, String.ofList_toList]

/-- Reading gives a list of identifiers back from one text for each exactly if all are recordable. -/
theorem flatMap_readIdentifiers_eq_self_iff {identifiers : List String} :
    identifiers.flatMap readIdentifiers = identifiers ↔ ∀ identifier ∈ identifiers, Recordable identifier := by
  constructor
  · intro hread identifier hmem
    rw [← hread] at hmem
    obtain ⟨contents, -, hmem⟩ := List.mem_flatMap.mp hmem
    exact recordable_of_mem_readIdentifiers hmem
  · intro hall
    calc identifiers.flatMap readIdentifiers
        = identifiers.flatMap (fun identifier => [identifier]) :=
          List.flatMap_congr fun identifier hmem => readIdentifiers_eq_self_iff.mpr (hall identifier hmem)
      _ = identifiers := List.flatMap_singleton' identifiers

/-- Printable ASCII without spaces that does not look like a comment. -/
structure Plain (identifier : String) : Prop where
  not_empty : identifier ≠ ""
  printable : ∀ c ∈ identifier.toList, 33 ≤ c.toNat ∧ c.toNat ≤ 126
  not_comment : identifier.toList.head? ≠ some '#'

theorem Plain.recordable {identifier : String} (h : Plain identifier) : Recordable identifier where
  not_empty := h.not_empty
  one_line := by
    intro hnewline
    have hrange := h.printable '\n' hnewline
    revert hrange
    decide
  trimmed :=
    { start := fun c hc => Text.isBlank_of_printable (h.printable c (List.mem_of_mem_head? hc))
      finish := fun c hc => Text.isBlank_of_printable (h.printable c (List.mem_of_mem_getLast? hc)) }
  not_comment := h.not_comment

/-! ### Headers and summaries -/

theorem newline_notMem_padded (width n : Nat) : '\n' ∉ (Text.Timestamp.padded width n).toList := by
  unfold Text.Timestamp.padded
  simp [newline_notMem_toDigits]

theorem newline_notMem_instant (t : Text.Timestamp.Instant) : '\n' ∉ t.render.toList := by
  have hyear : ∀ year, '\n' ∉ (Text.Timestamp.yearText year).toList := by
    intro year
    unfold Text.Timestamp.yearText
    split
    · exact newline_notMem_padded _ _
    · split <;> simp [newline_notMem_padded]
  unfold Text.Timestamp.Instant.render
  simp [newline_notMem_padded, hyear]

namespace RunHeader

def text (h : RunHeader) : String := String.join h.pieces

def lines (h : RunHeader) : List String :=
  ("# " ++ (h.label ++ (" - " ++ h.startedAt.render))) ::
    h.fields.map (fun field => "# " ++ (field.1 ++ (": " ++ field.2))) ++ [""]

/-- No part of the header brings a line feed with it. -/
structure Unbroken (h : RunHeader) : Prop where
  label : '\n' ∉ h.label.toList
  fields : ∀ field ∈ h.fields, '\n' ∉ field.1.toList ∧ '\n' ∉ field.2.toList

theorem text_eq_unlines (h : RunHeader) : h.text = unlines h.lines := by
  have hfields : String.join (h.fields.flatMap fieldPieces) =
      unlines (h.fields.map fun field => "# " ++ (field.1 ++ (": " ++ field.2))) := by
    induction h.fields with
    | nil => rfl
    | cons field rest ih =>
      rw [List.flatMap_cons, String.join_append, ih]
      simp [fieldPieces, unlines, ← String.toList_inj, String.toList_append]
  rw [text, pieces, String.join_append, String.join_append, hfields]
  simp [lines, unlines, ← String.toList_inj, String.toList_append]

theorem Unbroken.isSkipped {h : RunHeader} (hunbroken : h.Unbroken) : ∀ line ∈ h.lines, IsSkipped line := by
  intro line hline
  simp only [lines, List.mem_append, List.mem_cons, List.mem_map, List.not_mem_nil, or_false] at hline
  rcases hline with (rfl | ⟨field, hfield, rfl⟩) | rfl
  · right
    simp [String.toList_append, hunbroken.label, newline_notMem_instant]
  · right
    simp [String.toList_append, hunbroken.fields field hfield]
  · exact Or.inl rfl

end RunHeader

theorem FinalReport.summaryText_eq_unlines (r : FinalReport) : r.summaryText = unlines r.summaryLines := by
  rw [← String.toList_inj, toList_summaryText, toList_unlines]

theorem FinalReport.isSkipped (r : FinalReport) : ∀ line ∈ r.summaryLines, IsSkipped line := by
  intro line hline
  have hnewline := r.newline_notMem_summaryLines line hline
  have hstart : line = "" ∨ line.toList.head? = some '#' := by
    revert line
    unfold summaryLines summaryHead interruptedLine
    split
    all_goals split
    all_goals simp [String.toList_append]
  rcases hstart with rfl | hhead
  · exact Or.inl rfl
  · exact Or.inr ⟨hnewline, hhead⟩

end TransferLoad
