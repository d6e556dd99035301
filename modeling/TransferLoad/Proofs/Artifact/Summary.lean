import TransferLoad.Proofs.Artifact.Writer
import TransferLoad.Artifact.Basic

/-!
# The lines of a summary

A summary is written in pieces. Put together, the pieces are lines of printable ASCII, since no number in
them brings anything else with it. So the lines of the text are known, and whether one of them says that
the run was interrupted is up to the report alone.
-/

namespace TransferLoad

/-! ### Texts without line feeds -/

theorem splitLines_eq_splitOn (chars : List Char) : splitLines chars = chars.splitOn '\n' := by
  induction chars with
  | nil => rfl
  | cons c rest ih =>
    rw [List.splitOn_cons_eq_if_modifyHead, ← ih]
    by_cases hc : c = '\n'
    · subst hc
      rfl
    · rw [if_neg (by simpa using hc), splitLines]
      · cases hrest : splitLines rest with
        | nil =>
          rw [ih] at hrest
          exact absurd hrest (List.splitOn_ne_nil _ _)
        | cons line lines => rfl
      · exact hc

theorem splitLines_append (before after : List Char) :
    splitLines (before ++ '\n' :: after) = splitLines before ++ splitLines after := by
  simp only [splitLines_eq_splitOn, List.splitOn_append_cons_self]

theorem splitLines_line {line : List Char} (hline : '\n' ∉ line) : splitLines line = [line] := by
  rw [splitLines_eq_splitOn, List.splitOn_eq_singleton hline]

theorem splitLines_flatMap_newline {lines : List (List Char)} (hlines : ∀ line ∈ lines, '\n' ∉ line) :
    splitLines (lines.flatMap (· ++ ['\n'])) = lines ++ [[]] := by
  induction lines with
  | nil => rfl
  | cons line lines ih =>
    rw [List.forall_mem_cons] at hlines
    rw [List.flatMap_cons, List.append_assoc, List.singleton_append, splitLines_append,
      splitLines_line hlines.1, ih hlines.2]
    rfl

/-! ### Printable texts -/

/-- ASCII that prints, with spaces. -/
def Printing (chars : List Char) : Prop := ∀ c ∈ chars, 32 ≤ c.toNat ∧ c.toNat ≤ 126

@[simp] theorem printing_nil : Printing [] := nofun

@[simp] theorem printing_cons {c : Char} {chars : List Char} :
    Printing (c :: chars) ↔ (32 ≤ c.toNat ∧ c.toNat ≤ 126) ∧ Printing chars := List.forall_mem_cons

@[simp] theorem printing_append {before after : List Char} :
    Printing (before ++ after) ↔ Printing before ∧ Printing after := List.forall_mem_append

theorem Printing.newline_notMem {chars : List Char} (h : Printing chars) : '\n' ∉ chars :=
  fun hmem => absurd (h '\n' hmem).1 (by decide)

@[simp] theorem printing_toDigits (n : Nat) : Printing (Nat.toDigits 10 n) := by
  intro c hc
  have hdigit := Nat.isDigit_of_mem_toDigits (by decide) (by decide) hc
  simp only [Char.isDigit, Bool.and_eq_true, decide_eq_true_eq, ge_iff_le, UInt32.le_iff_toNat_le] at hdigit
  change 48 ≤ c.toNat ∧ c.toNat ≤ 57 at hdigit
  omega

theorem newline_notMem_toDigits (n : Nat) : '\n' ∉ Nat.toDigits 10 n := (printing_toDigits n).newline_notMem

@[simp] theorem printing_toString (n : Nat) : Printing (toString n).toList := by
  change Printing n.repr.toList
  rw [Nat.toList_repr]
  exact printing_toDigits n

theorem printing_pointed (places n : Nat) : Printing (Decimal.pointed places n).toList := by
  unfold Decimal.pointed
  dsimp only
  split
  · exact printing_toString _
  · have hdecimals : Printing ((Nat.toDigits 10 (Nat.pow 10 places + n % Nat.pow 10 places)).drop 1) :=
      fun c hc => printing_toDigits _ c (List.mem_of_mem_drop hc)
    simp only [String.toList_append, String.toList_ofList, printing_append]
    exact ⟨⟨printing_toString _, by simp⟩, hdecimals⟩

@[simp] theorem printing_toPlaces (places : Nat) (x : Float) : Printing (Decimal.toPlaces places x).toList := by
  unfold Decimal.toPlaces
  split
  · simp
  · split <;> simp
  · dsimp only
    rw [String.toList_append, printing_append]
    refine ⟨?_, printing_pointed _ _⟩
    split <;> simp

/-! ### The summary -/

namespace FinalReport

def summaryText (r : FinalReport) : String := String.join r.summaryPieces

def interruptedLine : String := "# Interrupted: true"

/-- The lines of a summary before the one about the interruption. -/
def summaryHead (r : FinalReport) : List String :=
  ["", "# === SUMMARY ===", "# Total Sent: " ++ (toString r.sent ++ "/" ++ toString r.planned),
    "# Errors: " ++ toString r.errors,
    "# Duration: " ++ (Decimal.toPlaces 2 (floatSeconds r.totalTime) ++ "s"),
    "# Target TPS: " ++ toString r.targetTps.toNat, "# Actual TPS: " ++ Decimal.toPlaces 2 r.actualTps,
    "# Deviation: " ++ (Decimal.toPlaces 2 r.deviation ++ "%")] ++
  if 0 < r.unrecorded then ["# Unrecorded: " ++ toString r.unrecorded] else []

def summaryLines (r : FinalReport) : List String :=
  r.summaryHead ++ if r.interrupted then [interruptedLine] else []

theorem toList_summaryText (r : FinalReport) :
    r.summaryText.toList = (r.summaryLines.map String.toList).flatMap (· ++ ['\n']) := by
  unfold summaryText summaryPieces summaryLines summaryHead interruptedLine
  split
  all_goals split
  all_goals simp [String.toList_append]

theorem printing_summaryLines (r : FinalReport) : ∀ line ∈ r.summaryLines, Printing line.toList := by
  unfold summaryLines summaryHead interruptedLine
  split
  all_goals split
  all_goals simp [String.toList_append]

theorem newline_notMem_summaryLines (r : FinalReport) : ∀ line ∈ r.summaryLines, '\n' ∉ line.toList :=
  fun line hline => (r.printing_summaryLines line hline).newline_notMem

theorem interruptedLine_notMem_summaryHead (r : FinalReport) : interruptedLine ∉ r.summaryHead := by
  unfold summaryHead interruptedLine
  split
  all_goals simp [← String.toList_inj, String.toList_append]

/-- The summary has a line about the interruption exactly if the report says so. -/
theorem interruptedLine_mem_summary (r : FinalReport) :
    interruptedLine.toList ∈ splitLines r.summaryText.toList ↔ r.interrupted = true := by
  have hlines : ∀ line ∈ r.summaryLines.map String.toList, '\n' ∉ line := by
    intro line hline
    obtain ⟨text, htext, rfl⟩ := List.mem_map.mp hline
    exact r.newline_notMem_summaryLines text htext
  have hmem : interruptedLine.toList ∈ splitLines r.summaryText.toList ↔
      interruptedLine ∈ r.summaryLines := by
    rw [toList_summaryText, splitLines_flatMap_newline hlines, List.mem_append, List.mem_map]
    constructor
    · rintro (⟨text, htext, heq⟩ | hrest)
      · rwa [← String.toList_inj.mp heq]
      · exact absurd (List.mem_singleton.mp hrest) (by decide)
    · exact fun htext => Or.inl ⟨_, htext, rfl⟩
  rw [hmem, summaryLines, List.mem_append]
  cases r.interrupted with
  | true => simp
  | false => simpa using r.interruptedLine_notMem_summaryHead

end FinalReport

/-- A summary that is written without complaint stands in the device behind everything before it. -/
theorem ResultSink.content_of_writeSummary {sink sink' : ResultSink BufferedDevice} {report : FinalReport}
    (hwrite : sink.writeSummary report = (.ok (), sink')) :
    sink'.writer.device.content = sink.writer.given ++ Text.Utf8.encode report.summaryText ∧
      sink'.writer.pending = [] := by
  unfold ResultSink.writeSummary at hwrite
  split at hwrite
  · cases hwrite
  · rename_i b htexts
    rcases hflush : Writer.flush b with ⟨result, b'⟩
    simp only [hflush, Prod.mk.injEq] at hwrite
    obtain ⟨rfl, rfl⟩ := hwrite
    obtain ⟨hcontent, hpending⟩ := BufferedDevice.drain_ok hflush
    exact ⟨hcontent.trans (BufferedDevice.takes.writeTexts_ok htexts), hpending⟩

end TransferLoad
