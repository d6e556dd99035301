import TransferLoad.Artifact.Writer
import TransferLoad.Report
import TransferLoad.Text.Timestamp
import TransferLoad.Text.Blank

/-!
# The artifact of a run

The file that a run leaves behind: comment lines with the parameters, a blank line, one identifier per
line, and comment lines with the summary. It is written piece by piece in this order. Reading it back
keeps the lines that are neither blank nor comments.
-/

namespace TransferLoad

structure RunHeader where
  label : String
  startedAt : Text.Timestamp.Instant
  fields : List (String × String) := []
  deriving Repr, DecidableEq

namespace RunHeader

def fieldPieces (field : String × String) : List String := ["# ", field.1, ": ", field.2, "\n"]

def pieces (h : RunHeader) : List String :=
  ["# ", h.label, " - ", h.startedAt.render, "\n"] ++ h.fields.flatMap fieldPieces ++ ["\n"]

end RunHeader

def identifierPieces (identifier : String) : List String := [identifier, "\n"]

def FinalReport.summaryPieces (r : FinalReport) : List String :=
  ["\n", "# === SUMMARY ===\n",
    "# Total Sent: ", toString r.sent, "/", toString r.planned, "\n",
    "# Errors: ", toString r.errors, "\n",
    "# Duration: ", Decimal.toPlaces 2 (floatSeconds r.totalTime), "s\n",
    "# Target TPS: ", toString r.targetTps.toNat, "\n",
    "# Actual TPS: ", Decimal.toPlaces 2 r.actualTps, "\n",
    "# Deviation: ", Decimal.toPlaces 2 r.deviation, "%\n"] ++
  (if 0 < r.unrecorded then ["# Unrecorded: ", toString r.unrecorded, "\n"] else []) ++
  (if r.interrupted then ["# Interrupted: true\n"] else [])

/-! ### Writing -/

/-- An artifact that is being written, with the number of identifiers that could not be written. -/
structure ResultSink (ω : Type) where
  writer : ω
  unrecorded : Nat := 0

namespace ResultSink

variable {ω : Type} [Writer ω]

/-- Writes the header. When that fails, the writer is all that is left. -/
def open? (w : ω) (header : RunHeader) : Except (IoError × ω) (ResultSink ω) :=
  match Writer.writeTexts w header.pieces with
  | (.ok (), w) => .ok { writer := w }
  | (.error cause, w) => .error (cause, w)

/-- Appends one identifier. A failure is counted. -/
def record (s : ResultSink ω) (identifier : String) : Except IoError Unit × ResultSink ω :=
  match Writer.writeTexts s.writer (identifierPieces identifier) with
  | (.ok (), w) => (.ok (), { s with writer := w })
  | (.error cause, w) => (.error cause, { writer := w, unrecorded := s.unrecorded + 1 })

def writeSummary (s : ResultSink ω) (report : FinalReport) : Except IoError Unit × ResultSink ω :=
  match Writer.writeTexts s.writer report.summaryPieces with
  | (.error cause, w) => (.error cause, { s with writer := w })
  | (.ok (), w) =>
    let (result, w) := Writer.flush w
    (result, { s with writer := w })

end ResultSink

/-! ### Reading -/

/-- The lines of a text. The line feed ends a line; behind the last one a line begins only if there is
more text, which makes no difference here since blank lines are skipped. -/
def splitLines : List Char → List (List Char)
  | [] => [[]]
  | '\n' :: rest => [] :: splitLines rest
  | c :: rest =>
    match splitLines rest with
    | [] => [[c]]
    | line :: lines => (c :: line) :: lines

/-- A line that holds an identifier: not blank and no comment. -/
def isIdentifierLine : List Char → Bool
  | [] => false
  | c :: _ => c != '#'

def readIdentifierLines (chars : List Char) : List (List Char) :=
  ((splitLines chars).map Text.trim).filter isIdentifierLine

/-- The identifiers in an artifact, without the blanks around them. -/
def readIdentifiers (contents : String) : List String :=
  (readIdentifierLines contents.toList).map String.ofList

end TransferLoad
