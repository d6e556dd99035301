import TransferLoad.Proofs.Artifact.LostLines
import TransferLoad.Proofs.Artifact.RoundTrip
import TransferLoad.Proofs.Run.Artifact
import TransferLoad.Proofs.Text.Hex
import TransferLoad.RemoteNode

/-!
# Reading the artifact of a run

A node may call a transfer by any text, and a label may be any text; both go into the artifact as they
are. When no write has failed and the label is a single line, the accepted identifiers come back from the
artifact exactly if each of them is recordable. Identifiers that come from signed bytes always are; those
that a node makes up need not be.
-/

namespace TransferLoad

open Text.Utf8 (encode decode)

/-! ### Identifiers of a node -/

theorem SignedPayload.plain_ofBytes (bytes : Bytes) : Plain (ofBytes bytes).identifier := by
  have hchars : (ofBytes bytes).identifier.toList =
      '0' :: 'x' :: Text.Hex.encodeChars (Crypto.Blake3.digest bytes) := by
    rw [ofBytes, String.toList_append, Text.Hex.encode, String.toList_ofList]
    simp
  refine ⟨?_, ?_, ?_⟩
  · intro hempty
    rw [hempty] at hchars
    cases hchars
  · rw [hchars, List.forall_mem_cons, List.forall_mem_cons]
    exact ⟨by decide, by decide, Text.Hex.printable_encodeChars _⟩
  · rw [hchars]
    simp

theorem plain_of_ed25519Signer {intent : Intent} {key : Crypto.Ed25519.SigningKey} {payload : SignedPayload}
    (hsigned : ed25519Signer intent key = .ok payload) : Plain payload.identifier := by
  unfold ed25519Signer at hsigned
  split at hsigned
  · cases hsigned
    exact SignedPayload.plain_ofBytes _
  · cases hsigned

namespace RemoteNode

/-- A text that the node answers as the identifier of a transfer it takes. -/
def Names (n : RemoteNode) (identifier : String) : Prop :=
  ∃ now earlier payload response made,
    n.transport.fetch now earlier .post (n.endpoint "tx/raw") (some (submissionBody payload)) =
      (.ok response, made) ∧
    response.isSuccess = true ∧ response.content?.bind identifierOfBody? = some identifier

/-- A transfer that is taken goes by the node's name for it or by its own. -/
theorem names_or_own {n : RemoteNode} {calls : List Call} {now : Nat} {payload : SignedPayload}
    {identifier : String} (hsubmit : (n.client.submit calls now payload).answer = .ok identifier) :
    n.Names identifier ∨ identifier = payload.identifier := by
  have hanswer : (n.submit now (n.requestsOf calls) payload).1 = .ok identifier := by
    simpa only [client] using hsubmit
  unfold submit at hanswer
  rcases hfetch : n.transport.fetch now (n.requestsOf calls) .post (n.endpoint "tx/raw")
    (some (submissionBody payload)) with ⟨cause | response, made⟩
  · rw [hfetch] at hanswer
    cases hanswer
  · rw [hfetch] at hanswer
    dsimp only at hanswer
    unfold Net.Response.submission at hanswer
    by_cases hsuccess : response.isSuccess = true
    · rw [if_pos hsuccess] at hanswer
      have hidentifier := Except.ok.inj hanswer
      cases hnamed : response.content?.bind identifierOfBody? with
      | none =>
        rw [hnamed] at hidentifier
        exact Or.inr hidentifier.symm
      | some named =>
        rw [hnamed] at hidentifier
        obtain rfl : named = identifier := hidentifier
        exact Or.inl ⟨now, _, payload, response, made, hfetch, hsuccess, hnamed⟩
    · rw [if_neg hsuccess] at hanswer
      cases hanswer

/-- The node that takes every transfer and calls it by the same text. -/
def naming (name : String) : RemoteNode where
  baseUrl := "http://node"
  transport _ _ _ :=
    some { status := 200, body := some (encode ("\x7b\"tx_hash\":\"" ++ name ++ "\"\x7d")) }

end RemoteNode

/-! ### The artifact of a run -/

namespace RunInput

theorem unbroken_header {r : RunInput} (hlabel : '\n' ∉ r.settings.label.toList) : r.header.Unbroken where
  label := hlabel
  fields := by
    simp [header, newline_notMem_toDigits, String.toList_append]

/-- When the summary was written without complaint, the device holds the whole artifact. -/
theorem content_of_summary {device : Device} (hfresh : device.content = []) {header : RunHeader}
    {sink : ResultSink BufferedDevice} (hopen : ResultSink.open? { device } header = .ok sink)
    {identifiers : List String} {report : FinalReport}
    (hok : ((sink.recordEach identifiers).writeSummary report).1 = .ok ()) :
    ((sink.recordEach identifiers).writeSummary report).2.writer.close.content =
      encode (artifactText header identifiers [report]) := by
  obtain ⟨-, hcontent⟩ := (ResultSink.intactOrSealed_recordEach hfresh hopen identifiers).of_summary hok
  rw [hcontent, encode_artifactText, List.flatMap_singleton, ← report.summaryText_eq_unlines,
    List.append_assoc]

/-- A run whose summary was written has left the whole artifact in its file. -/
theorem artifact_of_run {r : RunInput} {report : FinalReport} (hresult : r.run.result = .ok report)
    (hwritten : ∀ cause, .summaryFailed cause ∉ r.run.notices) :
    r.run.files.read (.ofText r.settings.output) =
        .ok (encode (artifactText r.header (acceptedIdentifiers r.run.settlements) [report])) ∧
      report.sent = (acceptedIdentifiers r.run.settlements).length := by
  obtain ⟨device, sink, hwrote⟩ := wrote_of_run hresult
  refine ⟨?_, hwrote.sent⟩
  rw [hwrote.stored, content_of_summary hwrote.fresh hwrote.opened (hwrote.summary_eq_ok hwritten)]

/-- What a run over a node leaves in its file when no write fails and the label is a single line: the
identifiers that were given for the accepted transfers can be read back, as many as were sent and in their
order, exactly if all of them are recordable. Only the names that the node makes up may be anything else,
since those that come from the signed bytes are recordable. -/
theorem read_back (r : RunInput) {n : RemoteNode} (hclient : r.client = n.client) {report : FinalReport}
    (hresult : r.run.result = .ok report) (hwritten : ∀ cause, .summaryFailed cause ∉ r.run.notices)
    (hlabel : '\n' ∉ r.settings.label.toList) :
    ∃ content contents, r.run.files.read (.ofText r.settings.output) = .ok content ∧
      decode content = .ok contents ∧
      (acceptedIdentifiers r.run.settlements).length = report.sent ∧
      (acceptedIdentifiers r.run.settlements).Perm (n.client.identifiers r.cancelAt r.run.calls) ∧
      (readIdentifiers contents = acceptedIdentifiers r.run.settlements ↔
        ∀ identifier ∈ acceptedIdentifiers r.run.settlements, Recordable identifier) ∧
      (r.signer = ed25519Signer → (∀ identifier, n.Names identifier → Recordable identifier) →
        readIdentifiers contents = acceptedIdentifiers r.run.settlements) := by
  obtain ⟨hread, hsent⟩ := artifact_of_run hresult hwritten
  have hback : readIdentifiers (artifactText r.header (acceptedIdentifiers r.run.settlements) [report]) =
      acceptedIdentifiers r.run.settlements ↔
      ∀ identifier ∈ acceptedIdentifiers r.run.settlements, Recordable identifier := by
    rw [readIdentifiers_artifactText (unbroken_header hlabel)]
    exact flatMap_readIdentifiers_eq_self_iff
  refine ⟨_, _, hread, Text.Utf8.decode_encode _, hsent.symm, ?_, hback, fun hsigner hnode => ?_⟩
  · rw [← hclient]
    exact r.identifiers_run
  · refine hback.mpr fun identifier hmem => ?_
    obtain ⟨earlier, time, payload, hanswer, intent, key, hsigned⟩ := submission_of_mem_accepted hmem
    rw [hclient] at hanswer
    rw [hsigner] at hsigned
    rcases RemoteNode.names_or_own hanswer with hnamed | rfl
    · exact hnode identifier hnamed
    · exact (plain_of_ed25519Signer hsigned).recordable

/-- Two transfers to a node that calls both by the same text. -/
def named (label name : String) : RunInput :=
  { small (RemoteNode.naming name).client with
    settings := { targetTps := 2, durationSecs := 1, workers := 1, output := "out", label } }

/-- When both transfers were accepted, the artifact is all there. -/
theorem artifact_named {label name : String}
    (hstarts : ((named label name).run.result.map fun _ => ()).toOption = some ())
    (haccepted : acceptedIdentifiers (named label name).run.settlements = [name, name]) :
    ∃ report, (named label name).run.result = .ok report ∧ report.sent = 2 ∧
      (∀ cause, .summaryFailed cause ∉ (named label name).run.notices) ∧
      (named label name).run.files.read (.ofText "out") =
        .ok (encode (artifactText (named label name).header [name, name] [report])) := by
  obtain ⟨report, hresult, -⟩ := ok_of_map_eq_some hstarts
  have hwritten := summary_of_roomy hresult FileTree.roomy_empty
  obtain ⟨hread, hsent⟩ := artifact_of_run hresult hwritten
  rw [haccepted] at hread hsent
  exact ⟨report, hresult, hsent, hwritten, hread⟩

theorem read_back_named :
    ∃ report content contents, (named "run" "0xfeed").run.result = .ok report ∧ report.sent = 2 ∧
      (named "run" "0xfeed").run.files.read (.ofText "out") = .ok content ∧
      decode content = .ok contents ∧ readIdentifiers contents = ["0xfeed", "0xfeed"] := by
  have haccepted : acceptedIdentifiers (named "run" "0xfeed").run.settlements = ["0xfeed", "0xfeed"] := by
    decide +kernel
  obtain ⟨report, hresult, hsent, hwritten, -⟩ := artifact_named (by decide +kernel) haccepted
  obtain ⟨content, contents, hread, hdecode, -, -, hback, -⟩ :=
    read_back (named "run" "0xfeed") rfl hresult hwritten (by simp [named])
  refine ⟨report, content, contents, hresult, hsent, hread, hdecode, ?_⟩
  rw [hback.mpr, haccepted]
  rw [haccepted]
  have hplain : Plain "0xfeed" := ⟨by simp, by simp, by simp⟩
  simp [hplain.recordable]

/-- A label with a line feed leaves a line that is read as an identifier. -/
theorem readIdentifiers_ghost (t : Text.Timestamp.Instant) :
    readIdentifiers ("# " ++ ("run\nghost" ++ (" - " ++ t.render))) ≠ [] := by
  have hchars : ("# " ++ ("run\nghost" ++ (" - " ++ t.render))).toList =
      "# run".toList ++ '\n' :: ('g' :: ("host - " ++ t.render).toList) := by
    simp [String.toList_append]
  have hline : '\n' ∉ 'g' :: ("host - " ++ t.render).toList := by
    simp [String.toList_append, newline_notMem_instant]
  obtain ⟨kept, htrim⟩ := Text.trim_cons_of_not_blank (c := 'g') (by decide) ("host - " ++ t.render).toList
  rw [readIdentifiers, hchars, readIdentifierLines_append, readIdentifierLines_line hline, htrim]
  simp [isIdentifierLine]

/-- Neither every name that a node may give nor every label leaves an artifact that gives the accepted
identifiers back: a name may look like a comment, and a label may bring a line of its own. -/
theorem names_and_labels_lost :
    (∃ report contents, (named "run" "#1").run.result = .ok report ∧ report.sent = 2 ∧
      (∀ cause, .summaryFailed cause ∉ (named "run" "#1").run.notices) ∧
      (named "run" "#1").run.files.read (.ofText "out") = .ok (encode contents) ∧
      readIdentifiers contents = []) ∧
    ∃ report contents, (named "run\nghost" "0xfeed").run.result = .ok report ∧ report.sent = 2 ∧
      (∀ cause, .summaryFailed cause ∉ (named "run\nghost" "0xfeed").run.notices) ∧
      (named "run\nghost" "0xfeed").run.files.read (.ofText "out") = .ok (encode contents) ∧
      (readIdentifiers contents).length ≠ 2 := by
  refine ⟨?_, ?_⟩
  · have haccepted : acceptedIdentifiers (named "run" "#1").run.settlements = ["#1", "#1"] := by
      decide +kernel
    obtain ⟨report, hresult, hsent, hwritten, hread⟩ := artifact_named (by decide +kernel) haccepted
    refine ⟨report, _, hresult, hsent, hwritten, hread, ?_⟩
    rw [readIdentifiers_artifactText (unbroken_header (by simp [named]))]
    rfl
  · have haccepted : acceptedIdentifiers (named "run\nghost" "0xfeed").run.settlements =
        ["0xfeed", "0xfeed"] := by
      decide +kernel
    obtain ⟨report, hresult, hsent, hwritten, hread⟩ := artifact_named (by decide +kernel) haccepted
    refine ⟨report, _, hresult, hsent, hwritten, hread, ?_⟩
    have hplain : Plain "0xfeed" := ⟨by simp, by simp, by simp⟩
    have hone : readIdentifiers "0xfeed" = ["0xfeed"] := readIdentifiers_eq_self_iff.mpr hplain.recordable
    have hghost := List.length_pos_iff.mpr (readIdentifiers_ghost (named "run\nghost" "0xfeed").startedAt)
    have hhead : (named "run\nghost" "0xfeed").header.lines = ("# " ++ ("run\nghost" ++ (" - " ++
        (named "run\nghost" "0xfeed").startedAt.render))) ::
          (named "run\nghost" "0xfeed").header.lines.tail := rfl
    rw [artifactText, readIdentifiers_unlines, hhead, List.flatMap_append, List.flatMap_append,
      List.flatMap_cons, List.flatMap_cons, List.flatMap_cons, hone]
    simp only [List.length_append, List.length_singleton]
    omega

end RunInput

end TransferLoad
