import TransferLoad.Proofs.Run.Intents
import TransferLoad.Proofs.Transfer.Wire
import TransferLoad.Rehearsal

/-!
# What a run puts on the wire

A worker signs with the key that its address comes from, so the signer never refuses. The node reads back
the very intent that was built, together with a signature of the bytes that the intent has again when it
is checked. All that is asked of the signature scheme is that the signatures of the senders verify.
-/

namespace TransferLoad

/-! ### The signer -/

/-- An intent with its signature. -/
def Envelope.seal (intent : Intent) (key : Crypto.Ed25519.SigningKey) : Envelope :=
  { intent, publicKey := key.publicKey, signature := key.sign intent.encode }

theorem Envelope.fits_seal (intent : Intent) (key : Crypto.Ed25519.SigningKey) : (Envelope.seal intent key).Fits := by
  unfold Fits
  rw [show (Envelope.seal intent key).signature.length = 64 from Crypto.Ed25519.length_sign _ _]
  decide

theorem ed25519Signer_eq_ok_iff {intent : Intent} {key : Crypto.Ed25519.SigningKey} {payload : SignedPayload} :
    ed25519Signer intent key = .ok payload ↔
      key.publicKey = intent.sender.raw ∧ payload = .ofBytes (Envelope.seal intent key).encode := by
  unfold ed25519Signer
  split
  · rename_i hkey
    rw [Except.ok.injEq, eq_comm]
    exact (and_iff_right hkey).symm
  · rename_i hkey
    exact iff_of_false nofun fun h => hkey h.1

theorem decode_of_ed25519Signer {intent : Intent} {key : Crypto.Ed25519.SigningKey} {payload : SignedPayload}
    (hsigned : ed25519Signer intent key = .ok payload) :
    Envelope.decode payload.bytes = .ok (Envelope.seal intent key) := by
  obtain ⟨-, rfl⟩ := ed25519Signer_eq_ok_iff.mp hsigned
  have hread := Envelope.decode_encode_append (Envelope.fits_seal intent key) []
  rwa [List.append_nil] at hread

/-- Signed bytes determine the intent. -/
theorem intent_eq_of_ed25519Signer {intent intent' : Intent} {key key' : Crypto.Ed25519.SigningKey}
    {payload payload' : SignedPayload} (hsigned : ed25519Signer intent key = .ok payload)
    (hsigned' : ed25519Signer intent' key' = .ok payload') (hbytes : payload.bytes = payload'.bytes) :
    intent = intent' := by
  have hread := decode_of_ed25519Signer hsigned
  rw [hbytes, decode_of_ed25519Signer hsigned'] at hread
  exact (congrArg Envelope.intent (Except.ok.inj hread)).symm

theorem NodeScript.verdict_ne_badSignature {e : Envelope} (hverify : e.verify = true) (script : NodeScript)
    (payload : SignedPayload) : script.verdict payload e ≠ .badSignature := by
  unfold verdict
  rw [hverify, Bool.not_true, Bool.and_false, if_neg Bool.false_ne_true]
  split <;> nofun

/-! ### Attempts on the wire -/

namespace RunInput

/-- The signatures that the senders make of some attempts' intents verify under the senders' keys. -/
def SignaturesVerify (r : RunInput) (attempts : List Attempt) : Prop :=
  ∀ account ∈ r.senders, ∀ a ∈ attempts, Crypto.Ed25519.verify account.key.publicKey a.intent.encode
    (account.key.sign a.intent.encode) = true

instance (r : RunInput) (attempts : List Attempt) : Decidable (r.SignaturesVerify attempts) :=
  inferInstanceAs (Decidable (∀ account ∈ r.senders, ∀ a ∈ attempts, _ = true))

/-- An attempt comes with bytes that a node reads as the intent that was built, under its sender's key and
with a signature that verifies. -/
def Delivered (r : RunInput) (earlier : List Attempt) (a : Attempt) : Prop :=
  ∃ account payload e, r.Built account earlier a.worker a.intent ∧ a.signed = .ok payload ∧
    Envelope.decode payload.bytes = .ok e ∧ e.intent = a.intent ∧ e.publicKey = a.intent.sender.raw ∧
    e.verify = true ∧ ∀ script : NodeScript, script.verdict payload e ≠ .badSignature

/-- What the node is handed in a run with some attempts. -/
structure OnWire (r : RunInput) (attempts : List Attempt) (calls : List Call) : Prop where
  delivered : EachAttempt r.Delivered attempts
  called : ∀ call ∈ calls, ∃ a ∈ attempts, ∃ payload,
    a.signed = .ok payload ∧ call.question = .submission payload
  distinct : ∀ a ∈ attempts, ∀ b ∈ attempts, a.intent ≠ b.intent → ∀ payload payload',
    a.signed = .ok payload → b.signed = .ok payload' → payload.bytes ≠ payload'.bytes

variable {r : RunInput}

theorem Drawn.delivered {earlier : List Attempt} {a : Attempt} (hsigner : r.signer = ed25519Signer)
    (hverify : ∀ account ∈ r.senders, Crypto.Ed25519.verify account.key.publicKey a.intent.encode
      (account.key.sign a.intent.encode) = true) (hdrawn : r.Drawn earlier a) : r.Delivered earlier a := by
  obtain ⟨account, hbuilt, hsigned⟩ := hdrawn
  have hkey : account.key.publicKey = a.intent.sender.raw := by
    rw [hbuilt.sender]
    rfl
  have hok := ed25519Signer_eq_ok_iff.mpr ⟨hkey, rfl⟩
  have hverified : (Envelope.seal a.intent account.key).verify = true :=
    hverify account (List.mem_of_getElem? hbuilt.seat)
  rw [hsigner] at hsigned
  exact ⟨account, _, _, hbuilt, hsigned.trans hok, decode_of_ed25519Signer hok, rfl, hkey, hverified,
    fun script => script.verdict_ne_badSignature hverified _⟩

end RunInput

theorem Crew.Building.onWire {ω : Type} {r : RunInput} {k : Crew ω} (hbuilding : k.Building r)
    (hsigner : r.signer = ed25519Signer) (hverify : r.SignaturesVerify k.shared.attempts) :
    r.OnWire k.shared.attempts k.shared.calls where
  delivered := by
    intro later a earlier hsplit
    refine (hbuilding.drawn later a earlier hsplit).delivered hsigner fun account haccount => ?_
    exact hverify account haccount a (by rw [hsplit]; simp)
  called := hbuilding.called
  distinct := by
    intro a ha b hb hne payload payload' hsigned hsigned' hbytes
    obtain ⟨-, account, -, hmade⟩ := hbuilding.drawn.exists_of_mem ha
    obtain ⟨-, account', -, hmade'⟩ := hbuilding.drawn.exists_of_mem hb
    rw [hsigner] at hmade hmade'
    exact hne (intent_eq_of_ed25519Signer (hmade.symm.trans hsigned) (hmade'.symm.trans hsigned') hbytes)

namespace RunInput

/-- If the signatures of its senders verify, a run hands over exactly what it built, signed by the sender and
once for each attempt; so does every interleaving of its workers. The signer takes any key that belongs to
the sender, and no other. -/
theorem signed_transfers (r : RunInput) (hsigner : r.signer = ed25519Signer) :
    (r.SignaturesVerify r.run.attempts →
      r.OnWire r.run.attempts r.run.calls ∧ r.run.calls = callsOf r.run.attempts) ∧
    (∀ (ω : Type) [Writer ω] (sink : ResultSink ω) (hsenders : 0 < r.senders.length)
      (hrecipients : 0 < r.recipients.length) (k : Crew ω),
      Crew.Reaches (r.context hrecipients) (r.crew sink hsenders) k →
      r.SignaturesVerify k.shared.attempts → r.OnWire k.shared.attempts k.shared.calls) ∧
    (∀ (intent : Intent) (key : Crypto.Ed25519.SigningKey),
      (∃ payload, ed25519Signer intent key = .ok payload) ↔ key.publicKey = intent.sender.raw) := by
  refine ⟨fun hverify => ?_, ?_, fun intent key => ?_⟩
  · rcases r.run_cases with ⟨cause, files, hrun⟩ | ⟨artifact, files, hsenders, hrecipients, -, hrun⟩
    · rw [hrun]
      exact ⟨⟨eachAttempt_nil, nofun, nofun⟩, rfl⟩
    · obtain ⟨files', notices, hrecord⟩ := r.runInto_eq artifact files hsenders hrecipients
      obtain ⟨k, hreach, -, hshared, -⟩ := r.reaches_engine artifact.sink hsenders hrecipients
      have honWire := (building_of_crew hreach).onWire hsigner
      rw [hrun, hrecord] at hverify ⊢
      rw [hshared] at honWire
      exact ⟨honWire hverify, (r.ledger_engine artifact.sink hsenders hrecipients).calls_eq⟩
  · intro ω _ sink hsenders hrecipients k hreach hverify
    exact (building_of_crew hreach).onWire hsigner hverify
  · constructor
    · rintro ⟨payload, hsigned⟩
      exact (ed25519Signer_eq_ok_iff.mp hsigned).1
    · intro hkey
      exact ⟨_, ed25519Signer_eq_ok_iff.mpr ⟨hkey, rfl⟩⟩

/-- A run of one transfer that is signed. -/
def smallSigned : RunInput where
  settings := { targetTps := 1, durationSecs := 1, workers := 1, output := "out" }
  senders := [.ofSeed []]
  recipients := [⟨⟨List.replicate 32 1, rfl⟩⟩]
  client := .steady 10 (.ok "a")
  startedAt := ⟨0, 0⟩

open Crypto.Ed25519

def smallKey : SigningKey := .ofSeed []

def smallPublicKey : Bytes32 :=
  ⟨Bytes.ofNatLE 32 0x6e6c96c6c77153510d354268a60eb2744731df21f2a408b6951b7e1174feb1e0,
    Bytes.length_ofNatLE ..⟩

def smallIntent : Intent where
  sender := ⟨smallPublicKey⟩
  recipient := ⟨⟨List.replicate 32 1, rfl⟩⟩
  amount := smallSigned.settings.amount
  feePrice := smallSigned.settings.feePrice
  sequence := 0
  chainId := smallSigned.settings.chainId

def smallNonce : Nat := 0x29470ac6f57a198f955e4b0a055ff71915c824828f01eca2d26ea86fa5c97

def smallCommitment : Bytes := Bytes.ofNatLE 32 0xcd04cc2c24015ba680154e5fe8de97917ea68586f0a53a93d85bdb9e85bf145c

def smallChallenge : Nat := 0xd5f40bbc0aff8bb852eeb235eefecb7a9354639b8d1ba0b47f5284891410e68

def smallResponse : Nat := 0x3541e7eced3d97b576760f90e6809915ee90ce85e2c9bf31066ec9ac443976e

/-- The sender's signature verifies. Evaluated in one piece this would take several gigabytes, so the key, the
nonce, the commitment, the challenge and the response are evaluated one after the other. -/
theorem verify_smallIntent :
    verify smallKey.publicKey smallIntent.encode (smallKey.sign smallIntent.encode) = true := by
  have hpublic : smallKey.publicKey = smallPublicKey := by decide +kernel
  have hpublic' : smallKey.expanded.publicKey = smallPublicKey.val := congrArg Subtype.val hpublic
  have hnonce : hashScalar (smallKey.expanded.nonceKey ++ smallIntent.encode) = smallNonce := by
    decide +kernel
  have hcommitment : (Point.base.scale smallNonce).encode = smallCommitment := by decide +kernel
  have hchallenge : hashScalar (smallCommitment ++ (smallPublicKey.val ++ smallIntent.encode)) =
      smallChallenge := by
    decide +kernel
  have hresponse : (smallNonce + smallChallenge * smallKey.expanded.scalar) % groupOrder = smallResponse := by
    decide +kernel
  have hopening : ((Point.decode? smallPublicKey.val).map fun key =>
      ((Point.base.scale smallResponse).add (key.neg.scale smallChallenge)).encode) = some smallCommitment := by
    decide +kernel
  obtain ⟨key, hkey, hopened⟩ := Option.map_eq_some_iff.mp hopening
  have hlength : smallCommitment.length = 32 := Bytes.length_ofNatLE ..
  have hread : Bytes.toNatLE (Bytes.ofNatLE 32 smallResponse) = smallResponse :=
    Bytes.toNatLE_ofNatLE (by decide)
  have hbound : smallResponse < groupOrder := by decide
  simp [verify, SigningKey.sign, hpublic, hpublic', hnonce, hcommitment, hchallenge, hresponse, hlength, hkey,
    hread, hbound, hopened]

theorem signed_transfers_small :
    smallSigned.run.attempts.length = 1 ∧
      smallSigned.OnWire smallSigned.run.attempts smallSigned.run.calls := by
  have hintents : smallSigned.run.attempts.map (·.intent) = [smallIntent] := by decide +kernel
  have hlength : smallSigned.run.attempts.length = 1 := by
    simpa using congrArg List.length hintents
  have hverify : smallSigned.SignaturesVerify smallSigned.run.attempts := by
    intro account haccount a ha
    have hmem := List.mem_map_of_mem (f := (·.intent)) ha
    rw [hintents, List.mem_singleton] at hmem
    rw [List.mem_singleton.mp haccount, hmem]
    exact verify_smallIntent
  exact ⟨hlength, ((signed_transfers smallSigned rfl).1 hverify).1⟩

end RunInput

end TransferLoad
