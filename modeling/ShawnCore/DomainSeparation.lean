import ShawnCore.HandshakeEncoding

/-!
# The handshake encodings are unambiguous

Every byte string which the handshake hashes begins with the label of the
function which hashes it.  Two bytes of a label identify the function, and
behind the label the fields have fixed lengths up to the last one, so the
string determines the function and its arguments.  The messages of the two
confirmation tags and the strings hashed by the two key expansions already
differ in length.
-/

namespace ShawnCore

open ByteBlocks KeyedHash

/-- The functions which hash a labelled string. -/
inductive HashFunction
  | identityFingerprint
  | handshakeBinding
  | transcriptHash
  | encapsulatorDigest
  | keygenDigest
  | handshakeTranscript

def HashFunction.label : HashFunction → Bytes
  | .identityFingerprint => identityLabel
  | .handshakeBinding => bindingLabel
  | .transcriptHash => transcriptLabel
  | .encapsulatorDigest => encapsulatorDigestLabel
  | .keygenDigest => keygenDigestLabel
  | .handshakeTranscript => ascii "ShawnCore-v1.3-hybrid-handshake"

/-- A call of one of them. -/
inductive HashCall
  | identityFingerprint (verifyingKey : PublicKey87)
  | handshakeBinding (keygenMlKemPk : PublicKey1024)
      (keygenX25519Pk : X25519Public)
      (keygenIdentity encapsulatorIdentity : Block 48) (appInfo : Bytes)
  | transcriptHash (binding : Block 48) (ciphertext : Ciphertext1024)
      (encapsulatorX25519Pk : X25519Public)
  | encapsulatorDigest (transcript encapsulatorTag : Block 48)
  | keygenDigest (digest keygenTag : Block 48)
  | handshakeTranscript (ciphertext : Ciphertext1024)
      (senderPublicKey : X25519Public) (applicationInfo : Bytes)

namespace HashCall

def function : HashCall → HashFunction
  | .identityFingerprint .. => .identityFingerprint
  | .handshakeBinding .. => .handshakeBinding
  | .transcriptHash .. => .transcriptHash
  | .encapsulatorDigest .. => .encapsulatorDigest
  | .keygenDigest .. => .keygenDigest
  | .handshakeTranscript .. => .handshakeTranscript

/-- The hashed string. -/
def input : HashCall → Bytes
  | .identityFingerprint verifyingKey => identityFingerprintInput verifyingKey
  | .handshakeBinding keygenMlKemPk keygenX25519Pk keygenIdentity
        encapsulatorIdentity appInfo =>
      handshakeBindingInput keygenMlKemPk keygenX25519Pk keygenIdentity
        encapsulatorIdentity appInfo
  | .transcriptHash binding ciphertext encapsulatorX25519Pk =>
      transcriptHashInput binding ciphertext encapsulatorX25519Pk
  | .encapsulatorDigest transcript encapsulatorTag =>
      encapsulatorDigestInput transcript encapsulatorTag
  | .keygenDigest digest keygenTag => keygenDigestInput digest keygenTag
  | .handshakeTranscript ciphertext senderPublicKey applicationInfo =>
      handshakeTranscriptInput ciphertext senderPublicKey applicationInfo

variable {DecapsKey SigningKey : Type}
variable (prims : Primitives DecapsKey SigningKey)

def exec : HashCall → Except CryptoError (Block 48)
  | .identityFingerprint verifyingKey =>
      .ok (ShawnCore.identityFingerprint prims verifyingKey)
  | .handshakeBinding keygenMlKemPk keygenX25519Pk keygenIdentity
        encapsulatorIdentity appInfo =>
      ShawnCore.handshakeBinding prims keygenMlKemPk keygenX25519Pk
        keygenIdentity encapsulatorIdentity appInfo
  | .transcriptHash binding ciphertext encapsulatorX25519Pk =>
      .ok (ShawnCore.transcriptHash prims binding ciphertext
        encapsulatorX25519Pk)
  | .encapsulatorDigest transcript encapsulatorTag =>
      .ok (ShawnCore.encapsulatorDigest prims transcript encapsulatorTag)
  | .keygenDigest digest keygenTag =>
      .ok (ShawnCore.keygenDigest prims digest keygenTag)
  | .handshakeTranscript ciphertext senderPublicKey applicationInfo =>
      .ok (ShawnCore.handshakeTranscript prims ciphertext senderPublicKey
        applicationInfo)

theorem exec_eq_ok
    {call : HashCall} {digest : Block 48}
    (hexec : call.exec prims = .ok digest) :
    digest = prims.sha384 call.input := by
  cases call with
  | handshakeBinding => exact (handshakeBinding_eq_ok prims hexec).2
  | _ => exact (Except.ok.inj hexec).symm

theorem label_prefix_input (call : HashCall) :
    call.function.label <+: call.input := by
  cases call with
  | _ => exact List.prefix_append _ _

end HashCall

/-- The bytes at the positions 10 and 18 of a label. -/
def HashFunction.mark : HashFunction → UInt8 × UInt8
  | .identityFingerprint => (97, 105)
  | .handshakeBinding => (97, 98)
  | .transcriptHash => (97, 116)
  | .encapsulatorDigest => (97, 101)
  | .keygenDigest => (97, 107)
  | .handshakeTranscript => (118, 114)

theorem HashFunction.mark_injective : Function.Injective HashFunction.mark := by
  intro first second heq
  cases first <;> cases second <;>
    first
      | rfl
      | exact absurd heq (by decide)

theorem HashFunction.label_mark (function : HashFunction) :
    function.label[10]? = some function.mark.1 ∧
      function.label[18]? = some function.mark.2 := by
  cases function with
  | _ => exact ⟨by decide +kernel, by decide +kernel⟩

theorem HashCall.input_mark (call : HashCall) :
    call.input[10]? = some call.function.mark.1 ∧
      call.input[18]? = some call.function.mark.2 := by
  obtain ⟨hfirst, hsecond⟩ := call.function.label_mark
  obtain ⟨rest, hrest⟩ := call.label_prefix_input
  have hlength := (List.getElem?_eq_some_iff.mp hsecond).1
  rw [← hrest, List.getElem?_append_left (by omega),
    List.getElem?_append_left hlength]
  exact ⟨hfirst, hsecond⟩

theorem HashCall.function_eq_of_input_eq
    {first second : HashCall} (heq : first.input = second.input) :
    first.function = second.function := by
  obtain ⟨hfirst, hsecond⟩ := first.input_mark
  obtain ⟨hfirst', hsecond'⟩ := second.input_mark
  rw [heq] at hfirst hsecond
  apply HashFunction.mark_injective
  apply Prod.ext
  · exact Option.some.inj (hfirst.symm.trans hfirst')
  · exact Option.some.inj (hsecond.symm.trans hsecond')

theorem HashCall.input_injective : Function.Injective HashCall.input := by
  intro first second heq
  have hfunction := HashCall.function_eq_of_input_eq heq
  cases first <;> cases second <;> try cases hfunction
  case identityFingerprint =>
    rw [identityFingerprintInput_inj heq]
  case handshakeBinding =>
    obtain ⟨rfl, rfl, rfl, rfl, rfl⟩ := handshakeBindingInput_inj heq
    rfl
  case transcriptHash =>
    obtain ⟨rfl, rfl, rfl⟩ := transcriptHashInput_inj heq
    rfl
  case encapsulatorDigest =>
    obtain ⟨rfl, rfl⟩ := encapsulatorDigestInput_inj heq
    rfl
  case keygenDigest =>
    obtain ⟨rfl, rfl⟩ := keygenDigestInput_inj heq
    rfl
  case handshakeTranscript =>
    obtain ⟨rfl, rfl, rfl⟩ := handshakeTranscriptInput_inj heq
    rfl

/-! ## Confirmation tags and expansions -/

/-- The message of `confirmation_tag`. -/
def confirmationMessage (label : Bytes) (digest : Block 48) : Bytes :=
  label ++ digest.bytes

theorem confirmationMessage_length (label : Bytes) (digest : Block 48) :
    (confirmationMessage label digest).length = label.length + 48 := by
  simp [confirmationMessage]

theorem confirmationInfo_length (innerTranscript : Block 48) :
    (confirmationInfo innerTranscript).length = 83 := by
  have hlabel : keyConfirmationInfoLabel.length = 34 := by decide
  simp [confirmationInfo, hlabel]

section Separation

variable {DecapsKey SigningKey : Type}
variable (prims : Primitives DecapsKey SigningKey)

theorem confirmationTag_eq_hmac
    {label : Bytes} (hlabel : label.length ≤ 80) (key digest : Block 48) :
    confirmationTag prims key label digest =
      hmacSha384 prims key.bytes (confirmationMessage label digest) := by
  unfold confirmationTag
  rw [if_neg (by omega)]
  rfl

/-- Two hashed strings are equal only for equal calls; the two sides never
authenticate the same message; and the session keys and the confirmation keys
never come out of the same expansion block. -/
structure EncodingsSeparated : Prop where
  hashed : ∀ call digest, HashCall.exec prims call = .ok digest →
    digest = prims.sha384 call.input
  hash_inputs : Function.Injective HashCall.input
  tagged : ∀ label ∈ [confirmLabelEncapsulatingSide, confirmLabelKeygenSide],
    ∀ key digest, confirmationTag prims key label digest =
      hmacSha384 prims key.bytes (confirmationMessage label digest)
  tag_messages : ∀ digest digest',
    confirmationMessage confirmLabelEncapsulatingSide digest ≠
      confirmationMessage confirmLabelKeygenSide digest'
  session_blocks : ∀ (prk : Bytes) (transcript : Block 48), ∀ index < 3,
    ∃ input, ExpandInput 48 transcript.bytes 128 input ∧
      expandBlock prims.hmacSha384 prk transcript.bytes (index + 1) =
        (prims.hmacSha384 prk input).bytes
  confirmation_blocks : ∀ (prk : Bytes) (transcript : Block 48), ∀ index < 2,
    ∃ input, ExpandInput 48 (confirmationInfo transcript) 96 input ∧
      expandBlock prims.hmacSha384 prk (confirmationInfo transcript)
        (index + 1) = (prims.hmacSha384 prk input).bytes
  expand_inputs : ∀ (transcript transcript' : Block 48) (input : Bytes),
    ExpandInput 48 transcript.bytes 128 input →
      ¬ ExpandInput 48 (confirmationInfo transcript') 96 input

theorem encodings_are_separated : EncodingsSeparated prims := by
  constructor
  · intro call digest hexec
    exact HashCall.exec_eq_ok prims hexec
  · exact HashCall.input_injective
  · intro label hlabel key digest
    apply confirmationTag_eq_hmac
    rcases List.mem_pair.mp hlabel with rfl | rfl
    · decide
    · decide
  · intro digest digest' heq
    have hencapsulating : confirmLabelEncapsulatingSide.length = 44 := by
      decide
    have hkeygen : confirmLabelKeygenSide.length = 45 := by decide
    have hlength := congrArg List.length heq
    rw [confirmationMessage_length, confirmationMessage_length] at hlength
    omega
  · intro prk transcript index hindex
    exact expandBlock_input prims.hmacSha384 prk transcript.bytes hindex
  · intro prk transcript index hindex
    exact expandBlock_input prims.hmacSha384 prk (confirmationInfo transcript)
      hindex
  · intro transcript transcript' input hinput
    have hsession := transcript.length_eq
    have hconfirmation := confirmationInfo_length transcript'
    exact hinput.disjoint (by omega) (by omega) (by omega)

end Separation

end ShawnCore
