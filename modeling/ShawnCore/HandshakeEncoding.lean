import ShawnCore.Aead

/-!
# Key derivation and handshake encodings

`hybrid_kdf.rs`, `auth_handshake.rs` and the inner transcript of
`session_manager.rs`.  Every hash of the handshake is written as SHA-384 of an
explicit input string, and the strings are shown to determine the arguments
they were built from.
-/

namespace ShawnCore

open ByteBlocks

def ascii (text : String) : Bytes :=
  text.toList.map fun c => UInt8.ofNat c.toNat

/-! ## `hybrid_kdf.rs` -/

section HybridKdf

variable {DecapsKey SigningKey : Type}
variable (prims : Primitives DecapsKey SigningKey)

def keyConfirmationInfoLabel : Bytes :=
  ascii "ShawnCore-auth-v2 key confirmation"

def confirmationInfo (innerTranscript : Block 48) : Bytes :=
  keyConfirmationInfoLabel ++ (0 :: innerTranscript.bytes)

/-- `Hkdf::<Sha384>::new(Some(salt), combined_entropy)`. -/
def hybridPrk (pqSecret classicalSecret : Block 32) (salt : Bytes) : Block 48 :=
  prims.hmacSha384 salt (pqSecret.bytes ++ classicalSecret.bytes)

/-- `Hkdf::expand` with the given pseudorandom key. -/
def hkdfExpand (prk : Block 48) (info : Bytes) (len : ℕ) : Option (Block len) :=
  if prims.hkdfExpandAccepts info len then
    some (KeyedHash.expand prims.hmacSha384 prk.bytes info len)
  else
    none

def deriveHybridKey
    (pqSecret classicalSecret : Block 32) (salt info : Bytes) :
    Except CryptoError (Block 128) :=
  match hkdfExpand prims (hybridPrk prims pqSecret classicalSecret salt)
      info 128 with
  | some derivedKey => .ok derivedKey
  | none => .error .hkdfError

def deriveHybridKeyWithConfirmation
    (pqSecret classicalSecret : Block 32) (salt info confirmInfo : Bytes) :
    Except CryptoError (Block 128 × Block 96) :=
  let prk := hybridPrk prims pqSecret classicalSecret salt
  match hkdfExpand prims prk info 128, hkdfExpand prims prk confirmInfo 96 with
  | some derivedKey, some confirmation => .ok (derivedKey, confirmation)
  | _, _ => .error .hkdfError

theorem hkdfExpand_eq_some
    {prk : Block 48} {info : Bytes} {len : ℕ} {okm : Block len}
    (hexpand : hkdfExpand prims prk info len = some okm) :
    okm = KeyedHash.expand prims.hmacSha384 prk.bytes info len := by
  unfold hkdfExpand at hexpand
  split at hexpand
  next => exact (Option.some.inj hexpand).symm
  next => cases hexpand

theorem deriveHybridKeyWithConfirmation_eq_ok
    {pqSecret classicalSecret : Block 32} {salt info confirmInfo : Bytes}
    {derivedKey : Block 128} {confirmation : Block 96}
    (hderive : deriveHybridKeyWithConfirmation prims pqSecret classicalSecret
      salt info confirmInfo = .ok (derivedKey, confirmation)) :
    derivedKey = KeyedHash.expand prims.hmacSha384
        (hybridPrk prims pqSecret classicalSecret salt).bytes info 128 ∧
      confirmation = KeyedHash.expand prims.hmacSha384
        (hybridPrk prims pqSecret classicalSecret salt).bytes
        confirmInfo 96 := by
  unfold deriveHybridKeyWithConfirmation at hderive
  dsimp only at hderive
  split at hderive
  next hsession hconfirm =>
    simp only [Except.ok.injEq, Prod.mk.injEq] at hderive
    rcases hderive with ⟨rfl, rfl⟩
    exact ⟨hkdfExpand_eq_some prims hsession,
      hkdfExpand_eq_some prims hconfirm⟩
  next => cases hderive

end HybridKdf

/-! ## `auth_handshake.rs` -/

def authProtocolVersion : UInt8 := 2

def authSuite : Bytes :=
  ascii
    "ML-KEM-1024+X25519;HKDF-SHA384;ChaCha20+HMAC-SHA384;ML-DSA-87;HMAC-SHA384-KC"

def contextEncapsulatingSide : Bytes :=
  ascii "ShawnCore-auth-v2 encapsulating side"

def contextKeygenSide : Bytes :=
  ascii "ShawnCore-auth-v2 key-generating side"

def confirmLabelEncapsulatingSide : Bytes :=
  ascii "ShawnCore-auth-v2 confirm encapsulating side"

def confirmLabelKeygenSide : Bytes :=
  ascii "ShawnCore-auth-v2 confirm key-generating side"

def identityLabel : Bytes := ascii "ShawnCore-auth-v2 identity"
def bindingLabel : Bytes := ascii "ShawnCore-auth-v2 binding"
def transcriptLabel : Bytes := ascii "ShawnCore-auth-v2 transcript"
def encapsulatorDigestLabel : Bytes :=
  ascii "ShawnCore-auth-v2 encapsulator digest"
def keygenDigestLabel : Bytes :=
  ascii "ShawnCore-auth-v2 key-generator digest"

def identityFingerprintInput (verifyingKey : PublicKey87) : Bytes :=
  identityLabel ++ verifyingKey.bytes

def handshakeBindingInput
    (keygenMlKemPk : PublicKey1024) (keygenX25519Pk : X25519Public)
    (keygenIdentity encapsulatorIdentity : Block 48) (appInfo : Bytes) :
    Bytes :=
  bindingLabel ++ ([authProtocolVersion] ++ (beBytes 2 authSuite.length ++
    (authSuite ++ (keygenMlKemPk.bytes ++ (keygenX25519Pk.bytes ++
      (keygenIdentity.bytes ++ (encapsulatorIdentity.bytes ++
        (beBytes 4 appInfo.length ++ appInfo))))))))

def transcriptHashInput
    (binding : Block 48) (ciphertext : Ciphertext1024)
    (encapsulatorX25519Pk : X25519Public) : Bytes :=
  transcriptLabel ++ (binding.bytes ++
    (ciphertext.bytes ++ encapsulatorX25519Pk.bytes))

def encapsulatorDigestInput (transcript encapsulatorTag : Block 48) : Bytes :=
  encapsulatorDigestLabel ++ (transcript.bytes ++ encapsulatorTag.bytes)

def keygenDigestInput (encapsulatorDigest keygenTag : Block 48) : Bytes :=
  keygenDigestLabel ++ (encapsulatorDigest.bytes ++ keygenTag.bytes)

/-- The string hashed by `handshake_transcript` of `session_manager.rs`. -/
def handshakeTranscriptInput
    (ciphertext : Ciphertext1024) (senderPublicKey : X25519Public)
    (applicationInfo : Bytes) : Bytes :=
  ascii "ShawnCore-v1.3-hybrid-handshake" ++ (ciphertext.bytes ++
    (senderPublicKey.bytes ++ applicationInfo))

section Hashes

variable {DecapsKey SigningKey : Type}
variable (prims : Primitives DecapsKey SigningKey)

def identityFingerprint (verifyingKey : PublicKey87) : Block 48 :=
  prims.sha384 (identityFingerprintInput verifyingKey)

def handshakeBinding
    (keygenMlKemPk : PublicKey1024) (keygenX25519Pk : X25519Public)
    (keygenIdentity encapsulatorIdentity : Block 48) (appInfo : Bytes) :
    Except CryptoError (Block 48) :=
  if appInfo.length < 2 ^ 32 then
    .ok (prims.sha384 (handshakeBindingInput keygenMlKemPk keygenX25519Pk
      keygenIdentity encapsulatorIdentity appInfo))
  else
    .error .invalidLength

def transcriptHash
    (binding : Block 48) (ciphertext : Ciphertext1024)
    (encapsulatorX25519Pk : X25519Public) : Block 48 :=
  prims.sha384 (transcriptHashInput binding ciphertext encapsulatorX25519Pk)

def encapsulatorDigest (transcript encapsulatorTag : Block 48) : Block 48 :=
  prims.sha384 (encapsulatorDigestInput transcript encapsulatorTag)

def keygenDigest (encapsulatorDigest keygenTag : Block 48) : Block 48 :=
  prims.sha384 (keygenDigestInput encapsulatorDigest keygenTag)

def handshakeTranscript
    (ciphertext : Ciphertext1024) (senderPublicKey : X25519Public)
    (applicationInfo : Bytes) : Block 48 :=
  prims.sha384
    (handshakeTranscriptInput ciphertext senderPublicKey applicationInfo)

def confirmationTag (key : Block 48) (label : Bytes) (digest : Block 48) :
    Except CryptoError (Block 48) :=
  if 128 < label.length + 48 then
    .error .invalidLength
  else
    hmacSha384 prims key.bytes (label ++ digest.bytes)

def confirmationTagsEqual (expected presented : Block 48) : Bool :=
  verifyTagConstantTime expected presented

theorem confirmationTagsEqual_eq_decide (expected presented : Block 48) :
    confirmationTagsEqual expected presented =
      decide (expected = presented) := by
  rw [Bool.eq_iff_iff, decide_eq_true_eq]
  exact verifyTagConstantTime_eq_true

theorem handshakeBinding_eq_ok
    {keygenMlKemPk : PublicKey1024} {keygenX25519Pk : X25519Public}
    {keygenIdentity encapsulatorIdentity binding : Block 48} {appInfo : Bytes}
    (hbinding : handshakeBinding prims keygenMlKemPk keygenX25519Pk
      keygenIdentity encapsulatorIdentity appInfo = .ok binding) :
    appInfo.length < 2 ^ 32 ∧
      binding = prims.sha384 (handshakeBindingInput keygenMlKemPk
        keygenX25519Pk keygenIdentity encapsulatorIdentity appInfo) := by
  unfold handshakeBinding at hbinding
  split at hbinding
  next hlength => exact ⟨hlength, (Except.ok.inj hbinding).symm⟩
  next => cases hbinding

theorem confirmationTag_eq_ok
    {key digest tag : Block 48} {label : Bytes}
    (htag : confirmationTag prims key label digest = .ok tag) :
    prims.hmacSha384 key.bytes (label ++ digest.bytes) = tag := by
  unfold confirmationTag at htag
  split at htag
  next => cases htag
  next => exact (hmacSha384_eq_ok prims htag).2

end Hashes

/-! ## The hashed strings determine their arguments -/

theorem identityFingerprintInput_inj
    {verifyingKey verifyingKey' : PublicKey87}
    (heq : identityFingerprintInput verifyingKey =
      identityFingerprintInput verifyingKey') :
    verifyingKey = verifyingKey' := by
  simpa [identityFingerprintInput] using heq

theorem handshakeBindingInput_inj
    {ek ek' : PublicKey1024} {xk xk' : X25519Public}
    {keygen keygen' encapsulator encapsulator' : Block 48}
    {appInfo appInfo' : Bytes}
    (heq : handshakeBindingInput ek xk keygen encapsulator appInfo =
      handshakeBindingInput ek' xk' keygen' encapsulator' appInfo') :
    ek = ek' ∧ xk = xk' ∧ keygen = keygen' ∧ encapsulator = encapsulator' ∧
      appInfo = appInfo' := by
  simp only [handshakeBindingInput, List.append_cancel_left_eq,
    Block.bytes_append_inj] at heq
  rcases heq with ⟨hek, hxk, hkeygen, hencapsulator, hinfo⟩
  rcases List.append_inj hinfo (by simp) with ⟨_, happ⟩
  exact ⟨hek, hxk, hkeygen, hencapsulator, happ⟩

theorem transcriptHashInput_inj
    {binding binding' : Block 48} {ct ct' : Ciphertext1024}
    {xe xe' : X25519Public}
    (heq : transcriptHashInput binding ct xe =
      transcriptHashInput binding' ct' xe') :
    binding = binding' ∧ ct = ct' ∧ xe = xe' := by
  simpa [transcriptHashInput] using heq

theorem encapsulatorDigestInput_inj
    {transcript transcript' tag tag' : Block 48}
    (heq : encapsulatorDigestInput transcript tag =
      encapsulatorDigestInput transcript' tag') :
    transcript = transcript' ∧ tag = tag' := by
  simpa [encapsulatorDigestInput] using heq

theorem keygenDigestInput_inj
    {digest digest' tag tag' : Block 48}
    (heq : keygenDigestInput digest tag = keygenDigestInput digest' tag') :
    digest = digest' ∧ tag = tag' := by
  simpa [keygenDigestInput] using heq

theorem handshakeTranscriptInput_inj
    {ct ct' : Ciphertext1024} {pk pk' : X25519Public} {info info' : Bytes}
    (heq : handshakeTranscriptInput ct pk info =
      handshakeTranscriptInput ct' pk' info') :
    ct = ct' ∧ pk = pk' ∧ info = info' := by
  simpa [handshakeTranscriptInput] using heq

theorem contexts_ne : contextEncapsulatingSide ≠ contextKeygenSide := by
  decide

end ShawnCore
