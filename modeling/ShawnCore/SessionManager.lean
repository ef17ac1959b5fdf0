import ShawnCore.HandshakeEncoding

/-!
# The session manager

The state and the operations of `session_manager.rs`.  An operation takes the
manager before the call and returns its result together with the manager after
it.  Packet operations also return the content of their output buffers.
Handshake outputs are returned on success only.  The host has registered the
callback for cache flushes; without it an operation may never return.
-/

namespace ShawnCore

open ByteBlocks

structure PendingAuthentication where
  digest : Block 48
  peerIdentity : Block 48
  confirmationKey : Block 48
deriving DecidableEq

structure SessionManager (DecapsKey : Type) where
  mlKemDk : Option DecapsKey
  x25519Sk : Option X25519Secret
  txKey : Option (Block 64)
  rxKey : Option (Block 64)
  txKeyChecksum : UInt32
  rxKeyChecksum : UInt32
  isEstablished : Bool
  txCounter : UInt64
  rxCounter : UInt64
  rxWindow : UInt64
  pendingAuth : Option PendingAuthentication

def u64Max : UInt64 := 0xFFFFFFFFFFFFFFFF

/-- `checked_add(1)` on a `u64`. -/
def checkedSucc (value : UInt64) : Option UInt64 :=
  if value.toNat + 1 < 2 ^ 64 then some (value + 1) else none

def okOr {α : Type} (value : Option α) (failure : CryptoError) :
    Except CryptoError α :=
  match value with
  | some inner => .ok inner
  | none => .error failure

/-- The nonce of a sequence number: eight little-endian bytes, four zeros. -/
def sequenceNonce (sequence : UInt64) : Block 12 where
  bytes := leBytes 8 sequence.toNat ++ List.replicate 4 0
  length_eq := by simp

/-- The sequence number in the first eight bytes of a nonce. -/
def nonceSequence (nonce : Block 12) : UInt64 :=
  UInt64.ofNat (fromLeBytes (nonce.bytes.take 8))

def rotateLeft5 (value : UInt32) : UInt32 :=
  (value <<< 5) ||| (value >>> 27)

def keyChecksum (key : Block 64) : UInt32 :=
  key.bytes.zipIdx.foldl
    (fun checksum (byte, index) =>
      rotateLeft5 (checksum ^^^
        (byte.toUInt32 <<< UInt32.ofNat (index % 4 * 8))) ^^^ 0x9E3779B9)
    0

/-- The two directional keys cut out of the 128-byte hybrid key.  The first
is the transmit key of the key-generating side. -/
def keygenTxKey (hybridKey : Block 128) : Block 64 :=
  (hybridKey.slice 0 32 (by omega)).append (hybridKey.slice 96 32 (by omega))

def keygenRxKey (hybridKey : Block 128) : Block 64 :=
  hybridKey.slice 32 64 (by omega)

/-! The parts of keys and of seeds are cut out at fixed places. -/

theorem lowHalf_le : 0 + 32 ≤ 64 := by decide
theorem highHalf_le : 32 + 32 ≤ 64 := by decide
theorem kemSeed_le : 0 + 64 ≤ 96 := by decide
theorem x25519Seed_le : 64 + 32 ≤ 96 := by decide
theorem encapsulatorHalf_le : 0 + 48 ≤ 96 := by decide
theorem keygenHalf_le : 48 + 48 ≤ 96 := by decide

/-- Entropy which is all zero or all ones is refused. -/
def entropyRejected {n : ℕ} (entropy : Block n) : Bool :=
  entropy.bytes.all (· == 0) || entropy.bytes.all (· == 0xFF)

structure EncapsulateAuthenticatedArgs (SigningKey : Type) where
  ownSigningKey : SigningKey
  peerVerifyingKey : PublicKey87
  peerMlKemPk : PublicKey1024
  peerX25519Pk : X25519Public
  entropy : Block 64
  salt : Bytes
  appInfo : Bytes

structure EncapsulateAuthenticatedOutput where
  ct : Ciphertext1024
  pk : X25519Public
  signature : Signature87
  confirmation : Block 48
deriving DecidableEq

structure FinalizeAuthenticatedArgs (SigningKey : Type) where
  ownSigningKey : SigningKey
  peerVerifyingKey : PublicKey87
  peerX25519Pk : X25519Public
  mlKemCt : Ciphertext1024
  peerSignature : Signature87
  peerConfirmation : Block 48
  salt : Bytes
  appInfo : Bytes

structure FinalizeAuthenticatedOutput where
  signature : Signature87
  confirmation : Block 48
deriving DecidableEq

structure ConfirmPeerArgs where
  peerVerifyingKey : PublicKey87
  peerSignature : Signature87
  peerConfirmation : Block 48

structure EncapsulateInnerOutput where
  ct : Ciphertext1024
  pk : X25519Public
  confirmation : Option (Block 96)

structure EncryptPacketOutcome (DecapsKey : Type) where
  result : Except CryptoError Unit
  ciphertext : Bytes
  nonce : Block 12
  tag : Block 48
  manager : SessionManager DecapsKey

structure DecryptPacketOutcome (DecapsKey : Type) where
  result : Except CryptoError Unit
  plaintext : Bytes
  manager : SessionManager DecapsKey

structure GetNextTxNonceOutcome (DecapsKey : Type) where
  result : Except CryptoError Unit
  nonce : Block 12
  manager : SessionManager DecapsKey

namespace SessionManager

variable {DecapsKey SigningKey : Type}
variable (prims : Primitives DecapsKey SigningKey)

def new : SessionManager DecapsKey where
  mlKemDk := none
  x25519Sk := none
  txKey := none
  rxKey := none
  txKeyChecksum := 0
  rxKeyChecksum := 0
  isEstablished := false
  txCounter := 0
  rxCounter := 0
  rxWindow := 0
  pendingAuth := none

def wipePendingAuthentication (manager : SessionManager DecapsKey) :
    SessionManager DecapsKey :=
  { manager with pendingAuth := none }

def zeroizeSession (manager : SessionManager DecapsKey) :
    SessionManager DecapsKey :=
  { manager with
    mlKemDk := none
    x25519Sk := none
    txKey := none
    rxKey := none
    txKeyChecksum := 0
    rxKeyChecksum := 0
    isEstablished := false
    txCounter := 0
    rxCounter := 0
    rxWindow := 0 }.wipePendingAuthentication

/-- The common tail of the operations which install session keys. -/
def installKeys (manager : SessionManager DecapsKey) (txKey rxKey : Block 64) :
    SessionManager DecapsKey :=
  { manager.zeroizeSession with
    txKey := some txKey
    rxKey := some rxKey
    txKeyChecksum := keyChecksum txKey
    rxKeyChecksum := keyChecksum rxKey
    isEstablished := true
    mlKemDk := none
    x25519Sk := none }

/-! ## The unauthenticated handshake -/

def initiateHandshake
    (manager : SessionManager DecapsKey) (entropy : Block 96) :
    Except CryptoError (PublicKey1024 × X25519Public) ×
      SessionManager DecapsKey :=
  if entropyRejected entropy then
    (.error .invalidState, manager)
  else
    match mlKemKeygen prims (entropy.slice 0 64 kemSeed_le) with
    | .error failure => (.error failure, manager)
    | .ok (mlKemPk, mlKemDk) =>
        let (x25519Pk, x25519Sk) :=
          x25519Keygen prims (entropy.slice 64 32 x25519Seed_le)
        (.ok (mlKemPk, x25519Pk),
          { manager.zeroizeSession with
            mlKemDk := some mlKemDk
            x25519Sk := some x25519Sk })

/-- The derivation of `finalize_handshake`, which changes no state. -/
def finalizeSecrets
    (mlKemDk : DecapsKey) (x25519Sk : X25519Secret)
    (peerX25519Pk : X25519Public) (mlKemCt : Ciphertext1024)
    (salt info : Bytes) : Except CryptoError (Block 128) := do
  let pqSecret ← mlKemDecapsulate prims mlKemDk mlKemCt
  let classicalSecret ← x25519DiffieHellman prims x25519Sk peerX25519Pk
  deriveHybridKey prims pqSecret classicalSecret salt
    (handshakeTranscript prims mlKemCt peerX25519Pk info).bytes

def finalizeHandshake
    (manager : SessionManager DecapsKey) (peerX25519Pk : X25519Public)
    (mlKemCt : Ciphertext1024) (salt info : Bytes) :
    Except CryptoError Unit × SessionManager DecapsKey :=
  match manager.mlKemDk, manager.x25519Sk with
  | some mlKemDk, some x25519Sk =>
      match finalizeSecrets prims mlKemDk x25519Sk peerX25519Pk mlKemCt
          salt info with
      | .error failure => (.error failure, manager.zeroizeSession)
      | .ok hybridKey =>
          (.ok (), manager.installKeys (keygenTxKey hybridKey)
            (keygenRxKey hybridKey))
  | _, _ => (.error .invalidState, manager)

/-- The derivation of `encapsulate_inner`, which changes no state. -/
def encapsulateSecrets
    (peerMlKemPk : PublicKey1024) (peerX25519Pk : X25519Public)
    (entropy : Block 64) (salt info : Bytes) (wantConfirmation : Bool) :
    Except CryptoError (EncapsulateInnerOutput × Block 128) := do
  let (pqSecret, ct) ←
    mlKemEncapsulate prims peerMlKemPk (entropy.slice 0 32 lowHalf_le)
  let (myX25519Pk, myX25519Sk) :=
    x25519Keygen prims (entropy.slice 32 32 highHalf_le)
  let classicalSecret ← x25519DiffieHellman prims myX25519Sk peerX25519Pk
  let transcript := handshakeTranscript prims ct myX25519Pk info
  if wantConfirmation then
    let (session, material) ← deriveHybridKeyWithConfirmation prims pqSecret
      classicalSecret salt transcript.bytes (confirmationInfo transcript)
    return (⟨ct, myX25519Pk, some material⟩, session)
  else
    let session ← deriveHybridKey prims pqSecret classicalSecret salt
      transcript.bytes
    return (⟨ct, myX25519Pk, none⟩, session)

def encapsulateInner
    (manager : SessionManager DecapsKey)
    (peerMlKemPk : PublicKey1024) (peerX25519Pk : X25519Public)
    (entropy : Block 64) (salt info : Bytes) (wantConfirmation : Bool) :
    Except CryptoError EncapsulateInnerOutput × SessionManager DecapsKey :=
  if entropyRejected entropy then
    (.error .invalidState, manager)
  else
    match encapsulateSecrets prims peerMlKemPk peerX25519Pk entropy salt info
        wantConfirmation with
    | .error failure => (.error failure, manager)
    | .ok (output, hybridKey) =>
        (.ok output, manager.installKeys (keygenRxKey hybridKey)
          (keygenTxKey hybridKey))

def encapsulateForPeer
    (manager : SessionManager DecapsKey)
    (peerMlKemPk : PublicKey1024) (peerX25519Pk : X25519Public)
    (entropy : Block 64) (salt info : Bytes) :
    Except CryptoError (Ciphertext1024 × X25519Public) ×
      SessionManager DecapsKey :=
  match encapsulateInner prims manager peerMlKemPk peerX25519Pk entropy salt
      info false with
  | (.error failure, next) => (.error failure, next)
  | (.ok output, next) => (.ok (output.ct, output.pk), next)

/-! ## Packets -/

def getNextTxNonce (manager : SessionManager DecapsKey) (nonce : Block 12) :
    GetNextTxNonceOutcome DecapsKey :=
  if manager.txCounter = u64Max then
    ⟨.error .invalidState, nonce, manager⟩
  else
    match checkedSucc manager.txCounter with
    | none => ⟨.error .invalidState, sequenceNonce manager.txCounter, manager⟩
    | some counter =>
        ⟨.ok (), sequenceNonce manager.txCounter,
          { manager with txCounter := counter }⟩

def checkRxNonce (manager : SessionManager DecapsKey) (hostNonce : Block 12) :
    Except CryptoError Unit :=
  if (hostNonce.bytes.drop 8).any (· != 0) then
    .error .invalidState
  else
    let sequence := nonceSequence hostNonce
    if manager.rxCounter < sequence then
      .ok ()
    else
      let offset := manager.rxCounter - sequence
      if 64 ≤ offset ∨ manager.rxWindow &&& (1 <<< offset) ≠ 0 then
        .error .invalidState
      else
        .ok ()

def commitRxNonce (manager : SessionManager DecapsKey) (hostNonce : Block 12) :
    SessionManager DecapsKey :=
  let sequence := nonceSequence hostNonce
  if manager.rxCounter < sequence then
    let shift := sequence - manager.rxCounter
    { manager with
      rxWindow := if 64 ≤ shift then 1 else (manager.rxWindow <<< shift) ||| 1
      rxCounter := sequence }
  else
    let offset := manager.rxCounter - sequence
    if 64 ≤ offset then
      manager
    else
      { manager with rxWindow := manager.rxWindow ||| (1 <<< offset) }

def encryptPacket
    (manager : SessionManager DecapsKey) (aad : Slice)
    (plaintext ciphertext : Bytes) (nonce : Block 12) (tag : Block 48) :
    EncryptPacketOutcome DecapsKey :=
  if !manager.isEstablished ∨ manager.pendingAuth.isSome ∨
      ciphertext.length ≠ plaintext.length then
    ⟨.error .invalidState, ciphertext, nonce, tag, manager⟩
  else if manager.txCounter = u64Max then
    ⟨.error .invalidState, ciphertext, nonce, tag, manager⟩
  else
    match manager.txKey with
    | none => ⟨.error .invalidState, ciphertext, nonce, tag, manager⟩
    | some key =>
        let pendingNonce := sequenceNonce manager.txCounter
        let sealed := aeadEncrypt prims (key.slice 0 32 lowHalf_le)
          (key.slice 32 32 highHalf_le) pendingNonce aad plaintext ciphertext
          tag
        match sealed.result with
        | .error failure =>
            ⟨.error failure, sealed.ciphertext, nonce, sealed.outMac, manager⟩
        | .ok () =>
            match checkedSucc manager.txCounter with
            | none =>
                ⟨.error .invalidState, sealed.ciphertext, pendingNonce,
                  sealed.outMac, manager⟩
            | some counter =>
                ⟨.ok (), sealed.ciphertext, pendingNonce, sealed.outMac,
                  { manager with txCounter := counter }⟩

def decryptPacket
    (manager : SessionManager DecapsKey) (aad : Slice) (ciphertext : Bytes)
    (nonce : Block 12) (tag : Block 48) (plaintext : Bytes) :
    DecryptPacketOutcome DecapsKey :=
  if !manager.isEstablished ∨ manager.pendingAuth.isSome ∨
      plaintext.length ≠ ciphertext.length then
    ⟨.error .invalidState, plaintext, manager⟩
  else
    match manager.checkRxNonce nonce with
    | .error failure => ⟨.error failure, plaintext, manager⟩
    | .ok () =>
        match manager.rxKey with
        | none => ⟨.error .invalidState, plaintext, manager⟩
        | some key =>
            let opened := aeadDecrypt prims (key.slice 0 32 lowHalf_le)
              (key.slice 32 32 highHalf_le) nonce aad ciphertext tag plaintext
            match opened.result with
            | .error failure => ⟨.error failure, opened.plaintext, manager⟩
            | .ok () =>
                ⟨.ok (), opened.plaintext, manager.commitRxNonce nonce⟩

def verifyKeyIntegrity (manager : SessionManager DecapsKey) :
    Except CryptoError Unit :=
  if !manager.isEstablished then
    .error .invalidState
  else
    match manager.txKey with
    | none => .error .invalidState
    | some txKey =>
        match manager.rxKey with
        | none => .error .invalidState
        | some rxKey =>
            let txDifference := keyChecksum txKey ^^^ manager.txKeyChecksum
            let rxDifference := keyChecksum rxKey ^^^ manager.rxKeyChecksum
            if txDifference ||| rxDifference ≠ 0 then
              .error .invalidState
            else
              .ok ()

/-! ## The authenticated handshake -/

def encapsulateAuthenticated
    (manager : SessionManager DecapsKey)
    (args : EncapsulateAuthenticatedArgs SigningKey) :
    Except CryptoError EncapsulateAuthenticatedOutput ×
      SessionManager DecapsKey :=
  let ownIdentity :=
    identityFingerprint prims (prims.mlDsaVerifyingKey args.ownSigningKey)
  let peerIdentity := identityFingerprint prims args.peerVerifyingKey
  match handshakeBinding prims args.peerMlKemPk args.peerX25519Pk peerIdentity
      ownIdentity args.appInfo with
  | .error failure => (.error failure, manager)
  | .ok binding =>
      match encapsulateInner prims manager args.peerMlKemPk args.peerX25519Pk
          args.entropy args.salt binding.bytes true with
      | (.error failure, next) => (.error failure, next)
      | (.ok output, next) =>
          match output.confirmation with
          | none => (.error .invalidState, next)
          | some confirmation =>
              let encapsulatorKey := confirmation.slice 0 48 encapsulatorHalf_le
              let keygenKey := confirmation.slice 48 48 keygenHalf_le
              let transcript :=
                transcriptHash prims binding output.ct output.pk
              match (do
                  let tag ← confirmationTag prims encapsulatorKey
                    confirmLabelEncapsulatingSide transcript
                  let digest := encapsulatorDigest prims transcript tag
                  let signature ← mlDsaSignWithContext prims
                    args.ownSigningKey digest.bytes contextEncapsulatingSide
                  return (tag, digest, signature) :
                    Except CryptoError (Block 48 × Block 48 × Signature87)) with
              | .ok (tag, digest, signature) =>
                  (.ok ⟨output.ct, output.pk, signature, tag⟩,
                    { next with
                      pendingAuth := some ⟨digest, peerIdentity, keygenKey⟩ })
              | .error failure => (.error failure, next.zeroizeSession)

structure DerivedSecrets where
  session : Block 128
  confirmation : Block 96

def completeAuthenticatedFinalize
    (manager : SessionManager DecapsKey) (ownSigningKey : SigningKey)
    (peerX25519Pk : X25519Public) (mlKemCt : Ciphertext1024)
    (peerConfirmation : Block 48) (salt : Bytes)
    (binding transcript peerDigest : Block 48) :
    Except CryptoError (Signature87 × Block 48 × DerivedSecrets) := do
  let dk ← okOr manager.mlKemDk .invalidState
  let sk ← okOr manager.x25519Sk .invalidState
  let pqSecret ← mlKemDecapsulate prims dk mlKemCt
  let classicalSecret ← x25519DiffieHellman prims sk peerX25519Pk
  let inner := handshakeTranscript prims mlKemCt peerX25519Pk binding.bytes
  let (session, confirmation) ← deriveHybridKeyWithConfirmation prims pqSecret
    classicalSecret salt inner.bytes (confirmationInfo inner)
  let encapsulatorKey := confirmation.slice 0 48 encapsulatorHalf_le
  let keygenKey := confirmation.slice 48 48 keygenHalf_le
  let expected ← confirmationTag prims encapsulatorKey
    confirmLabelEncapsulatingSide transcript
  if !confirmationTagsEqual expected peerConfirmation then
    .error .keyConfirmationFailed
  else
    let tag ← confirmationTag prims keygenKey confirmLabelKeygenSide peerDigest
    let digest := keygenDigest prims peerDigest tag
    let signature ← mlDsaSignWithContext prims ownSigningKey digest.bytes
      contextKeygenSide
    return (signature, tag, ⟨session, confirmation⟩)

def finalizeAuthenticated
    (manager : SessionManager DecapsKey)
    (args : FinalizeAuthenticatedArgs SigningKey) :
    Except CryptoError FinalizeAuthenticatedOutput ×
      SessionManager DecapsKey :=
  match manager.mlKemDk, manager.x25519Sk with
  | some dk, some sk =>
      let ownMlKemPk := prims.mlKemEncapsulationKey dk
      let ownX25519Pk := (x25519Keygen prims sk).1
      let ownIdentity :=
        identityFingerprint prims (prims.mlDsaVerifyingKey args.ownSigningKey)
      let peerIdentity := identityFingerprint prims args.peerVerifyingKey
      match handshakeBinding prims ownMlKemPk ownX25519Pk ownIdentity
          peerIdentity args.appInfo with
      | .error failure => (.error failure, manager)
      | .ok binding =>
          let transcript :=
            transcriptHash prims binding args.mlKemCt args.peerX25519Pk
          let peerDigest :=
            encapsulatorDigest prims transcript args.peerConfirmation
          match mlDsaVerifyWithContext prims args.peerVerifyingKey
              peerDigest.bytes contextEncapsulatingSide args.peerSignature with
          | .error failure => (.error failure, manager)
          | .ok () =>
              match completeAuthenticatedFinalize prims manager
                  args.ownSigningKey args.peerX25519Pk args.mlKemCt
                  args.peerConfirmation args.salt binding transcript
                  peerDigest with
              | .ok (signature, tag, secrets) =>
                  (.ok ⟨signature, tag⟩,
                    manager.installKeys (keygenTxKey secrets.session)
                      (keygenRxKey secrets.session))
              | .error failure => (.error failure, manager.zeroizeSession)
  | _, _ => (.error .invalidState, manager)

def confirmPeer
    (manager : SessionManager DecapsKey) (args : ConfirmPeerArgs) :
    Except CryptoError Unit × SessionManager DecapsKey :=
  match manager.pendingAuth with
  | none => (.error .invalidState, manager)
  | some pending =>
      let presented := identityFingerprint prims args.peerVerifyingKey
      if !confirmationTagsEqual presented pending.peerIdentity then
        (.error .verificationFailed, manager)
      else
        let signed := keygenDigest prims pending.digest args.peerConfirmation
        match mlDsaVerifyWithContext prims args.peerVerifyingKey signed.bytes
            contextKeygenSide args.peerSignature with
        | .error failure => (.error failure, manager)
        | .ok () =>
            match confirmationTag prims pending.confirmationKey
                confirmLabelKeygenSide pending.digest with
            | .ok tag =>
                if confirmationTagsEqual tag args.peerConfirmation then
                  (.ok (), manager.wipePendingAuthentication)
                else
                  (.error .keyConfirmationFailed, manager.zeroizeSession)
            | .error failure => (.error failure, manager.zeroizeSession)

end SessionManager

end ShawnCore
