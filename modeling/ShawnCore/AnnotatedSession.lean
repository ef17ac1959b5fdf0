import ShawnCore.CallLog
import ShawnCore.SessionCalls

/-!
# The operations of a manager with annotations

Some operations call `ml_kem_decapsulate`, and several unwrap a field once more
after their first check has passed.  They are given a second time here, with a
log of those calls and of the error exits of those unwraps; dropping the log
gives the operations themselves.
-/

namespace ShawnCore

open ByteBlocks CallLog

variable {DecapsKey SigningKey : Type}

/-- A call of `ml_kem_decapsulate`. -/
structure Decapsulation (DecapsKey : Type) where
  key : DecapsKey
  ct : Ciphertext1024

/-- The error exits which lie behind the first check of an operation: an
absent key, an absent pending secret, absent confirmation material or a counter
which cannot be incremented. -/
inductive LateExit
  | finalizeHandshakeX25519Sk
  | getNextTxNonceTxCounter
  | encryptPacketTxKey
  | encryptPacketTxCounter
  | decryptPacketRxKey
  | verifyKeyIntegrityTxKey
  | verifyKeyIntegrityRxKey
  | encapsulateAuthenticatedConfirmation
  | finalizeAuthenticatedX25519Sk
  | completeAuthenticatedFinalizeMlKemDk
  | completeAuthenticatedFinalizeX25519Sk
deriving DecidableEq

inductive Remark (DecapsKey : Type)
  | decapsulated (decapsulation : Decapsulation DecapsKey)
  | exited (exit : LateExit)

namespace Remark

def decapsulation? : Remark DecapsKey → Option (Decapsulation DecapsKey)
  | .decapsulated decapsulation => some decapsulation
  | .exited _ => none

def exit? : Remark DecapsKey → Option LateExit
  | .decapsulated _ => none
  | .exited exit => some exit

end Remark

def decapsulations (log : List (Remark DecapsKey)) :
    List (Decapsulation DecapsKey) :=
  log.filterMap Remark.decapsulation?

def lateExits (log : List (Remark DecapsKey)) : List LateExit :=
  log.filterMap Remark.exit?

theorem decapsulations_exited (exits : List LateExit) :
    decapsulations (exits.map .exited : List (Remark DecapsKey)) = [] := by
  simp [decapsulations, Remark.decapsulation?]

theorem lateExits_exited (exits : List LateExit) :
    lateExits (exits.map .exited : List (Remark DecapsKey)) = exits := by
  rw [lateExits, List.filterMap_map]
  exact List.filterMap_some

def mlKemDecapsulateAnnotated
    (prims : Primitives DecapsKey SigningKey) (dk : DecapsKey)
    (ct : Ciphertext1024) :
    Logged (Remark DecapsKey) CryptoError SharedKey1024 :=
  .call (.decapsulated ⟨dk, ct⟩) (mlKemDecapsulate prims dk ct)

/-- `ok_or(InvalidState)` which logs its error exit. -/
def okOrAnnotated {α : Type} (exit : LateExit) (value : Option α) :
    Logged (Remark DecapsKey) CryptoError α :=
  match value with
  | some inner => .quiet (.ok inner)
  | none => .call (.exited exit) (.error .invalidState)

@[simp] theorem okOrAnnotated_result
    {α : Type} (exit : LateExit) (value : Option α) :
    (okOrAnnotated exit value :
      Logged (Remark DecapsKey) CryptoError α).result =
        okOr value .invalidState := by
  cases value with
  | none => rfl
  | some inner => rfl

namespace SessionManager

section Annotated

variable (prims : Primitives DecapsKey SigningKey)

/-! ## The operations -/

def finalizeSecretsAnnotated
    (mlKemDk : DecapsKey) (x25519Sk : X25519Secret)
    (peerX25519Pk : X25519Public) (mlKemCt : Ciphertext1024)
    (salt info : Bytes) :
    Logged (Remark DecapsKey) CryptoError (Block 128) := do
  let pqSecret ← mlKemDecapsulateAnnotated prims mlKemDk mlKemCt
  Logged.quiet do
    let classicalSecret ← x25519DiffieHellman prims x25519Sk peerX25519Pk
    deriveHybridKey prims pqSecret classicalSecret salt
      (handshakeTranscript prims mlKemCt peerX25519Pk info).bytes

def finalizeHandshakeAnnotated
    (manager : SessionManager DecapsKey) (peerX25519Pk : X25519Public)
    (mlKemCt : Ciphertext1024) (salt info : Bytes) :
    List (Remark DecapsKey) ×
      (Except CryptoError Unit × SessionManager DecapsKey) :=
  match manager.mlKemDk with
  | none => ([], (.error .invalidState, manager))
  | some mlKemDk =>
      match manager.x25519Sk with
      | none =>
          ([.exited .finalizeHandshakeX25519Sk],
            (.error .invalidState, manager))
      | some x25519Sk =>
          let secrets := finalizeSecretsAnnotated prims mlKemDk x25519Sk
            peerX25519Pk mlKemCt salt info
          (secrets.calls,
            match secrets.result with
            | .error failure => (.error failure, manager.zeroizeSession)
            | .ok hybridKey =>
                (.ok (), manager.installKeys (keygenTxKey hybridKey)
                  (keygenRxKey hybridKey)))

def getNextTxNonceExits
    (manager : SessionManager DecapsKey) (nonce : Block 12) :
    List LateExit × GetNextTxNonceOutcome DecapsKey :=
  if manager.txCounter = u64Max then
    ([], ⟨.error .invalidState, nonce, manager⟩)
  else
    match checkedSucc manager.txCounter with
    | none =>
        ([.getNextTxNonceTxCounter],
          ⟨.error .invalidState, sequenceNonce manager.txCounter, manager⟩)
    | some counter =>
        ([], ⟨.ok (), sequenceNonce manager.txCounter,
          { manager with txCounter := counter }⟩)

def encryptPacketExits
    (manager : SessionManager DecapsKey) (aad : Slice)
    (plaintext ciphertext : Bytes) (nonce : Block 12) (tag : Block 48) :
    List LateExit × EncryptPacketOutcome DecapsKey :=
  if !manager.isEstablished ∨ manager.pendingAuth.isSome ∨
      ciphertext.length ≠ plaintext.length then
    ([], ⟨.error .invalidState, ciphertext, nonce, tag, manager⟩)
  else if manager.txCounter = u64Max then
    ([], ⟨.error .invalidState, ciphertext, nonce, tag, manager⟩)
  else
    match manager.txKey with
    | none =>
        ([.encryptPacketTxKey],
          ⟨.error .invalidState, ciphertext, nonce, tag, manager⟩)
    | some key =>
        let pendingNonce := sequenceNonce manager.txCounter
        let sealed := aeadEncrypt prims (key.slice 0 32 lowHalf_le)
          (key.slice 32 32 highHalf_le) pendingNonce aad plaintext ciphertext
          tag
        match sealed.result with
        | .error failure =>
            ([], ⟨.error failure, sealed.ciphertext, nonce, sealed.outMac,
              manager⟩)
        | .ok () =>
            match checkedSucc manager.txCounter with
            | none =>
                ([.encryptPacketTxCounter],
                  ⟨.error .invalidState, sealed.ciphertext, pendingNonce,
                    sealed.outMac, manager⟩)
            | some counter =>
                ([], ⟨.ok (), sealed.ciphertext, pendingNonce, sealed.outMac,
                  { manager with txCounter := counter }⟩)

def decryptPacketExits
    (manager : SessionManager DecapsKey) (aad : Slice) (ciphertext : Bytes)
    (nonce : Block 12) (tag : Block 48) (plaintext : Bytes) :
    List LateExit × DecryptPacketOutcome DecapsKey :=
  if !manager.isEstablished ∨ manager.pendingAuth.isSome ∨
      plaintext.length ≠ ciphertext.length then
    ([], ⟨.error .invalidState, plaintext, manager⟩)
  else
    match manager.checkRxNonce nonce with
    | .error failure => ([], ⟨.error failure, plaintext, manager⟩)
    | .ok () =>
        match manager.rxKey with
        | none =>
            ([.decryptPacketRxKey], ⟨.error .invalidState, plaintext, manager⟩)
        | some key =>
            let opened := aeadDecrypt prims (key.slice 0 32 lowHalf_le)
              (key.slice 32 32 highHalf_le) nonce aad ciphertext tag plaintext
            match opened.result with
            | .error failure =>
                ([], ⟨.error failure, opened.plaintext, manager⟩)
            | .ok () =>
                ([], ⟨.ok (), opened.plaintext, manager.commitRxNonce nonce⟩)

def verifyKeyIntegrityExits (manager : SessionManager DecapsKey) :
    List LateExit × Except CryptoError Unit :=
  if !manager.isEstablished then
    ([], .error .invalidState)
  else
    match manager.txKey with
    | none => ([.verifyKeyIntegrityTxKey], .error .invalidState)
    | some txKey =>
        match manager.rxKey with
        | none => ([.verifyKeyIntegrityRxKey], .error .invalidState)
        | some rxKey =>
            let txDifference := keyChecksum txKey ^^^ manager.txKeyChecksum
            let rxDifference := keyChecksum rxKey ^^^ manager.rxKeyChecksum
            if txDifference ||| rxDifference ≠ 0 then
              ([], .error .invalidState)
            else
              ([], .ok ())

def encapsulateAuthenticatedExits
    (manager : SessionManager DecapsKey)
    (args : EncapsulateAuthenticatedArgs SigningKey) :
    List LateExit × (Except CryptoError EncapsulateAuthenticatedOutput ×
      SessionManager DecapsKey) :=
  let ownIdentity :=
    identityFingerprint prims (prims.mlDsaVerifyingKey args.ownSigningKey)
  let peerIdentity := identityFingerprint prims args.peerVerifyingKey
  match handshakeBinding prims args.peerMlKemPk args.peerX25519Pk peerIdentity
      ownIdentity args.appInfo with
  | .error failure => ([], (.error failure, manager))
  | .ok binding =>
      match encapsulateInner prims manager args.peerMlKemPk args.peerX25519Pk
          args.entropy args.salt binding.bytes true with
      | (.error failure, next) => ([], (.error failure, next))
      | (.ok output, next) =>
          match output.confirmation with
          | none =>
              ([.encapsulateAuthenticatedConfirmation],
                (.error .invalidState, next))
          | some confirmation =>
              let encapsulatorKey := confirmation.slice 0 48 encapsulatorHalf_le
              let keygenKey := confirmation.slice 48 48 keygenHalf_le
              let transcript :=
                transcriptHash prims binding output.ct output.pk
              match (do
                  let tag ← confirmationTag prims encapsulatorKey
                    confirmLabelEncapsulatingSide transcript
                  let digest := encapsulatorDigest prims transcript tag
                  let signature ← mlDsaSignWithContext prims
                    args.ownSigningKey digest.bytes contextEncapsulatingSide
                  return (tag, digest, signature) :
                    Except CryptoError (Block 48 × Block 48 × Signature87)) with
              | .ok (tag, digest, signature) =>
                  ([], (.ok ⟨output.ct, output.pk, signature, tag⟩,
                    { next with
                      pendingAuth := some ⟨digest, peerIdentity, keygenKey⟩ }))
              | .error failure => ([], (.error failure, next.zeroizeSession))

def completeAuthenticatedFinalizeAnnotated
    (manager : SessionManager DecapsKey) (ownSigningKey : SigningKey)
    (peerX25519Pk : X25519Public) (mlKemCt : Ciphertext1024)
    (peerConfirmation : Block 48) (salt : Bytes)
    (binding transcript peerDigest : Block 48) :
    Logged (Remark DecapsKey) CryptoError
      (Signature87 × Block 48 × DerivedSecrets) := do
  let dk ← okOrAnnotated .completeAuthenticatedFinalizeMlKemDk manager.mlKemDk
  let sk ←
    okOrAnnotated .completeAuthenticatedFinalizeX25519Sk manager.x25519Sk
  let pqSecret ← mlKemDecapsulateAnnotated prims dk mlKemCt
  Logged.quiet do
    let classicalSecret ← x25519DiffieHellman prims sk peerX25519Pk
    let inner := handshakeTranscript prims mlKemCt peerX25519Pk binding.bytes
    let (session, confirmation) ← deriveHybridKeyWithConfirmation prims
      pqSecret classicalSecret salt inner.bytes (confirmationInfo inner)
    let encapsulatorKey := confirmation.slice 0 48 encapsulatorHalf_le
    let keygenKey := confirmation.slice 48 48 keygenHalf_le
    let expected ← confirmationTag prims encapsulatorKey
      confirmLabelEncapsulatingSide transcript
    if !confirmationTagsEqual expected peerConfirmation then
      .error .keyConfirmationFailed
    else
      let tag ←
        confirmationTag prims keygenKey confirmLabelKeygenSide peerDigest
      let digest := keygenDigest prims peerDigest tag
      let signature ← mlDsaSignWithContext prims ownSigningKey digest.bytes
        contextKeygenSide
      return (signature, tag, ⟨session, confirmation⟩)

def finalizeAuthenticatedAnnotated
    (manager : SessionManager DecapsKey)
    (args : FinalizeAuthenticatedArgs SigningKey) :
    List (Remark DecapsKey) ×
      (Except CryptoError FinalizeAuthenticatedOutput ×
        SessionManager DecapsKey) :=
  match manager.mlKemDk with
  | none => ([], (.error .invalidState, manager))
  | some dk =>
      match manager.x25519Sk with
      | none =>
          ([.exited .finalizeAuthenticatedX25519Sk],
            (.error .invalidState, manager))
      | some sk =>
          let ownMlKemPk := prims.mlKemEncapsulationKey dk
          let ownX25519Pk := (x25519Keygen prims sk).1
          let ownIdentity := identityFingerprint prims
            (prims.mlDsaVerifyingKey args.ownSigningKey)
          let peerIdentity := identityFingerprint prims args.peerVerifyingKey
          match handshakeBinding prims ownMlKemPk ownX25519Pk ownIdentity
              peerIdentity args.appInfo with
          | .error failure => ([], (.error failure, manager))
          | .ok binding =>
              let transcript :=
                transcriptHash prims binding args.mlKemCt args.peerX25519Pk
              let peerDigest :=
                encapsulatorDigest prims transcript args.peerConfirmation
              match mlDsaVerifyWithContext prims args.peerVerifyingKey
                  peerDigest.bytes contextEncapsulatingSide
                  args.peerSignature with
              | .error failure => ([], (.error failure, manager))
              | .ok () =>
                  let completed := completeAuthenticatedFinalizeAnnotated
                    prims manager args.ownSigningKey args.peerX25519Pk
                    args.mlKemCt args.peerConfirmation args.salt binding
                    transcript peerDigest
                  (completed.calls,
                    match completed.result with
                    | .ok (signature, tag, secrets) =>
                        (.ok ⟨signature, tag⟩,
                          manager.installKeys (keygenTxKey secrets.session)
                            (keygenRxKey secrets.session))
                    | .error failure =>
                        (.error failure, manager.zeroizeSession))

/-- A call with its decapsulations and its late exits. -/
def execAnnotated (manager : SessionManager DecapsKey) :
    Call SigningKey →
      List (Remark DecapsKey) ×
        (Except CryptoError Output × SessionManager DecapsKey)
  | .finalizeHandshake peerX25519Pk mlKemCt salt info =>
      let logged := manager.finalizeHandshakeAnnotated prims peerX25519Pk
        mlKemCt salt info
      (logged.1,
        match logged.2 with
        | (.ok (), next) => (.ok .done, next)
        | (.error failure, next) => (.error failure, next))
  | .encapsulateAuthenticated args =>
      let logged := manager.encapsulateAuthenticatedExits prims args
      (logged.1.map .exited,
        match logged.2 with
        | (.ok output, next) => (.ok (.authEncapsulated output), next)
        | (.error failure, next) => (.error failure, next))
  | .finalizeAuthenticated args =>
      let logged := manager.finalizeAuthenticatedAnnotated prims args
      (logged.1,
        match logged.2 with
        | (.ok output, next) => (.ok (.proof output), next)
        | (.error failure, next) => (.error failure, next))
  | .encryptPacket aad plaintext ciphertext nonce tag =>
      let logged :=
        manager.encryptPacketExits prims aad plaintext ciphertext nonce tag
      (logged.1.map .exited,
        match logged.2.result with
        | .ok () =>
            (.ok (.packet logged.2.ciphertext logged.2.nonce logged.2.tag),
              logged.2.manager)
        | .error failure => (.error failure, logged.2.manager))
  | .decryptPacket aad ciphertext nonce tag plaintext =>
      let logged :=
        manager.decryptPacketExits prims aad ciphertext nonce tag plaintext
      (logged.1.map .exited,
        match logged.2.result with
        | .ok () => (.ok (.plaintext logged.2.plaintext), logged.2.manager)
        | .error failure => (.error failure, logged.2.manager))
  | .getNextTxNonce nonce =>
      let logged := manager.getNextTxNonceExits nonce
      (logged.1.map .exited,
        match logged.2.result with
        | .ok () => (.ok (.txNonce logged.2.nonce), logged.2.manager)
        | .error failure => (.error failure, logged.2.manager))
  | call => ([], manager.exec prims call)

/-! ## Dropping the log -/

theorem finalizeSecretsAnnotated_result
    (mlKemDk : DecapsKey) (x25519Sk : X25519Secret)
    (peerX25519Pk : X25519Public) (mlKemCt : Ciphertext1024)
    (salt info : Bytes) :
    (finalizeSecretsAnnotated prims mlKemDk x25519Sk peerX25519Pk mlKemCt salt
      info).result = finalizeSecrets prims mlKemDk x25519Sk peerX25519Pk
        mlKemCt salt info := by
  unfold finalizeSecretsAnnotated finalizeSecrets mlKemDecapsulateAnnotated
  simp only [Logged.bind_result, Logged.quiet_result, Logged.call_result]

theorem finalizeHandshakeAnnotated_erase
    (manager : SessionManager DecapsKey) (peerX25519Pk : X25519Public)
    (mlKemCt : Ciphertext1024) (salt info : Bytes) :
    (manager.finalizeHandshakeAnnotated prims peerX25519Pk mlKemCt salt
      info).2 =
        manager.finalizeHandshake prims peerX25519Pk mlKemCt salt info := by
  unfold finalizeHandshakeAnnotated finalizeHandshake
  simp only [finalizeSecretsAnnotated_result]
  cases manager.mlKemDk with
  | none => rfl
  | some dk =>
      cases manager.x25519Sk with
      | none => rfl
      | some sk => rfl

theorem getNextTxNonceExits_erase
    (manager : SessionManager DecapsKey) (nonce : Block 12) :
    (manager.getNextTxNonceExits nonce).2 = manager.getNextTxNonce nonce := by
  unfold getNextTxNonceExits getNextTxNonce
  split
  next => rfl
  next =>
    cases checkedSucc manager.txCounter with
    | none => rfl
    | some counter => rfl

theorem encryptPacketExits_erase
    (manager : SessionManager DecapsKey) (aad : Slice)
    (plaintext ciphertext : Bytes) (nonce : Block 12) (tag : Block 48) :
    (manager.encryptPacketExits prims aad plaintext ciphertext nonce tag).2 =
      manager.encryptPacket prims aad plaintext ciphertext nonce tag := by
  unfold encryptPacketExits encryptPacket
  split
  next => rfl
  next =>
    split
    next => rfl
    next =>
      cases manager.txKey with
      | none => rfl
      | some key =>
          dsimp only
          split
          next hsealed => simp only [hsealed]
          next hsealed =>
            cases checkedSucc manager.txCounter with
            | none => simp only [hsealed]
            | some counter => simp only [hsealed]

theorem decryptPacketExits_erase
    (manager : SessionManager DecapsKey) (aad : Slice) (ciphertext : Bytes)
    (nonce : Block 12) (tag : Block 48) (plaintext : Bytes) :
    (manager.decryptPacketExits prims aad ciphertext nonce tag plaintext).2 =
      manager.decryptPacket prims aad ciphertext nonce tag plaintext := by
  unfold decryptPacketExits decryptPacket
  split
  next => rfl
  next =>
    cases manager.checkRxNonce nonce with
    | error failure => rfl
    | ok _ =>
        cases manager.rxKey with
        | none => rfl
        | some key =>
            dsimp only
            split
            next hopened => simp only [hopened]
            next hopened => simp only [hopened]

theorem verifyKeyIntegrityExits_erase (manager : SessionManager DecapsKey) :
    manager.verifyKeyIntegrityExits.2 = manager.verifyKeyIntegrity := by
  unfold verifyKeyIntegrityExits verifyKeyIntegrity
  split
  next => rfl
  next =>
    cases manager.txKey with
    | none => rfl
    | some txKey =>
        cases manager.rxKey with
        | none => rfl
        | some rxKey =>
            dsimp only
            split
            next => rfl
            next => rfl

theorem encapsulateAuthenticatedExits_erase
    (manager : SessionManager DecapsKey)
    (args : EncapsulateAuthenticatedArgs SigningKey) :
    (manager.encapsulateAuthenticatedExits prims args).2 =
      manager.encapsulateAuthenticated prims args := by
  unfold encapsulateAuthenticatedExits encapsulateAuthenticated
  dsimp only
  cases handshakeBinding prims args.peerMlKemPk args.peerX25519Pk
      (identityFingerprint prims args.peerVerifyingKey)
      (identityFingerprint prims (prims.mlDsaVerifyingKey
        args.ownSigningKey)) args.appInfo with
  | error failure => rfl
  | ok binding =>
      dsimp only
      rcases encapsulateInner prims manager args.peerMlKemPk args.peerX25519Pk
          args.entropy args.salt binding.bytes true with
        ⟨failure | output, next⟩
      · rfl
      · dsimp only
        cases output.confirmation with
        | none => rfl
        | some confirmation =>
            dsimp only
            split
            next hsigned => simp only [hsigned]
            next hsigned => simp only [hsigned]

theorem completeAuthenticatedFinalizeAnnotated_result
    (manager : SessionManager DecapsKey) (ownSigningKey : SigningKey)
    (peerX25519Pk : X25519Public) (mlKemCt : Ciphertext1024)
    (peerConfirmation : Block 48) (salt : Bytes)
    (binding transcript peerDigest : Block 48) :
    (completeAuthenticatedFinalizeAnnotated prims manager ownSigningKey
      peerX25519Pk mlKemCt peerConfirmation salt binding transcript
      peerDigest).result =
        completeAuthenticatedFinalize prims manager ownSigningKey peerX25519Pk
          mlKemCt peerConfirmation salt binding transcript peerDigest := by
  unfold completeAuthenticatedFinalizeAnnotated completeAuthenticatedFinalize
    mlKemDecapsulateAnnotated
  simp only [Logged.bind_result, Logged.quiet_result, Logged.call_result,
    okOrAnnotated_result]

theorem finalizeAuthenticatedAnnotated_erase
    (manager : SessionManager DecapsKey)
    (args : FinalizeAuthenticatedArgs SigningKey) :
    (manager.finalizeAuthenticatedAnnotated prims args).2 =
      manager.finalizeAuthenticated prims args := by
  unfold finalizeAuthenticatedAnnotated finalizeAuthenticated
  simp only [completeAuthenticatedFinalizeAnnotated_result]
  cases manager.mlKemDk with
  | none => rfl
  | some dk =>
      cases manager.x25519Sk with
      | none => rfl
      | some sk =>
          dsimp only
          cases handshakeBinding prims (prims.mlKemEncapsulationKey dk)
              (x25519Keygen prims sk).1
              (identityFingerprint prims (prims.mlDsaVerifyingKey
                args.ownSigningKey))
              (identityFingerprint prims args.peerVerifyingKey)
              args.appInfo with
          | error failure => rfl
          | ok binding =>
              dsimp only
              cases mlDsaVerifyWithContext prims args.peerVerifyingKey
                  (encapsulatorDigest prims
                    (transcriptHash prims binding args.mlKemCt
                      args.peerX25519Pk) args.peerConfirmation).bytes
                  contextEncapsulatingSide args.peerSignature with
              | error failure => rfl
              | ok _ => rfl

/-- Dropping the log gives the calls themselves. -/
theorem execAnnotated_erase
    (manager : SessionManager DecapsKey) (call : Call SigningKey) :
    (manager.execAnnotated prims call).2 = manager.exec prims call := by
  cases call with
  | finalizeHandshake =>
      rw [exec, ← finalizeHandshakeAnnotated_erase]
      rfl
  | encapsulateAuthenticated =>
      rw [exec, ← encapsulateAuthenticatedExits_erase]
      rfl
  | finalizeAuthenticated =>
      rw [exec, ← finalizeAuthenticatedAnnotated_erase]
      rfl
  | encryptPacket =>
      rw [exec, ← encryptPacketExits_erase]
      rfl
  | decryptPacket =>
      rw [exec, ← decryptPacketExits_erase]
      rfl
  | getNextTxNonce =>
      rw [exec, ← getNextTxNonceExits_erase]
      rfl
  | _ => rfl

/-! ## The decapsulations -/

section Decapsulations

variable {prims}

theorem finalizeSecretsAnnotated_calls
    (mlKemDk : DecapsKey) (x25519Sk : X25519Secret)
    (peerX25519Pk : X25519Public) (mlKemCt : Ciphertext1024)
    (salt info : Bytes) :
    (finalizeSecretsAnnotated prims mlKemDk x25519Sk peerX25519Pk mlKemCt salt
      info).calls = [.decapsulated ⟨mlKemDk, mlKemCt⟩] := by
  exact Logged.bind_calls_of_silent fun _ => rfl

theorem completeAuthenticatedFinalizeAnnotated_calls
    {manager : SessionManager DecapsKey} {dk : DecapsKey} {sk : X25519Secret}
    (hdk : manager.mlKemDk = some dk) (hsk : manager.x25519Sk = some sk)
    (ownSigningKey : SigningKey)
    (peerX25519Pk : X25519Public) (mlKemCt : Ciphertext1024)
    (peerConfirmation : Block 48) (salt : Bytes)
    (binding transcript peerDigest : Block 48) :
    (completeAuthenticatedFinalizeAnnotated prims manager ownSigningKey
      peerX25519Pk mlKemCt peerConfirmation salt binding transcript
      peerDigest).calls = [.decapsulated ⟨dk, mlKemCt⟩] := by
  unfold completeAuthenticatedFinalizeAnnotated
  simp only [hdk, hsk, okOrAnnotated, Logged.quiet_ok_bind]
  exact Logged.bind_calls_of_silent fun _ => rfl

end Decapsulations

end Annotated

end SessionManager

end ShawnCore
