import ShawnCore.AnnotatedSession
import ShawnCore.ReplayWindow

/-!
# The representation invariant of a session manager

The eleven fields of a manager are written piecemeal by its operations and read
under different guards.  `Coherent` says how they hang together; every
transition keeps it, so it holds after every life of a manager.

Several operations unwrap a field once more after their first check has passed.
On a coherent manager no error exit of these unwraps is ever taken.
-/

namespace ShawnCore

open ByteBlocks

variable {DecapsKey SigningKey : Type}

namespace SessionManager

/-! ## The invariant -/

structure Coherent (manager : SessionManager DecapsKey) : Prop where
  mlKemDk_iff :
    manager.mlKemDk.isSome = true ↔ manager.x25519Sk.isSome = true
  txKey_iff : manager.isEstablished = true ↔ manager.txKey.isSome = true
  rxKey_iff : manager.isEstablished = true ↔ manager.rxKey.isSome = true
  pending_excludes_established :
    manager.mlKemDk.isSome = true → manager.isEstablished = false
  pendingAuth_established :
    manager.pendingAuth.isSome = true → manager.isEstablished = true
  txKeyChecksum_eq : manager.txKeyChecksum = manager.txKey.elim 0 keyChecksum
  rxKeyChecksum_eq : manager.rxKeyChecksum = manager.rxKey.elim 0 keyChecksum
  rxWindow_above : ∀ i, manager.rxCounter.toNat < i →
    manager.rxWindow.toNat.testBit i = false

theorem Coherent.new : (new : SessionManager DecapsKey).Coherent := by
  constructor
  case rxWindow_above =>
    intro i _
    exact Nat.zero_testBit i
  all_goals simp [SessionManager.new]

theorem Coherent.initiated (mlKemDk : DecapsKey) (x25519Sk : X25519Secret) :
    { (SessionManager.new : SessionManager DecapsKey) with
      mlKemDk := some mlKemDk
      x25519Sk := some x25519Sk }.Coherent :=
  { @Coherent.new DecapsKey with
    mlKemDk_iff := iff_of_true rfl rfl
    pending_excludes_established := fun _ => rfl }

theorem Coherent.installed
    (txKey rxKey : Block 64) (pendingAuth : Option PendingAuthentication) :
    (SessionManager.installed txKey rxKey pendingAuth :
      SessionManager DecapsKey).Coherent :=
  { @Coherent.new DecapsKey with
    txKey_iff := iff_of_true rfl rfl
    rxKey_iff := iff_of_true rfl rfl
    pending_excludes_established := fun hpending => by cases hpending
    pendingAuth_established := fun _ => rfl
    txKeyChecksum_eq := rfl
    rxKeyChecksum_eq := rfl }

/-- Recording a nonce keeps the bits above the counter clear. -/
theorem Coherent.commitRxNonce
    {manager : SessionManager DecapsKey} (hcoherent : manager.Coherent)
    (nonce : Block 12) : (manager.commitRxNonce nonce).Coherent := by
  have hrecord := manager.commitRxNonce_record nonce
  have habove := SequenceWindow.record_above_eq_false 64
    hcoherent.rxWindow_above (nonceSequence nonce).toNat
  rw [← hrecord] at habove
  rcases manager.commitRxNonce_frame nonce with ⟨counter, window, hframe⟩
  rw [hframe] at habove ⊢
  exact { hcoherent with rxWindow_above := habove }

theorem Coherent.transition
    {manager next : SessionManager DecapsKey} {call : Call SigningKey}
    {result : Except CryptoError Output}
    (hcoherent : manager.Coherent)
    (htransition : Transition manager call result next) : next.Coherent := by
  cases htransition with
  | refused => exact hcoherent
  | failedClosed | zeroized => exact Coherent.new
  | initiated _ _ _ mlKemDk x25519Sk =>
      exact Coherent.initiated mlKemDk x25519Sk
  | installed _ _ txKey rxKey pendingAuth =>
      exact Coherent.installed txKey rxKey pendingAuth
  | sent => exact { hcoherent with }
  | received _ _ nonce => exact hcoherent.commitRxNonce nonce
  | confirmed =>
      exact { hcoherent with
        pendingAuth_established := fun hpending => by cases hpending }

theorem Coherent.afterCalls
    {manager : SessionManager DecapsKey} (hcoherent : manager.Coherent)
    (life : List (Invocation DecapsKey SigningKey)) :
    (manager.afterCalls life).Coherent := by
  induction life generalizing manager with
  | nil => exact hcoherent
  | cons invocation rest ih =>
      exact ih (hcoherent.transition (manager.perform_transition invocation))

theorem Coherent.txKey_of_established
    {manager : SessionManager DecapsKey} (hcoherent : manager.Coherent)
    (hestablished : manager.isEstablished = true) :
    ∃ txKey, manager.txKey = some txKey :=
  Option.isSome_iff_exists.mp (hcoherent.txKey_iff.mp hestablished)

theorem Coherent.rxKey_of_established
    {manager : SessionManager DecapsKey} (hcoherent : manager.Coherent)
    (hestablished : manager.isEstablished = true) :
    ∃ rxKey, manager.rxKey = some rxKey :=
  Option.isSome_iff_exists.mp (hcoherent.rxKey_iff.mp hestablished)

theorem Coherent.x25519Sk_of_pending
    {manager : SessionManager DecapsKey} (hcoherent : manager.Coherent)
    {mlKemDk : DecapsKey} (hpending : manager.mlKemDk = some mlKemDk) :
    ∃ x25519Sk, manager.x25519Sk = some x25519Sk :=
  Option.isSome_iff_exists.mp
    (hcoherent.mlKemDk_iff.mp (Option.isSome_of_eq_some hpending))

theorem Coherent.verifyKeyIntegrity_iff
    {manager : SessionManager DecapsKey} (hcoherent : manager.Coherent) :
    manager.verifyKeyIntegrity = .ok () ↔ manager.isEstablished = true := by
  unfold verifyKeyIntegrity
  cases hestablished : manager.isEstablished with
  | false => simp
  | true =>
      obtain ⟨txKey, htx⟩ := hcoherent.txKey_of_established hestablished
      obtain ⟨rxKey, hrx⟩ := hcoherent.rxKey_of_established hestablished
      have htxSum := hcoherent.txKeyChecksum_eq
      have hrxSum := hcoherent.rxKeyChecksum_eq
      rw [htx] at htxSum
      rw [hrx] at hrxSum
      simp [htx, hrx, htxSum, hrxSum]

/-! ## No late exit is taken -/

section Exits

variable {prims : Primitives DecapsKey SigningKey}

theorem Coherent.finalizeHandshakeAnnotated
    {manager : SessionManager DecapsKey} (hcoherent : manager.Coherent)
    (peerX25519Pk : X25519Public) (mlKemCt : Ciphertext1024)
    (salt info : Bytes) :
    lateExits (manager.finalizeHandshakeAnnotated prims peerX25519Pk mlKemCt
      salt info).1 = [] := by
  unfold SessionManager.finalizeHandshakeAnnotated
  cases hdk : manager.mlKemDk with
  | none => rfl
  | some dk =>
      obtain ⟨sk, hsk⟩ := hcoherent.x25519Sk_of_pending hdk
      simp only [hsk, finalizeSecretsAnnotated_calls]
      rfl

theorem getNextTxNonceExits_silent
    (manager : SessionManager DecapsKey) (nonce : Block 12) :
    (manager.getNextTxNonceExits nonce).1 = [] := by
  unfold getNextTxNonceExits
  split
  next => rfl
  next hcounter => rw [checkedSucc_of_ne hcounter]

theorem Coherent.encryptPacketExits
    {manager : SessionManager DecapsKey} (hcoherent : manager.Coherent)
    (aad : Slice) (plaintext ciphertext : Bytes) (nonce : Block 12)
    (tag : Block 48) :
    (manager.encryptPacketExits prims aad plaintext ciphertext nonce
      tag).1 = [] := by
  unfold SessionManager.encryptPacketExits
  split
  next => rfl
  next hguard =>
    split
    next => rfl
    next hcounter =>
      have hestablished : manager.isEstablished = true := by
        simpa using (not_or.mp hguard).1
      obtain ⟨key, hkey⟩ := hcoherent.txKey_of_established hestablished
      simp only [hkey, checkedSucc_of_ne hcounter]
      split
      next => rfl
      next => rfl

theorem Coherent.decryptPacketExits
    {manager : SessionManager DecapsKey} (hcoherent : manager.Coherent)
    (aad : Slice) (ciphertext : Bytes) (nonce : Block 12) (tag : Block 48)
    (plaintext : Bytes) :
    (manager.decryptPacketExits prims aad ciphertext nonce tag
      plaintext).1 = [] := by
  unfold SessionManager.decryptPacketExits
  split
  next => rfl
  next hguard =>
    split
    next => rfl
    next =>
      have hestablished : manager.isEstablished = true := by
        simpa using (not_or.mp hguard).1
      obtain ⟨key, hkey⟩ := hcoherent.rxKey_of_established hestablished
      simp only [hkey]
      split
      next => rfl
      next => rfl

theorem Coherent.verifyKeyIntegrityExits
    {manager : SessionManager DecapsKey} (hcoherent : manager.Coherent) :
    manager.verifyKeyIntegrityExits.1 = [] := by
  unfold SessionManager.verifyKeyIntegrityExits
  split
  next => rfl
  next hguard =>
    have hestablished : manager.isEstablished = true := by simpa using hguard
    obtain ⟨txKey, htx⟩ := hcoherent.txKey_of_established hestablished
    obtain ⟨rxKey, hrx⟩ := hcoherent.rxKey_of_established hestablished
    simp only [htx, hrx]
    split
    next => rfl
    next => rfl

/-- The inner encapsulation was asked for confirmation material, so it
returns some. -/
theorem encapsulateAuthenticatedExits_silent
    (manager : SessionManager DecapsKey)
    (args : EncapsulateAuthenticatedArgs SigningKey) :
    (manager.encapsulateAuthenticatedExits prims args).1 = [] := by
  unfold encapsulateAuthenticatedExits
  dsimp only
  split
  next => rfl
  next binding _ =>
    rcases encapsulateInner_cases prims manager args.peerMlKemPk
        args.peerX25519Pk args.entropy args.salt binding.bytes true with
      ⟨failure, hinner⟩ | ⟨output, key, hsecrets, hinner⟩
    · rw [hinner]
    · rcases encapsulateSecrets_eq_ok prims hsecrets with
        ⟨_, _, material, _, _, _, _, hmaterial⟩
      rw [hinner]
      simp only [hmaterial]
      split
      next => rfl
      next => rfl

theorem Coherent.finalizeAuthenticatedAnnotated
    {manager : SessionManager DecapsKey} (hcoherent : manager.Coherent)
    (args : FinalizeAuthenticatedArgs SigningKey) :
    lateExits (manager.finalizeAuthenticatedAnnotated prims args).1 = [] := by
  unfold SessionManager.finalizeAuthenticatedAnnotated
  cases hdk : manager.mlKemDk with
  | none => rfl
  | some dk =>
      obtain ⟨sk, hsk⟩ := hcoherent.x25519Sk_of_pending hdk
      simp only [hsk, completeAuthenticatedFinalizeAnnotated_calls hdk hsk]
      split
      next => rfl
      next =>
        split
        next => rfl
        next => rfl

theorem Coherent.execAnnotated
    {manager : SessionManager DecapsKey} (hcoherent : manager.Coherent)
    (call : Call SigningKey) :
    lateExits (manager.execAnnotated prims call).1 = [] := by
  cases call with
  | finalizeHandshake peerX25519Pk mlKemCt salt info =>
      exact hcoherent.finalizeHandshakeAnnotated peerX25519Pk mlKemCt salt info
  | encapsulateAuthenticated args =>
      exact (lateExits_exited _).trans
        (encapsulateAuthenticatedExits_silent manager args)
  | finalizeAuthenticated args =>
      exact hcoherent.finalizeAuthenticatedAnnotated args
  | encryptPacket aad plaintext ciphertext nonce tag =>
      exact (lateExits_exited _).trans
        (hcoherent.encryptPacketExits aad plaintext ciphertext nonce tag)
  | decryptPacket aad ciphertext nonce tag plaintext =>
      exact (lateExits_exited _).trans
        (hcoherent.decryptPacketExits aad ciphertext nonce tag plaintext)
  | getNextTxNonce nonce =>
      exact (lateExits_exited _).trans
        (getNextTxNonceExits_silent manager nonce)
  | _ => rfl

/-- The representation invariant: after any life of a manager, whatever was
called with whatever arguments and whatever the primitives answered, the fields
are coherent, `verify_key_integrity` succeeds exactly on an established
session, and no further call takes an error exit behind its first check. -/
theorem fields_are_coherent
    (life : List (Invocation DecapsKey SigningKey)) :
    let manager := (new : SessionManager DecapsKey).afterCalls life
    manager.Coherent ∧
      (manager.verifyKeyIntegrity = .ok () ↔
        manager.isEstablished = true) ∧
      manager.verifyKeyIntegrityExits = ([], manager.verifyKeyIntegrity) ∧
      ∀ invocation : Invocation DecapsKey SigningKey,
        lateExits
            (manager.execAnnotated invocation.prims invocation.call).1 = [] ∧
          (manager.execAnnotated invocation.prims invocation.call).2 =
            manager.exec invocation.prims invocation.call := by
  intro manager
  have hcoherent : manager.Coherent := Coherent.new.afterCalls life
  refine ⟨hcoherent, hcoherent.verifyKeyIntegrity_iff, ?_, ?_⟩
  · exact Prod.ext hcoherent.verifyKeyIntegrityExits
      manager.verifyKeyIntegrityExits_erase
  · intro invocation
    exact ⟨hcoherent.execAnnotated invocation.call,
      execAnnotated_erase invocation.prims manager invocation.call⟩

end Exits

end SessionManager

end ShawnCore
