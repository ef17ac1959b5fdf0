import ShawnCore.ReferencePrimitives
import ShawnCore.SessionCalls

/-!
# A failed call releases nothing

The stream cipher may fail on any call, after it has changed its buffer in any
way.  Whatever an AEAD function or a packet operation of the session manager
has written by the time it fails, the caller's buffer holds what it held before
the call, or zeros.
-/

namespace ShawnCore

open ByteBlocks

variable {DecapsKey SigningKey : Type}
variable {prims : Primitives DecapsKey SigningKey}

/-- A buffer is as it was, or all its bytes are zero. -/
def KeptOrWiped (before after : Bytes) : Prop :=
  after = before ∨ after = List.replicate before.length 0

section Aead

variable {encKey macKey : Block 32} {nonce : Block 12} {aad : Slice}
variable {failure : CryptoError}

theorem aeadEncrypt_failed
    (hcipher : prims.CipherAccepts) (hhmac : prims.HmacTotal)
    {plaintext ciphertext : Bytes} {outMac : Block 48}
    (hfailed : (aeadEncrypt prims encKey macKey nonce aad plaintext ciphertext
      outMac).result = .error failure) :
    let outcome :=
      aeadEncrypt prims encKey macKey nonce aad plaintext ciphertext outMac
    KeptOrWiped ciphertext outcome.ciphertext ∧ outcome.outMac = outMac := by
  unfold aeadEncrypt at hfailed ⊢
  split
  next => exact ⟨Or.inl rfl, rfl⟩
  next hlengths =>
    have hsame : plaintext.length = ciphertext.length :=
      not_not.mp (not_or.mp hlengths).1
    rw [if_neg hlengths] at hfailed
    simp only [hcipher encKey nonce, hhmac macKey.bytes, Bool.not_true,
      Bool.false_eq_true, if_false] at hfailed ⊢
    split
    next => exact ⟨Or.inr (by rw [hsame]), rfl⟩
    next happly =>
      simp only [happly] at hfailed
      cases hfailed

theorem aeadDecrypt_failed
    (hcipher : prims.CipherAccepts) (hhmac : prims.HmacTotal)
    {ciphertext plaintext : Bytes} {mac : Block 48}
    (hfailed : (aeadDecrypt prims encKey macKey nonce aad ciphertext mac
      plaintext).result = .error failure) :
    KeptOrWiped plaintext
      (aeadDecrypt prims encKey macKey nonce aad ciphertext mac
        plaintext).plaintext := by
  unfold aeadDecrypt at hfailed ⊢
  split
  next => exact Or.inl rfl
  next hlengths =>
    rw [if_neg hlengths] at hfailed
    simp only [hcipher encKey nonce, hhmac macKey.bytes, Bool.not_true,
      Bool.false_eq_true, if_false] at hfailed ⊢
    split
    next => exact Or.inr rfl
    next htag =>
      rw [if_neg htag] at hfailed
      split
      next => exact Or.inr rfl
      next happly =>
        simp only [happly] at hfailed
        cases hfailed

theorem aeadEncryptInPlace_failed
    (hcipher : prims.CipherAccepts) (hhmac : prims.HmacTotal)
    {buffer : Bytes} {outMac : Block 48}
    (hfailed : (aeadEncryptInPlace prims encKey macKey nonce aad buffer
      outMac).result = .error failure) :
    let outcome := aeadEncryptInPlace prims encKey macKey nonce aad buffer outMac
    KeptOrWiped buffer outcome.ciphertext ∧ outcome.outMac = outMac := by
  unfold aeadEncryptInPlace at hfailed ⊢
  split
  next => exact ⟨Or.inl rfl, rfl⟩
  next hlength =>
    rw [if_neg hlength] at hfailed
    simp only [hcipher encKey nonce, hhmac macKey.bytes, Bool.not_true,
      Bool.false_eq_true, if_false] at hfailed ⊢
    split
    next => exact ⟨Or.inr rfl, rfl⟩
    next happly =>
      simp only [happly] at hfailed
      cases hfailed

theorem aeadDecryptInPlace_failed
    (hcipher : prims.CipherAccepts) (hhmac : prims.HmacTotal)
    {buffer : Bytes} {mac : Block 48}
    (hfailed : (aeadDecryptInPlace prims encKey macKey nonce aad buffer
      mac).result = .error failure) :
    KeptOrWiped buffer
      (aeadDecryptInPlace prims encKey macKey nonce aad buffer
        mac).plaintext := by
  unfold aeadDecryptInPlace at hfailed ⊢
  split
  next => exact Or.inl rfl
  next hlength =>
    rw [if_neg hlength] at hfailed
    simp only [hcipher encKey nonce, hhmac macKey.bytes, Bool.not_true,
      Bool.false_eq_true, if_false] at hfailed ⊢
    split
    next => exact Or.inr rfl
    next htag =>
      rw [if_neg htag] at hfailed
      split
      next => exact Or.inr rfl
      next happly =>
        simp only [happly] at hfailed
        cases hfailed

end Aead

/-! ## Packets -/

namespace SessionManager

variable {manager : SessionManager DecapsKey} {aad : Slice}
variable {failure : CryptoError}

theorem encryptPacket_failed
    (hcipher : prims.CipherAccepts) (hhmac : prims.HmacTotal)
    {plaintext ciphertext : Bytes} {nonce : Block 12} {tag : Block 48}
    (hfailed : (manager.encryptPacket prims aad plaintext ciphertext nonce
      tag).result = .error failure) :
    let outcome :=
      manager.encryptPacket prims aad plaintext ciphertext nonce tag
    KeptOrWiped ciphertext outcome.ciphertext ∧ outcome.nonce = nonce ∧
      outcome.tag = tag ∧ outcome.manager = manager := by
  unfold encryptPacket at hfailed ⊢
  split
  next => exact ⟨Or.inl rfl, rfl, rfl, rfl⟩
  next hguard =>
    rw [if_neg hguard] at hfailed
    by_cases hmax : manager.txCounter = u64Max
    · rw [if_pos hmax]
      exact ⟨Or.inl rfl, rfl, rfl, rfl⟩
    · rw [if_neg hmax, checkedSucc_of_ne hmax] at hfailed ⊢
      cases hkey : manager.txKey with
      | none => exact ⟨Or.inl rfl, rfl, rfl, rfl⟩
      | some key =>
          simp only [hkey] at hfailed ⊢
          split
          next hsealed =>
            obtain ⟨hciphertext, htag⟩ :=
              aeadEncrypt_failed hcipher hhmac hsealed
            exact ⟨hciphertext, rfl, htag, rfl⟩
          next hsealed =>
            simp only [hsealed] at hfailed
            cases hfailed

theorem decryptPacket_failed
    (hcipher : prims.CipherAccepts) (hhmac : prims.HmacTotal)
    {ciphertext plaintext : Bytes} {nonce : Block 12} {tag : Block 48}
    (hfailed : (manager.decryptPacket prims aad ciphertext nonce tag
      plaintext).result = .error failure) :
    KeptOrWiped plaintext (manager.decryptPacket prims aad ciphertext nonce tag
      plaintext).plaintext := by
  unfold decryptPacket at hfailed ⊢
  split
  next => exact Or.inl rfl
  next hguard =>
    rw [if_neg hguard] at hfailed
    cases hcheck : manager.checkRxNonce nonce with
    | error refusal => exact Or.inl rfl
    | ok _ =>
        simp only [hcheck] at hfailed ⊢
        cases hkey : manager.rxKey with
        | none => exact Or.inl rfl
        | some key =>
            simp only [hkey] at hfailed ⊢
            split
            next hopened => exact aeadDecrypt_failed hcipher hhmac hopened
            next hopened =>
              simp only [hopened] at hfailed
              cases hfailed

end SessionManager

/-- Every function which opens or seals data leaves nothing behind when it
fails, however the stream cipher fails. -/
structure ReleasesNothing (prims : Primitives DecapsKey SigningKey) : Prop where
  aeadEncrypt : ∀ encKey macKey nonce aad plaintext ciphertext outMac failure,
    let outcome :=
      aeadEncrypt prims encKey macKey nonce aad plaintext ciphertext outMac
    outcome.result = .error failure →
      KeptOrWiped ciphertext outcome.ciphertext ∧ outcome.outMac = outMac
  aeadDecrypt : ∀ encKey macKey nonce aad ciphertext mac plaintext failure,
    let outcome :=
      aeadDecrypt prims encKey macKey nonce aad ciphertext mac plaintext
    outcome.result = .error failure → KeptOrWiped plaintext outcome.plaintext
  aeadEncryptInPlace : ∀ encKey macKey nonce aad buffer outMac failure,
    let outcome :=
      aeadEncryptInPlace prims encKey macKey nonce aad buffer outMac
    outcome.result = .error failure →
      KeptOrWiped buffer outcome.ciphertext ∧ outcome.outMac = outMac
  aeadDecryptInPlace : ∀ encKey macKey nonce aad buffer mac failure,
    let outcome := aeadDecryptInPlace prims encKey macKey nonce aad buffer mac
    outcome.result = .error failure → KeptOrWiped buffer outcome.plaintext
  encryptPacket : ∀ (manager : SessionManager DecapsKey) aad plaintext
      ciphertext nonce tag failure,
    let outcome :=
      manager.encryptPacket prims aad plaintext ciphertext nonce tag
    outcome.result = .error failure →
      KeptOrWiped ciphertext outcome.ciphertext ∧ outcome.nonce = nonce ∧
        outcome.tag = tag ∧ outcome.manager.txCounter = manager.txCounter
  decryptPacket : ∀ (manager : SessionManager DecapsKey) aad ciphertext nonce
      tag plaintext failure,
    let outcome :=
      manager.decryptPacket prims aad ciphertext nonce tag plaintext
    outcome.result = .error failure → KeptOrWiped plaintext outcome.plaintext

theorem failures_release_nothing
    (hcipher : prims.CipherAccepts) (hhmac : prims.HmacTotal) :
    ReleasesNothing prims := by
  constructor
  · intro encKey macKey nonce aad plaintext ciphertext outMac failure _ hfailed
    exact aeadEncrypt_failed hcipher hhmac hfailed
  · intro encKey macKey nonce aad ciphertext mac plaintext failure _ hfailed
    exact aeadDecrypt_failed hcipher hhmac hfailed
  · intro encKey macKey nonce aad buffer outMac failure _ hfailed
    exact aeadEncryptInPlace_failed hcipher hhmac hfailed
  · intro encKey macKey nonce aad buffer mac failure _ hfailed
    exact aeadDecryptInPlace_failed hcipher hhmac hfailed
  · intro manager aad plaintext ciphertext nonce tag failure _ hfailed
    obtain ⟨hciphertext, hnonce, htag, hmanager⟩ :=
      SessionManager.encryptPacket_failed hcipher hhmac hfailed
    exact ⟨hciphertext, hnonce, htag, congrArg _ hmanager⟩
  · intro manager aad ciphertext nonce tag plaintext failure _ hfailed
    exact SessionManager.decryptPacket_failed hcipher hhmac hfailed

namespace Reference

/-- A stream cipher which garbles its buffer and then reports a failure. -/
def failingCipher : Primitives UInt8 UInt8 :=
  { primitives with
    chacha20TryApplyKeystream := fun _ _ data =>
      (false, data.map (· ^^^ 0x55)) }

theorem failing_cipher_releases_nothing :
    ReleasesNothing failingCipher ∧
      aeadEncryptInPlace failingCipher (.fill 32 7) (.fill 32 8) (.fill 12 0)
          ⟨[], by decide⟩ [2, 3] (.fill 48 1) =
        ⟨.error .invalidLength, [0, 0], .fill 48 1⟩ :=
  ⟨failures_release_nothing (fun _ _ => rfl) (fun _ => rfl), rfl⟩

end Reference

end ShawnCore
