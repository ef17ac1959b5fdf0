import ShawnCore.Primitives

/-!
# The packet AEAD

`aead_encrypt` and `aead_decrypt` of `aead_wrapper.rs`, and their variants in
place: ChaCha20 followed by HMAC-SHA384 over a length-prefixed encoding.  The
output buffers of the source are `&mut` arguments, so each function takes their
content before the call and returns their content after it, on success and on
every error path.
-/

namespace ShawnCore

open ByteBlocks

variable {DecapsKey SigningKey : Type}
variable (prims : Primitives DecapsKey SigningKey)

def chacha20MaxBytes : ℕ := (2 ^ 32 - 1) * 64

/-- What the MAC is computed over: both lengths, the nonce, the associated
data and the ciphertext. -/
def macInput (aad : Slice) (ciphertext : Bytes) (nonce : Block 12) : Bytes :=
  beBytes 8 aad.bytes.length ++ (beBytes 8 ciphertext.length ++
    (nonce.bytes ++ (aad.bytes ++ ciphertext)))

structure AeadEncryptOutcome where
  result : Except CryptoError Unit
  ciphertext : Bytes
  outMac : Block 48

structure AeadDecryptOutcome where
  result : Except CryptoError Unit
  plaintext : Bytes

def aeadEncrypt
    (encKey macKey : Block 32) (nonce : Block 12) (aad : Slice)
    (plaintext ciphertext : Bytes) (outMac : Block 48) : AeadEncryptOutcome :=
  if plaintext.length ≠ ciphertext.length ∨
      chacha20MaxBytes < plaintext.length then
    ⟨.error .invalidLength, ciphertext, outMac⟩
  else if !prims.chacha20NewFromSlices encKey nonce then
    ⟨.error .invalidState, plaintext, outMac⟩
  else
    match prims.chacha20TryApplyKeystream encKey nonce plaintext with
    | (false, _) =>
        ⟨.error .invalidLength, List.replicate plaintext.length 0, outMac⟩
    | (true, sealed) =>
        if !prims.hmacNewFromSlice macKey.bytes then
          ⟨.error .invalidState, sealed, outMac⟩
        else
          ⟨.ok (), sealed,
            prims.hmacSha384 macKey.bytes (macInput aad sealed nonce)⟩

def aeadDecrypt
    (encKey macKey : Block 32) (nonce : Block 12) (aad : Slice)
    (ciphertext : Bytes) (mac : Block 48) (plaintext : Bytes) :
    AeadDecryptOutcome :=
  if plaintext.length ≠ ciphertext.length ∨
      chacha20MaxBytes < ciphertext.length then
    ⟨.error .invalidLength, plaintext⟩
  else if !prims.hmacNewFromSlice macKey.bytes then
    ⟨.error .invalidState, plaintext⟩
  else if !verifyTagConstantTime mac
      (prims.hmacSha384 macKey.bytes (macInput aad ciphertext nonce)) then
    ⟨.error .verificationFailed, List.replicate plaintext.length 0⟩
  else if !prims.chacha20NewFromSlices encKey nonce then
    ⟨.error .invalidState, ciphertext⟩
  else
    match prims.chacha20TryApplyKeystream encKey nonce ciphertext with
    | (false, _) =>
        ⟨.error .invalidLength, List.replicate plaintext.length 0⟩
    | (true, opened) => ⟨.ok (), opened⟩

/-- `aead_encrypt_in_place`; the buffer is the ciphertext of the outcome. -/
def aeadEncryptInPlace
    (encKey macKey : Block 32) (nonce : Block 12) (aad : Slice)
    (buffer : Bytes) (outMac : Block 48) : AeadEncryptOutcome :=
  if chacha20MaxBytes < buffer.length then
    ⟨.error .invalidLength, buffer, outMac⟩
  else if !prims.chacha20NewFromSlices encKey nonce then
    ⟨.error .invalidState, buffer, outMac⟩
  else
    match prims.chacha20TryApplyKeystream encKey nonce buffer with
    | (false, _) =>
        ⟨.error .invalidLength, List.replicate buffer.length 0, outMac⟩
    | (true, sealed) =>
        if !prims.hmacNewFromSlice macKey.bytes then
          ⟨.error .invalidState, sealed, outMac⟩
        else
          ⟨.ok (), sealed,
            prims.hmacSha384 macKey.bytes (macInput aad sealed nonce)⟩

/-- `aead_decrypt_in_place`; the buffer is the plaintext of the outcome. -/
def aeadDecryptInPlace
    (encKey macKey : Block 32) (nonce : Block 12) (aad : Slice)
    (buffer : Bytes) (mac : Block 48) : AeadDecryptOutcome :=
  if chacha20MaxBytes < buffer.length then
    ⟨.error .invalidLength, buffer⟩
  else if !prims.hmacNewFromSlice macKey.bytes then
    ⟨.error .invalidState, buffer⟩
  else if !verifyTagConstantTime mac
      (prims.hmacSha384 macKey.bytes (macInput aad buffer nonce)) then
    ⟨.error .verificationFailed, List.replicate buffer.length 0⟩
  else if !prims.chacha20NewFromSlices encKey nonce then
    ⟨.error .invalidState, buffer⟩
  else
    match prims.chacha20TryApplyKeystream encKey nonce buffer with
    | (false, _) =>
        ⟨.error .invalidLength, List.replicate buffer.length 0⟩
    | (true, opened) => ⟨.ok (), opened⟩

theorem macInput_inj
    {aad aad' : Slice} {ciphertext ciphertext' : Bytes}
    {nonce nonce' : Block 12}
    (heq : macInput aad ciphertext nonce = macInput aad' ciphertext' nonce') :
    aad.bytes = aad'.bytes ∧ ciphertext = ciphertext' ∧ nonce = nonce' := by
  have hwidth : (2 : ℕ) ^ 64 = 256 ^ 8 := by norm_num
  have haad := aad.length_lt
  have haad' := aad'.length_lt
  rw [hwidth] at haad haad'
  unfold macInput at heq
  rcases List.append_inj heq (by simp) with ⟨haadLength, hrest⟩
  rcases List.append_inj hrest (by simp) with ⟨_, hpayload⟩
  rcases Block.bytes_append_inj.mp hpayload with ⟨hnonce, hbody⟩
  rcases List.append_inj hbody (beBytes_inj haad haad' haadLength) with
    ⟨haadBytes, hciphertext⟩
  exact ⟨haadBytes, hciphertext, hnonce⟩

theorem aeadEncrypt_ok
    {encKey macKey : Block 32} {nonce : Block 12} {aad : Slice}
    {plaintext ciphertext : Bytes} {outMac : Block 48}
    (hok : (aeadEncrypt prims encKey macKey nonce aad plaintext ciphertext
      outMac).result = .ok ()) :
    ∃ sealed,
      prims.chacha20TryApplyKeystream encKey nonce plaintext =
        (true, sealed) ∧
      plaintext.length ≤ chacha20MaxBytes ∧
      plaintext.length = ciphertext.length ∧
      aeadEncrypt prims encKey macKey nonce aad plaintext ciphertext outMac =
        ⟨.ok (), sealed,
          prims.hmacSha384 macKey.bytes (macInput aad sealed nonce)⟩ := by
  unfold aeadEncrypt at hok ⊢
  split at hok
  next => cases hok
  next hlengths =>
    split at hok
    next => cases hok
    next hcipher =>
      obtain ⟨hsame, hmax⟩ := not_or.mp hlengths
      cases happly :
          prims.chacha20TryApplyKeystream encKey nonce plaintext with
      | mk success sealed =>
          cases success with
          | false => simp [happly] at hok
          | true =>
              simp only [happly] at hok
              split at hok
              next => cases hok
              next hmac =>
                refine ⟨sealed, rfl, Nat.le_of_not_lt hmax,
                  not_not.mp hsame, ?_⟩
                simp only [if_neg hlengths, if_neg hcipher, if_neg hmac]

theorem aeadDecrypt_ok
    {encKey macKey : Block 32} {nonce : Block 12} {aad : Slice}
    {ciphertext plaintext : Bytes} {mac : Block 48}
    (hok : (aeadDecrypt prims encKey macKey nonce aad ciphertext mac
      plaintext).result = .ok ()) :
    ∃ opened,
      prims.chacha20TryApplyKeystream encKey nonce ciphertext =
        (true, opened) ∧
      ciphertext.length ≤ chacha20MaxBytes ∧
      prims.hmacSha384 macKey.bytes (macInput aad ciphertext nonce) = mac ∧
      aeadDecrypt prims encKey macKey nonce aad ciphertext mac plaintext =
        ⟨.ok (), opened⟩ := by
  unfold aeadDecrypt at hok ⊢
  split at hok
  next => cases hok
  next hlengths =>
    split at hok
    next => cases hok
    next hmac =>
      split at hok
      next => cases hok
      next htag =>
        split at hok
        next => cases hok
        next hcipher =>
          have hmax := (not_or.mp hlengths).2
          have hexpected : prims.hmacSha384 macKey.bytes
              (macInput aad ciphertext nonce) = mac := by
            simpa using Eq.symm (by simpa using htag)
          cases happly :
              prims.chacha20TryApplyKeystream encKey nonce ciphertext with
          | mk success opened =>
              cases success with
              | false => simp [happly] at hok
              | true =>
                  refine ⟨opened, rfl, Nat.le_of_not_lt hmax, hexpected, ?_⟩
                  simp only [if_neg hlengths, if_neg hmac, if_neg htag,
                    if_neg hcipher]

/-- A packet whose tag verifies is opened as soon as its lengths fit and the
constructors and the stream cipher do not fail. -/
theorem aeadDecrypt_eq_ok_of_tag
    {encKey macKey : Block 32} {nonce : Block 12} {aad : Slice}
    {ciphertext plaintext opened : Bytes} {mac : Block 48}
    (hlengths : plaintext.length = ciphertext.length)
    (hmax : ciphertext.length ≤ chacha20MaxBytes)
    (hmac : prims.hmacNewFromSlice macKey.bytes = true)
    (htag : prims.hmacSha384 macKey.bytes (macInput aad ciphertext nonce) =
      mac)
    (hcipher : prims.chacha20NewFromSlices encKey nonce = true)
    (happly : prims.chacha20TryApplyKeystream encKey nonce ciphertext =
      (true, opened)) :
    aeadDecrypt prims encKey macKey nonce aad ciphertext mac plaintext =
      ⟨.ok (), opened⟩ := by
  have hnot : ¬ (plaintext.length ≠ ciphertext.length ∨
      chacha20MaxBytes < ciphertext.length) := by
    rintro (hne | hlt)
    · exact hne hlengths
    · exact absurd hmax (Nat.not_le.mpr hlt)
  unfold aeadDecrypt
  simp [if_neg hnot, hmac, htag, hcipher, happly]

end ShawnCore
