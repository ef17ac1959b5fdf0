import ShawnCore.Aead
import ShawnCore.ReferencePrimitives

/-!
# The AEAD accepts exactly what was sealed

The tag covers the nonce, the associated data and the ciphertext in an encoding
which determines all three, so it verifies for the packet it was made for and,
as far as HMAC does not collide, for no other.  The variants in place agree
with the variants which write to a second buffer.
-/

namespace ShawnCore

open ByteBlocks

variable {DecapsKey SigningKey : Type}
variable (prims : Primitives DecapsKey SigningKey)

/-- The stream cipher succeeds up to its largest length. -/
def Primitives.KeystreamTotal : Prop :=
  ∀ key nonce data, data.length ≤ chacha20MaxBytes →
    ∃ out, prims.chacha20TryApplyKeystream key nonce data = (true, out)

/-- What the AEAD needs of its primitives. -/
structure Primitives.AeadSound
    (keystream : Block 32 → Block 12 → ℕ → UInt8) : Prop where
  hmacTotal : prims.HmacTotal
  cipherAccepts : prims.CipherAccepts
  keystreamFixed : prims.KeystreamFixed keystream
  keystreamTotal : prims.KeystreamTotal

variable {prims}
variable {keystream : Block 32 → Block 12 → ℕ → UInt8}

/-! ## Opening a sealed packet -/

section Opening

variable {encKey macKey : Block 32} {nonce : Block 12} {aad : Slice}

theorem aeadDecrypt_accepts_iff
    (hsound : prims.AeadSound keystream) {ciphertext plaintext : Bytes}
    {mac : Block 48} (hbuffer : plaintext.length = ciphertext.length) :
    (aeadDecrypt prims encKey macKey nonce aad ciphertext mac
        plaintext).result = .ok () ↔
      ciphertext.length ≤ chacha20MaxBytes ∧
        prims.hmacSha384 macKey.bytes (macInput aad ciphertext nonce) =
          mac := by
  constructor
  · intro hok
    rcases aeadDecrypt_ok prims hok with ⟨opened, _, hlength, htag, _⟩
    exact ⟨hlength, htag⟩
  · rintro ⟨hlength, htag⟩
    obtain ⟨opened, happly⟩ :=
      hsound.keystreamTotal encKey nonce ciphertext hlength
    rw [aeadDecrypt_eq_ok_of_tag prims hbuffer hlength
      (hsound.hmacTotal macKey.bytes) htag (hsound.cipherAccepts encKey nonce)
      happly]

/-- Opening what was sealed under the same keys gives the plaintext back. -/
theorem aeadDecrypt_sealed
    (hsound : prims.AeadSound keystream) {plaintext ciphertext out : Bytes}
    {outMac : Block 48}
    (hok : (aeadEncrypt prims encKey macKey nonce aad plaintext ciphertext
      outMac).result = .ok ()) :
    let sealed :=
      aeadEncrypt prims encKey macKey nonce aad plaintext ciphertext outMac
    out.length = sealed.ciphertext.length →
      aeadDecrypt prims encKey macKey nonce aad sealed.ciphertext
        sealed.outMac out = ⟨.ok (), plaintext⟩ := by
  rcases aeadEncrypt_ok prims hok with
    ⟨sealed, hseal, hlength, _, hsealed⟩
  rw [hsealed]
  intro outcome hbuffer
  have hsame := hsound.keystreamFixed.length_eq hseal
  have hmax : sealed.length ≤ chacha20MaxBytes := hsame ▸ hlength
  obtain ⟨opened, hopen⟩ := hsound.keystreamTotal encKey nonce sealed hmax
  rw [← hsound.keystreamFixed.twice hseal hopen]
  exact aeadDecrypt_eq_ok_of_tag prims hbuffer hmax
    (hsound.hmacTotal macKey.bytes) rfl (hsound.cipherAccepts encKey nonce)
    hopen

/-- A sealed packet's tag is accepted with this packet and with no other. -/
theorem aeadDecrypt_accepts_sealed_iff
    (hsound : prims.AeadSound keystream) {plaintext ciphertext : Bytes}
    {outMac : Block 48}
    (hok : (aeadEncrypt prims encKey macKey nonce aad plaintext ciphertext
      outMac).result = .ok ())
    {encKey' : Block 32} {nonce' : Block 12} {aad' : Slice}
    {ciphertext' out : Bytes} (hbuffer : out.length = ciphertext'.length) :
    let sealed :=
      aeadEncrypt prims encKey macKey nonce aad plaintext ciphertext outMac
    Set.InjOn (prims.hmacSha384 macKey.bytes)
        {macInput aad sealed.ciphertext nonce,
          macInput aad' ciphertext' nonce'} →
      ((aeadDecrypt prims encKey' macKey nonce' aad' ciphertext'
          sealed.outMac out).result = .ok () ↔
        nonce' = nonce ∧ aad'.bytes = aad.bytes ∧
          ciphertext' = sealed.ciphertext) := by
  rcases aeadEncrypt_ok prims hok with
    ⟨sealed, hseal, hlength, _, hsealed⟩
  have hsame := hsound.keystreamFixed.length_eq hseal
  rw [hsealed]
  intro outcome hinjective
  rw [aeadDecrypt_accepts_iff hsound hbuffer]
  constructor
  · rintro ⟨_, htag⟩
    have hinput : macInput aad' ciphertext' nonce' =
        macInput aad sealed nonce :=
      hinjective (by simp) (by simp [outcome]) htag
    obtain ⟨haad, hciphertext, hnonce⟩ := macInput_inj hinput
    exact ⟨hnonce, haad, hciphertext⟩
  · rintro ⟨rfl, haad, rfl⟩
    refine ⟨hsame ▸ hlength, ?_⟩
    simp only [outcome, macInput, haad]

end Opening

/-! ## The variants in place -/

section InPlace

variable {encKey macKey : Block 32} {nonce : Block 12} {aad : Slice}

theorem aeadEncryptInPlace_eq
    {data out : Bytes} (outMac : Block 48)
    (hbuffer : out.length = data.length)
    (hmax : data.length ≤ chacha20MaxBytes) :
    aeadEncryptInPlace prims encKey macKey nonce aad data outMac =
      aeadEncrypt prims encKey macKey nonce aad data out outMac := by
  have hlengths : ¬ (data.length ≠ out.length ∨
      chacha20MaxBytes < data.length) := by
    rintro (hne | hlt)
    · exact hne hbuffer.symm
    · exact absurd hmax (Nat.not_le.mpr hlt)
  unfold aeadEncryptInPlace aeadEncrypt
  rw [if_neg (Nat.not_lt.mpr hmax), if_neg hlengths]

theorem aeadDecryptInPlace_eq
    (hmacTotal : prims.HmacTotal) {data out : Bytes} (mac : Block 48)
    (hbuffer : out.length = data.length)
    (hmax : data.length ≤ chacha20MaxBytes) :
    aeadDecryptInPlace prims encKey macKey nonce aad data mac =
      aeadDecrypt prims encKey macKey nonce aad data mac out := by
  have hlengths : ¬ (out.length ≠ data.length ∨
      chacha20MaxBytes < data.length) := by
    rintro (hne | hlt)
    · exact hne hbuffer
    · exact absurd hmax (Nat.not_le.mpr hlt)
  unfold aeadDecryptInPlace aeadDecrypt
  rw [if_neg (Nat.not_lt.mpr hmax), if_neg hlengths, hmacTotal macKey.bytes,
    hbuffer]
  rfl

end InPlace

/-! ## The four functions together -/

/-- A successfully sealed packet is accepted under its MAC key exactly as it
was sealed, and then opens to its plaintext; and the functions in place give
the result, the tag and the data of the functions with a second buffer. -/
theorem aead_accepts_what_was_sealed (hsound : prims.AeadSound keystream) :
    (∀ encKey macKey nonce aad plaintext ciphertext outMac,
      let sealed :=
        aeadEncrypt prims encKey macKey nonce aad plaintext ciphertext outMac
      sealed.result = .ok () →
        (∀ (encKey' : Block 32) nonce' (aad' : Slice) ciphertext' out,
          out.length = ciphertext'.length →
          Set.InjOn (prims.hmacSha384 macKey.bytes)
            {macInput aad sealed.ciphertext nonce,
              macInput aad' ciphertext' nonce'} →
          ((aeadDecrypt prims encKey' macKey nonce' aad' ciphertext'
              sealed.outMac out).result = .ok () ↔
            nonce' = nonce ∧ aad'.bytes = aad.bytes ∧
              ciphertext' = sealed.ciphertext)) ∧
        ∀ out, out.length = sealed.ciphertext.length →
          aeadDecrypt prims encKey macKey nonce aad sealed.ciphertext
            sealed.outMac out = ⟨.ok (), plaintext⟩) ∧
    (∀ encKey macKey nonce aad data out mac, out.length = data.length →
      data.length ≤ chacha20MaxBytes →
        aeadEncryptInPlace prims encKey macKey nonce aad data mac =
            aeadEncrypt prims encKey macKey nonce aad data out mac ∧
          aeadDecryptInPlace prims encKey macKey nonce aad data mac =
            aeadDecrypt prims encKey macKey nonce aad data mac out) ∧
    ∀ encKey macKey nonce aad data out mac,
      chacha20MaxBytes < data.length →
        (aeadEncrypt prims encKey macKey nonce aad data out mac).result =
            .error .invalidLength ∧
          (aeadDecrypt prims encKey macKey nonce aad data mac out).result =
            .error .invalidLength ∧
          (aeadEncryptInPlace prims encKey macKey nonce aad data mac).result =
            .error .invalidLength ∧
          (aeadDecryptInPlace prims encKey macKey nonce aad data mac).result =
            .error .invalidLength := by
  refine ⟨?_, ?_, ?_⟩
  · intro encKey macKey nonce aad plaintext ciphertext outMac sealed hok
    constructor
    · intro encKey' nonce' aad' ciphertext' out hbuffer hinjective
      exact aeadDecrypt_accepts_sealed_iff hsound hok hbuffer hinjective
    · intro out hbuffer
      exact aeadDecrypt_sealed hsound hok hbuffer
  · intro encKey macKey nonce aad data out mac hbuffer hmax
    exact ⟨aeadEncryptInPlace_eq mac hbuffer hmax,
      aeadDecryptInPlace_eq hsound.hmacTotal mac hbuffer hmax⟩
  · intro encKey macKey nonce aad data out mac hlong
    unfold aeadEncrypt aeadDecrypt aeadEncryptInPlace aeadDecryptInPlace
    rw [if_pos (Or.inr hlong), if_pos (Or.inr hlong), if_pos hlong,
      if_pos hlong]
    exact ⟨rfl, rfl, rfl, rfl⟩

namespace Reference

theorem primitives_aeadSound :
    primitives.AeadSound fun key _ _ => firstByte key where
  hmacTotal := primitives_hmacTotal
  cipherAccepts _ _ := rfl
  keystreamFixed := primitives_keystreamFixed
  keystreamTotal _ _ _ _ := ⟨_, rfl⟩

def packetAad : Slice := ⟨[1], by decide⟩

/-- The associated data with the first byte of the ciphertext moved to it. -/
def movedAad : Slice := ⟨[1, 5], by decide⟩

theorem aead_refuses_a_moved_byte :
    let sealed := aeadEncrypt primitives (.fill 32 7) (.fill 32 8)
      (.fill 12 0) packetAad [2, 3] [0, 0] (.fill 48 0)
    sealed.result = .ok () ∧ sealed.ciphertext = [5, 4] ∧
      aeadDecrypt primitives (.fill 32 7) (.fill 32 8) (.fill 12 0) packetAad
        sealed.ciphertext sealed.outMac [9, 9] = ⟨.ok (), [2, 3]⟩ ∧
      (aeadDecrypt primitives (.fill 32 7) (.fill 32 8) (.fill 12 0) movedAad
        [4] sealed.outMac [9]).result ≠ .ok () := by
  intro sealed
  have hok : sealed.result = .ok () := rfl
  have hexact := (aead_accepts_what_was_sealed primitives_aeadSound).1
    (.fill 32 7) (.fill 32 8) (.fill 12 0) packetAad [2, 3] [0, 0]
    (.fill 48 0) hok
  refine ⟨hok, rfl, hexact.2 [9, 9] rfl, ?_⟩
  rw [Ne, hexact.1 (.fill 32 7) (.fill 12 0) movedAad [4] [9] rfl]
  · rintro ⟨_, haad, _⟩
    cases haad
  · have hdiffer :
        primitives.hmacSha384 (Block.fill 32 8).bytes
            (macInput packetAad [5, 4] (.fill 12 0)) ≠
          primitives.hmacSha384 (Block.fill 32 8).bytes
            (macInput movedAad [4] (.fill 12 0)) := by
      decide +kernel
    rw [Set.injOn_pair]
    intro heq
    exact absurd heq hdiffer

end Reference

end ShawnCore
