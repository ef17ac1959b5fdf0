import ShawnCore.Primitives

/-!
# What the primitives are documented to do

The contracts of the third-party crates which results may assume, and one
small instance of the primitives which meets all of them.  The instance is no
cryptography; it shows that the contracts can be met together and lets the
operations be evaluated.
-/

namespace ShawnCore

open ByteBlocks

variable {DecapsKey SigningKey : Type}

namespace Primitives

variable (prims : Primitives DecapsKey SigningKey)

/-- ML-KEM decapsulates what was encapsulated to its own key. -/
def KemCorrect : Prop :=
  ∀ dk entropy ct shared,
    prims.mlKemEncapsulateDeterministic (prims.mlKemEncapsulationKey dk)
        entropy = .ok (ct, shared) →
      prims.mlKemDecapsulate dk ct = .ok shared

/-- Both sides of a Diffie-Hellman exchange compute the same secret. -/
def DhCommutes : Prop :=
  ∀ left right,
    prims.x25519DiffieHellman left (prims.x25519PublicKey right) =
      prims.x25519DiffieHellman right (prims.x25519PublicKey left)

/-- A signature verifies under the key of its signer. -/
def SignatureCorrect : Prop :=
  ∀ sk msg context sig,
    mlDsaSignWithContext prims sk msg context = .ok sig →
      ShawnCore.mlDsaVerifyWithContext prims (prims.mlDsaVerifyingKey sk) msg
        context sig = .ok ()

/-- A zero public key does not contribute to the shared secret. -/
def ZeroNotContributory : Prop :=
  ∀ sk pk, pk.bytes.all (· == 0) = true →
    prims.x25519WasContributory (prims.x25519DiffieHellman sk pk) = false

/-- HMAC takes keys of any length. -/
def HmacTotal : Prop :=
  ∀ key, prims.hmacNewFromSlice key = true

/-- HKDF expands to any length up to 255 blocks. -/
def HkdfTotal : Prop :=
  ∀ info len, len ≤ 255 * 48 → prims.hkdfExpandAccepts info len = true

/-- No ML-KEM call fails. -/
structure KemTotal : Prop where
  fromSeed : ∀ seed, ∃ dk, prims.mlKemFromSeed seed = .ok dk
  encapsulate : ∀ ek entropy, ∃ result,
    prims.mlKemEncapsulateDeterministic ek entropy = .ok result
  decapsulate : ∀ dk ct, ∃ shared, prims.mlKemDecapsulate dk ct = .ok shared

/-- Signing accepts every context of at most 255 bytes. -/
def SigningTotal : Prop :=
  ∀ sk msg context, context.length ≤ 255 →
    ∃ sig, mlDsaSignWithContext prims sk msg context = .ok sig

/-- HMAC uses its key only through the padded key block of RFC 2104. -/
def HmacPadsKey (core : Bytes → Bytes → Block 48) : Prop :=
  ∀ key msg,
    prims.hmacSha384 key msg =
      core (KeyedHash.keyBlock prims.sha384 128 key) msg

/-- The stream cipher adds a keystream fixed by the key and the nonce. -/
def KeystreamFixed (keystream : Block 32 → Block 12 → ℕ → UInt8) : Prop :=
  ∀ key nonce data out,
    prims.chacha20TryApplyKeystream key nonce data = (true, out) →
      out = data.mapIdx fun index byte => byte ^^^ keystream key nonce index

/-- No call of the ChaCha20 constructor fails. -/
def CipherAccepts : Prop :=
  ∀ key nonce, prims.chacha20NewFromSlices key nonce = true

variable {prims}

/-- The keystream is its own inverse. -/
theorem KeystreamFixed.twice
    {keystream : Block 32 → Block 12 → ℕ → UInt8}
    (hkeystream : prims.KeystreamFixed keystream)
    {key : Block 32} {nonce : Block 12} {plaintext sealed opened : Bytes}
    (hseal : prims.chacha20TryApplyKeystream key nonce plaintext =
      (true, sealed))
    (hopen : prims.chacha20TryApplyKeystream key nonce sealed =
      (true, opened)) :
    opened = plaintext := by
  rw [hkeystream key nonce sealed opened hopen,
    hkeystream key nonce plaintext sealed hseal, List.mapIdx_mapIdx]
  apply List.ext_getElem
  · simp
  · intro index _ _
    simp only [List.getElem_mapIdx, Function.comp_apply]
    rw [UInt8.xor_assoc, UInt8.xor_self, UInt8.xor_zero]

theorem KeystreamFixed.length_eq
    {keystream : Block 32 → Block 12 → ℕ → UInt8}
    (hkeystream : prims.KeystreamFixed keystream)
    {key : Block 32} {nonce : Block 12} {data out : Bytes}
    (happly : prims.chacha20TryApplyKeystream key nonce data = (true, out)) :
    out.length = data.length := by
  rw [hkeystream key nonce data out happly, List.length_mapIdx]

end Primitives

namespace Reference

def digest (data : Bytes) : Block 48 := .clip 48 data

def firstByte {n : ℕ} (block : Block n) : UInt8 := block.bytes.headD 0

def keyedDigest (keyBlock msg : Bytes) : Block 48 :=
  (Block.clip 24 keyBlock).append (Block.clip 24 msg)

def signature (pk : PublicKey87) (msg context : Bytes) : Signature87 :=
  (digest (context ++ (firstByte pk :: msg))).append (Block.fill 4579 0)

def primitives : Primitives UInt8 UInt8 where
  sha384 := digest
  hmacSha384 key msg := keyedDigest (KeyedHash.keyBlock digest 128 key) msg
  hmacNewFromSlice _ := true
  hkdfExpandAccepts _ len := decide (len ≤ 255 * 48)
  chacha20NewFromSlices _ _ := true
  chacha20TryApplyKeystream key _ data :=
    (true, data.mapIdx fun _ byte => byte ^^^ firstByte key)
  mlKemFromSeed seed := .ok (firstByte seed)
  mlKemEncapsulationKey dk := Block.fill 1568 dk
  mlKemEncapsulateDeterministic ek entropy :=
    .ok (Block.fill 1568 (firstByte entropy),
      Block.fill 32 (firstByte ek ^^^ firstByte entropy))
  mlKemDecapsulate dk ct := .ok (Block.fill 32 (dk ^^^ firstByte ct))
  x25519PublicKey sk := Block.fill 32 (firstByte sk)
  x25519DiffieHellman sk pk := Block.fill 32 (firstByte sk * firstByte pk)
  x25519WasContributory shared := decide (firstByte shared ≠ 0)
  mlDsaVerifyingKey sk := Block.fill 2592 sk
  mlDsaSignDeterministic sk msg context :=
    some (signature (Block.fill 2592 sk) msg context).bytes
  mlDsaSignatureTryFrom _ := true
  mlDsaVerifyWithContext pk msg context sig :=
    decide (sig = signature pk msg context)

@[simp] theorem firstByte_fill (n : ℕ) (byte : UInt8) :
    firstByte (Block.fill (n + 1) byte) = byte := rfl

theorem primitives_kemCorrect : primitives.KemCorrect := by
  intro dk entropy ct shared hencaps
  have hpair := Except.ok.inj hencaps
  have hct : Block.fill 1568 (firstByte entropy) = ct := congrArg Prod.fst hpair
  have hshared :
      Block.fill 32 (dk ^^^ firstByte entropy) = shared :=
    congrArg Prod.snd hpair
  rw [← hct, ← hshared]
  rfl

theorem primitives_dhCommutes : primitives.DhCommutes := by
  intro left right
  change Block.fill 32 (firstByte left * firstByte right) =
    Block.fill 32 (firstByte right * firstByte left)
  rw [UInt8.mul_comm]

theorem primitives_signatureCorrect : primitives.SignatureCorrect := by
  intro sk msg context sig hsign
  have hsigned := mlDsaSignWithContext_of_some primitives
    (show primitives.mlDsaSignDeterministic sk msg context =
      some (signature (Block.fill 2592 sk) msg context).bytes from rfl)
  have hsig : signature (Block.fill 2592 sk) msg context = sig :=
    Except.ok.inj (hsigned.symm.trans hsign)
  have hverify : primitives.mlDsaVerifyWithContext
      (primitives.mlDsaVerifyingKey sk) msg context sig = true :=
    decide_eq_true hsig.symm
  unfold ShawnCore.mlDsaVerifyWithContext
  rw [hverify]
  rfl

theorem primitives_zeroNotContributory : primitives.ZeroNotContributory := by
  intro sk pk hzero
  have hfirst : firstByte pk = 0 := by
    unfold firstByte
    cases hbytes : pk.bytes with
    | nil => rfl
    | cons byte rest =>
        rw [hbytes] at hzero
        simpa using (List.all_eq_true.mp hzero) byte List.mem_cons_self
  change decide (firstByte (Block.fill 32 (firstByte sk * firstByte pk)) ≠ 0) =
    false
  rw [hfirst, firstByte_fill, UInt8.mul_zero]
  rfl

theorem primitives_hmacTotal : primitives.HmacTotal := fun _ => rfl

theorem primitives_hkdfTotal : primitives.HkdfTotal := by
  intro info len hlen
  exact decide_eq_true hlen

theorem primitives_kemTotal : primitives.KemTotal :=
  ⟨fun _ => ⟨_, rfl⟩, fun _ _ => ⟨_, rfl⟩, fun _ _ => ⟨_, rfl⟩⟩

theorem primitives_signingTotal : primitives.SigningTotal := by
  intro sk msg context _
  exact ⟨_, mlDsaSignWithContext_of_some primitives
    (show primitives.mlDsaSignDeterministic sk msg context =
      some (signature (Block.fill 2592 sk) msg context).bytes from rfl)⟩

theorem primitives_hmacPadsKey : primitives.HmacPadsKey keyedDigest := by
  intro key msg
  rfl

theorem primitives_keystreamFixed :
    primitives.KeystreamFixed fun key _ _ => firstByte key := by
  intro key nonce data out happly
  exact (congrArg Prod.snd happly).symm

end Reference

end ShawnCore
