import ShawnCore.KeyedHash
import ShawnCore.Execution

/-!
# Third-party primitives and their wrappers

The crates behind `ml_kem_wrapper`, `x25519_wrapper`, `ml_dsa_wrapper`, `hmac`,
`hkdf`, `chacha20` and `sha2` are not part of the repository, so they form a
record of functions.  Whatever can report an error in the source can report
one here; constructors which the crates declare infallible are also allowed to
fail, so that no result rests on their never failing.

Public keys are represented by their wire encodings (`to_bytes`), which is the
only form in which the protocol uses them.  Secret keys stay abstract types.
-/

namespace ShawnCore

open ByteBlocks

/-- `error.rs`. -/
inductive CryptoError
  | invalidState
  | invalidLength
  | hkdfError
  | verificationFailed
  | entropyStarvation
  | entropyBusy
  | keyConfirmationFailed
deriving DecidableEq

abbrev PublicKey1024 := Block 1568
abbrev Ciphertext1024 := Block 1568
abbrev SharedKey1024 := Block 32
abbrev X25519Public := Block 32
abbrev X25519Secret := Block 32
abbrev X25519SharedSecret := Block 32
abbrev PublicKey87 := Block 2592
abbrev Signature87 := Block 4627

instance sha384Length_neZero : NeZero 48 := ⟨by decide⟩

/-- A `&[u8]` argument; the length of a slice is a `usize`. -/
structure Slice where
  bytes : Bytes
  length_lt : bytes.length < 2 ^ 64

structure Primitives (DecapsKey SigningKey : Type) where
  sha384 : Bytes → Block 48
  /-- `Hmac::<Sha384>` on a key and a message. -/
  hmacSha384 : Bytes → Bytes → Block 48
  /-- Whether `Hmac::new_from_slice` accepts a key. -/
  hmacNewFromSlice : Bytes → Bool
  /-- Whether `Hkdf::expand` accepts an info string and an output length. -/
  hkdfExpandAccepts : Bytes → ℕ → Bool
  /-- Whether `ChaCha20::new_from_slices` accepts a key and a nonce. -/
  chacha20NewFromSlices : Block 32 → Block 12 → Bool
  /-- `try_apply_keystream`: whether it succeeded, and the buffer after it. -/
  chacha20TryApplyKeystream : Block 32 → Block 12 → Bytes → Bool × Bytes
  mlKemFromSeed : Block 64 → Except CryptoError DecapsKey
  mlKemEncapsulationKey : DecapsKey → PublicKey1024
  mlKemEncapsulateDeterministic :
    PublicKey1024 → Block 32 → Except CryptoError (Ciphertext1024 × Block 32)
  mlKemDecapsulate :
    DecapsKey → Ciphertext1024 → Except CryptoError (Block 32)
  x25519PublicKey : Block 32 → Block 32
  x25519DiffieHellman : Block 32 → Block 32 → Block 32
  x25519WasContributory : Block 32 → Bool
  mlDsaVerifyingKey : SigningKey → PublicKey87
  /-- The signature bytes, or `none` when the context is refused. -/
  mlDsaSignDeterministic : SigningKey → Bytes → Bytes → Option Bytes
  /-- Whether a byte string decodes as a signature. -/
  mlDsaSignatureTryFrom : Signature87 → Bool
  mlDsaVerifyWithContext : PublicKey87 → Bytes → Bytes → Signature87 → Bool

variable {DecapsKey SigningKey : Type}
variable (prims : Primitives DecapsKey SigningKey)

/-! ## `ml_kem_wrapper.rs` -/

def mlKemKeygen (entropy : Block 64) :
    Except CryptoError (PublicKey1024 × DecapsKey) := do
  let dk ← prims.mlKemFromSeed entropy
  return (prims.mlKemEncapsulationKey dk, dk)

def mlKemEncapsulate (ek : PublicKey1024) (entropy : Block 32) :
    Except CryptoError (SharedKey1024 × Ciphertext1024) := do
  let (ct, ss) ← prims.mlKemEncapsulateDeterministic ek entropy
  return (ss, ct)

def mlKemDecapsulate (dk : DecapsKey) (ct : Ciphertext1024) :
    Except CryptoError SharedKey1024 :=
  prims.mlKemDecapsulate dk ct

/-! ## `x25519_wrapper.rs` -/

def x25519Keygen (rngBytes : Block 32) : X25519Public × X25519Secret :=
  (prims.x25519PublicKey rngBytes, rngBytes)

def x25519DiffieHellman (secret : X25519Secret) (theirPublic : X25519Public) :
    Except CryptoError X25519SharedSecret :=
  if theirPublic.bytes.all (· == 0) then
    .error .invalidState
  else if !prims.x25519WasContributory
      (prims.x25519DiffieHellman secret theirPublic) then
    .error .invalidState
  else
    .ok (prims.x25519DiffieHellman secret theirPublic)

/-! ## `ml_dsa_wrapper.rs` -/

def mlDsaSignWithContext (sk : SigningKey) (msg context : Bytes) :
    Except CryptoError Signature87 :=
  match prims.mlDsaSignDeterministic sk msg context with
  | none => .error .invalidLength
  | some sig =>
      if h : sig.length = 4627 then .ok ⟨sig, h⟩ else .error .invalidLength

def mlDsaVerifyWithContext
    (pk : PublicKey87) (msg context : Bytes) (sig : Signature87) :
    Except CryptoError Unit :=
  if !prims.mlDsaSignatureTryFrom sig then
    .error .verificationFailed
  else if prims.mlDsaVerifyWithContext pk msg context sig then
    .ok ()
  else
    .error .verificationFailed

/-! ## `aead_wrapper.rs`: tags and HMAC -/

/-- `verify_tag_constant_time`; the timing is outside the model. -/
def verifyTagConstantTime (a b : Block 48) : Bool :=
  decide (a = b)

def hmacSha384 (key data : Bytes) : Except CryptoError (Block 48) :=
  if prims.hmacNewFromSlice key then
    .ok (prims.hmacSha384 key data)
  else
    .error .invalidState

@[simp] theorem verifyTagConstantTime_eq_true {a b : Block 48} :
    verifyTagConstantTime a b = true ↔ a = b := by
  simp [verifyTagConstantTime]

@[simp] theorem verifyTagConstantTime_eq_false {a b : Block 48} :
    verifyTagConstantTime a b = false ↔ a ≠ b := by
  simp [verifyTagConstantTime]

theorem hmacSha384_eq_ok
    {key data : Bytes} {tag : Block 48}
    (htag : hmacSha384 prims key data = .ok tag) :
    prims.hmacNewFromSlice key = true ∧ prims.hmacSha384 key data = tag := by
  unfold hmacSha384 at htag
  split at htag
  next haccepts => exact ⟨haccepts, Except.ok.inj htag⟩
  next => cases htag

theorem mlDsaSignWithContext_of_some
    {sk : SigningKey} {msg context : Bytes} {sig : Signature87}
    (hsign : prims.mlDsaSignDeterministic sk msg context = some sig.bytes) :
    mlDsaSignWithContext prims sk msg context = .ok sig := by
  unfold mlDsaSignWithContext
  rw [hsign]
  exact dif_pos sig.length_eq

theorem mlDsaSignWithContext_eq_error
    {sk : SigningKey} {msg context : Bytes} {failure : CryptoError}
    (hsign : mlDsaSignWithContext prims sk msg context = .error failure) :
    failure = .invalidLength := by
  unfold mlDsaSignWithContext at hsign
  split at hsign
  next => exact (Except.error.inj hsign).symm
  next =>
    split at hsign
    next => cases hsign
    next => exact (Except.error.inj hsign).symm

theorem x25519DiffieHellman_eq_ok
    {secret : X25519Secret} {theirPublic : X25519Public}
    {shared : X25519SharedSecret} :
    x25519DiffieHellman prims secret theirPublic = .ok shared ↔
      theirPublic.bytes.all (· == 0) = false ∧
        prims.x25519WasContributory
          (prims.x25519DiffieHellman secret theirPublic) = true ∧
        prims.x25519DiffieHellman secret theirPublic = shared := by
  unfold x25519DiffieHellman
  cases theirPublic.bytes.all (· == 0) with
  | true => simp
  | false =>
      cases prims.x25519WasContributory
          (prims.x25519DiffieHellman secret theirPublic) with
      | true => simp
      | false => simp

end ShawnCore
