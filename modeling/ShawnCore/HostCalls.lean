import ShawnCore.CryptoInterface

/-!
# Calls of the host

The exported functions which work on arguments of the host as one type of calls:
those of the session manager, of ML-KEM, ML-DSA and X25519 with the destructors
of their keys, the wire encodings, HMAC, HKDF and the AEAD.  Not among them are
`entropy_push` and `entropy_mix`, which work on the pool of the library,
`self_test`, the registration of callbacks and the queries of sizes.

The header says of each argument whether it is a pointer to an object, to a
buffer of fixed length or to a slice, and how the function uses it.
-/

namespace ShawnCore
namespace Ffi

open ByteBlocks
open ByteMemory
open AddressRange (Wraps)

/-- How a function uses the memory behind an argument. -/
inductive Access
  | input
  /-- An output which is written on success only. -/
  | output
  /-- An output which is written, or wiped, also when the call fails. -/
  | outputAlways
  /-- Storage which the function reads and modifies. -/
  | inPlace
deriving DecidableEq, Repr

def Access.isWritten : Access → Bool
  | .input => false
  | .output => true
  | .outputAlways => true
  | .inPlace => true

inductive ArgumentKind
  /-- A pointer to an object. -/
  | object (alignment : UInt64)
  /-- A pointer to a buffer of fixed length. -/
  | buffer
  /-- A pointer to a buffer whose length has to be the given one. -/
  | exact (expected : UInt64)
  /-- A pointer and a length, which is limited. -/
  | slice (limit : UInt64)
deriving DecidableEq, Repr

structure Argument where
  kind : ArgumentKind
  address : UInt64
  length : UInt64
  access : Access
deriving DecidableEq, Repr

namespace Argument

def object {α : Type} (format : Format α) (address : UInt64)
    (access : Access) : Argument :=
  ⟨.object format.alignment, address, format.size, access⟩

def buffer (address length : UInt64) (access : Access) : Argument :=
  ⟨.buffer, address, length, access⟩

def exact (expected address length : UInt64) (access : Access) : Argument :=
  ⟨.exact expected, address, length, access⟩

def slice (address length limit : UInt64) (access : Access) : Argument :=
  ⟨.slice limit, address, length, access⟩

def region (argument : Argument) : Region :=
  ⟨argument.address, argument.length, argument.access.isWritten⟩

/-- What the header asks of an argument, apart from the other arguments. -/
def Valid (argument : Argument) : Prop :=
  match argument.kind with
  | .object alignment =>
      argument.address ≠ 0 ∧ argument.address % alignment = 0
  | .buffer => argument.address ≠ 0
  | .exact expected => argument.address ≠ 0 ∧ argument.length = expected
  | .slice limit =>
      argument.length ≤ limit ∧
        (argument.length = 0 ∨
          argument.address ≠ 0 ∧ ¬ Wraps argument.address argument.length)

end Argument

/-- The limit of packet data: what one key and nonce can process. -/
def maxPacketLen : UInt64 := 274877906880

/-- The types with a wire encoding. -/
inductive WireType
  | mlKemPublickey
  | mlKemCiphertext
  | x25519Publickey
  | mlDsaPublickey
  | mlDsaSignature
deriving DecidableEq, Repr

/-- A call of one of the functions above. -/
inductive HostCall
  | sessionManagerInit (manager : UInt64)
  | sessionManagerDestroy (manager : UInt64)
  | sessionManagerInitiateHandshake
      (manager entropy outMlKemPk outX25519Pk : UInt64)
  | sessionManagerFinalizeHandshake
      (manager peerX25519Pk mlKemCt salt saltLen info infoLen : UInt64)
  | sessionManagerEncapsulateForPeer
      (manager peerMlKemPk peerX25519Pk entropy salt saltLen info infoLen
        outCt outMyX25519Pk : UInt64)
  | sessionManagerEncapsulateAuthenticatedV2
      (manager ownSigningKey peerVerifyingKey peerMlKemPk peerX25519Pk entropy
        salt saltLen appInfo appInfoLen outCt outMyX25519Pk outSignature
        outConfirmation : UInt64)
  | sessionManagerFinalizeAuthenticatedV2
      (manager ownSigningKey peerVerifyingKey peerX25519Pk mlKemCt
        peerSignature peerConfirmation salt saltLen appInfo appInfoLen
        outSignature outConfirmation : UInt64)
  | sessionManagerConfirmPeerV2
      (manager peerVerifyingKey peerSignature peerConfirmation : UInt64)
  | sessionManagerZeroize (manager : UInt64)
  | sessionManagerEncryptPacket
      (manager aad aadLen plaintext ciphertext dataLen outNonce outTag :
        UInt64)
  | sessionManagerDecryptPacket
      (manager aad aadLen ciphertext dataLen nonce tag plaintext : UInt64)
  | mlKemKeygen (entropy outPk outDk : UInt64)
  | mlKemDecapskeyDestroy (dk : UInt64)
  | mlKemEncapsulate (pk entropy outShared outCt : UInt64)
  | mlKemDecapsulate (dk ct outShared : UInt64)
  | mlKemSharedkeyDestroy (sk : UInt64)
  | mlDsaKeygen (seed outPk outSk : UInt64)
  | mlDsaSigningkeyDestroy (sk : UInt64)
  | mlDsaSign (sk msg msgLen outSig : UInt64)
  | mlDsaVerify (pk msg msgLen sig : UInt64)
  | x25519Keygen (entropy outPk outSk : UInt64)
  | x25519SecretDestroy (sk : UInt64)
  | x25519DiffieHellman (sk peerPk outShared : UInt64)
  | x25519SharedsecretDestroy (ss : UInt64)
  | toBytes (type : WireType) (value out outLen : UInt64)
  | fromBytes (type : WireType) (bytes len out : UInt64)
  | hmacSha384 (key data dataLen outMac : UInt64)
  | hkdfExpandSha384 (prk info infoLen out outLen : UInt64)
  | aeadEncrypt
      (encKey macKey nonce aad aadLen plaintext ciphertext dataLen outMac :
        UInt64)
  | aeadDecrypt
      (encKey macKey nonce aad aadLen ciphertext mac plaintext dataLen :
        UInt64)
deriving DecidableEq, Repr

section Calls

variable {DecapsKey SigningKey : Type}
variable (formats : Formats DecapsKey SigningKey)
variable (prims : InterfacePrimitives DecapsKey SigningKey)

def WireType.toBytes (type : WireType) (value out outLen : UInt64) :
    EntryPoint :=
  match type with
  | .mlKemPublickey =>
      (mlKemPublickeyCodec formats prims).toBytes value out outLen
  | .mlKemCiphertext => (mlKemCiphertextCodec formats).toBytes value out outLen
  | .x25519Publickey => (x25519PublickeyCodec formats).toBytes value out outLen
  | .mlDsaPublickey => (mlDsaPublickeyCodec formats).toBytes value out outLen
  | .mlDsaSignature => (mlDsaSignatureCodec formats).toBytes value out outLen

def WireType.fromBytes (type : WireType) (bytes len out : UInt64) :
    EntryPoint :=
  match type with
  | .mlKemPublickey =>
      (mlKemPublickeyCodec formats prims).fromBytes bytes len out
  | .mlKemCiphertext => (mlKemCiphertextCodec formats).fromBytes bytes len out
  | .x25519Publickey => (x25519PublickeyCodec formats).fromBytes bytes len out
  | .mlDsaPublickey => (mlDsaPublickeyCodec formats).fromBytes bytes len out
  | .mlDsaSignature => (mlDsaSignatureCodec formats).fromBytes bytes len out

namespace HostCall

def entryPoint : HostCall → EntryPoint
  | .sessionManagerInit manager => Ffi.sessionManagerInit formats manager
  | .sessionManagerDestroy manager => Ffi.sessionManagerDestroy formats manager
  | .sessionManagerInitiateHandshake manager entropy outMlKemPk outX25519Pk =>
      Ffi.sessionManagerInitiateHandshake formats prims manager entropy
        outMlKemPk outX25519Pk
  | .sessionManagerFinalizeHandshake manager peerX25519Pk mlKemCt salt saltLen
      info infoLen =>
      Ffi.sessionManagerFinalizeHandshake formats prims manager peerX25519Pk
        mlKemCt salt saltLen info infoLen
  | .sessionManagerEncapsulateForPeer manager peerMlKemPk peerX25519Pk entropy
      salt saltLen info infoLen outCt outMyX25519Pk =>
      Ffi.sessionManagerEncapsulateForPeer formats prims manager peerMlKemPk
        peerX25519Pk entropy salt saltLen info infoLen outCt outMyX25519Pk
  | .sessionManagerEncapsulateAuthenticatedV2 manager ownSigningKey
      peerVerifyingKey peerMlKemPk peerX25519Pk entropy salt saltLen appInfo
      appInfoLen outCt outMyX25519Pk outSignature outConfirmation =>
      Ffi.sessionManagerEncapsulateAuthenticatedV2 formats prims manager
        ownSigningKey peerVerifyingKey peerMlKemPk peerX25519Pk entropy salt
        saltLen appInfo appInfoLen outCt outMyX25519Pk outSignature
        outConfirmation
  | .sessionManagerFinalizeAuthenticatedV2 manager ownSigningKey
      peerVerifyingKey peerX25519Pk mlKemCt peerSignature peerConfirmation
      salt saltLen appInfo appInfoLen outSignature outConfirmation =>
      Ffi.sessionManagerFinalizeAuthenticatedV2 formats prims manager
        ownSigningKey peerVerifyingKey peerX25519Pk mlKemCt peerSignature
        peerConfirmation salt saltLen appInfo appInfoLen outSignature
        outConfirmation
  | .sessionManagerConfirmPeerV2 manager peerVerifyingKey peerSignature
      peerConfirmation =>
      Ffi.sessionManagerConfirmPeerV2 formats prims manager peerVerifyingKey
        peerSignature peerConfirmation
  | .sessionManagerZeroize manager => Ffi.sessionManagerZeroize formats manager
  | .sessionManagerEncryptPacket manager aad aadLen plaintext ciphertext
      dataLen outNonce outTag =>
      Ffi.sessionManagerEncryptPacket formats prims manager aad aadLen
        plaintext ciphertext dataLen outNonce outTag
  | .sessionManagerDecryptPacket manager aad aadLen ciphertext dataLen nonce
      tag plaintext =>
      Ffi.sessionManagerDecryptPacket formats prims manager aad aadLen
        ciphertext dataLen nonce tag plaintext
  | .mlKemKeygen entropy outPk outDk =>
      cryptoMlKemKeygen formats prims entropy outPk outDk
  | .mlKemDecapskeyDestroy dk => Ffi.mlKemDecapskeyDestroy formats prims dk
  | .mlKemEncapsulate pk entropy outShared outCt =>
      cryptoMlKemEncapsulate formats prims pk entropy outShared outCt
  | .mlKemDecapsulate dk ct outShared =>
      cryptoMlKemDecapsulate formats prims dk ct outShared
  | .mlKemSharedkeyDestroy sk => Ffi.mlKemSharedkeyDestroy formats sk
  | .mlDsaKeygen seed outPk outSk =>
      cryptoMlDsaKeygen formats prims seed outPk outSk
  | .mlDsaSigningkeyDestroy sk => Ffi.mlDsaSigningkeyDestroy formats prims sk
  | .mlDsaSign sk msg msgLen outSig =>
      cryptoMlDsaSign formats prims sk msg msgLen outSig
  | .mlDsaVerify pk msg msgLen sig =>
      cryptoMlDsaVerify formats prims pk msg msgLen sig
  | .x25519Keygen entropy outPk outSk =>
      cryptoX25519Keygen formats prims entropy outPk outSk
  | .x25519SecretDestroy sk => Ffi.x25519SecretDestroy formats sk
  | .x25519DiffieHellman sk peerPk outShared =>
      cryptoX25519DiffieHellman formats prims sk peerPk outShared
  | .x25519SharedsecretDestroy ss => Ffi.x25519SharedsecretDestroy formats ss
  | .toBytes type value out outLen => type.toBytes formats prims value out outLen
  | .fromBytes type bytes len out => type.fromBytes formats prims bytes len out
  | .hmacSha384 key data dataLen outMac =>
      cryptoHmacSha384 prims key data dataLen outMac
  | .hkdfExpandSha384 prk info infoLen out outLen =>
      cryptoHkdfExpandSha384 prims prk info infoLen out outLen
  | .aeadEncrypt encKey macKey nonce aad aadLen plaintext ciphertext dataLen
      outMac =>
      cryptoAeadEncrypt prims encKey macKey nonce aad aadLen plaintext
        ciphertext dataLen outMac
  | .aeadDecrypt encKey macKey nonce aad aadLen ciphertext mac plaintext
      dataLen =>
      cryptoAeadDecrypt prims encKey macKey nonce aad aadLen ciphertext mac
        plaintext dataLen

def invoke (call : HostCall) (memory : Memory) : Reply :=
  (call.entryPoint formats prims).invoke memory

/-- The memory after a call. -/
def after (call : HostCall) (memory : Memory) : Memory :=
  performAll memory (call.invoke formats prims memory).writes

/-- The checks let the call through. -/
def Accepted (call : HostCall) : Prop :=
  firstRejection (call.entryPoint formats prims).checks = none

instance (call : HostCall) : Decidable (call.Accepted formats prims) :=
  inferInstanceAs (Decidable (_ = _))

end HostCall

/-- The object and the encoding of a wire type. -/
def WireType.object (type : WireType) (address : UInt64) (access : Access) :
    Argument :=
  match type with
  | .mlKemPublickey => .object formats.publicKey1024 address access
  | .mlKemCiphertext => .object formats.ciphertext1024 address access
  | .x25519Publickey => .object formats.x25519Public address access
  | .mlDsaPublickey => .object formats.publicKey87 address access
  | .mlDsaSignature => .object formats.signature87 address access

def WireType.encodedLen : WireType → UInt64
  | .mlKemPublickey => 1568
  | .mlKemCiphertext => 1568
  | .x25519Publickey => 32
  | .mlDsaPublickey => 2592
  | .mlDsaSignature => 4627

/-- The pointer arguments of a call, in the order of its parameters. -/
def HostCall.arguments : HostCall → List Argument
  | .sessionManagerInit manager =>
      [.object formats.sessionManager manager .inPlace]
  | .sessionManagerDestroy manager =>
      [.object formats.sessionManager manager .inPlace]
  | .sessionManagerInitiateHandshake manager entropy outMlKemPk outX25519Pk =>
      [.object formats.sessionManager manager .inPlace,
        .buffer entropy 96 .input,
        .object formats.publicKey1024 outMlKemPk .output,
        .object formats.x25519Public outX25519Pk .output]
  | .sessionManagerFinalizeHandshake manager peerX25519Pk mlKemCt salt saltLen
      info infoLen =>
      [.object formats.sessionManager manager .inPlace,
        .object formats.x25519Public peerX25519Pk .input,
        .object formats.ciphertext1024 mlKemCt .input,
        .slice salt saltLen maxSliceLen .input,
        .slice info infoLen maxSliceLen .input]
  | .sessionManagerEncapsulateForPeer manager peerMlKemPk peerX25519Pk entropy
      salt saltLen info infoLen outCt outMyX25519Pk =>
      [.object formats.sessionManager manager .inPlace,
        .object formats.publicKey1024 peerMlKemPk .input,
        .object formats.x25519Public peerX25519Pk .input,
        .buffer entropy 64 .input, .slice salt saltLen maxSliceLen .input,
        .slice info infoLen maxSliceLen .input,
        .object formats.ciphertext1024 outCt .output,
        .object formats.x25519Public outMyX25519Pk .output]
  | .sessionManagerEncapsulateAuthenticatedV2 manager ownSigningKey
      peerVerifyingKey peerMlKemPk peerX25519Pk entropy salt saltLen appInfo
      appInfoLen outCt outMyX25519Pk outSignature outConfirmation =>
      [.object formats.sessionManager manager .inPlace,
        .object formats.signingKey87 ownSigningKey .input,
        .object formats.publicKey87 peerVerifyingKey .input,
        .object formats.publicKey1024 peerMlKemPk .input,
        .object formats.x25519Public peerX25519Pk .input,
        .buffer entropy 64 .input, .slice salt saltLen maxSliceLen .input,
        .slice appInfo appInfoLen maxAppInfoLen .input,
        .object formats.ciphertext1024 outCt .output,
        .object formats.x25519Public outMyX25519Pk .output,
        .object formats.signature87 outSignature .output,
        .buffer outConfirmation 48 .output]
  | .sessionManagerFinalizeAuthenticatedV2 manager ownSigningKey
      peerVerifyingKey peerX25519Pk mlKemCt peerSignature peerConfirmation
      salt saltLen appInfo appInfoLen outSignature outConfirmation =>
      [.object formats.sessionManager manager .inPlace,
        .object formats.signingKey87 ownSigningKey .input,
        .object formats.publicKey87 peerVerifyingKey .input,
        .object formats.x25519Public peerX25519Pk .input,
        .object formats.ciphertext1024 mlKemCt .input,
        .object formats.signature87 peerSignature .input,
        .buffer peerConfirmation 48 .input,
        .slice salt saltLen maxSliceLen .input,
        .slice appInfo appInfoLen maxAppInfoLen .input,
        .object formats.signature87 outSignature .output,
        .buffer outConfirmation 48 .output]
  | .sessionManagerConfirmPeerV2 manager peerVerifyingKey peerSignature
      peerConfirmation =>
      [.object formats.sessionManager manager .inPlace,
        .object formats.publicKey87 peerVerifyingKey .input,
        .object formats.signature87 peerSignature .input,
        .buffer peerConfirmation 48 .input]
  | .sessionManagerZeroize manager =>
      [.object formats.sessionManager manager .inPlace]
  | .sessionManagerEncryptPacket manager aad aadLen plaintext ciphertext
      dataLen outNonce outTag =>
      [.object formats.sessionManager manager .inPlace,
        .slice aad aadLen maxSliceLen .input,
        .slice plaintext dataLen maxPacketLen .input,
        .slice ciphertext dataLen maxPacketLen .outputAlways,
        .buffer outNonce 12 .outputAlways, .buffer outTag 48 .outputAlways]
  | .sessionManagerDecryptPacket manager aad aadLen ciphertext dataLen nonce
      tag plaintext =>
      [.object formats.sessionManager manager .inPlace,
        .slice aad aadLen maxSliceLen .input,
        .slice ciphertext dataLen maxPacketLen .input,
        .buffer nonce 12 .input, .buffer tag 48 .input,
        .slice plaintext dataLen maxPacketLen .outputAlways]
  | .mlKemKeygen entropy outPk outDk =>
      [.buffer entropy 64 .input, .object formats.publicKey1024 outPk .output,
        .object formats.decapsKey1024 outDk .output]
  | .mlKemDecapskeyDestroy dk => [.object formats.decapsKey1024 dk .inPlace]
  | .mlKemEncapsulate pk entropy outShared outCt =>
      [.object formats.publicKey1024 pk .input, .buffer entropy 32 .input,
        .object formats.sharedKey1024 outShared .output,
        .object formats.ciphertext1024 outCt .output]
  | .mlKemDecapsulate dk ct outShared =>
      [.object formats.decapsKey1024 dk .input,
        .object formats.ciphertext1024 ct .input,
        .object formats.sharedKey1024 outShared .output]
  | .mlKemSharedkeyDestroy sk => [.object formats.sharedKey1024 sk .inPlace]
  | .mlDsaKeygen seed outPk outSk =>
      [.buffer seed 32 .input, .object formats.publicKey87 outPk .output,
        .object formats.signingKey87 outSk .output]
  | .mlDsaSigningkeyDestroy sk => [.object formats.signingKey87 sk .inPlace]
  | .mlDsaSign sk msg msgLen outSig =>
      [.object formats.signingKey87 sk .input,
        .slice msg msgLen maxSliceLen .input,
        .object formats.signature87 outSig .output]
  | .mlDsaVerify pk msg msgLen sig =>
      [.object formats.publicKey87 pk .input,
        .slice msg msgLen maxSliceLen .input,
        .object formats.signature87 sig .input]
  | .x25519Keygen entropy outPk outSk =>
      [.buffer entropy 32 .input, .object formats.x25519Public outPk .output,
        .object formats.x25519Secret outSk .output]
  | .x25519SecretDestroy sk => [.object formats.x25519Secret sk .inPlace]
  | .x25519DiffieHellman sk peerPk outShared =>
      [.object formats.x25519Secret sk .input,
        .object formats.x25519Public peerPk .input,
        .object formats.x25519SharedSecret outShared .output]
  | .x25519SharedsecretDestroy ss =>
      [.object formats.x25519SharedSecret ss .inPlace]
  | .toBytes type value out outLen =>
      [type.object formats value .input,
        .exact type.encodedLen out outLen .output]
  | .fromBytes type bytes len out =>
      [.exact type.encodedLen bytes len .input,
        type.object formats out .output]
  | .hmacSha384 key data dataLen outMac =>
      [.buffer key 32 .input, .slice data dataLen maxSliceLen .input,
        .buffer outMac 48 .output]
  | .hkdfExpandSha384 prk info infoLen out outLen =>
      [.buffer prk 48 .input, .slice info infoLen maxSliceLen .input,
        .slice out outLen maxSliceLen .outputAlways]
  | .aeadEncrypt encKey macKey nonce aad aadLen plaintext ciphertext dataLen
      outMac =>
      [.buffer encKey 32 .input, .buffer macKey 32 .input,
        .buffer nonce 12 .input, .slice aad aadLen maxSliceLen .input,
        .slice plaintext dataLen maxPacketLen .input,
        .slice ciphertext dataLen maxPacketLen .outputAlways,
        .buffer outMac 48 .outputAlways]
  | .aeadDecrypt encKey macKey nonce aad aadLen ciphertext mac plaintext
      dataLen =>
      [.buffer encKey 32 .input, .buffer macKey 32 .input,
        .buffer nonce 12 .input, .slice aad aadLen maxSliceLen .input,
        .slice ciphertext dataLen maxPacketLen .input, .buffer mac 48 .input,
        .slice plaintext dataLen maxPacketLen .outputAlways]

def HostCall.regions (call : HostCall) : List Region :=
  (call.arguments formats).map Argument.region

/-! ## What the checks accept -/

theorem firstRejection_eq_none_iff
    {checks : List (Bool × Rejection)} :
    firstRejection checks = none ↔ ∀ check ∈ checks, check.1 = false := by
  induction checks with
  | nil => simp [firstRejection]
  | cons check rest ih =>
      obtain ⟨failed, rejection⟩ := check
      cases failed with
      | true => simp [firstRejection]
      | false => simp [firstRejection, ih]

theorem isNull_eq_false_iff {pointer : UInt64} :
    isNull pointer = false ↔ pointer ≠ 0 := by
  simp [isNull]

theorem misaligned_eq_false_iff
    {α : Type} {format : Format α} {pointer : UInt64} :
    (!ptrIsAligned format pointer) = false ↔
      pointer % format.alignment = 0 := by
  simp [ptrIsAligned]

theorem nullSlice_eq_false_iff {address length : UInt64} :
    (isNull address && decide (0 < length)) = false ↔
      (length = 0 ∨ address ≠ 0) := by
  by_cases hempty : length = 0
  · simp [hempty]
  · simp [hempty, isNull, UInt64.pos_iff_ne_zero]

theorem not_rangeOk_eq_false_iff {address length : UInt64} :
    (!rangeOk address length) = false ↔
      length ≤ maxSliceLen ∧ (length = 0 ∨ ¬ Wraps address length) := by
  simp only [rangeOk, sliceLenValid, Bool.not_eq_false', Bool.and_eq_true,
    decide_eq_true_eq, Bool.or_eq_true, beq_iff_eq, Bool.not_eq_true',
    decide_eq_false_iff_not]

theorem appInfoLen_le {length : UInt64} (hle : length ≤ maxAppInfoLen) :
    length ≤ maxSliceLen :=
  UInt64.le_trans hle (by decide)

theorem packetLen_le {length : UInt64} (hle : length ≤ maxPacketLen) :
    length ≤ maxSliceLen :=
  UInt64.le_trans hle (by decide)

theorem not_packetLenValid_eq_false_iff {length : UInt64} :
    (!packetLenValid length) = false ↔ length ≤ maxPacketLen := by
  have hlimit : length.toNat ≤ chacha20MaxBytes ↔ length ≤ maxPacketLen :=
    Iff.rfl
  simp only [packetLenValid, sliceLenValid, Bool.not_eq_false',
    Bool.and_eq_true, decide_eq_true_eq, hlimit, and_iff_right_iff_imp]
  exact packetLen_le

theorem WireCodec.toBytes_accepted_iff
    {α : Type} (codec : WireCodec α) (value out outLen : UInt64) :
    firstRejection (codec.toBytes value out outLen).checks = none ↔
      (∀ argument ∈ [Argument.object codec.format value .input,
          .exact codec.length out outLen .output], argument.Valid) ∧
        writableRegionsOverlap
          ([Argument.object codec.format value .input,
            .exact codec.length out outLen .output].map Argument.region) =
          false := by
  rw [firstRejection_eq_none_iff]
  simp only [toBytes, List.forall_mem_cons, List.not_mem_nil, false_imp_iff,
    implies_true, and_true, Bool.or_eq_false_iff, isNull_eq_false_iff,
    misaligned_eq_false_iff, bne_eq_false_iff_eq, Argument.object,
    Argument.exact, Argument.Valid, Argument.region, Access.isWritten,
    writableRegionsOverlap, PairCheck.anyPair, conflicts_eq, List.map_cons,
    List.map_nil, List.any_cons, List.any_nil, Bool.or_false, Bool.or_true,
    Bool.true_and]
  tauto

theorem WireCodec.fromBytes_accepted_iff
    {α : Type} (codec : WireCodec α) (bytes len out : UInt64) :
    firstRejection (codec.fromBytes bytes len out).checks = none ↔
      (∀ argument ∈ [Argument.exact codec.length bytes len .input,
          .object codec.format out .output], argument.Valid) ∧
        writableRegionsOverlap
          ([Argument.exact codec.length bytes len .input,
            .object codec.format out .output].map Argument.region) =
          false := by
  rw [firstRejection_eq_none_iff]
  simp only [fromBytes, List.forall_mem_cons, List.not_mem_nil, false_imp_iff,
    implies_true, and_true, Bool.or_eq_false_iff, isNull_eq_false_iff,
    misaligned_eq_false_iff, bne_eq_false_iff_eq, Argument.object,
    Argument.exact, Argument.Valid, Argument.region, Access.isWritten,
    writableRegionsOverlap, PairCheck.anyPair, conflicts_eq, List.map_cons,
    List.map_nil, List.any_cons, List.any_nil, Bool.or_false, Bool.or_true,
    Bool.true_and]
  tauto

theorem accepted_iff (call : HostCall) :
    call.Accepted formats prims ↔
      (∀ argument ∈ call.arguments formats, argument.Valid) ∧
        writableRegionsOverlap (call.regions formats) = false := by
  cases call
  case toBytes type value out outLen =>
      cases type
      all_goals exact WireCodec.toBytes_accepted_iff _ value out outLen
  case fromBytes type bytes len out =>
      cases type
      all_goals exact WireCodec.fromBytes_accepted_iff _ bytes len out
  -- The checks and the rules of the header become the same conjunction, up to
  -- its order and the order inside the pairs of compared arguments.
  all_goals
    rw [HostCall.Accepted, firstRejection_eq_none_iff]
    simp only [HostCall.entryPoint, sessionManagerInit, sessionManagerDestroy,
      sessionManagerInitiateHandshake, sessionManagerFinalizeHandshake,
      sessionManagerEncapsulateForPeer,
      sessionManagerEncapsulateAuthenticatedV2,
      sessionManagerFinalizeAuthenticatedV2, sessionManagerConfirmPeerV2,
      sessionManagerZeroize, sessionManagerEncryptPacket,
      sessionManagerDecryptPacket, cryptoMlKemKeygen, cryptoMlKemEncapsulate,
      cryptoMlKemDecapsulate, cryptoMlDsaKeygen, cryptoMlDsaSign,
      cryptoMlDsaVerify, cryptoX25519Keygen, cryptoX25519DiffieHellman,
      dropInPlace, mlKemDecapskeyDestroy, mlKemSharedkeyDestroy,
      mlDsaSigningkeyDestroy, x25519SecretDestroy, x25519SharedsecretDestroy,
      cryptoHmacSha384, cryptoHkdfExpandSha384, cryptoAeadEncrypt,
      cryptoAeadDecrypt, sessionEncryptBuffersOverlap,
      sessionDecryptBuffersOverlap, aeadEncryptBuffersOverlap,
      aeadDecryptBuffersOverlap, encapsulateForPeerBuffersOverlap,
      Formats.layout, HostCall.regions,
      HostCall.arguments, Argument.object, Argument.buffer, Argument.slice,
      Argument.region, Argument.Valid, Access.isWritten,
      writableRegionsOverlap, PairCheck.anyPair, conflicts_eq,
      List.forall_mem_cons, List.not_mem_nil, false_imp_iff, implies_true,
      List.map_cons, List.map_nil, List.any_cons, List.any_nil, and_true,
      Bool.or_eq_false_iff, Bool.or_false, Bool.or_true, Bool.false_or,
      Bool.true_and, Bool.false_and, isNull_eq_false_iff,
      misaligned_eq_false_iff, nullSlice_eq_false_iff,
      not_rangeOk_eq_false_iff, not_packetLenValid_eq_false_iff,
      decide_eq_false_iff_not, UInt64.not_lt]
  all_goals grind [rangesOverlap_comm, appInfoLen_le, packetLen_le]

end Calls

end Ffi
end ShawnCore
