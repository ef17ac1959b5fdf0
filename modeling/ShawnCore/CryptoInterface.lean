import ShawnCore.FfiAliasing
import ShawnCore.ByteMemory
import ShawnCore.SessionCalls

/-!
# The C interface of the cryptographic library

The exported functions of `ffi.rs`, over the memory of the host.  A function
first checks its pointers and lengths, without looking at memory; only when all
checks pass it reads its arguments, calls the library and writes its outputs.
So an entry point is given by its checks, each with the code it returns, and by
what the function does after them: a code and a list of writes.

Opaque objects are stored in formats of their own, about which nothing is
assumed but that a stored object can be loaded again.
-/

namespace ShawnCore
namespace Ffi

open ByteBlocks
open ByteMemory
open AddressRange (Wraps)

/-- `ffi_error.rs`. -/
inductive ShawncoreCryptoErr
  | success
  | invalidState
  | invalidLength
  | hkdfError
  | verificationFailed
  | entropyStarvation
  | entropyBusy
  | keyConfirmationFailed
  | panic
deriving DecidableEq, Repr

def ShawncoreCryptoErr.ofCryptoError : CryptoError → ShawncoreCryptoErr
  | .invalidState => .invalidState
  | .invalidLength => .invalidLength
  | .hkdfError => .hkdfError
  | .verificationFailed => .verificationFailed
  | .entropyStarvation => .entropyStarvation
  | .entropyBusy => .entropyBusy
  | .keyConfirmationFailed => .keyConfirmationFailed

/-- What the interface uses of the third-party crates beyond the session
manager. -/
structure InterfacePrimitives (DecapsKey SigningKey : Type)
    extends Primitives DecapsKey SigningKey where
  /-- The stream cipher works in place. -/
  chacha20_length : ∀ key nonce buffer,
    (chacha20TryApplyKeystream key nonce buffer).2.length = buffer.length
  /-- Whether `Hkdf::from_prk` accepts a key. -/
  hkdfFromPrk : Block 48 → Bool
  /-- Whether `EncapsulationKey1024::new` accepts an encoding. -/
  mlKemEncapsulationKeyNew : Block 1568 → Bool
  mlDsaFromSeed : Block 32 → SigningKey
  /-- The signature bytes of `sign`, without a context. -/
  mlDsaSign : SigningKey → Bytes → Bytes
  mlDsaVerify : PublicKey87 → Bytes → Signature87 → Bool
  /-- What the drop of a key leaves in its storage. -/
  dropDecapsKey : DecapsKey → DecapsKey
  dropSigningKey : SigningKey → SigningKey

/-- The formats of the types which cross the interface. -/
structure Formats (DecapsKey SigningKey : Type) where
  sessionManager : Format (SessionManager DecapsKey)
  publicKey1024 : Format PublicKey1024
  decapsKey1024 : Format DecapsKey
  sharedKey1024 : Format SharedKey1024
  ciphertext1024 : Format Ciphertext1024
  publicKey87 : Format PublicKey87
  signingKey87 : Format SigningKey
  signature87 : Format Signature87
  x25519Public : Format X25519Public
  x25519Secret : Format X25519Secret
  x25519SharedSecret : Format X25519SharedSecret

/-! ## Checks -/

def isNull (pointer : UInt64) : Bool := pointer == 0

def ptrIsAligned {α : Type} (format : Format α) (pointer : UInt64) : Bool :=
  pointer % format.alignment == 0

def maxSliceLen : UInt64 := 0x7FFFFFFFFFFFFFFF

def maxAppInfoLen : UInt64 := 0xFFFFFFFF

def sliceLenValid (len : UInt64) : Bool := decide (len ≤ maxSliceLen)

def rangeOk (pointer len : UInt64) : Bool :=
  sliceLenValid len && (len == 0 || !decide (Wraps pointer len))

def packetLenValid (len : UInt64) : Bool :=
  sliceLenValid len && decide (len.toNat ≤ chacha20MaxBytes)

/-- The checks of the arguments know two codes. -/
inductive Rejection
  | invalidState
  | invalidLength
deriving DecidableEq

def Rejection.code : Rejection → ShawncoreCryptoErr
  | .invalidState => .invalidState
  | .invalidLength => .invalidLength

/-- The first check which fails. -/
def firstRejection : List (Bool × Rejection) → Option Rejection
  | [] => none
  | (failed, rejection) :: rest =>
      if failed then some rejection else firstRejection rest

/-! ## Entry points -/

/-- The code which a function returns and the writes it has made, in order. -/
structure Reply where
  code : ShawncoreCryptoErr
  writes : List Write

structure EntryPoint where
  checks : List (Bool × Rejection)
  body : Memory → Reply

def EntryPoint.invoke (entry : EntryPoint) (memory : Memory) : Reply :=
  match firstRejection entry.checks with
  | some rejection => ⟨rejection.code, []⟩
  | none => entry.body memory

def readBlock (memory : Memory) (address : UInt64) (n : ℕ) : Block n :=
  ⟨read memory address n, length_read memory address n⟩

/-- An empty slice is formed without its pointer, and so is an empty read. -/
def readSlice (memory : Memory) (address len : UInt64) : Slice where
  bytes := read memory address len.toNat
  length_lt := by
    rw [length_read]
    exact len.toNat_lt

def codeOf {α : Type} : Except CryptoError α → ShawncoreCryptoErr
  | .ok _ => .success
  | .error failure => .ofCryptoError failure

/-- A result whose outputs are written on success only. -/
def deliver {α : Type} (result : Except CryptoError α)
    (outputs : α → List Write) : Reply :=
  match result with
  | .ok value => ⟨.success, outputs value⟩
  | .error failure => ⟨.ofCryptoError failure, []⟩

section EntryPoints

variable {DecapsKey SigningKey : Type}
variable (formats : Formats DecapsKey SigningKey)
variable (prims : InterfacePrimitives DecapsKey SigningKey)

/-- The sizes which the overlap checks read. -/
def Formats.layout : Layout where
  sessionManager := formats.sessionManager.size
  publicKey1024 := formats.publicKey1024.size
  ciphertext1024 := formats.ciphertext1024.size
  x25519Public := formats.x25519Public.size

/-- A call of the manager stored at `manager`: its storage holds the manager
after the call, and the outputs are written on success only. -/
def forward {α : Type} (manager : UInt64)
    (result : Except CryptoError α × SessionManager DecapsKey)
    (outputs : α → List Write) : Reply where
  code := (deliver result.1 outputs).code
  writes := formats.sessionManager.write manager result.2 ::
    (deliver result.1 outputs).writes

/-! ### Session manager -/

def sessionManagerInit (manager : UInt64) : EntryPoint where
  checks :=
    [(isNull manager, .invalidState),
      (!ptrIsAligned formats.sessionManager manager, .invalidState)]
  body _ := ⟨.success, [formats.sessionManager.write manager .new]⟩

/-- `drop` zeroizes the session. -/
def sessionManagerDestroy (manager : UInt64) : EntryPoint where
  checks :=
    [(isNull manager, .invalidState),
      (!ptrIsAligned formats.sessionManager manager, .invalidState)]
  body memory :=
    ⟨.success, [formats.sessionManager.write manager
      (formats.sessionManager.load memory manager).zeroizeSession]⟩

def sessionManagerInitiateHandshake
    (manager entropy outMlKemPk outX25519Pk : UInt64) : EntryPoint where
  checks :=
    [(isNull manager || isNull entropy || isNull outMlKemPk ||
        isNull outX25519Pk, .invalidState),
      (!ptrIsAligned formats.sessionManager manager ||
        !ptrIsAligned formats.publicKey1024 outMlKemPk ||
        !ptrIsAligned formats.x25519Public outX25519Pk, .invalidState),
      (rangesOverlap outMlKemPk formats.publicKey1024.size outX25519Pk
          formats.x25519Public.size ||
        rangesOverlap manager formats.sessionManager.size outMlKemPk
          formats.publicKey1024.size ||
        rangesOverlap manager formats.sessionManager.size outX25519Pk
          formats.x25519Public.size ||
        rangesOverlap manager formats.sessionManager.size entropy 96 ||
        rangesOverlap entropy 96 outMlKemPk formats.publicKey1024.size ||
        rangesOverlap entropy 96 outX25519Pk formats.x25519Public.size,
        .invalidLength)]
  body memory :=
    forward formats manager
      ((formats.sessionManager.load memory manager).initiateHandshake
        prims.toPrimitives (readBlock memory entropy 96))
      fun (mlKemPk, x25519Pk) =>
        [formats.publicKey1024.write outMlKemPk mlKemPk,
          formats.x25519Public.write outX25519Pk x25519Pk]

def sessionManagerFinalizeHandshake
    (manager peerX25519Pk mlKemCt salt saltLen info infoLen : UInt64) :
    EntryPoint where
  checks :=
    [(isNull manager || isNull peerX25519Pk || isNull mlKemCt, .invalidState),
      (!ptrIsAligned formats.sessionManager manager ||
        !ptrIsAligned formats.x25519Public peerX25519Pk ||
        !ptrIsAligned formats.ciphertext1024 mlKemCt, .invalidState),
      (isNull salt && decide (0 < saltLen) ||
        isNull info && decide (0 < infoLen) || !rangeOk salt saltLen ||
        !rangeOk info infoLen, .invalidLength),
      (rangesOverlap manager formats.sessionManager.size peerX25519Pk
          formats.x25519Public.size ||
        rangesOverlap manager formats.sessionManager.size mlKemCt
          formats.ciphertext1024.size ||
        rangesOverlap manager formats.sessionManager.size salt saltLen ||
        rangesOverlap manager formats.sessionManager.size info infoLen,
        .invalidLength)]
  body memory :=
    forward formats manager
      ((formats.sessionManager.load memory manager).finalizeHandshake
        prims.toPrimitives (formats.x25519Public.load memory peerX25519Pk)
        (formats.ciphertext1024.load memory mlKemCt)
        (read memory salt saltLen.toNat) (read memory info infoLen.toNat))
      fun _ => []

def sessionManagerEncapsulateForPeer
    (manager peerMlKemPk peerX25519Pk entropy salt saltLen info infoLen outCt
      outMyX25519Pk : UInt64) : EntryPoint where
  checks :=
    [(isNull manager || isNull peerMlKemPk || isNull peerX25519Pk ||
        isNull entropy || isNull outCt || isNull outMyX25519Pk,
        .invalidState),
      (!ptrIsAligned formats.sessionManager manager ||
        !ptrIsAligned formats.publicKey1024 peerMlKemPk ||
        !ptrIsAligned formats.x25519Public peerX25519Pk ||
        !ptrIsAligned formats.ciphertext1024 outCt ||
        !ptrIsAligned formats.x25519Public outMyX25519Pk, .invalidState),
      (isNull salt && decide (0 < saltLen) ||
        isNull info && decide (0 < infoLen) || !rangeOk salt saltLen ||
        !rangeOk info infoLen, .invalidLength),
      (encapsulateForPeerBuffersOverlap formats.layout manager peerMlKemPk
          peerX25519Pk entropy salt saltLen info infoLen outCt outMyX25519Pk,
        .invalidLength)]
  body memory :=
    forward formats manager
      ((formats.sessionManager.load memory manager).encapsulateForPeer
        prims.toPrimitives (formats.publicKey1024.load memory peerMlKemPk)
        (formats.x25519Public.load memory peerX25519Pk)
        (readBlock memory entropy 64) (read memory salt saltLen.toNat)
        (read memory info infoLen.toNat))
      fun (ct, myPk) =>
        [formats.ciphertext1024.write outCt ct,
          formats.x25519Public.write outMyX25519Pk myPk]

def sessionManagerEncapsulateAuthenticatedV2
    (manager ownSigningKey peerVerifyingKey peerMlKemPk peerX25519Pk entropy
      salt saltLen appInfo appInfoLen outCt outMyX25519Pk outSignature
      outConfirmation : UInt64) : EntryPoint where
  checks :=
    [(isNull manager || isNull ownSigningKey || isNull peerVerifyingKey ||
        isNull peerMlKemPk || isNull peerX25519Pk || isNull entropy ||
        isNull outCt || isNull outMyX25519Pk || isNull outSignature ||
        isNull outConfirmation, .invalidState),
      (!ptrIsAligned formats.sessionManager manager ||
        !ptrIsAligned formats.signingKey87 ownSigningKey ||
        !ptrIsAligned formats.publicKey87 peerVerifyingKey ||
        !ptrIsAligned formats.publicKey1024 peerMlKemPk ||
        !ptrIsAligned formats.x25519Public peerX25519Pk ||
        !ptrIsAligned formats.ciphertext1024 outCt ||
        !ptrIsAligned formats.x25519Public outMyX25519Pk ||
        !ptrIsAligned formats.signature87 outSignature, .invalidState),
      (isNull salt && decide (0 < saltLen) ||
        isNull appInfo && decide (0 < appInfoLen) || !rangeOk salt saltLen ||
        decide (maxAppInfoLen < appInfoLen) || !rangeOk appInfo appInfoLen,
        .invalidLength),
      (writableRegionsOverlap
        [⟨manager, formats.sessionManager.size, true⟩,
          ⟨ownSigningKey, formats.signingKey87.size, false⟩,
          ⟨peerVerifyingKey, formats.publicKey87.size, false⟩,
          ⟨peerMlKemPk, formats.publicKey1024.size, false⟩,
          ⟨peerX25519Pk, formats.x25519Public.size, false⟩,
          ⟨entropy, 64, false⟩, ⟨salt, saltLen, false⟩,
          ⟨appInfo, appInfoLen, false⟩,
          ⟨outCt, formats.ciphertext1024.size, true⟩,
          ⟨outMyX25519Pk, formats.x25519Public.size, true⟩,
          ⟨outSignature, formats.signature87.size, true⟩,
          ⟨outConfirmation, 48, true⟩], .invalidLength)]
  body memory :=
    forward formats manager
      ((formats.sessionManager.load memory manager).encapsulateAuthenticated
        prims.toPrimitives
        { ownSigningKey := formats.signingKey87.load memory ownSigningKey
          peerVerifyingKey := formats.publicKey87.load memory peerVerifyingKey
          peerMlKemPk := formats.publicKey1024.load memory peerMlKemPk
          peerX25519Pk := formats.x25519Public.load memory peerX25519Pk
          entropy := readBlock memory entropy 64
          salt := read memory salt saltLen.toNat
          appInfo := read memory appInfo appInfoLen.toNat })
      fun output =>
        [formats.ciphertext1024.write outCt output.ct,
          formats.x25519Public.write outMyX25519Pk output.pk,
          formats.signature87.write outSignature output.signature,
          ⟨outConfirmation, output.confirmation.bytes⟩]

def sessionManagerFinalizeAuthenticatedV2
    (manager ownSigningKey peerVerifyingKey peerX25519Pk mlKemCt peerSignature
      peerConfirmation salt saltLen appInfo appInfoLen outSignature
      outConfirmation : UInt64) : EntryPoint where
  checks :=
    [(isNull manager || isNull ownSigningKey || isNull peerVerifyingKey ||
        isNull peerX25519Pk || isNull mlKemCt || isNull peerSignature ||
        isNull peerConfirmation || isNull outSignature ||
        isNull outConfirmation, .invalidState),
      (!ptrIsAligned formats.sessionManager manager ||
        !ptrIsAligned formats.signingKey87 ownSigningKey ||
        !ptrIsAligned formats.publicKey87 peerVerifyingKey ||
        !ptrIsAligned formats.x25519Public peerX25519Pk ||
        !ptrIsAligned formats.ciphertext1024 mlKemCt ||
        !ptrIsAligned formats.signature87 peerSignature ||
        !ptrIsAligned formats.signature87 outSignature, .invalidState),
      (isNull salt && decide (0 < saltLen) ||
        isNull appInfo && decide (0 < appInfoLen) || !rangeOk salt saltLen ||
        decide (maxAppInfoLen < appInfoLen) || !rangeOk appInfo appInfoLen,
        .invalidLength),
      (writableRegionsOverlap
        [⟨manager, formats.sessionManager.size, true⟩,
          ⟨ownSigningKey, formats.signingKey87.size, false⟩,
          ⟨peerVerifyingKey, formats.publicKey87.size, false⟩,
          ⟨peerX25519Pk, formats.x25519Public.size, false⟩,
          ⟨mlKemCt, formats.ciphertext1024.size, false⟩,
          ⟨peerSignature, formats.signature87.size, false⟩,
          ⟨salt, saltLen, false⟩, ⟨appInfo, appInfoLen, false⟩,
          ⟨peerConfirmation, 48, false⟩,
          ⟨outSignature, formats.signature87.size, true⟩,
          ⟨outConfirmation, 48, true⟩], .invalidLength)]
  body memory :=
    forward formats manager
      ((formats.sessionManager.load memory manager).finalizeAuthenticated
        prims.toPrimitives
        { ownSigningKey := formats.signingKey87.load memory ownSigningKey
          peerVerifyingKey := formats.publicKey87.load memory peerVerifyingKey
          peerX25519Pk := formats.x25519Public.load memory peerX25519Pk
          mlKemCt := formats.ciphertext1024.load memory mlKemCt
          peerSignature := formats.signature87.load memory peerSignature
          peerConfirmation := readBlock memory peerConfirmation 48
          salt := read memory salt saltLen.toNat
          appInfo := read memory appInfo appInfoLen.toNat })
      fun output =>
        [formats.signature87.write outSignature output.signature,
          ⟨outConfirmation, output.confirmation.bytes⟩]

def sessionManagerConfirmPeerV2
    (manager peerVerifyingKey peerSignature peerConfirmation : UInt64) :
    EntryPoint where
  checks :=
    [(isNull manager || isNull peerVerifyingKey || isNull peerSignature ||
        isNull peerConfirmation, .invalidState),
      (!ptrIsAligned formats.sessionManager manager ||
        !ptrIsAligned formats.publicKey87 peerVerifyingKey ||
        !ptrIsAligned formats.signature87 peerSignature, .invalidState),
      (writableRegionsOverlap
        [⟨manager, formats.sessionManager.size, true⟩,
          ⟨peerVerifyingKey, formats.publicKey87.size, false⟩,
          ⟨peerSignature, formats.signature87.size, false⟩,
          ⟨peerConfirmation, 48, false⟩], .invalidLength)]
  body memory :=
    forward formats manager
      ((formats.sessionManager.load memory manager).confirmPeer
        prims.toPrimitives
        { peerVerifyingKey := formats.publicKey87.load memory peerVerifyingKey
          peerSignature := formats.signature87.load memory peerSignature
          peerConfirmation := readBlock memory peerConfirmation 48 })
      fun _ => []

def sessionManagerZeroize (manager : UInt64) : EntryPoint where
  checks :=
    [(isNull manager, .invalidState),
      (!ptrIsAligned formats.sessionManager manager, .invalidState)]
  body memory :=
    ⟨.success, [formats.sessionManager.write manager
      (formats.sessionManager.load memory manager).zeroizeSession]⟩

/-- The packet functions write through their buffers, also when they fail. -/
def sessionManagerEncryptPacket
    (manager aad aadLen plaintext ciphertext dataLen outNonce outTag :
      UInt64) : EntryPoint where
  checks :=
    [(isNull manager || !ptrIsAligned formats.sessionManager manager ||
        isNull plaintext && decide (0 < dataLen) ||
        isNull ciphertext && decide (0 < dataLen) || isNull outNonce ||
        isNull outTag || isNull aad && decide (0 < aadLen) ||
        !rangeOk aad aadLen || !packetLenValid dataLen ||
        !rangeOk plaintext dataLen || !rangeOk ciphertext dataLen ||
        sessionEncryptBuffersOverlap formats.layout manager aad aadLen
          plaintext ciphertext dataLen outNonce outTag, .invalidLength)]
  body memory :=
    let outcome :=
      (formats.sessionManager.load memory manager).encryptPacket
        prims.toPrimitives (readSlice memory aad aadLen)
        (read memory plaintext dataLen.toNat)
        (read memory ciphertext dataLen.toNat) (readBlock memory outNonce 12)
        (readBlock memory outTag 48)
    ⟨codeOf outcome.result,
      [formats.sessionManager.write manager outcome.manager,
        ⟨ciphertext, outcome.ciphertext⟩, ⟨outNonce, outcome.nonce.bytes⟩,
        ⟨outTag, outcome.tag.bytes⟩]⟩

def sessionManagerDecryptPacket
    (manager aad aadLen ciphertext dataLen nonce tag plaintext : UInt64) :
    EntryPoint where
  checks :=
    [(isNull manager || !ptrIsAligned formats.sessionManager manager ||
        isNull ciphertext && decide (0 < dataLen) || isNull nonce ||
        isNull tag || isNull plaintext && decide (0 < dataLen) ||
        isNull aad && decide (0 < aadLen) || !rangeOk aad aadLen ||
        !packetLenValid dataLen || !rangeOk ciphertext dataLen ||
        !rangeOk plaintext dataLen ||
        sessionDecryptBuffersOverlap formats.layout manager aad aadLen
          ciphertext dataLen nonce tag plaintext, .invalidLength)]
  body memory :=
    let outcome :=
      (formats.sessionManager.load memory manager).decryptPacket
        prims.toPrimitives (readSlice memory aad aadLen)
        (read memory ciphertext dataLen.toNat) (readBlock memory nonce 12)
        (readBlock memory tag 48) (read memory plaintext dataLen.toNat)
    ⟨codeOf outcome.result,
      [formats.sessionManager.write manager outcome.manager,
        ⟨plaintext, outcome.plaintext⟩]⟩

/-! ### Keys -/

def cryptoMlKemKeygen (entropy outPk outDk : UInt64) : EntryPoint where
  checks :=
    [(isNull entropy || isNull outPk || isNull outDk, .invalidState),
      (!ptrIsAligned formats.publicKey1024 outPk ||
        !ptrIsAligned formats.decapsKey1024 outDk, .invalidState),
      (rangesOverlap outPk formats.publicKey1024.size outDk
          formats.decapsKey1024.size ||
        rangesOverlap entropy 64 outPk formats.publicKey1024.size ||
        rangesOverlap entropy 64 outDk formats.decapsKey1024.size,
        .invalidLength)]
  body memory :=
    deliver (mlKemKeygen prims.toPrimitives (readBlock memory entropy 64))
      fun (pk, dk) =>
        [formats.publicKey1024.write outPk pk,
          formats.decapsKey1024.write outDk dk]

def cryptoMlKemEncapsulate (pk entropy outShared outCt : UInt64) :
    EntryPoint where
  checks :=
    [(isNull pk || isNull entropy || isNull outShared || isNull outCt,
        .invalidState),
      (!ptrIsAligned formats.publicKey1024 pk ||
        !ptrIsAligned formats.sharedKey1024 outShared ||
        !ptrIsAligned formats.ciphertext1024 outCt, .invalidState),
      (rangesOverlap outShared formats.sharedKey1024.size outCt
          formats.ciphertext1024.size ||
        rangesOverlap outShared formats.sharedKey1024.size pk
          formats.publicKey1024.size ||
        rangesOverlap outCt formats.ciphertext1024.size pk
          formats.publicKey1024.size ||
        rangesOverlap outShared formats.sharedKey1024.size entropy 32 ||
        rangesOverlap outCt formats.ciphertext1024.size entropy 32,
        .invalidLength)]
  body memory :=
    deliver (mlKemEncapsulate prims.toPrimitives
        (formats.publicKey1024.load memory pk) (readBlock memory entropy 32))
      fun (shared, ct) =>
        [formats.sharedKey1024.write outShared shared,
          formats.ciphertext1024.write outCt ct]

def cryptoMlKemDecapsulate (dk ct outShared : UInt64) : EntryPoint where
  checks :=
    [(isNull dk || isNull ct || isNull outShared, .invalidState),
      (!ptrIsAligned formats.decapsKey1024 dk ||
        !ptrIsAligned formats.ciphertext1024 ct ||
        !ptrIsAligned formats.sharedKey1024 outShared, .invalidState),
      (rangesOverlap outShared formats.sharedKey1024.size dk
          formats.decapsKey1024.size ||
        rangesOverlap outShared formats.sharedKey1024.size ct
          formats.ciphertext1024.size, .invalidLength)]
  body memory :=
    deliver (mlKemDecapsulate prims.toPrimitives
        (formats.decapsKey1024.load memory dk)
        (formats.ciphertext1024.load memory ct))
      fun shared => [formats.sharedKey1024.write outShared shared]

def mlDsaKeygen (seed : Block 32) : PublicKey87 × SigningKey :=
  (prims.mlDsaVerifyingKey (prims.mlDsaFromSeed seed),
    prims.mlDsaFromSeed seed)

def mlDsaSign (sk : SigningKey) (msg : Bytes) :
    Except CryptoError Signature87 :=
  if h : (prims.mlDsaSign sk msg).length = 4627 then
    .ok ⟨prims.mlDsaSign sk msg, h⟩
  else
    .error .invalidLength

def mlDsaVerify (pk : PublicKey87) (msg : Bytes) (sig : Signature87) :
    Except CryptoError Unit :=
  if !prims.mlDsaSignatureTryFrom sig then
    .error .verificationFailed
  else if prims.mlDsaVerify pk msg sig then
    .ok ()
  else
    .error .verificationFailed

def cryptoMlDsaKeygen (seed outPk outSk : UInt64) : EntryPoint where
  checks :=
    [(isNull seed || isNull outPk || isNull outSk, .invalidState),
      (!ptrIsAligned formats.publicKey87 outPk ||
        !ptrIsAligned formats.signingKey87 outSk, .invalidState),
      (rangesOverlap outPk formats.publicKey87.size outSk
          formats.signingKey87.size ||
        rangesOverlap seed 32 outPk formats.publicKey87.size ||
        rangesOverlap seed 32 outSk formats.signingKey87.size,
        .invalidLength)]
  body memory :=
    let (pk, sk) := mlDsaKeygen prims (readBlock memory seed 32)
    ⟨.success, [formats.publicKey87.write outPk pk,
      formats.signingKey87.write outSk sk]⟩

def cryptoMlDsaSign (sk msg msgLen outSig : UInt64) : EntryPoint where
  checks :=
    [(isNull sk || isNull msg && decide (0 < msgLen) || isNull outSig,
        .invalidState),
      (!rangeOk msg msgLen, .invalidLength),
      (!ptrIsAligned formats.signingKey87 sk ||
        !ptrIsAligned formats.signature87 outSig, .invalidState),
      (rangesOverlap outSig formats.signature87.size sk
          formats.signingKey87.size ||
        rangesOverlap outSig formats.signature87.size msg msgLen,
        .invalidLength)]
  body memory :=
    deliver (mlDsaSign prims (formats.signingKey87.load memory sk)
        (read memory msg msgLen.toNat))
      fun sig => [formats.signature87.write outSig sig]

def cryptoMlDsaVerify (pk msg msgLen sig : UInt64) : EntryPoint where
  checks :=
    [(isNull pk || isNull msg && decide (0 < msgLen) || isNull sig,
        .invalidState),
      (!rangeOk msg msgLen, .invalidLength),
      (!ptrIsAligned formats.publicKey87 pk ||
        !ptrIsAligned formats.signature87 sig, .invalidState)]
  body memory :=
    deliver (mlDsaVerify prims (formats.publicKey87.load memory pk)
        (read memory msg msgLen.toNat) (formats.signature87.load memory sig))
      fun _ => []

def cryptoX25519Keygen (entropy outPk outSk : UInt64) : EntryPoint where
  checks :=
    [(isNull entropy || isNull outPk || isNull outSk, .invalidState),
      (!ptrIsAligned formats.x25519Public outPk ||
        !ptrIsAligned formats.x25519Secret outSk, .invalidState),
      (rangesOverlap outPk formats.x25519Public.size outSk
          formats.x25519Secret.size ||
        rangesOverlap entropy 32 outPk formats.x25519Public.size ||
        rangesOverlap entropy 32 outSk formats.x25519Secret.size,
        .invalidLength)]
  body memory :=
    let (pk, sk) := x25519Keygen prims.toPrimitives
      (readBlock memory entropy 32)
    ⟨.success, [formats.x25519Public.write outPk pk,
      formats.x25519Secret.write outSk sk]⟩

def cryptoX25519DiffieHellman (sk peerPk outShared : UInt64) : EntryPoint where
  checks :=
    [(isNull sk || isNull peerPk || isNull outShared, .invalidState),
      (!ptrIsAligned formats.x25519Secret sk ||
        !ptrIsAligned formats.x25519Public peerPk ||
        !ptrIsAligned formats.x25519SharedSecret outShared, .invalidState),
      (rangesOverlap outShared formats.x25519SharedSecret.size sk
          formats.x25519Secret.size ||
        rangesOverlap outShared formats.x25519SharedSecret.size peerPk
          formats.x25519Public.size, .invalidLength)]
  body memory :=
    deliver (x25519DiffieHellman prims.toPrimitives
        (formats.x25519Secret.load memory sk)
        (formats.x25519Public.load memory peerPk))
      fun shared => [formats.x25519SharedSecret.write outShared shared]

/-- The functions which drop a key in place. -/
def dropInPlace {α : Type} (format : Format α) (dropped : α → α)
    (object : UInt64) : EntryPoint where
  checks :=
    [(isNull object, .invalidState),
      (!ptrIsAligned format object, .invalidState)]
  body memory :=
    ⟨.success, [format.write object (dropped (format.load memory object))]⟩

def mlKemDecapskeyDestroy (dk : UInt64) : EntryPoint :=
  dropInPlace formats.decapsKey1024 prims.dropDecapsKey dk

def mlKemSharedkeyDestroy (sk : UInt64) : EntryPoint :=
  dropInPlace formats.sharedKey1024 (fun _ => Block.fill 32 0) sk

def mlDsaSigningkeyDestroy (sk : UInt64) : EntryPoint :=
  dropInPlace formats.signingKey87 prims.dropSigningKey sk

def x25519SecretDestroy (sk : UInt64) : EntryPoint :=
  dropInPlace formats.x25519Secret (fun _ => Block.fill 32 0) sk

def x25519SharedsecretDestroy (ss : UInt64) : EntryPoint :=
  dropInPlace formats.x25519SharedSecret (fun _ => Block.fill 32 0) ss

/-! ### Wire encodings -/

/-- What `wire_codec!` is given for a type. -/
structure WireCodec (α : Type) where
  format : Format α
  length : UInt64
  encode : α → Block length.toNat
  decode : Block length.toNat → Except CryptoError α

def WireCodec.toBytes {α : Type} (codec : WireCodec α)
    (value out outLen : UInt64) : EntryPoint where
  checks :=
    [(isNull value || isNull out, .invalidState),
      (!ptrIsAligned codec.format value, .invalidState),
      (outLen != codec.length, .invalidLength),
      (rangesOverlap value codec.format.size out outLen, .invalidLength)]
  body memory :=
    ⟨.success,
      [⟨out, (codec.encode (codec.format.load memory value)).bytes⟩]⟩

def WireCodec.fromBytes {α : Type} (codec : WireCodec α)
    (bytes len out : UInt64) : EntryPoint where
  checks :=
    [(isNull bytes || isNull out, .invalidState),
      (!ptrIsAligned codec.format out, .invalidState),
      (len != codec.length, .invalidLength),
      (rangesOverlap bytes len out codec.format.size, .invalidLength)]
  body memory :=
    deliver (codec.decode (readBlock memory bytes codec.length.toNat))
      fun value => [codec.format.write out value]

def mlKemPublickeyFromBytes (bytes : Block 1568) :
    Except CryptoError PublicKey1024 :=
  if prims.mlKemEncapsulationKeyNew bytes then .ok bytes
  else .error .invalidState

def mlKemPublickeyCodec : WireCodec PublicKey1024 :=
  ⟨formats.publicKey1024, 1568, id, mlKemPublickeyFromBytes prims⟩

def mlKemCiphertextCodec : WireCodec Ciphertext1024 :=
  ⟨formats.ciphertext1024, 1568, id, .ok⟩

def x25519PublickeyCodec : WireCodec X25519Public :=
  ⟨formats.x25519Public, 32, id, .ok⟩

def mlDsaPublickeyCodec : WireCodec PublicKey87 :=
  ⟨formats.publicKey87, 2592, id, .ok⟩

def mlDsaSignatureCodec : WireCodec Signature87 :=
  ⟨formats.signature87, 4627, id, .ok⟩

/-! ### MAC, key derivation and AEAD -/

def cryptoHmacSha384 (key data dataLen outMac : UInt64) : EntryPoint where
  checks :=
    [(isNull key || isNull data && decide (0 < dataLen) || isNull outMac,
        .invalidState),
      (!rangeOk data dataLen, .invalidLength),
      (rangesOverlap outMac 48 key 32 || rangesOverlap outMac 48 data dataLen,
        .invalidLength)]
  body memory :=
    deliver (hmacSha384 prims.toPrimitives (read memory key 32)
        (read memory data dataLen.toNat))
      fun mac => [⟨outMac, mac.bytes⟩]

/-- `hkdf_expand_sha384` with the output buffer before and after it. -/
def hkdfExpandSha384 (prk : Block 48) (info out : Bytes) :
    Except CryptoError Unit × Bytes :=
  if !prims.hkdfFromPrk prk then
    (.error .invalidLength, out)
  else
    match hkdfExpand prims.toPrimitives prk info out.length with
    | none => (.error .hkdfError, List.replicate out.length 0)
    | some okm => (.ok (), okm.bytes)

def cryptoHkdfExpandSha384 (prk info infoLen out outLen : UInt64) :
    EntryPoint where
  checks :=
    [(isNull prk || isNull info && decide (0 < infoLen) ||
        isNull out && decide (0 < outLen), .invalidState),
      (!rangeOk info infoLen || !rangeOk out outLen, .invalidLength),
      (rangesOverlap out outLen prk 48 || rangesOverlap out outLen info infoLen,
        .invalidLength)]
  body memory :=
    let outcome := hkdfExpandSha384 prims (readBlock memory prk 48)
      (read memory info infoLen.toNat) (read memory out outLen.toNat)
    ⟨codeOf outcome.1, [⟨out, outcome.2⟩]⟩

def cryptoAeadEncrypt
    (encKey macKey nonce aad aadLen plaintext ciphertext dataLen outMac :
      UInt64) : EntryPoint where
  checks :=
    [(isNull encKey || isNull macKey || isNull nonce ||
        isNull plaintext && decide (0 < dataLen) ||
        isNull ciphertext && decide (0 < dataLen) || isNull outMac,
        .invalidState),
      (isNull aad && decide (0 < aadLen) || !rangeOk aad aadLen ||
        !packetLenValid dataLen || !rangeOk plaintext dataLen ||
        !rangeOk ciphertext dataLen, .invalidLength),
      (aeadEncryptBuffersOverlap encKey macKey nonce aad aadLen plaintext
        ciphertext outMac dataLen, .invalidLength)]
  body memory :=
    let outcome := aeadEncrypt prims.toPrimitives (readBlock memory encKey 32)
      (readBlock memory macKey 32) (readBlock memory nonce 12)
      (readSlice memory aad aadLen) (read memory plaintext dataLen.toNat)
      (read memory ciphertext dataLen.toNat) (readBlock memory outMac 48)
    ⟨codeOf outcome.result,
      [⟨ciphertext, outcome.ciphertext⟩, ⟨outMac, outcome.outMac.bytes⟩]⟩

def cryptoAeadDecrypt
    (encKey macKey nonce aad aadLen ciphertext mac plaintext dataLen :
      UInt64) : EntryPoint where
  checks :=
    [(isNull encKey || isNull macKey || isNull nonce ||
        isNull ciphertext && decide (0 < dataLen) || isNull mac ||
        isNull plaintext && decide (0 < dataLen), .invalidState),
      (isNull aad && decide (0 < aadLen) || !rangeOk aad aadLen ||
        !packetLenValid dataLen || !rangeOk ciphertext dataLen ||
        !rangeOk plaintext dataLen, .invalidLength),
      (aeadDecryptBuffersOverlap encKey macKey nonce aad aadLen ciphertext mac
        plaintext dataLen, .invalidLength)]
  body memory :=
    let outcome := aeadDecrypt prims.toPrimitives (readBlock memory encKey 32)
      (readBlock memory macKey 32) (readBlock memory nonce 12)
      (readSlice memory aad aadLen) (read memory ciphertext dataLen.toNat)
      (readBlock memory mac 48) (read memory plaintext dataLen.toNat)
    ⟨codeOf outcome.result, [⟨plaintext, outcome.plaintext⟩]⟩

end EntryPoints

end Ffi
end ShawnCore
