import ShawnCore.ByteCodec
import ShawnCore.CryptoInterface
import ShawnCore.ReferencePrimitives

/-!
# A storage layout for the objects of the interface

The reference primitives with storage formats for all objects: every object is
aligned to 64 bytes and as large as the library says, and the fields of a
manager are stored one after the other.  It shows that the formats can be met
together and lets calls be evaluated.
-/

namespace ShawnCore
namespace Reference

open ByteBlocks
open ByteCodec
open ByteMemory (Format)

def pendingAuthenticationCodec : Codec PendingAuthentication 144 :=
  ((Codec.block 48).pair ((Codec.block 48).pair (Codec.block 48))).map
    (fun (digest, peerIdentity, confirmationKey) =>
      ⟨digest, peerIdentity, confirmationKey⟩)
    (fun pending =>
      (pending.digest, pending.peerIdentity, pending.confirmationKey))
    fun _ => rfl

def sessionManagerCodec : Codec (SessionManager UInt8) 343 :=
  (Codec.byte.option.pair ((Codec.block 32).option.pair
    ((Codec.block 64).option.pair ((Codec.block 64).option.pair
    (Codec.word32.pair (Codec.word32.pair (Codec.flag.pair
    (Codec.word64.pair (Codec.word64.pair (Codec.word64.pair
    pendingAuthenticationCodec.option)))))))))).map
    (fun (mlKemDk, x25519Sk, txKey, rxKey, txKeyChecksum, rxKeyChecksum,
        isEstablished, txCounter, rxCounter, rxWindow, pendingAuth) =>
      { mlKemDk, x25519Sk, txKey, rxKey, txKeyChecksum, rxKeyChecksum,
        isEstablished, txCounter, rxCounter, rxWindow, pendingAuth })
    (fun manager =>
      (manager.mlKemDk, manager.x25519Sk, manager.txKey, manager.rxKey,
        manager.txKeyChecksum, manager.rxKeyChecksum, manager.isEstablished,
        manager.txCounter, manager.rxCounter, manager.rxWindow,
        manager.pendingAuth))
    fun _ => rfl

theorem managerSize_eq : 343 + 41 = (384 : UInt64).toNat := rfl
theorem keySize_eq : 1 + 63 = (64 : UInt64).toNat := rfl
theorem block32Size_eq : 32 + 32 = (64 : UInt64).toNat := rfl
theorem block1568Size_eq : 1568 + 32 = (1600 : UInt64).toNat := rfl
theorem block2592Size_eq : 2592 + 32 = (2624 : UInt64).toNat := rfl
theorem block4627Size_eq : 4627 + 45 = (4672 : UInt64).toNat := rfl

def keyFormat : Format UInt8 :=
  (Codec.byte.padded 63).format 64 64 keySize_eq

def block32Format : Format (Block 32) :=
  ((Codec.block 32).padded 32).format 64 64 block32Size_eq

def block1568Format : Format (Block 1568) :=
  ((Codec.block 1568).padded 32).format 1600 64 block1568Size_eq

def formats : Ffi.Formats UInt8 UInt8 where
  sessionManager := (sessionManagerCodec.padded 41).format 384 64 managerSize_eq
  publicKey1024 := block1568Format
  decapsKey1024 := keyFormat
  sharedKey1024 := block32Format
  ciphertext1024 := block1568Format
  publicKey87 := ((Codec.block 2592).padded 32).format 2624 64 block2592Size_eq
  signingKey87 := keyFormat
  signature87 := ((Codec.block 4627).padded 45).format 4672 64 block4627Size_eq
  x25519Public := block32Format
  x25519Secret := block32Format
  x25519SharedSecret := block32Format

theorem primitives_chacha20_length
    (key : Block 32) (nonce : Block 12) (buffer : Bytes) :
    (primitives.chacha20TryApplyKeystream key nonce buffer).2.length =
      buffer.length :=
  List.length_mapIdx

def interfacePrimitives : Ffi.InterfacePrimitives UInt8 UInt8 where
  toPrimitives := primitives
  chacha20_length := primitives_chacha20_length
  hkdfFromPrk _ := true
  mlKemEncapsulationKeyNew key :=
    decide (key = Block.fill 1568 (firstByte key))
  mlDsaFromSeed seed := firstByte seed
  mlDsaSign sk msg := (signature (Block.fill 2592 sk) msg []).bytes
  mlDsaVerify pk msg sig := decide (sig = signature pk msg [])
  dropDecapsKey _ := 0
  dropSigningKey _ := 0

end Reference
end ShawnCore
