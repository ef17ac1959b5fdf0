import ShawnCore.ByteBlocks
import ShawnCore.ByteMemory

/-!
# Encodings of fixed length

An encoding of values by a fixed number of bytes, which is read from the front
of a byte string.  Encodings compose field by field, so that a record gets a
storage format from those of its fields.
-/

namespace ByteCodec

open ByteBlocks
open ByteMemory (Format)

structure Codec (α : Type) (n : ℕ) where
  encode : α → Bytes
  decode : Bytes → α
  length_encode : ∀ value, (encode value).length = n
  decode_append : ∀ value rest, decode (encode value ++ rest) = value

namespace Codec

variable {α β : Type} {m n : ℕ}

theorem decode_encode (codec : Codec α n) (value : α) :
    codec.decode (codec.encode value) = value := by
  have hdecode := codec.decode_append value []
  rwa [List.append_nil] at hdecode

def block (n : ℕ) : Codec (Block n) n where
  encode value := value.bytes
  decode bytes := .clip n bytes
  length_encode value := value.length_eq
  decode_append value rest := by
    apply Block.ext
    simp [Block.clip]

def byte : Codec UInt8 1 where
  encode value := [value]
  decode bytes := bytes.headD 0
  length_encode _ := rfl
  decode_append _ _ := rfl

def flag : Codec Bool 1 where
  encode value := [value.toUInt8]
  decode bytes := bytes.headD 0 != 0
  length_encode _ := rfl
  decode_append value _ := by cases value <;> rfl

def word32 : Codec UInt32 4 where
  encode value := leBytes 4 value.toNat
  decode bytes := UInt32.ofNat (fromLeBytes (bytes.take 4))
  length_encode value := leBytes_length 4 value.toNat
  decode_append value rest := by
    rw [List.take_left' (leBytes_length 4 value.toNat), fromLeBytes_leBytes]
    exact (UInt32.ofNat_mod_size).trans (UInt32.ofNat_toNat)

def word64 : Codec UInt64 8 where
  encode value := leBytes 8 value.toNat
  decode bytes := UInt64.ofNat (fromLeBytes (bytes.take 8))
  length_encode value := leBytes_length 8 value.toNat
  decode_append value rest := by
    rw [List.take_left' (leBytes_length 8 value.toNat), fromLeBytes_leBytes]
    exact (UInt64.ofNat_mod_size).trans (UInt64.ofNat_toNat)

/-- A tag before the value, or before zeros. -/
def option (codec : Codec α n) : Codec (Option α) (1 + n) where
  encode
    | none => 0 :: List.replicate n 0
    | some value => 1 :: codec.encode value
  decode bytes :=
    if bytes.headD 0 = 0 then none else some (codec.decode (bytes.drop 1))
  length_encode value := by
    cases value with
    | none => simp [Nat.add_comm]
    | some value => simp [codec.length_encode, Nat.add_comm]
  decode_append value rest := by
    cases value with
    | none => rfl
    | some value => simp [codec.decode_append]

/-- One field after the other. -/
def pair (first : Codec α m) (second : Codec β n) : Codec (α × β) (m + n) where
  encode value := first.encode value.1 ++ second.encode value.2
  decode bytes := (first.decode bytes, second.decode (bytes.drop m))
  length_encode value := by
    simp [first.length_encode, second.length_encode]
  decode_append value rest := by
    rw [List.append_assoc, first.decode_append,
      List.drop_left' (first.length_encode value.1), second.decode_append]

def padded (codec : Codec α n) (padding : ℕ) : Codec α (n + padding) where
  encode value := codec.encode value ++ List.replicate padding 0
  decode := codec.decode
  length_encode value := by simp [codec.length_encode]
  decode_append value rest := by
    rw [List.append_assoc, codec.decode_append]

/-- A record through the tuple of its fields. -/
def map (codec : Codec α n) (make : α → β) (fields : β → α)
    (hmake : ∀ value, make (fields value) = value) : Codec β n where
  encode value := codec.encode (fields value)
  decode bytes := make (codec.decode bytes)
  length_encode value := codec.length_encode (fields value)
  decode_append value rest := by rw [codec.decode_append, hmake]

def format (codec : Codec α n) (size alignment : UInt64)
    (hsize : n = size.toNat) : Format α where
  size := size
  alignment := alignment
  encode := codec.encode
  decode := codec.decode
  length_encode value := (codec.length_encode value).trans hsize
  decode_encode := codec.decode_encode

end Codec

end ByteCodec
