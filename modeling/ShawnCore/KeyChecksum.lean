import ShawnCore.RotatingXor
import ShawnCore.SessionInvariant

/-!
# Corrupted session keys are noticed

`key_checksum` is a rotating checksum over the bytes of a key, each shifted to
one of four places of the word.  Two keys have the same checksum exactly if
the rotated differences of their bytes cancel, and one difference alone cannot
cancel.  So `verify_key_integrity` notices when a byte of a key has changed.
-/

namespace ShawnCore

open ByteBlocks
open RotatingXor

/-! ## The difference of two checksums -/

/-- `u32::rotate_left`. -/
def rotateLeft (word : UInt32) (amount : ℕ) : UInt32 :=
  ⟨word.toBitVec.rotateLeft amount⟩

/-- A byte of a key at its place in the word. -/
def placedByte (byte : UInt8) (index : ℕ) : UInt32 :=
  byte.toUInt32 <<< UInt32.ofNat (index % 4 * 8)

/-- The exclusive or of the differences of the bytes, each rotated by five bits
for every round from its own on. -/
def checksumDifference (key other : Block 64) : UInt32 :=
  (List.range 64).foldl
    (fun sum index => sum ^^^ rotateLeft
      (placedByte (key.bytes.getD index 0 ^^^ other.bytes.getD index 0) index)
      (5 * (64 - index) % 32))
    0

theorem rotateLeft5_toBitVec (word : UInt32) :
    (rotateLeft5 word).toBitVec = word.toBitVec.rotateLeft 5 := by
  rw [BitVec.rotateLeft_def]
  rfl

theorem placedByte_xor (byte other : UInt8) (index : ℕ) :
    placedByte (byte ^^^ other) index =
      placedByte byte index ^^^ placedByte other index := by
  simp only [placedByte, UInt8.toUInt32_xor, UInt32.shiftLeft_xor]

theorem placedByte_eq_zero_iff (byte : UInt8) (index : ℕ) :
    placedByte byte index = 0 ↔ byte = 0 := by
  have hbyte := byte.toNat_lt
  have hplace : index % 4 * 8 ≤ 24 := by omega
  have hbound : byte.toNat * 2 ^ (index % 4 * 8) < 2 ^ 32 :=
    calc
      byte.toNat * 2 ^ (index % 4 * 8) ≤ byte.toNat * 2 ^ 24 :=
        Nat.mul_le_mul_left _ (Nat.pow_le_pow_right (by decide) hplace)
      _ < 2 ^ 32 := by omega
  have hshift : (UInt32.ofNat (index % 4 * 8)).toNat % 32 = index % 4 * 8 := by
    rw [UInt32.toNat_ofNat']
    omega
  have hvalue : (placedByte byte index).toNat =
      byte.toNat * 2 ^ (index % 4 * 8) := by
    rw [placedByte, UInt32.toNat_shiftLeft, hshift, UInt8.toNat_toUInt32,
      Nat.shiftLeft_eq, Nat.mod_eq_of_lt hbound]
  rw [← UInt32.toNat_inj, hvalue, ← UInt8.toNat_inj]
  simp

theorem zipIdx_eq_map_range (bytes : Bytes) :
    bytes.zipIdx = (List.range bytes.length).map fun index =>
      (bytes.getD index 0, index) := by
  apply List.ext_getElem
  · simp
  · intro index hleft hright
    rw [List.length_zipIdx] at hleft
    simp [hleft]

theorem keyChecksum_toBitVec (key : Block 64) :
    (keyChecksum key).toBitVec =
      checksum 5 0x9E3779B9#32
        (fun index => (placedByte (key.bytes.getD index 0) index).toBitVec)
        64 := by
  rw [keyChecksum, zipIdx_eq_map_range, key.length_eq, List.foldl_map,
    checksum]
  refine (List.foldl_hom UInt32.toBitVec ?_).symm
  intro sum index
  rw [UInt32.toBitVec_xor, rotateLeft5_toBitVec, UInt32.toBitVec_xor]
  rfl

theorem checksumDifference_toBitVec (key other : Block 64) :
    (checksumDifference key other).toBitVec =
      xorSum 64 fun index =>
        ((placedByte (key.bytes.getD index 0) index).toBitVec ^^^
          (placedByte (other.bytes.getD index 0) index).toBitVec).rotateLeft
            (5 * (64 - index)) := by
  rw [checksumDifference, xorSum]
  refine (List.foldl_hom UInt32.toBitVec ?_).symm
  intro sum index
  rw [UInt32.toBitVec_xor, placedByte_xor, rotateLeft, UInt32.toBitVec_xor,
    BitVec.rotateLeft_mod_eq_rotateLeft]

theorem keyChecksum_eq_iff (key other : Block 64) :
    keyChecksum key = keyChecksum other ↔ checksumDifference key other = 0 := by
  rw [← UInt32.toBitVec_inj, ← BitVec.xor_eq_zero_iff, keyChecksum_toBitVec,
    keyChecksum_toBitVec, checksum_xor_checksum,
    ← checksumDifference_toBitVec, ← UInt32.toBitVec_inj]
  rfl

/-! ## One changed byte -/

/-- The key with this byte at this position. -/
def corrupt (key : Block 64) (position : ℕ) (value : UInt8) : Block 64 where
  bytes := key.bytes.set position value
  length_eq := by rw [List.length_set, key.length_eq]

theorem corrupt_of_le
    (key : Block 64) {position : ℕ} (hposition : 64 ≤ position)
    (value : UInt8) : corrupt key position value = key := by
  apply Block.ext
  exact List.set_eq_of_length_le (by rwa [key.length_eq])

theorem getD_corrupt_of_ne
    (key : Block 64) {position index : ℕ} (value : UInt8)
    (hother : index ≠ position) :
    (corrupt key position value).bytes.getD index 0 =
      key.bytes.getD index 0 := by
  rw [List.getD_eq_getElem?_getD, List.getD_eq_getElem?_getD, corrupt,
    List.getElem?_set_ne hother.symm]

theorem getD_corrupt_self
    (key : Block 64) {position : ℕ} (value : UInt8)
    (hposition : position < 64) :
    (corrupt key position value).bytes.getD position 0 = value := by
  rw [List.getD_eq_getElem?_getD, corrupt,
    List.getElem?_set_self (by rwa [key.length_eq]), Option.getD_some]

theorem corrupt_getD (key : Block 64) {position : ℕ} (hposition : position < 64) :
    corrupt key position (key.bytes.getD position 0) = key := by
  have hlength : position < key.bytes.length := by rwa [key.length_eq]
  apply Block.ext
  rw [List.getD_eq_getElem _ _ hlength]
  exact List.set_getElem_self hlength

/-- One difference alone does not cancel. -/
theorem corrupt_eq_of_checksumDifference
    (key : Block 64) {position : ℕ} (value : UInt8)
    (hposition : position < 64)
    (hzero : checksumDifference (corrupt key position value) key = 0) :
    corrupt key position value = key := by
  have hothers : ∀ index < 64, index ≠ position →
      ((placedByte ((corrupt key position value).bytes.getD index 0)
          index).toBitVec ^^^
        (placedByte (key.bytes.getD index 0) index).toBitVec).rotateLeft
          (5 * (64 - index)) = 0#32 := by
    intro index _ hother
    rw [getD_corrupt_of_ne key value hother, BitVec.xor_self,
      rotateLeft_eq_zero_iff]
  rw [← UInt32.toBitVec_inj, checksumDifference_toBitVec,
    xorSum_eq_single hposition hothers] at hzero
  have hplaced := (rotateLeft_eq_zero_iff _ _).mp hzero
  rw [getD_corrupt_self key value hposition, ← UInt32.toBitVec_xor,
    ← placedByte_xor] at hplaced
  have hbyte : value ^^^ key.bytes.getD position 0 = 0 :=
    (placedByte_eq_zero_iff _ position).mp (UInt32.toBitVec_inj.mp hplaced)
  rw [UInt8.xor_eq_zero_iff.mp hbyte]
  exact corrupt_getD key hposition

theorem keyChecksum_corrupt_eq_iff
    (key : Block 64) (position : ℕ) (value : UInt8) :
    keyChecksum (corrupt key position value) = keyChecksum key ↔
      corrupt key position value = key := by
  constructor
  · intro hsame
    by_cases hposition : position < 64
    · exact corrupt_eq_of_checksumDifference key value hposition
        ((keyChecksum_eq_iff _ key).mp hsame)
    · exact corrupt_of_le key (Nat.le_of_not_lt hposition) value
  · intro hsame
    rw [hsame]

namespace SessionManager

variable {DecapsKey SigningKey : Type}

/-- One of the keys does not match its stored checksum. -/
theorem verifyKeyIntegrity_of_mismatch
    {manager : SessionManager DecapsKey} {txKey rxKey : Block 64}
    (htx : manager.txKey = some txKey) (hrx : manager.rxKey = some rxKey)
    (hmismatch : keyChecksum txKey ≠ manager.txKeyChecksum ∨
      keyChecksum rxKey ≠ manager.rxKeyChecksum) :
    manager.verifyKeyIntegrity = .error .invalidState := by
  have hdifference : keyChecksum txKey ^^^ manager.txKeyChecksum |||
      keyChecksum rxKey ^^^ manager.rxKeyChecksum ≠ 0 := by
    rw [ne_eq, UInt32.or_eq_zero_iff, UInt32.xor_eq_zero_iff,
      UInt32.xor_eq_zero_iff]
    exact not_and_or.mpr hmismatch
  unfold verifyKeyIntegrity
  split
  next => rfl
  next =>
    simp only [htx, hrx]
    exact if_pos hdifference

theorem Coherent.corrupted_keys_noticed
    {manager : SessionManager DecapsKey} (hcoherent : manager.Coherent)
    {txKey rxKey corruptTx corruptRx : Block 64}
    (htx : manager.txKey = some txKey) (hrx : manager.rxKey = some rxKey)
    (hchanged : keyChecksum corruptTx ≠ keyChecksum txKey ∨
      keyChecksum corruptRx ≠ keyChecksum rxKey) :
    { manager with
      txKey := some corruptTx
      rxKey := some corruptRx }.verifyKeyIntegrity =
        .error .invalidState := by
  have htxSum := hcoherent.txKeyChecksum_eq
  have hrxSum := hcoherent.rxKeyChecksum_eq
  rw [htx] at htxSum
  rw [hrx] at hrxSum
  apply verifyKeyIntegrity_of_mismatch rfl rfl
  rw [htxSum, hrxSum]
  exact hchanged

/-- Two keys have the same checksum exactly if the rotated differences of their
bytes cancel.  So in every established session `verify_key_integrity` fails
after a change of one byte at most in each of the two keys, unless nothing has
changed. -/
theorem key_corruption_is_detected :
    (∀ key other : Block 64,
      keyChecksum key = keyChecksum other ↔
        checksumDifference key other = 0) ∧
    ∀ life : List (Invocation DecapsKey SigningKey),
      let manager := (new : SessionManager DecapsKey).afterCalls life
      manager.isEstablished = true →
        ∃ txKey rxKey, manager.txKey = some txKey ∧
          manager.rxKey = some rxKey ∧
          ∀ (txPosition rxPosition : ℕ) (txValue rxValue : UInt8),
            corrupt txKey txPosition txValue ≠ txKey ∨
              corrupt rxKey rxPosition rxValue ≠ rxKey →
            { manager with
              txKey := some (corrupt txKey txPosition txValue)
              rxKey := some (corrupt rxKey rxPosition rxValue)
              }.verifyKeyIntegrity = .error .invalidState := by
  refine ⟨keyChecksum_eq_iff, ?_⟩
  intro life manager hestablished
  have hcoherent : manager.Coherent := Coherent.new.afterCalls life
  obtain ⟨txKey, htx⟩ := hcoherent.txKey_of_established hestablished
  obtain ⟨rxKey, hrx⟩ := hcoherent.rxKey_of_established hestablished
  refine ⟨txKey, rxKey, htx, hrx, ?_⟩
  intro txPosition rxPosition txValue rxValue hchanged
  apply hcoherent.corrupted_keys_noticed htx hrx
  rw [ne_eq, ne_eq, keyChecksum_corrupt_eq_iff, keyChecksum_corrupt_eq_iff]
  exact hchanged

theorem flipped_bit_is_detected :
    let manager : SessionManager UInt8 := new.afterCalls [referenceInstall]
    ∃ txKey rxKey : Block 64, manager.txKey = some txKey ∧
      manager.rxKey = some rxKey ∧
      { manager with
        txKey := some (corrupt txKey 3 (txKey.bytes.getD 3 0 ^^^ 1))
        rxKey := some rxKey }.verifyKeyIntegrity = .error .invalidState := by
  intro manager
  have hestablished : manager.isEstablished = true := by decide +kernel
  obtain ⟨txKey, rxKey, htx, hrx, hnoticed⟩ :=
    key_corruption_is_detected.2 [referenceInstall] hestablished
  have hflipped : corrupt txKey 3 (txKey.bytes.getD 3 0 ^^^ 1) ≠ txKey := by
    intro hsame
    have hbyte := getD_corrupt_self txKey (txKey.bytes.getD 3 0 ^^^ 1)
      (show 3 < 64 by decide)
    rw [hsame] at hbyte
    have hflip := UInt8.xor_eq_zero_iff.mpr hbyte
    rw [← UInt8.xor_assoc, UInt8.xor_self, UInt8.zero_xor] at hflip
    cases hflip
  have hkept : corrupt rxKey 64 0 = rxKey := corrupt_of_le rxKey le_rfl 0
  have hresult := hnoticed 3 64 (txKey.bytes.getD 3 0 ^^^ 1) 0
    (Or.inl hflipped)
  rw [hkept] at hresult
  exact ⟨txKey, rxKey, htx, hrx, hresult⟩

end SessionManager

end ShawnCore
