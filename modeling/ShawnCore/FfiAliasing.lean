import ShawnCore.AddressRange
import ShawnCore.PairCheck

/-!
# The aliasing checks of the C interface

The functions of the C interface get raw pointers from the host.  Before any of
them is dereferenced, every range which will be written, and the session
manager, is compared with every other argument.  Pointers and lengths are
64-bit, and the sizes of opaque types are whatever the compiler lays out.
-/

namespace ShawnCore
namespace Ffi

open AddressRange (Wraps Contains)
open PairCheck (anyPair)

/-- One argument: an address, a length and whether it may be written. -/
structure Region where
  address : UInt64
  length : UInt64
  writable : Bool
  deriving DecidableEq, Repr

def Region.Has (region : Region) (address : UInt64) : Prop :=
  Contains region.address region.length address

/-! ## The checks -/

def rangesOverlap (first firstLen second secondLen : UInt64) : Bool :=
  if firstLen = 0 ∨ secondLen = 0 then
    false
  else if Wraps first firstLen then
    true
  else if Wraps second secondLen then
    true
  else
    decide (first < second + secondLen) && decide (second < first + firstLen)

/-- The condition inside the two loops. -/
def Region.conflicts (first second : Region) : Bool :=
  (first.writable || second.writable) && decide (0 < first.length) &&
    decide (0 < second.length) &&
    rangesOverlap first.address first.length second.address second.length

def writableRegionsOverlap (regions : List Region) : Bool :=
  anyPair Region.conflicts regions

/-- What `size_of` gives for the types; those with a cache alignment are larger
than the arrays in them. -/
structure Layout where
  sessionManager : UInt64
  publicKey1024 : UInt64
  ciphertext1024 : UInt64
  x25519Public : UInt64
  deriving DecidableEq, Repr

section Checks

variable (layout : Layout)

def sessionEncryptBuffersOverlap
    (manager aad aadLen plaintext ciphertext dataLen outNonce outTag :
      UInt64) : Bool :=
  rangesOverlap manager layout.sessionManager aad aadLen ||
  rangesOverlap manager layout.sessionManager plaintext dataLen ||
  rangesOverlap manager layout.sessionManager ciphertext dataLen ||
  rangesOverlap manager layout.sessionManager outNonce 12 ||
  rangesOverlap manager layout.sessionManager outTag 48 ||
  rangesOverlap ciphertext dataLen aad aadLen ||
  rangesOverlap ciphertext dataLen plaintext dataLen ||
  rangesOverlap ciphertext dataLen outNonce 12 ||
  rangesOverlap ciphertext dataLen outTag 48 ||
  rangesOverlap outNonce 12 aad aadLen ||
  rangesOverlap outNonce 12 plaintext dataLen ||
  rangesOverlap outNonce 12 outTag 48 ||
  rangesOverlap outTag 48 aad aadLen ||
  rangesOverlap outTag 48 plaintext dataLen

def sessionDecryptBuffersOverlap
    (manager aad aadLen ciphertext dataLen nonce tag plaintext : UInt64) :
    Bool :=
  rangesOverlap manager layout.sessionManager aad aadLen ||
  rangesOverlap manager layout.sessionManager ciphertext dataLen ||
  rangesOverlap manager layout.sessionManager nonce 12 ||
  rangesOverlap manager layout.sessionManager tag 48 ||
  rangesOverlap manager layout.sessionManager plaintext dataLen ||
  rangesOverlap plaintext dataLen aad aadLen ||
  rangesOverlap plaintext dataLen ciphertext dataLen ||
  rangesOverlap plaintext dataLen nonce 12 ||
  rangesOverlap plaintext dataLen tag 48

def aeadEncryptBuffersOverlap
    (encKey macKey nonce aad aadLen plaintext ciphertext outMac dataLen :
      UInt64) : Bool :=
  rangesOverlap ciphertext dataLen encKey 32 ||
  rangesOverlap ciphertext dataLen macKey 32 ||
  rangesOverlap ciphertext dataLen nonce 12 ||
  rangesOverlap ciphertext dataLen aad aadLen ||
  rangesOverlap ciphertext dataLen plaintext dataLen ||
  rangesOverlap outMac 48 encKey 32 ||
  rangesOverlap outMac 48 macKey 32 ||
  rangesOverlap outMac 48 nonce 12 ||
  rangesOverlap outMac 48 aad aadLen ||
  rangesOverlap outMac 48 plaintext dataLen ||
  rangesOverlap outMac 48 ciphertext dataLen

def aeadDecryptBuffersOverlap
    (encKey macKey nonce aad aadLen ciphertext mac plaintext dataLen :
      UInt64) : Bool :=
  rangesOverlap plaintext dataLen encKey 32 ||
  rangesOverlap plaintext dataLen macKey 32 ||
  rangesOverlap plaintext dataLen nonce 12 ||
  rangesOverlap plaintext dataLen aad aadLen ||
  rangesOverlap plaintext dataLen ciphertext dataLen ||
  rangesOverlap plaintext dataLen mac 48

/-- The check inside `shawncore_crypto_session_manager_encapsulate_for_peer`. -/
def encapsulateForPeerBuffersOverlap
    (manager peerMlKemPk peerX25519Pk entropy salt saltLen info infoLen outCt
      outMyX25519Pk : UInt64) : Bool :=
  rangesOverlap outCt layout.ciphertext1024 outMyX25519Pk
    layout.x25519Public ||
  rangesOverlap outCt layout.ciphertext1024 peerMlKemPk
    layout.publicKey1024 ||
  rangesOverlap outCt layout.ciphertext1024 peerX25519Pk
    layout.x25519Public ||
  rangesOverlap outCt layout.ciphertext1024 manager layout.sessionManager ||
  rangesOverlap outCt layout.ciphertext1024 entropy 64 ||
  rangesOverlap outCt layout.ciphertext1024 salt saltLen ||
  rangesOverlap outCt layout.ciphertext1024 info infoLen ||
  rangesOverlap outMyX25519Pk layout.x25519Public peerMlKemPk
    layout.publicKey1024 ||
  rangesOverlap outMyX25519Pk layout.x25519Public peerX25519Pk
    layout.x25519Public ||
  rangesOverlap outMyX25519Pk layout.x25519Public manager
    layout.sessionManager ||
  rangesOverlap outMyX25519Pk layout.x25519Public entropy 64 ||
  rangesOverlap outMyX25519Pk layout.x25519Public salt saltLen ||
  rangesOverlap outMyX25519Pk layout.x25519Public info infoLen ||
  rangesOverlap manager layout.sessionManager peerMlKemPk
    layout.publicKey1024 ||
  rangesOverlap manager layout.sessionManager peerX25519Pk
    layout.x25519Public ||
  rangesOverlap manager layout.sessionManager entropy 64 ||
  rangesOverlap manager layout.sessionManager salt saltLen ||
  rangesOverlap manager layout.sessionManager info infoLen

/-- A call of one of the hand-written checks. -/
inductive Check where
  | sessionEncrypt
      (manager aad aadLen plaintext ciphertext dataLen outNonce outTag :
        UInt64)
  | sessionDecrypt
      (manager aad aadLen ciphertext dataLen nonce tag plaintext : UInt64)
  | aeadEncrypt
      (encKey macKey nonce aad aadLen plaintext ciphertext outMac dataLen :
        UInt64)
  | aeadDecrypt
      (encKey macKey nonce aad aadLen ciphertext mac plaintext dataLen :
        UInt64)
  | encapsulateForPeer
      (manager peerMlKemPk peerX25519Pk entropy salt saltLen info infoLen
        outCt outMyX25519Pk : UInt64)
  deriving DecidableEq, Repr

def Check.overlap : Check → Bool
  | .sessionEncrypt manager aad aadLen plaintext ciphertext dataLen outNonce
      outTag =>
      sessionEncryptBuffersOverlap layout manager aad aadLen plaintext
        ciphertext dataLen outNonce outTag
  | .sessionDecrypt manager aad aadLen ciphertext dataLen nonce tag
      plaintext =>
      sessionDecryptBuffersOverlap layout manager aad aadLen ciphertext
        dataLen nonce tag plaintext
  | .aeadEncrypt encKey macKey nonce aad aadLen plaintext ciphertext outMac
      dataLen =>
      aeadEncryptBuffersOverlap encKey macKey nonce aad aadLen plaintext
        ciphertext outMac dataLen
  | .aeadDecrypt encKey macKey nonce aad aadLen ciphertext mac plaintext
      dataLen =>
      aeadDecryptBuffersOverlap encKey macKey nonce aad aadLen ciphertext
        mac plaintext dataLen
  | .encapsulateForPeer manager peerMlKemPk peerX25519Pk entropy salt saltLen
      info infoLen outCt outMyX25519Pk =>
      encapsulateForPeerBuffersOverlap layout manager peerMlKemPk
        peerX25519Pk entropy salt saltLen info infoLen outCt outMyX25519Pk

/-- All arguments of a call, in the order of its parameters: the manager and
the outputs are written, the inputs are read. -/
def Check.regions : Check → List Region
  | .sessionEncrypt manager aad aadLen plaintext ciphertext dataLen outNonce
      outTag =>
      [⟨manager, layout.sessionManager, true⟩, ⟨aad, aadLen, false⟩,
        ⟨plaintext, dataLen, false⟩, ⟨ciphertext, dataLen, true⟩,
        ⟨outNonce, 12, true⟩, ⟨outTag, 48, true⟩]
  | .sessionDecrypt manager aad aadLen ciphertext dataLen nonce tag
      plaintext =>
      [⟨manager, layout.sessionManager, true⟩, ⟨aad, aadLen, false⟩,
        ⟨ciphertext, dataLen, false⟩, ⟨nonce, 12, false⟩, ⟨tag, 48, false⟩,
        ⟨plaintext, dataLen, true⟩]
  | .aeadEncrypt encKey macKey nonce aad aadLen plaintext ciphertext outMac
      dataLen =>
      [⟨encKey, 32, false⟩, ⟨macKey, 32, false⟩, ⟨nonce, 12, false⟩,
        ⟨aad, aadLen, false⟩, ⟨plaintext, dataLen, false⟩,
        ⟨ciphertext, dataLen, true⟩, ⟨outMac, 48, true⟩]
  | .aeadDecrypt encKey macKey nonce aad aadLen ciphertext mac plaintext
      dataLen =>
      [⟨encKey, 32, false⟩, ⟨macKey, 32, false⟩, ⟨nonce, 12, false⟩,
        ⟨aad, aadLen, false⟩, ⟨ciphertext, dataLen, false⟩,
        ⟨mac, 48, false⟩, ⟨plaintext, dataLen, true⟩]
  | .encapsulateForPeer manager peerMlKemPk peerX25519Pk entropy salt saltLen
      info infoLen outCt outMyX25519Pk =>
      [⟨manager, layout.sessionManager, true⟩,
        ⟨peerMlKemPk, layout.publicKey1024, false⟩,
        ⟨peerX25519Pk, layout.x25519Public, false⟩, ⟨entropy, 64, false⟩,
        ⟨salt, saltLen, false⟩, ⟨info, infoLen, false⟩,
        ⟨outCt, layout.ciphertext1024, true⟩,
        ⟨outMyX25519Pk, layout.x25519Public, true⟩]

end Checks

/-! ## What the checks find -/

/-- Two ranges with an address in common, or of which one cannot be an
object. -/
structure Region.Overlaps (first second : Region) : Prop where
  first_length : first.length ≠ 0
  second_length : second.length ≠ 0
  overlap : Wraps first.address first.length ∨
    Wraps second.address second.length ∨
    ∃ address, first.Has address ∧ second.Has address

theorem rangesOverlap_of_empty
    {first firstLen second secondLen : UInt64}
    (hempty : firstLen = 0 ∨ secondLen = 0) :
    rangesOverlap first firstLen second secondLen = false :=
  if_pos hempty

theorem rangesOverlap_iff
    {first firstLen second secondLen : UInt64}
    (hfirst : firstLen ≠ 0) (hsecond : secondLen ≠ 0) :
    rangesOverlap first firstLen second secondLen = true ↔
      Wraps first firstLen ∨ Wraps second secondLen ∨
        ∃ address, Contains first firstLen address ∧
          Contains second secondLen address := by
  rw [rangesOverlap, if_neg (by simp [hfirst, hsecond])]
  by_cases hfirstEnd : Wraps first firstLen
  · simp [hfirstEnd]
  · by_cases hsecondEnd : Wraps second secondLen
    · simp [hsecondEnd]
    · rw [AddressRange.exists_common_iff hfirstEnd hsecondEnd hfirst hsecond]
      simp [hfirstEnd, hsecondEnd]

theorem rangesOverlap_comm (first firstLen second secondLen : UInt64) :
    rangesOverlap first firstLen second secondLen =
      rangesOverlap second secondLen first firstLen := by
  simp only [rangesOverlap, or_comm, Bool.and_comm]
  split_ifs <;> rfl

theorem conflicts_eq (first second : Region) :
    first.conflicts second =
      ((first.writable || second.writable) &&
        rangesOverlap first.address first.length second.address
          second.length) := by
  by_cases hempty : first.length = 0 ∨ second.length = 0
  · simp [Region.conflicts, rangesOverlap_of_empty hempty]
  · simp [Region.conflicts, UInt64.pos_iff_ne_zero, not_or.1 hempty]

theorem conflicts_comm (first second : Region) :
    first.conflicts second = second.conflicts first := by
  rw [conflicts_eq, conflicts_eq, rangesOverlap_comm, Bool.or_comm]

theorem conflicts_of_readOnly
    {first second : Region} (hfirst : first.writable = false)
    (hsecond : second.writable = false) :
    first.conflicts second = false := by
  rw [conflicts_eq, hfirst, hsecond, Bool.or_false, Bool.false_and]

theorem conflicts_iff (first second : Region) :
    first.conflicts second = true ↔
      (first.writable = true ∨ second.writable = true) ∧
        first.Overlaps second := by
  rw [conflicts_eq, Bool.and_eq_true, Bool.or_eq_true]
  apply and_congr_right'
  constructor
  · intro hoverlap
    have hlengths : ¬ (first.length = 0 ∨ second.length = 0) := by
      intro hempty
      rw [rangesOverlap_of_empty hempty] at hoverlap
      cases hoverlap
    obtain ⟨hfirst, hsecond⟩ := not_or.1 hlengths
    exact ⟨hfirst, hsecond, (rangesOverlap_iff hfirst hsecond).1 hoverlap⟩
  · rintro ⟨hfirst, hsecond, hoverlap⟩
    exact (rangesOverlap_iff hfirst hsecond).2 hoverlap

theorem writableRegionsOverlap_iff (regions : List Region) :
    writableRegionsOverlap regions = true ↔
      ∃ (i j : ℕ) (first second : Region), i ≠ j ∧
        regions[i]? = some first ∧ regions[j]? = some second ∧
        (first.writable = true ∨ second.writable = true) ∧
        first.Overlaps second := by
  rw [writableRegionsOverlap, PairCheck.anyPair_eq_true_iff conflicts_comm]
  simp only [conflicts_iff]

/-- Only pairs with an output have to be compared. -/
theorem writableRegionsOverlap_eq (regions : List Region) :
    writableRegionsOverlap regions =
      (anyPair Region.conflicts (regions.filter Region.writable) ||
        (regions.filter Region.writable).any fun output =>
          (regions.filter fun region => !region.writable).any
            output.conflicts) :=
  PairCheck.anyPair_filter conflicts_comm Region.writable
    fun _ _ => conflicts_of_readOnly

/-- The hand-written checks miss no pair and have none too many. -/
theorem overlap_eq (layout : Layout) (check : Check) :
    check.overlap layout =
      writableRegionsOverlap (check.regions layout) := by
  rw [writableRegionsOverlap_eq, Bool.eq_iff_iff]
  -- Both sides become the same disjunction over pairs, up to its order and the
  -- order inside the pairs.
  cases check
  all_goals
    simp only [Check.overlap, sessionEncryptBuffersOverlap,
      sessionDecryptBuffersOverlap, aeadEncryptBuffersOverlap,
      aeadDecryptBuffersOverlap, encapsulateForPeerBuffersOverlap,
      Check.regions, List.filter, Bool.not_true, Bool.not_false, anyPair,
      List.any_cons, List.any_nil, conflicts_eq, Bool.true_or, Bool.true_and,
      Bool.or_false, Bool.or_eq_true]
    grind [rangesOverlap_comm]

/-- No byte which may be written belongs to another argument. -/
def Separate (regions : List Region) : Prop :=
  ∀ (i j : ℕ) (first second : Region), i ≠ j → regions[i]? = some first →
    regions[j]? = some second → first.writable = true →
      ∀ address, first.Has address → ¬ second.Has address

theorem separate_of_not_overlap
    {regions : List Region} (hnone : writableRegionsOverlap regions = false) :
    Separate regions := by
  intro i j first second hne hfirst hsecond hwritable address hin hother
  have hoverlaps : first.Overlaps second :=
    ⟨AddressRange.length_ne_zero_of_contains hin,
      AddressRange.length_ne_zero_of_contains hother,
      Or.inr (Or.inr ⟨address, hin, hother⟩)⟩
  have hsome := (writableRegionsOverlap_iff regions).2
    ⟨i, j, first, second, hne, hfirst, hsecond, Or.inl hwritable, hoverlaps⟩
  rw [hnone] at hsome
  cases hsome

/-- Two ranges are found to overlap exactly when they do, or when one of them
does not end; the generic check finds exactly the pairs of arguments with an
output; and every hand-written check is the generic one on all its arguments,
so that an accepted call has no byte of an output in any other argument. -/
theorem aliasing_checks_are_complete :
    (∀ first firstLen second secondLen : UInt64,
      (firstLen ≠ 0 ∧ secondLen ≠ 0 →
        (rangesOverlap first firstLen second secondLen = true ↔
          Wraps first firstLen ∨ Wraps second secondLen ∨
            ∃ address, Contains first firstLen address ∧
              Contains second secondLen address)) ∧
      (firstLen = 0 ∨ secondLen = 0 →
        rangesOverlap first firstLen second secondLen = false)) ∧
    (∀ regions : List Region,
      (writableRegionsOverlap regions = true ↔
        ∃ (i j : ℕ) (first second : Region), i ≠ j ∧
          regions[i]? = some first ∧ regions[j]? = some second ∧
          (first.writable = true ∨ second.writable = true) ∧
          first.Overlaps second) ∧
      (writableRegionsOverlap regions = false → Separate regions)) ∧
    (∀ (layout : Layout) (check : Check) (regions : List Region),
      regions.Perm (check.regions layout) →
        check.overlap layout = writableRegionsOverlap regions ∧
        (check.overlap layout = false → Separate regions)) := by
  refine ⟨?_, ?_, ?_⟩
  · intro first firstLen second secondLen
    exact ⟨fun hlengths => rangesOverlap_iff hlengths.1 hlengths.2,
      rangesOverlap_of_empty⟩
  · intro regions
    exact ⟨writableRegionsOverlap_iff regions, separate_of_not_overlap⟩
  · intro layout check regions hperm
    have heq : check.overlap layout = writableRegionsOverlap regions := by
      rw [overlap_eq]
      exact (PairCheck.anyPair_perm conflicts_comm hperm).symm
    refine ⟨heq, ?_⟩
    intro hnone
    rw [heq] at hnone
    exact separate_of_not_overlap hnone

/-- The sizes for the targets of the library. -/
def targetLayout : Layout := ⟨4736, 2112, 1600, 64⟩

theorem separate_buffers_are_accepted :
    (Check.sessionEncrypt 0x10000 0x20000 16 0x20010 0x30000 64 0x30040
        0x3004c).overlap targetLayout = false ∧
      Separate
        ((Check.sessionEncrypt 0x10000 0x20000 16 0x20010 0x30000 64 0x30040
          0x3004c).regions targetLayout) :=
  ⟨by decide, (aliasing_checks_are_complete.2.2 targetLayout _ _
    (List.Perm.refl _)).2 (by decide)⟩

/-- Entropy in the padding of an output is refused. -/
example :
    (Check.encapsulateForPeer 0x10000 0x20000 0x21000 0x30020 0 0 0 0 0x22000
      0x30000).overlap targetLayout = true := by
  decide

end Ffi
end ShawnCore
