import ShawnCore.HostCalls

/-!
# What a call may change

A call writes only the storage it modifies in place, the outputs of packets, the
AEAD and HKDF, and, if it succeeds, its other outputs.  Since the checks have
found these ranges apart from each other and from all inputs, everything else in
memory is as before, and what was written can be read back.
-/

namespace ShawnCore
namespace Ffi

open ByteBlocks
open ByteMemory

variable {DecapsKey SigningKey : Type}

/-! ## Lengths of buffers -/

section Lengths

variable {prims : Primitives DecapsKey SigningKey}

theorem length_aeadEncrypt
    (hkeeps : ∀ key nonce buffer,
      (prims.chacha20TryApplyKeystream key nonce buffer).2.length =
        buffer.length)
    {encKey macKey : Block 32} {nonce : Block 12} {aad : Slice}
    {plaintext ciphertext : Bytes} {outMac : Block 48}
    (hlength : plaintext.length = ciphertext.length) :
    (aeadEncrypt prims encKey macKey nonce aad plaintext ciphertext
      outMac).ciphertext.length = ciphertext.length := by
  have hsealed := hkeeps encKey nonce plaintext
  unfold aeadEncrypt
  split
  next => rfl
  next =>
    split
    next => exact hlength
    next =>
      split
      next => simpa using hlength
      next sealed happly =>
        rw [happly, hlength] at hsealed
        split
        next => exact hsealed
        next => exact hsealed

theorem length_aeadDecrypt
    (hkeeps : ∀ key nonce buffer,
      (prims.chacha20TryApplyKeystream key nonce buffer).2.length =
        buffer.length)
    {encKey macKey : Block 32} {nonce : Block 12} {aad : Slice}
    {ciphertext plaintext : Bytes} {mac : Block 48}
    (hlength : ciphertext.length = plaintext.length) :
    (aeadDecrypt prims encKey macKey nonce aad ciphertext mac
      plaintext).plaintext.length = plaintext.length := by
  have hopened := hkeeps encKey nonce ciphertext
  unfold aeadDecrypt
  split
  next => rfl
  next =>
    split
    next => rfl
    next =>
      split
      next => simp
      next =>
        split
        next => exact hlength
        next =>
          split
          next => simp
          next opened happly =>
            rw [happly, hlength] at hopened
            exact hopened

theorem length_encryptPacket
    (hkeeps : ∀ key nonce buffer,
      (prims.chacha20TryApplyKeystream key nonce buffer).2.length =
        buffer.length)
    (manager : SessionManager DecapsKey) {aad : Slice}
    {plaintext ciphertext : Bytes} {nonce : Block 12} {tag : Block 48}
    (hlength : plaintext.length = ciphertext.length) :
    (manager.encryptPacket prims aad plaintext ciphertext nonce
      tag).ciphertext.length = ciphertext.length := by
  unfold SessionManager.encryptPacket
  split
  next => rfl
  next =>
    split
    next => rfl
    next =>
      split
      next => rfl
      next =>
        dsimp only
        split
        next => exact length_aeadEncrypt hkeeps hlength
        next =>
          split
          next => exact length_aeadEncrypt hkeeps hlength
          next => exact length_aeadEncrypt hkeeps hlength

theorem length_decryptPacket
    (hkeeps : ∀ key nonce buffer,
      (prims.chacha20TryApplyKeystream key nonce buffer).2.length =
        buffer.length)
    (manager : SessionManager DecapsKey) {aad : Slice}
    {ciphertext plaintext : Bytes} {nonce : Block 12} {tag : Block 48}
    (hlength : ciphertext.length = plaintext.length) :
    (manager.decryptPacket prims aad ciphertext nonce tag
      plaintext).plaintext.length = plaintext.length := by
  unfold SessionManager.decryptPacket
  split
  next => rfl
  next =>
    split
    next => rfl
    next =>
      split
      next => rfl
      next =>
        dsimp only
        split
        next => exact length_aeadDecrypt hkeeps hlength
        next => exact length_aeadDecrypt hkeeps hlength

end Lengths

theorem length_hkdfExpandSha384
    (prims : InterfacePrimitives DecapsKey SigningKey) (prk : Block 48)
    (info out : Bytes) :
    (hkdfExpandSha384 prims prk info out).2.length = out.length := by
  unfold hkdfExpandSha384
  split
  next => rfl
  next =>
    split
    next => simp
    next okm _ => exact okm.length_eq

/-! ## The footprint of a call -/

/-- The address and the length of what a write covers. -/
def footprint (write : Write) : UInt64 × ℕ :=
  (write.start, write.bytes.length)

def Argument.footprint (argument : Argument) : UInt64 × ℕ :=
  (argument.address, argument.length.toNat)

/-- Whether an argument is written by a call which returns the code. -/
def Argument.writtenBy (code : ShawncoreCryptoErr) (argument : Argument) :
    Bool :=
  match argument.access with
  | .input => false
  | .output => code == .success
  | .outputAlways => true
  | .inPlace => true

theorem ofCryptoError_ne_success (failure : CryptoError) :
    ShawncoreCryptoErr.ofCryptoError failure ≠ .success := by
  cases failure <;> decide

section Footprint

variable (formats : Formats DecapsKey SigningKey)
variable (prims : InterfacePrimitives DecapsKey SigningKey)

/-- A reply which writes what it should of the given arguments. -/
def Reply.Writes (reply : Reply) (arguments : List Argument) : Prop :=
  reply.writes.map footprint =
    (arguments.filter (Argument.writtenBy reply.code)).map Argument.footprint

/-- Arguments of which a failed call writes none. -/
def OnSuccessOnly (arguments : List Argument) : Prop :=
  ∀ argument ∈ arguments, argument.access = .input ∨ argument.access = .output

theorem filter_writtenBy_of_onSuccessOnly
    {arguments : List Argument} (hnone : OnSuccessOnly arguments)
    {code : ShawncoreCryptoErr} (hcode : code ≠ .success) :
    arguments.filter (Argument.writtenBy code) = [] := by
  rw [List.filter_eq_nil_iff]
  intro argument hargument hwritten
  unfold Argument.writtenBy at hwritten
  rcases hnone argument hargument with hinput | houtput
  · simp [hinput] at hwritten
  · simp [houtput, hcode] at hwritten

theorem deliver_writes
    {α : Type} {result : Except CryptoError α} {outputs : α → List Write}
    {arguments : List Argument} (hnone : OnSuccessOnly arguments)
    (houtputs : ∀ value, (outputs value).map footprint =
      (arguments.filter (Argument.writtenBy .success)).map
        Argument.footprint) :
    (deliver result outputs).Writes arguments := by
  cases result with
  | ok value => exact houtputs value
  | error failure =>
      have hfilter := filter_writtenBy_of_onSuccessOnly hnone
        (ofCryptoError_ne_success failure)
      simp [Reply.Writes, deliver, hfilter]

theorem forward_writes
    {α : Type} {manager : UInt64}
    {result : Except CryptoError α × SessionManager DecapsKey}
    {outputs : α → List Write} {arguments : List Argument}
    (hnone : OnSuccessOnly arguments)
    (houtputs : ∀ value, (outputs value).map footprint =
      (arguments.filter (Argument.writtenBy .success)).map
        Argument.footprint) :
    (forward formats manager result outputs).Writes
      (.object formats.sessionManager manager .inPlace :: arguments) := by
  have hrest : (deliver result.1 outputs).Writes arguments :=
    deliver_writes hnone houtputs
  unfold Reply.Writes at hrest ⊢
  simp only [forward, List.map_cons, hrest, List.filter_cons,
    Argument.writtenBy, Argument.object, if_true, footprint,
    Argument.footprint, Format.write_start, Format.length_write]

theorem WireCodec.toBytes_writes
    {α : Type} (codec : WireCodec α) {value out outLen : UInt64}
    (hlength : outLen = codec.length) (memory : Memory) :
    ((codec.toBytes value out outLen).body memory).Writes
      [.object codec.format value .input,
        .exact codec.length out outLen .output] := by
  simp [Reply.Writes, toBytes, Argument.object, Argument.exact,
    Argument.writtenBy, footprint, Argument.footprint, hlength]

theorem WireCodec.fromBytes_writes
    {α : Type} (codec : WireCodec α) {bytes len out : UInt64}
    (memory : Memory) :
    ((codec.fromBytes bytes len out).body memory).Writes
      [.exact codec.length bytes len .input,
        .object codec.format out .output] := by
  apply deliver_writes
  · simp [OnSuccessOnly, Argument.object, Argument.exact]
  · simp [Argument.object, Argument.exact, Argument.writtenBy, footprint,
      Argument.footprint]

/-- Every function writes the storage it modifies in place and, on success,
its outputs: each of them once and whole, in the order of its parameters. -/
theorem body_writes
    {call : HostCall} (haccepted : call.Accepted formats prims)
    (memory : Memory) :
    ((call.entryPoint formats prims).body memory).Writes
      (call.arguments formats) := by
  cases call
  case sessionManagerInitiateHandshake | sessionManagerFinalizeHandshake |
      sessionManagerEncapsulateForPeer |
      sessionManagerEncapsulateAuthenticatedV2 |
      sessionManagerFinalizeAuthenticatedV2 | sessionManagerConfirmPeerV2 =>
      apply forward_writes formats
      · simp [OnSuccessOnly, Argument.object, Argument.buffer, Argument.slice]
      · simp [Argument.object, Argument.buffer, Argument.slice,
          Argument.writtenBy, footprint, Argument.footprint]
  case mlKemKeygen | mlKemEncapsulate | mlKemDecapsulate | mlDsaSign |
      mlDsaVerify | x25519DiffieHellman | hmacSha384 =>
      apply deliver_writes
      · simp [OnSuccessOnly, HostCall.arguments, Argument.object,
          Argument.buffer, Argument.slice]
      · simp [HostCall.arguments, Argument.object, Argument.buffer,
          Argument.slice, Argument.writtenBy, footprint, Argument.footprint]
  case sessionManagerInit | sessionManagerDestroy | sessionManagerZeroize |
      mlDsaKeygen | x25519Keygen | mlKemDecapskeyDestroy |
      mlKemSharedkeyDestroy | mlDsaSigningkeyDestroy | x25519SecretDestroy |
      x25519SharedsecretDestroy =>
      simp [HostCall.entryPoint, Reply.Writes, sessionManagerInit,
        sessionManagerDestroy, sessionManagerZeroize, cryptoMlDsaKeygen,
        cryptoX25519Keygen, mlKemDecapskeyDestroy, mlKemSharedkeyDestroy,
        mlDsaSigningkeyDestroy, x25519SecretDestroy,
        x25519SharedsecretDestroy, dropInPlace, HostCall.arguments,
        Argument.writtenBy, Argument.object, Argument.buffer, footprint,
        Argument.footprint, List.filter_cons]
  case sessionManagerEncryptPacket | sessionManagerDecryptPacket |
      hkdfExpandSha384 | aeadEncrypt | aeadDecrypt =>
      simp [HostCall.entryPoint, Reply.Writes, sessionManagerEncryptPacket,
        sessionManagerDecryptPacket, cryptoHkdfExpandSha384,
        cryptoAeadEncrypt, cryptoAeadDecrypt, HostCall.arguments,
        Argument.writtenBy, Argument.object, Argument.buffer, Argument.slice,
        footprint, Argument.footprint, List.filter_cons,
        length_encryptPacket prims.chacha20_length,
        length_decryptPacket prims.chacha20_length,
        length_aeadEncrypt prims.chacha20_length,
        length_aeadDecrypt prims.chacha20_length, length_hkdfExpandSha384]
  case toBytes type value out outLen =>
      have hlength : outLen = type.encodedLen :=
        (((accepted_iff formats prims _).1 haccepted).1 _
          (List.mem_cons_of_mem _ List.mem_cons_self)).2
      cases type
      all_goals exact WireCodec.toBytes_writes _ hlength memory
  case fromBytes type bytes len out =>
      cases type
      all_goals exact WireCodec.fromBytes_writes _ memory

/-! ## Accepted arguments are apart -/

/-- Two arguments which share no address if one of them is written. -/
def Argument.ApartFrom (first second : Argument) : Prop :=
  (first.access.isWritten || second.access.isWritten) = true →
    Apart first.address first.length.toNat second.address
      second.length.toNat

instance Argument.apartFrom_symm : Std.Symm Argument.ApartFrom where
  symm first second hapart hwritten := by
    rw [Bool.or_comm] at hwritten
    exact (hapart hwritten).symm

theorem Argument.apartFrom_of_not_conflicts
    {first second : Argument}
    (hnone : first.region.conflicts second.region = false) :
    first.ApartFrom second := by
  intro hwritten address hfirst hsecond
  have hfirstHas : first.region.Has address :=
    UInt64.lt_iff_toNat_lt.2 hfirst
  have hsecondHas : second.region.Has address :=
    UInt64.lt_iff_toNat_lt.2 hsecond
  have hconflicts : first.region.conflicts second.region = true := by
    rw [conflicts_iff]
    refine ⟨Bool.or_eq_true _ _ ▸ hwritten, ?_, ?_, ?_⟩
    · exact AddressRange.length_ne_zero_of_contains hfirstHas
    · exact AddressRange.length_ne_zero_of_contains hsecondHas
    · exact Or.inr (Or.inr ⟨address, hfirstHas, hsecondHas⟩)
  rw [hnone] at hconflicts
  cases hconflicts

variable {formats prims}

theorem arguments_pairwise
    {call : HostCall} (haccepted : call.Accepted formats prims) :
    (call.arguments formats).Pairwise Argument.ApartFrom := by
  have hnone := ((accepted_iff formats prims call).1 haccepted).2
  rw [writableRegionsOverlap, PairCheck.anyPair_eq_false_iff,
    HostCall.regions, List.pairwise_map] at hnone
  exact hnone.imp Argument.apartFrom_of_not_conflicts

theorem isWritten_of_writtenBy
    {argument : Argument} {code : ShawncoreCryptoErr}
    (hwritten : argument.writtenBy code = true) :
    argument.access.isWritten = true := by
  unfold Argument.writtenBy at hwritten
  cases haccess : argument.access with
  | input => simp [haccess] at hwritten
  | output => rfl
  | outputAlways => rfl
  | inPlace => rfl

/-- The writes of an accepted call do not touch each other. -/
theorem body_writes_pairwise
    {call : HostCall} (haccepted : call.Accepted formats prims)
    (memory : Memory) :
    ((call.entryPoint formats prims).body memory).writes.Pairwise
      Write.ApartFrom := by
  have hwrites := body_writes formats prims haccepted memory
  have hargs := (arguments_pairwise haccepted).filter
    (Argument.writtenBy ((call.entryPoint formats prims).body memory).code)
  have hfootprints :
      (((call.entryPoint formats prims).body memory).writes.map
        footprint).Pairwise
        fun first second => Apart first.1 first.2 second.1 second.2 := by
    rw [hwrites, List.pairwise_map]
    apply hargs.imp_of_mem
    intro first second hfirst _ hapart
    apply hapart
    rw [isWritten_of_writtenBy (List.mem_filter.1 hfirst).2, Bool.true_or]
  rw [List.pairwise_map] at hfootprints
  exact hfootprints

/-- A write of an accepted call covers one of the arguments it may write. -/
theorem exists_argument_of_write
    {call : HostCall} (haccepted : call.Accepted formats prims)
    {memory : Memory} {write : Write}
    (hwrite : write ∈ ((call.entryPoint formats prims).body memory).writes) :
    ∃ argument ∈ call.arguments formats,
      argument.writtenBy
          ((call.entryPoint formats prims).body memory).code = true ∧
        argument.address = write.start ∧
        argument.length.toNat = write.bytes.length := by
  have hmem := List.mem_map_of_mem (f := footprint) hwrite
  rw [body_writes formats prims haccepted memory] at hmem
  obtain ⟨argument, hargument, hfootprint⟩ := List.mem_map.1 hmem
  obtain ⟨hmember, hwritten⟩ := List.mem_filter.1 hargument
  exact ⟨argument, hmember, hwritten, congrArg Prod.fst hfootprint,
    congrArg Prod.snd hfootprint⟩

/-- The inputs of an accepted call are not written. -/
theorem input_apart_of_write
    {call : HostCall} (haccepted : call.Accepted formats prims)
    {memory : Memory} {write : Write}
    (hwrite : write ∈ ((call.entryPoint formats prims).body memory).writes)
    {input : Argument} (hinput : input ∈ call.arguments formats)
    (haccess : input.access = .input) :
    Apart input.address input.length.toNat write.start
      write.bytes.length := by
  obtain ⟨argument, hargument, hwritten, hstart, hlength⟩ :=
    exists_argument_of_write haccepted hwrite
  have hiswritten := isWritten_of_writtenBy hwritten
  have hne : input ≠ argument := by
    rintro rfl
    rw [haccess] at hiswritten
    cases hiswritten
  rw [← hstart, ← hlength]
  apply (arguments_pairwise haccepted).forall hinput hargument hne
  rw [hiswritten, Bool.or_true]

/-! ## Every call -/

theorem invoke_of_accepted
    {call : HostCall} (haccepted : call.Accepted formats prims)
    (memory : Memory) :
    call.invoke formats prims memory =
      (call.entryPoint formats prims).body memory := by
  rw [HostCall.invoke, EntryPoint.invoke, haccepted]

variable (formats prims)

theorem invoke_of_rejected
    {call : HostCall} (hrejected : ¬ call.Accepted formats prims)
    (memory : Memory) :
    ∃ code, call.invoke formats prims memory = ⟨code, []⟩ ∧
      (code = .invalidState ∨ code = .invalidLength) := by
  obtain ⟨rejection, hfirst⟩ := Option.ne_none_iff_exists'.1 hrejected
  refine ⟨rejection.code, ?_, ?_⟩
  · rw [HostCall.invoke, EntryPoint.invoke, hfirst]
  · cases rejection with
    | invalidState => exact Or.inl rfl
    | invalidLength => exact Or.inr rfl

/-- No argument which is written overlaps another one, and none of a compared
pair goes beyond the last address. -/
def Compatible (regions : List Region) : Prop :=
  ∀ (i j : ℕ) (first second : Region), i ≠ j → regions[i]? = some first →
    regions[j]? = some second →
      first.writable = true ∨ second.writable = true →
        ¬ first.Overlaps second

theorem not_overlap_iff_compatible (regions : List Region) :
    writableRegionsOverlap regions = false ↔ Compatible regions := by
  rw [← Bool.not_eq_true, writableRegionsOverlap_iff]
  unfold Compatible
  push Not
  rfl

/-- Each function of `HostCall` lets a call through exactly when every argument
is valid by itself and the arguments are compatible.  Then no byte of a written
argument belongs to another argument.  A call which is not let through does
nothing but return one of two codes. -/
theorem calls_accepted_exactly_when_valid (call : HostCall) :
    (call.Accepted formats prims ↔
      (∀ argument ∈ call.arguments formats, argument.Valid) ∧
        Compatible (call.regions formats)) ∧
    (call.Accepted formats prims → Separate (call.regions formats)) ∧
    (¬ call.Accepted formats prims → ∀ memory,
      call.after formats prims memory = memory ∧
        ((call.invoke formats prims memory).code = .invalidState ∨
          (call.invoke formats prims memory).code = .invalidLength)) := by
  refine ⟨?_, ?_, ?_⟩
  · rw [accepted_iff, not_overlap_iff_compatible]
  · intro haccepted
    exact separate_of_not_overlap ((accepted_iff formats prims call).1
      haccepted).2
  · intro hrejected memory
    obtain ⟨code, hinvoke, hcode⟩ :=
      invoke_of_rejected formats prims hrejected memory
    rw [HostCall.after, hinvoke]
    exact ⟨rfl, hcode⟩

/-- A call changes memory only inside the storage it modifies in place, inside
the outputs which it also writes on failure and, if it returns success, inside
its other outputs; its inputs are as before. -/
theorem calls_change_only_what_they_may (call : HostCall) (memory : Memory) :
    (∀ address,
      call.after formats prims memory address ≠ memory address →
        call.Accepted formats prims ∧
          ∃ argument ∈ call.arguments formats,
            argument.writtenBy (call.invoke formats prims memory).code =
                true ∧
              Within argument.address argument.length.toNat address) ∧
    ∀ argument ∈ call.arguments formats, argument.access = .input →
      read (call.after formats prims memory) argument.address
          argument.length.toNat =
        read memory argument.address argument.length.toNat := by
  by_cases haccepted : call.Accepted formats prims
  · rw [HostCall.after, invoke_of_accepted haccepted]
    constructor
    · intro address hchanged
      refine ⟨haccepted, ?_⟩
      by_contra hnone
      apply hchanged
      apply performAll_of_not_covers
      intro write hwrite hcovers
      obtain ⟨argument, hargument, hwritten, hstart, hlength⟩ :=
        exists_argument_of_write haccepted hwrite
      refine hnone ⟨argument, hargument, hwritten, ?_⟩
      rw [hstart, hlength]
      exact hcovers
    · intro argument hargument haccess
      apply read_performAll_of_apart
      intro write hwrite
      exact input_apart_of_write haccepted hwrite hargument haccess
  · obtain ⟨code, hinvoke, _⟩ :=
      invoke_of_rejected formats prims haccepted memory
    rw [HostCall.after, hinvoke]
    exact ⟨fun address hchanged => absurd rfl hchanged, fun _ _ _ => rfl⟩

end Footprint

end Ffi
end ShawnCore
