import ShawnCore.ReplayWindow

/-!
# Transmit nonces

Over one tenure of the session keys the nonces handed out by `encrypt_packet`
and `get_next_tx_nonce` number the transmissions from zero without a gap.  Both
operations take their nonce from `tx_counter`; everything that sets the counter
back also gives up the keys.
-/

namespace ShawnCore

open ByteBlocks

variable {DecapsKey SigningKey : Type}

theorem nonceSequence_sequenceNonce (sequence : UInt64) :
    nonceSequence (sequenceNonce sequence) = sequence := by
  have htake : (sequenceNonce sequence).bytes.take 8 =
      leBytes 8 sequence.toNat := by
    simp [sequenceNonce]
  have hlt : sequence.toNat < 256 ^ 8 := sequence.toNat_lt
  unfold nonceSequence
  rw [htake, fromLeBytes_leBytes, Nat.mod_eq_of_lt hlt]
  exact UInt64.ofNat_toNat

theorem sequenceNonce_injective : Function.Injective sequenceNonce :=
  Function.LeftInverse.injective nonceSequence_sequenceNonce

namespace Record

/-- Neither counter decreases, and no recorded bit which is still inside the
window is cleared. -/
structure Monotone (record : Record DecapsKey SigningKey) : Prop where
  txCounter_le : record.before.txCounter ≤ record.after.txCounter
  rxCounter_le : record.before.rxCounter ≤ record.after.rxCounter
  bit_kept : ∀ i, record.before.rxWindow.toNat.testBit i = true →
    i + (record.after.rxCounter.toNat - record.before.rxCounter.toNat) < 64 →
      record.after.rxWindow.toNat.testBit
        (i + (record.after.rxCounter.toNat - record.before.rxCounter.toNat)) =
          true

/-- The keys held before the call are gone: either no keys are left or the
call installed new ones. -/
def DiscardsKeys (record : Record DecapsKey SigningKey) : Prop :=
  (record.after.txKey = none ∧ record.after.rxKey = none) ∨ record.Installs

end Record

/-- The nonces handed out for transmission in a history. -/
def outputNonces (records : List (Record DecapsKey SigningKey)) :
    List (Block 12) :=
  records.filterMap Record.outputNonce?

namespace SessionManager

theorem succ_txCounter_toNat
    {manager : SessionManager DecapsKey}
    (hcounter : manager.txCounter ≠ u64Max) :
    (manager.txCounter + 1).toNat = manager.txCounter.toNat + 1 := by
  have hlt := manager.txCounter.toNat_lt
  have hne : manager.txCounter.toNat ≠ 2 ^ 64 - 1 := by
    intro heq
    apply hcounter
    apply UInt64.toNat_inj.mp
    exact heq
  rw [UInt64.toNat_add, UInt64.toNat_one]
  apply Nat.mod_eq_of_lt
  omega

/-! ## One call -/

theorem monotone_of_receive_unchanged
    {record : Record DecapsKey SigningKey}
    (htx : record.before.txCounter ≤ record.after.txCounter)
    (hcounter : record.after.rxCounter = record.before.rxCounter)
    (hwindow : record.after.rxWindow = record.before.rxWindow) :
    record.Monotone := by
  refine ⟨htx, ?_, ?_⟩
  · rw [hcounter]
    exact UInt64.le_refl _
  · intro i hbit _
    rw [hcounter, hwindow]
    simpa using hbit

theorem commitRxNonce_monotone
    (manager : SessionManager DecapsKey) (nonce : Block 12)
    {record : Record DecapsKey SigningKey}
    (hbefore : record.before = manager)
    (hafter : record.after = manager.commitRxNonce nonce) :
    record.Monotone := by
  have hrecord := manager.commitRxNonce_record nonce
  have hcounter := congrArg Prod.fst hrecord
  have hwindow := congrArg Prod.snd hrecord
  dsimp only at hcounter hwindow
  refine ⟨?_, ?_, ?_⟩
  · rw [hbefore, hafter, manager.commitRxNonce_txCounter nonce]
    exact UInt64.le_refl _
  · rw [hbefore, hafter, UInt64.le_iff_toNat_le, hcounter]
    exact SequenceWindow.le_record_counter _ _ _ _
  · intro i hbit hinside
    rw [hbefore] at hbit hinside ⊢
    rw [hafter, hcounter] at hinside
    rw [hafter, hcounter, hwindow]
    exact SequenceWindow.testBit_record hbit hinside

/-- Every call either keeps counters and window growing or gives up the
keys. -/
theorem perform_monotone_or_discards
    (manager : SessionManager DecapsKey)
    (invocation : Invocation DecapsKey SigningKey) :
    (manager.perform invocation).Monotone ∨
      (manager.perform invocation).DiscardsKeys := by
  have hbefore : (manager.perform invocation).before = manager := rfl
  have htransition := manager.perform_transition invocation
  unfold Record.DiscardsKeys Record.Installs
  generalize manager.perform invocation = record at *
  rcases record with ⟨before, call, result, after⟩
  dsimp only at *
  subst hbefore
  cases htransition with
  | refused =>
      exact Or.inl (monotone_of_receive_unchanged (UInt64.le_refl _) rfl rfl)
  | failedClosed => exact Or.inr (Or.inl ⟨rfl, rfl⟩)
  | zeroized => exact Or.inr (Or.inl ⟨rfl, rfl⟩)
  | initiated => exact Or.inr (Or.inl ⟨rfl, rfl⟩)
  | installed _ _ _ _ _ hcall => exact Or.inr (Or.inr ⟨hcall, rfl⟩)
  | sent _ _ hcounter =>
      refine Or.inl (monotone_of_receive_unchanged ?_ rfl rfl)
      rw [UInt64.le_iff_toNat_le]
      dsimp only
      rw [succ_txCounter_toNat hcounter]
      exact Nat.le_succ _
  | received _ _ nonce =>
      exact Or.inl (commitRxNonce_monotone before nonce rfl rfl)
  | confirmed =>
      exact Or.inl (monotone_of_receive_unchanged (UInt64.le_refl _) rfl rfl)

/-- One call of a tenure hands out the next nonce or none at all, and keeps
both keys. -/
theorem perform_tenure
    (manager : SessionManager DecapsKey)
    (invocation : Invocation DecapsKey SigningKey)
    (hkeeps : (manager.perform invocation).KeepsKeys) :
    let record := manager.perform invocation
    record.Monotone ∧ record.after.txKey = manager.txKey ∧
      record.after.rxKey = manager.rxKey ∧
      (record.result.isOk = false →
        record.after.txCounter = manager.txCounter) ∧
      (record.outputNonce? = none ∧
          record.after.txCounter = manager.txCounter ∨
        record.outputNonce? = some (sequenceNonce manager.txCounter) ∧
          record.after.txCounter.toNat = manager.txCounter.toNat + 1) := by
  have hmonotone : (manager.perform invocation).Monotone := by
    rcases manager.perform_monotone_or_discards invocation with
      hmonotone | hnone | hinstalls
    · exact hmonotone
    · exact absurd hnone.1 hkeeps.1
    · exact absurd hinstalls hkeeps.2
  refine ⟨hmonotone, ?_⟩
  unfold Record.outputNonce?
  rcases manager.perform_keepsKeys invocation hkeeps with
    ⟨⟨failure, hresult⟩, hafter⟩ |
    ⟨output, hresult, hnonce, _, hcounter, hafter⟩ |
    ⟨output, nonce, hresult, hnonce, _, hafter⟩ |
    ⟨output, hresult, hnonce, _, hafter⟩
  · rw [hresult, hafter]
    exact ⟨rfl, rfl, fun _ => rfl, Or.inl ⟨rfl, rfl⟩⟩
  · rw [hresult, hafter]
    refine ⟨rfl, rfl, (fun herr => by cases herr), Or.inr ⟨hnonce, ?_⟩⟩
    exact succ_txCounter_toNat hcounter
  · have hcounter := manager.commitRxNonce_txCounter nonce
    rw [hresult, hafter]
    exact ⟨manager.commitRxNonce_txKey nonce,
      manager.commitRxNonce_rxKey nonce, fun _ => hcounter,
      Or.inl ⟨hnonce, hcounter⟩⟩
  · rw [hresult, hafter]
    exact ⟨rfl, rfl, fun _ => rfl, Or.inl ⟨hnonce, rfl⟩⟩

/-! ## Whole tenures -/

theorem history_tenure
    (manager : SessionManager DecapsKey)
    (part : List (Invocation DecapsKey SigningKey))
    (hkept : ∀ record ∈ manager.history part, record.KeepsKeys) :
    (∀ record ∈ manager.history part, record.Monotone ∧
      record.after.txKey = manager.txKey ∧
      record.after.rxKey = manager.rxKey ∧
      (record.result.isOk = false →
        record.after.txCounter = record.before.txCounter)) ∧
    (manager.afterCalls part).txCounter.toNat =
      manager.txCounter.toNat +
        (outputNonces (manager.history part)).length ∧
    outputNonces (manager.history part) =
      (List.range' manager.txCounter.toNat
        (outputNonces (manager.history part)).length).map
          fun sequence => sequenceNonce (UInt64.ofNat sequence) := by
  induction part generalizing manager with
  | nil =>
      refine ⟨?_, rfl, rfl⟩
      intro record hrecord
      cases hrecord
  | cons invocation rest ih =>
      rcases manager.perform_tenure invocation
          (hkept _ List.mem_cons_self) with
        ⟨hmonotone, htx, hrx, hfailed, hnonce⟩
      rcases ih (manager.perform invocation).after
          (fun record hrecord =>
            hkept record (List.mem_cons_of_mem _ hrecord)) with
        ⟨hrecords, hcounter, hnonces⟩
      refine ⟨?_, ?_⟩
      · intro record hrecord
        rcases List.mem_cons.mp hrecord with rfl | hrest
        · exact ⟨hmonotone, htx, hrx, hfailed⟩
        · rw [← htx, ← hrx]
          exact hrecords record hrest
      · rw [afterCalls_cons, hcounter]
        rcases hnonce with ⟨hnone, hsame⟩ | ⟨hsome, hsucc⟩
        · have hlist : outputNonces (manager.history (invocation :: rest)) =
              outputNonces
                ((manager.perform invocation).after.history rest) := by
            simp [outputNonces, history, hnone]
          rw [hlist, hsame]
          rw [hsame] at hnonces
          exact ⟨rfl, hnonces⟩
        · have hlist : outputNonces (manager.history (invocation :: rest)) =
              sequenceNonce manager.txCounter :: outputNonces
                ((manager.perform invocation).after.history rest) := by
            simp [outputNonces, history, hsome]
          rw [hlist, List.length_cons, hsucc]
          refine ⟨by omega, ?_⟩
          rw [List.range'_succ, List.map_cons, UInt64.ofNat_toNat]
          rw [hsucc] at hnonces
          rw [← hnonces]

theorem mem_history
    {manager : SessionManager DecapsKey}
    {life : List (Invocation DecapsKey SigningKey)}
    {record : Record DecapsKey SigningKey}
    (hrecord : record ∈ manager.history life) :
    ∃ current : SessionManager DecapsKey, ∃ invocation ∈ life,
      record = current.perform invocation := by
  induction life generalizing manager with
  | nil => cases hrecord
  | cons invocation rest ih =>
      rcases List.mem_cons.mp hrecord with rfl | hrest
      · exact ⟨manager, invocation, List.mem_cons_self, rfl⟩
      · rcases ih hrest with ⟨current, later, hlater, heq⟩
        exact ⟨current, later, List.mem_cons_of_mem _ hlater, heq⟩

/-- Numbers below the limit are told apart by their sequence numbers. -/
theorem sequences_pairwise_lt {count : ℕ} (hcount : count < 2 ^ 64) :
    (((List.range count).map fun sequence =>
      sequenceNonce (UInt64.ofNat sequence)).map nonceSequence).Pairwise
        (· < ·) := by
  rw [List.map_map, List.pairwise_map]
  apply List.Pairwise.imp_of_mem _ List.pairwise_lt_range
  intro left right hleft hright hlt
  have hleftLt := List.mem_range.mp hleft
  have hrightLt := List.mem_range.mp hright
  simp only [Function.comp_apply, nonceSequence_sequenceNonce,
    UInt64.lt_iff_toNat_lt]
  rw [UInt64.toNat_ofNat_of_lt' (hleftLt.trans hcount),
    UInt64.toNat_ofNat_of_lt' (hrightLt.trans hcount)]
  exact hlt

/-- Transmit nonces under one installed key are the nonces of the sequence
numbers 0, 1, 2, ... in order, and only a call which gives up the keys sets a
counter or the window back. -/
theorem transmitNonces_consecutive
    (earlier part : List (Invocation DecapsKey SigningKey))
    (install : Invocation DecapsKey SigningKey)
    (hinstall : ((new.afterCalls earlier).perform install).Installs)
    (hkept : ∀ record ∈
      ((new.afterCalls earlier).perform install).after.history part,
        record.KeepsKeys) :
    let start := ((new.afterCalls earlier).perform install).after
    let nonces := outputNonces (start.history part)
    nonces = (List.range nonces.length).map
        (fun sequence => sequenceNonce (UInt64.ofNat sequence)) ∧
      (nonces.map nonceSequence).Pairwise (· < ·) ∧ nonces.Nodup ∧
      sequenceNonce u64Max ∉ nonces ∧
      (start.afterCalls part).txCounter.toNat = nonces.length ∧
      (∀ record ∈ start.history part,
        record.Monotone ∧ record.after.txKey = start.txKey ∧
          record.after.rxKey = start.rxKey ∧
          (record.result.isOk = false →
            record.after.txCounter = record.before.txCounter)) ∧
      ∀ record ∈ new.history (earlier ++ install :: part),
        ¬ record.Monotone → record.DiscardsKeys := by
  intro start nonces
  rcases perform_installs _ install hinstall with
    ⟨txKey, rxKey, pendingAuth, hinstalled⟩
  have hzero : start.txCounter.toNat = 0 := by
    change ((new.afterCalls earlier).perform install).after.txCounter.toNat = 0
    rw [hinstalled]
    rfl
  rcases start.history_tenure part hkept with ⟨hrecords, hcounter, hrange⟩
  rw [hzero, ← List.range_eq_range'] at hrange
  change nonces = _ at hrange
  rw [hzero, Nat.zero_add] at hcounter
  have hcount : nonces.length < 2 ^ 64 := by
    rw [← hcounter]
    exact UInt64.toNat_lt _
  have hpairwise : (nonces.map nonceSequence).Pairwise (· < ·) := by
    have hlt := sequences_pairwise_lt hcount
    rwa [← hrange] at hlt
  refine ⟨hrange, hpairwise, ?_, ?_, hcounter, hrecords, ?_⟩
  · apply List.Nodup.of_map nonceSequence
    exact hpairwise.imp fun hlt => UInt64.ne_of_lt hlt
  · intro hmem
    rw [hrange] at hmem
    rcases List.mem_map.mp hmem with ⟨sequence, hsequence, heq⟩
    have hmax := congrArg UInt64.toNat (sequenceNonce_injective heq)
    have hlt : sequence < nonces.length := List.mem_range.mp hsequence
    rw [UInt64.toNat_ofNat_of_lt' (hlt.trans hcount)] at hmax
    have hu64Max : u64Max.toNat = 2 ^ 64 - 1 := rfl
    omega
  · intro record hrecord hnot
    rcases mem_history hrecord with ⟨current, invocation, _, rfl⟩
    rcases current.perform_monotone_or_discards invocation with
      hmonotone | hdiscards
    · exact absurd hmonotone hnot
    · exact hdiscards

theorem transmitNonces_consecutive_after_packet :
    let start :=
      ((new : SessionManager UInt8).perform referenceInstall).after
    let part : List (Invocation UInt8 UInt8) :=
      [⟨Reference.primitives, .getNextTxNonce (Block.fill 12 0)⟩,
        ⟨Reference.primitives, .encryptPacket ⟨[1], by decide⟩ [2, 3] [0, 0]
          (Block.fill 12 0) (Block.fill 48 0)⟩]
    outputNonces (start.history part) = [sequenceNonce 0, sequenceNonce 1] ∧
      (outputNonces (start.history part)).Nodup := by
  intro start part
  refine ⟨by decide +kernel, ?_⟩
  refine (transmitNonces_consecutive [] part referenceInstall ?_ ?_).2.2.1
  · decide +kernel
  · decide +kernel

end SessionManager

end ShawnCore
