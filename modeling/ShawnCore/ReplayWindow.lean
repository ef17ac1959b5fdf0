import ShawnCore.SessionCalls
import ShawnCore.ReferencePrimitives
import ShawnCore.SequenceWindow

/-!
# The replay window

`check_rx_nonce` and `commit_rx_nonce` keep a counter and 64 bits.  Over one
tenure of the session keys they represent the set of all sequence numbers
committed so far, and the check decides membership in that set as far as the
window reaches.  The trapping variants below return `none` where a build with
overflow checks would panic; they never do.
-/

namespace ShawnCore

open ByteBlocks

variable {DecapsKey SigningKey : Type}

/-! ## Arithmetic which traps on overflow -/

def trappingSub (left right : UInt64) : Option UInt64 :=
  if right ≤ left then some (left - right) else none

/-- A shift overflows when its amount is not below the width. -/
def trappingShl (value amount : UInt64) : Option UInt64 :=
  if amount < 64 then some (value <<< amount) else none

namespace SessionManager

def trappingCheckRxNonce
    (manager : SessionManager DecapsKey) (hostNonce : Block 12) :
    Option (Except CryptoError Unit) :=
  if (hostNonce.bytes.drop 8).any (· != 0) then
    some (.error .invalidState)
  else if manager.rxCounter < nonceSequence hostNonce then
    some (.ok ())
  else do
    let offset ← trappingSub manager.rxCounter (nonceSequence hostNonce)
    if 64 ≤ offset then
      some (.error .invalidState)
    else
      let mask ← trappingShl 1 offset
      if manager.rxWindow &&& mask ≠ 0 then
        some (.error .invalidState)
      else
        some (.ok ())

def trappingCommitRxNonce
    (manager : SessionManager DecapsKey) (hostNonce : Block 12) :
    Option (SessionManager DecapsKey) :=
  if manager.rxCounter < nonceSequence hostNonce then do
    let shift ← trappingSub (nonceSequence hostNonce) manager.rxCounter
    if 64 ≤ shift then
      some { manager with
        rxWindow := 1
        rxCounter := nonceSequence hostNonce }
    else
      let shifted ← trappingShl manager.rxWindow shift
      some { manager with
        rxWindow := shifted ||| 1
        rxCounter := nonceSequence hostNonce }
  else do
    let offset ← trappingSub manager.rxCounter (nonceSequence hostNonce)
    if 64 ≤ offset then
      some manager
    else
      let mask ← trappingShl 1 offset
      some { manager with rxWindow := manager.rxWindow ||| mask }

theorem trappingCheckRxNonce_eq
    (manager : SessionManager DecapsKey) (hostNonce : Block 12) :
    manager.trappingCheckRxNonce hostNonce =
      some (manager.checkRxNonce hostNonce) := by
  unfold trappingCheckRxNonce checkRxNonce
  split
  next => rfl
  next =>
    by_cases habove : manager.rxCounter < nonceSequence hostNonce
    · simp only [if_pos habove]
    · have hle : nonceSequence hostNonce ≤ manager.rxCounter :=
        UInt64.not_lt.mp habove
      have hsub : trappingSub manager.rxCounter (nonceSequence hostNonce) =
          some (manager.rxCounter - nonceSequence hostNonce) := if_pos hle
      simp only [if_neg habove, hsub, Option.bind_eq_bind, Option.bind_some]
      by_cases hfar : 64 ≤ manager.rxCounter - nonceSequence hostNonce
      · simp only [if_pos hfar, if_pos (Or.inl hfar)]
      · have hshl : trappingShl 1
            (manager.rxCounter - nonceSequence hostNonce) =
              some (1 <<< (manager.rxCounter - nonceSequence hostNonce)) :=
          if_pos (UInt64.not_le.mp hfar)
        simp only [hshl, Option.bind_some, hfar, if_false, false_or]
        split <;> rfl

theorem trappingCommitRxNonce_eq
    (manager : SessionManager DecapsKey) (hostNonce : Block 12) :
    manager.trappingCommitRxNonce hostNonce =
      some (manager.commitRxNonce hostNonce) := by
  unfold trappingCommitRxNonce commitRxNonce
  by_cases habove : manager.rxCounter < nonceSequence hostNonce
  · have hsub : trappingSub (nonceSequence hostNonce) manager.rxCounter =
        some (nonceSequence hostNonce - manager.rxCounter) :=
      if_pos (UInt64.le_of_lt habove)
    simp only [if_pos habove, hsub, Option.bind_eq_bind, Option.bind_some]
    by_cases hfar : 64 ≤ nonceSequence hostNonce - manager.rxCounter
    · simp only [if_pos hfar]
    · have hshl : trappingShl manager.rxWindow
          (nonceSequence hostNonce - manager.rxCounter) =
            some (manager.rxWindow <<<
              (nonceSequence hostNonce - manager.rxCounter)) :=
        if_pos (UInt64.not_le.mp hfar)
      simp only [if_neg hfar, hshl, Option.bind_some]
  · have hsub : trappingSub manager.rxCounter (nonceSequence hostNonce) =
        some (manager.rxCounter - nonceSequence hostNonce) :=
      if_pos (UInt64.not_lt.mp habove)
    simp only [if_neg habove, hsub, Option.bind_eq_bind, Option.bind_some]
    by_cases hfar : 64 ≤ manager.rxCounter - nonceSequence hostNonce
    · simp only [if_pos hfar]
    · have hshl : trappingShl 1
          (manager.rxCounter - nonceSequence hostNonce) =
            some (1 <<< (manager.rxCounter - nonceSequence hostNonce)) :=
        if_pos (UInt64.not_le.mp hfar)
      simp only [if_neg hfar, hshl, Option.bind_some]

/-! ## The window represents the committed numbers -/

theorem toNat_shiftLeft_of_lt {value amount : UInt64} (hamount : amount < 64) :
    (value <<< amount).toNat =
      (value.toNat <<< amount.toNat) % 2 ^ 64 := by
  have hlt : amount.toNat < 64 := hamount
  rw [UInt64.toNat_shiftLeft, Nat.mod_eq_of_lt hlt]

theorem toNat_one_shiftLeft {amount : UInt64} (hamount : amount < 64) :
    ((1 : UInt64) <<< amount).toNat = 1 <<< amount.toNat := by
  have hlt : amount.toNat < 64 := hamount
  rw [toNat_shiftLeft_of_lt hamount]
  apply Nat.mod_eq_of_lt
  rw [UInt64.toNat_one, Nat.one_shiftLeft]
  exact Nat.pow_lt_pow_right (by omega) hlt

theorem and_one_shiftLeft_eq_zero
    {window offset : UInt64} (hoffset : offset < 64) :
    window &&& (1 <<< offset) = 0 ↔
      window.toNat.testBit offset.toNat = false := by
  rw [← UInt64.toNat_inj, UInt64.toNat_and, toNat_one_shiftLeft hoffset,
    Nat.one_shiftLeft, Nat.and_two_pow]
  cases window.toNat.testBit offset.toNat with
  | false => simp
  | true => simp

theorem commitRxNonce_record
    (manager : SessionManager DecapsKey) (hostNonce : Block 12) :
    let next := manager.commitRxNonce hostNonce
    (next.rxCounter.toNat, next.rxWindow.toNat) =
      SequenceWindow.record 64 manager.rxCounter.toNat manager.rxWindow.toNat
        (nonceSequence hostNonce).toNat := by
  unfold commitRxNonce SequenceWindow.record
  by_cases habove : manager.rxCounter < nonceSequence hostNonce
  · have hcounter : manager.rxCounter.toNat < (nonceSequence hostNonce).toNat :=
      habove
    have hsub := UInt64.toNat_sub_of_le _ _ (UInt64.le_of_lt habove)
    simp only [if_pos habove, if_pos hcounter, ← hsub]
    by_cases hfar : 64 ≤ nonceSequence hostNonce - manager.rxCounter
    · have hjump : 64 ≤ (nonceSequence hostNonce - manager.rxCounter).toNat :=
        hfar
      simp only [if_pos hfar, if_pos hjump, UInt64.toNat_one]
    · have hshift :
          ¬ 64 ≤ (nonceSequence hostNonce - manager.rxCounter).toNat := hfar
      simp only [if_neg hfar, if_neg hshift, UInt64.toNat_or,
        toNat_shiftLeft_of_lt (UInt64.not_le.mp hfar), UInt64.toNat_one]
  · have hcounter :
        ¬ manager.rxCounter.toNat < (nonceSequence hostNonce).toNat := habove
    have hsub := UInt64.toNat_sub_of_le _ _ (UInt64.not_lt.mp habove)
    simp only [if_neg habove, if_neg hcounter, ← hsub]
    by_cases hfar : 64 ≤ manager.rxCounter - nonceSequence hostNonce
    · have hbelow : 64 ≤ (manager.rxCounter - nonceSequence hostNonce).toNat :=
        hfar
      simp only [if_pos hfar, if_pos hbelow]
    · have hinside :
          ¬ 64 ≤ (manager.rxCounter - nonceSequence hostNonce).toNat := hfar
      simp only [if_neg hfar, if_neg hinside, UInt64.toNat_or,
        toNat_one_shiftLeft (UInt64.not_le.mp hfar)]

/-- The receive side of a manager represents a set of sequence numbers. -/
def Received (manager : SessionManager DecapsKey) (recorded : Finset ℕ) :
    Prop :=
  SequenceWindow.Represents 64 recorded manager.rxCounter.toNat
    manager.rxWindow.toNat

theorem Received.commitRxNonce
    {manager : SessionManager DecapsKey} {recorded : Finset ℕ}
    (hreceived : manager.Received recorded) (hostNonce : Block 12) :
    (manager.commitRxNonce hostNonce).Received
      (insert (nonceSequence hostNonce).toNat recorded) := by
  have hrecord := hreceived.record (nonceSequence hostNonce).toNat
  rw [← manager.commitRxNonce_record hostNonce] at hrecord
  exact hrecord

/-- The condition under which a nonce is acceptable. -/
def NonceAcceptable (recorded : Finset ℕ) (hostNonce : Block 12) : Prop :=
  hostNonce.bytes.drop 8 = List.replicate 4 0 ∧
    (nonceSequence hostNonce).toNat ∉ recorded ∧
    (recorded.sup id < (nonceSequence hostNonce).toNat ∨
      recorded.sup id - (nonceSequence hostNonce).toNat < 64)

theorem any_ne_zero_eq_false
    (hostNonce : Block 12) :
    (hostNonce.bytes.drop 8).any (· != 0) = false ↔
      hostNonce.bytes.drop 8 = List.replicate 4 0 := by
  have hlength : (hostNonce.bytes.drop 8).length = 4 := by
    simp [hostNonce.length_eq]
  rw [List.eq_replicate_iff]
  simp [hlength]

theorem Received.checkRxNonce_iff
    {manager : SessionManager DecapsKey} {recorded : Finset ℕ}
    (hreceived : manager.Received recorded) (hostNonce : Block 12) :
    manager.checkRxNonce hostNonce = .ok () ↔
      NonceAcceptable recorded hostNonce := by
  have hwindow :
      SequenceWindow.Acceptable 64 recorded manager.rxCounter.toNat
        (nonceSequence hostNonce).toNat ↔ _ := hreceived.acceptable_iff
  unfold SequenceWindow.Acceptable at hwindow
  unfold NonceAcceptable checkRxNonce
  rw [← hreceived.counter_eq, hwindow, ← any_ne_zero_eq_false]
  cases (hostNonce.bytes.drop 8).any (· != 0) with
  | true => simp
  | false =>
      simp only [Bool.false_eq_true, if_false, true_and]
      by_cases habove : manager.rxCounter < nonceSequence hostNonce
      · have hcounter :
            manager.rxCounter.toNat < (nonceSequence hostNonce).toNat := habove
        simp [if_pos habove, hcounter]
      · have hcounter :
            ¬ manager.rxCounter.toNat < (nonceSequence hostNonce).toNat :=
          habove
        have hsub := UInt64.toNat_sub_of_le _ _ (UInt64.not_lt.mp habove)
        simp only [if_neg habove, hcounter, false_or, ← hsub]
        by_cases hfar : 64 ≤ manager.rxCounter - nonceSequence hostNonce
        · have hbelow :
              ¬ (manager.rxCounter - nonceSequence hostNonce).toNat < 64 :=
            Nat.not_lt.mpr hfar
          simp [hfar, hbelow]
        · have hnear := UInt64.not_le.mp hfar
          have hinside :
              (manager.rxCounter - nonceSequence hostNonce).toNat < 64 := hnear
          rw [← and_one_shiftLeft_eq_zero hnear]
          simp [hfar, hinside]

/-! ## A tenure of the session keys -/

end SessionManager

/-- The sequence numbers committed in a history. -/
def committedSequences (records : List (Record DecapsKey SigningKey)) :
    Finset ℕ :=
  ((records.filterMap Record.committed?).map UInt64.toNat).toFinset

/-- The call was a `decrypt_packet` which returned an error. -/
def Record.RejectedPacket (record : Record DecapsKey SigningKey) : Prop :=
  (∃ aad ciphertext nonce tag plaintext,
    record.call = .decryptPacket aad ciphertext nonce tag plaintext) ∧
    record.result.isOk = false

theorem committedSequences_cons
    (record : Record DecapsKey SigningKey)
    (records : List (Record DecapsKey SigningKey)) :
    committedSequences (record :: records) =
      match record.committed? with
      | some sequence => insert sequence.toNat (committedSequences records)
      | none => committedSequences records := by
  cases hcommitted : record.committed? with
  | none => simp [committedSequences, hcommitted]
  | some sequence => simp [committedSequences, hcommitted]

namespace SessionManager

/-- A receive call never gives up the session keys. -/
theorem perform_keepsKeys_of_receives
    (manager : SessionManager DecapsKey)
    (invocation : Invocation DecapsKey SigningKey)
    (hkey : manager.txKey ≠ none)
    (hcall : invocation.call.commitNonce? ≠ none) :
    (manager.perform invocation).KeepsKeys := by
  rcases invocation with ⟨prims, call⟩
  cases call with
  | decryptPacket aad ciphertext nonce tag plaintext =>
      refine ⟨?_, fun hinstalls => Bool.noConfusion hinstalls.1⟩
      rcases decryptPacket_cases prims manager aad ciphertext nonce tag
          plaintext with ⟨failure, buffer, hcase⟩ |
        ⟨key, opened, _, _, _, _, _, hcase⟩
      · simpa [perform, exec, hcase] using hkey
      · simpa [perform, exec, hcase] using hkey
  | commitRxNonce nonce =>
      refine ⟨?_, fun hinstalls => Bool.noConfusion hinstalls.1⟩
      simpa [perform, exec] using hkey
  | _ => exact absurd rfl hcall

theorem history_keepsKeys
    (manager : SessionManager DecapsKey)
    (life : List (Invocation DecapsKey SigningKey))
    (hkey : manager.txKey ≠ none)
    (hcalls : ∀ record ∈ manager.history life,
      record.call.commitNonce? ≠ none ∨ record.KeepsKeys) :
    ∀ record ∈ manager.history life, record.KeepsKeys := by
  induction life generalizing manager with
  | nil =>
      intro record hrecord
      cases hrecord
  | cons invocation rest ih =>
      have hfirst : (manager.perform invocation).KeepsKeys := by
        rcases hcalls _ (List.mem_cons_self) with hreceives | hkeeps
        · exact manager.perform_keepsKeys_of_receives invocation hkey hreceives
        · exact hkeeps
      intro record hrecord
      rcases List.mem_cons.mp hrecord with rfl | hrest
      · exact hfirst
      · apply ih (manager.perform invocation).after hfirst.1 _ record hrest
        intro later hlater
        exact hcalls later (List.mem_cons_of_mem _ hlater)

/-- One call of a tenure records what it commits. -/
theorem Received.perform
    {manager : SessionManager DecapsKey} {recorded : Finset ℕ}
    (hreceived : manager.Received recorded)
    (invocation : Invocation DecapsKey SigningKey)
    (hkeeps : (manager.perform invocation).KeepsKeys) :
    (manager.perform invocation).after.Received
      (match (manager.perform invocation).committed? with
        | some sequence => insert sequence.toNat recorded
        | none => recorded) := by
  unfold Record.committed?
  rcases manager.perform_keepsKeys invocation hkeeps with
    ⟨⟨failure, hresult⟩, hafter⟩ |
    ⟨output, hresult, _, hcommit, _, hafter⟩ |
    ⟨output, nonce, hresult, _, hcommit, hafter⟩ |
    ⟨output, hresult, _, hcommit, hafter⟩
  · rw [hresult, hafter]
    exact hreceived
  · rw [hresult, hafter]
    simp only [hcommit, Option.map_none]
    exact hreceived
  · rw [hresult, hafter]
    simp only [hcommit, Option.map_some]
    exact hreceived.commitRxNonce nonce
  · rw [hresult, hafter]
    simp only [hcommit, Option.map_none]
    exact hreceived

theorem Received.afterCalls
    {manager : SessionManager DecapsKey} {recorded : Finset ℕ}
    (hreceived : manager.Received recorded)
    (life : List (Invocation DecapsKey SigningKey))
    (hkept : ∀ record ∈ manager.history life, record.KeepsKeys) :
    (manager.afterCalls life).Received
      (recorded ∪ committedSequences (manager.history life)) := by
  induction life generalizing manager recorded with
  | nil => simpa [history, committedSequences] using hreceived
  | cons invocation rest ih =>
      have hfirst := hreceived.perform invocation
        (hkept _ List.mem_cons_self)
      have hrest := ih hfirst fun record hrecord =>
        hkept record (List.mem_cons_of_mem _ hrecord)
      rw [afterCalls_cons, history, committedSequences_cons]
      cases hcommitted : (manager.perform invocation).committed? with
      | none =>
          rw [hcommitted] at hrest
          exact hrest
      | some sequence =>
          rw [hcommitted] at hrest
          simpa only [Finset.insert_union, Finset.union_insert] using hrest

theorem installed_received
    (txKey rxKey : Block 64) (pendingAuth : Option PendingAuthentication) :
    (installed txKey rxKey pendingAuth :
      SessionManager DecapsKey).Received ∅ :=
  SequenceWindow.represents_empty 64

/-- A packet whose tag verifies is accepted exactly when its nonce is. -/
theorem decryptPacket_ok_iff
    (prims : Primitives DecapsKey SigningKey)
    {manager : SessionManager DecapsKey} {aad : Slice}
    {ciphertext plaintext opened : Bytes} {nonce : Block 12} {tag : Block 48}
    {key : Block 64}
    (hestablished : manager.isEstablished = true)
    (hconfirmed : manager.pendingAuth = none)
    (hkey : manager.rxKey = some key)
    (hlengths : plaintext.length = ciphertext.length)
    (hmax : ciphertext.length ≤ chacha20MaxBytes)
    (hmac : prims.hmacNewFromSlice (key.slice 32 32 highHalf_le).bytes = true)
    (htag : prims.hmacSha384 (key.slice 32 32 highHalf_le).bytes
      (macInput aad ciphertext nonce) = tag)
    (hcipher : prims.chacha20NewFromSlices (key.slice 0 32 lowHalf_le) nonce =
      true)
    (happly : prims.chacha20TryApplyKeystream (key.slice 0 32 lowHalf_le) nonce
      ciphertext = (true, opened)) :
    (manager.decryptPacket prims aad ciphertext nonce tag plaintext).result =
        .ok () ↔
      manager.checkRxNonce nonce = .ok () := by
  have hopened := aeadDecrypt_eq_ok_of_tag prims hlengths hmax hmac htag
    hcipher happly
  unfold decryptPacket
  cases hcheck : manager.checkRxNonce nonce with
  | error failure => simp [hestablished, hconfirmed, hlengths]
  | ok _ => simp [hestablished, hconfirmed, hlengths, hkey, hopened]

theorem perform_rejectedPacket
    (manager : SessionManager DecapsKey)
    (invocation : Invocation DecapsKey SigningKey)
    (hrejected : (manager.perform invocation).RejectedPacket) :
    (manager.perform invocation).after = manager := by
  rcases invocation with ⟨prims, call⟩
  rcases hrejected with ⟨⟨aad, ciphertext, nonce, tag, plaintext, hcall⟩, herr⟩
  change call = _ at hcall
  subst hcall
  rcases decryptPacket_cases prims manager aad ciphertext nonce tag
      plaintext with ⟨failure, buffer, hcase⟩ |
    ⟨key, opened, _, _, _, _, _, hcase⟩
  · simp only [perform, exec, hcase]
  · simp [perform, exec, hcase, Except.isOk, Except.toBool] at herr

theorem afterCalls_rejectedPackets
    (manager : SessionManager DecapsKey)
    (rejected : List (Invocation DecapsKey SigningKey))
    (hrejected : ∀ record ∈ manager.history rejected, record.RejectedPacket) :
    manager.afterCalls rejected = manager := by
  induction rejected generalizing manager with
  | nil => rfl
  | cons invocation rest ih =>
      have hfirst := manager.perform_rejectedPacket invocation
        (hrejected _ List.mem_cons_self)
      rw [afterCalls_cons, hfirst]
      apply ih
      intro record hrecord
      apply hrejected record
      rw [history, hfirst]
      exact List.mem_cons_of_mem _ hrecord

/-- The replay window is exact: from the installation of the keys on, for as
long as they stay in place, the counter, the bits and the check describe the
set of committed sequence numbers. -/
theorem replayWindow_exact
    (manager : SessionManager DecapsKey)
    (install : Invocation DecapsKey SigningKey)
    (life : List (Invocation DecapsKey SigningKey))
    (hinstall : (manager.perform install).Installs)
    (hcalls : ∀ record ∈ (manager.perform install).after.history life,
      record.call.commitNonce? ≠ none ∨ record.KeepsKeys) :
    let start := (manager.perform install).after
    let current := start.afterCalls life
    let recorded := committedSequences (start.history life)
    current.rxCounter.toNat = recorded.sup id ∧
    (∀ i < 64, current.rxWindow.toNat.testBit i = true ↔
      i ≤ recorded.sup id ∧ recorded.sup id - i ∈ recorded) ∧
    (∀ nonce, current.checkRxNonce nonce = .ok () ↔
      NonceAcceptable recorded nonce) ∧
    (∀ nonce, current.trappingCheckRxNonce nonce =
        some (current.checkRxNonce nonce) ∧
      current.trappingCommitRxNonce nonce =
        some (current.commitRxNonce nonce)) ∧
    (∀ (prims : Primitives DecapsKey SigningKey) (aad : Slice)
        (ciphertext plaintext opened : Bytes) (nonce : Block 12)
        (tag : Block 48) (key : Block 64),
      current.isEstablished = true → current.pendingAuth = none →
      current.rxKey = some key →
      plaintext.length = ciphertext.length →
      ciphertext.length ≤ chacha20MaxBytes →
      prims.hmacNewFromSlice (key.slice 32 32 highHalf_le).bytes = true →
      prims.hmacSha384 (key.slice 32 32 highHalf_le).bytes
        (macInput aad ciphertext nonce) = tag →
      prims.chacha20NewFromSlices (key.slice 0 32 lowHalf_le) nonce = true →
      prims.chacha20TryApplyKeystream (key.slice 0 32 lowHalf_le) nonce
        ciphertext = (true, opened) →
      ((current.decryptPacket prims aad ciphertext nonce tag
          plaintext).result = .ok () ↔ NonceAcceptable recorded nonce)) ∧
    (∀ rejected : List (Invocation DecapsKey SigningKey),
      (∀ record ∈ current.history rejected, record.RejectedPacket) →
        current.afterCalls rejected = current) := by
  intro start current recorded
  rcases manager.perform_installs install hinstall with
    ⟨txKey, rxKey, pendingAuth, hinstalled⟩
  have hstart : start = installed txKey rxKey pendingAuth := hinstalled
  have hkey : start.txKey ≠ none := by
    rw [hstart]
    exact Option.some_ne_none txKey
  have hempty : start.Received ∅ := by
    rw [hstart]
    exact installed_received txKey rxKey pendingAuth
  have hreceived : current.Received recorded := by
    have hafter := hempty.afterCalls life
      (start.history_keepsKeys life hkey hcalls)
    rwa [Finset.empty_union] at hafter
  refine ⟨hreceived.counter_eq, ?_, hreceived.checkRxNonce_iff, ?_, ?_,
    current.afterCalls_rejectedPackets⟩
  · intro i hi
    rw [← hreceived.counter_eq]
    exact hreceived.bit_iff i hi
  · intro nonce
    exact ⟨current.trappingCheckRxNonce_eq nonce,
      current.trappingCommitRxNonce_eq nonce⟩
  · intro prims aad ciphertext plaintext opened nonce tag key hestablished
      hconfirmed hrx hlengths hmax hmac htag hcipher happly
    rw [decryptPacket_ok_iff prims hestablished hconfirmed hrx hlengths hmax
      hmac htag hcipher happly]
    exact hreceived.checkRxNonce_iff nonce

/-- An installation with the reference primitives. -/
def referenceInstall : Invocation UInt8 UInt8 where
  prims := Reference.primitives
  call := .encapsulateForPeer (Block.fill 1568 3) (Block.fill 32 5)
    (Block.fill 64 7) [] []

theorem replayWindow_exact_after_two_commits :
    let start :=
      ((new : SessionManager UInt8).perform referenceInstall).after
    let life : List (Invocation UInt8 UInt8) :=
      [⟨Reference.primitives, .commitRxNonce (sequenceNonce 5)⟩,
        ⟨Reference.primitives, .commitRxNonce (sequenceNonce 70)⟩]
    (start.afterCalls life).rxCounter.toNat =
      (committedSequences (start.history life)).sup id := by
  intro start life
  refine (replayWindow_exact new referenceInstall life ?_ ?_).1
  · decide +kernel
  · intro record hrecord
    simp only [life, history, List.mem_cons, List.not_mem_nil, or_false]
      at hrecord
    rcases hrecord with rfl | rfl
    · exact Or.inl (Option.some_ne_none _)
    · exact Or.inl (Option.some_ne_none _)

end SessionManager

end ShawnCore
