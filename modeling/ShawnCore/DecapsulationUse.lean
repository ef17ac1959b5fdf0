import ShawnCore.AnnotatedSession
import ShawnCore.SessionFailures

/-!
# One decapsulation for each ephemeral key

A call which decapsulates leaves no key behind.  So the key which one
`initiate_handshake` stored is decapsulated with at most once in the life of
its manager, whatever comes after.
-/

namespace ShawnCore

open ByteBlocks

variable {DecapsKey SigningKey : Type}

namespace SessionManager

section Calls

variable {prims : Primitives DecapsKey SigningKey}

/-! ## What is decapsulated -/

/-- A call of either operation which holds a whole pending handshake and, for
`finalize_authenticated`, a verified reply leaves no decapsulation key. -/
theorem exec_committed_mlKemDk
    {manager : SessionManager DecapsKey} {call : Call SigningKey}
    (hcall : call.installsKeys = true)
    (hcommitted : call.Committed prims manager) :
    (manager.exec prims call).2.mlKemDk = none := by
  have htransition := exec_transition prims manager call
  rcases hexec : manager.exec prims call with ⟨result, next⟩
  rw [hexec] at htransition
  cases result with
  | error failure =>
      rw [(exec_failsAtomically hexec).wiped hcommitted]
      rfl
  | ok output =>
      cases htransition with
      | zeroized => cases hcall
      | initiated => cases hcall
      | installed => rfl
      | sent _ _ _ hkeep => simp [hkeep] at hcall
      | received _ _ _ hkeep => simp [hkeep] at hcall
      | confirmed => cases hcall

/-- The call decapsulates the pending key of `manager`; a reply has had its
signature over the ciphertext verified. -/
def Decapsulates
    (prims : Primitives DecapsKey SigningKey)
    (manager : SessionManager DecapsKey) (call : Call SigningKey)
    (decapsulation : Decapsulation DecapsKey) : Prop :=
  ∃ sk, manager.mlKemDk = some decapsulation.key ∧
    manager.x25519Sk = some sk ∧
    match call with
    | .finalizeHandshake _ mlKemCt _ _ => decapsulation.ct = mlKemCt
    | .finalizeAuthenticated args =>
        decapsulation.ct = args.mlKemCt ∧ args.appInfo.length < 2 ^ 32 ∧
        mlDsaVerifyWithContext prims args.peerVerifyingKey
          ((args.exchange prims decapsulation.key sk).digest prims
            args.peerConfirmation).bytes
          contextEncapsulatingSide args.peerSignature = .ok ()
    | _ => False

theorem Decapsulates.mlKemDk_after
    {manager : SessionManager DecapsKey} {call : Call SigningKey}
    {decapsulation : Decapsulation DecapsKey}
    (hdecapsulates : Decapsulates prims manager call decapsulation) :
    (manager.exec prims call).2.mlKemDk = none := by
  rcases hdecapsulates with ⟨sk, hdk, hsk, hcall⟩
  cases call with
  | finalizeHandshake peerX25519Pk mlKemCt salt info =>
      apply exec_committed_mlKemDk rfl
      rw [Call.Committed, hdk, hsk]
      exact ⟨Option.some_ne_none _, Option.some_ne_none _⟩
  | finalizeAuthenticated args =>
      apply exec_committed_mlKemDk rfl
      exact ⟨_, sk, hdk, hsk, hcall.2⟩
  | _ => exact absurd hcall id

theorem finalizeAuthenticated_decapsulations
    (manager : SessionManager DecapsKey)
    (args : FinalizeAuthenticatedArgs SigningKey) :
    decapsulations (manager.finalizeAuthenticatedAnnotated prims args).1 = [] ∨
      ∃ decapsulation,
        decapsulations (manager.finalizeAuthenticatedAnnotated prims args).1 =
          [decapsulation] ∧
        Decapsulates prims manager (.finalizeAuthenticated args)
          decapsulation := by
  unfold finalizeAuthenticatedAnnotated
  split
  next => exact Or.inl rfl
  next dk hdk =>
    split
    next => exact Or.inl rfl
    next sk hsk =>
      dsimp only
      split
      next => exact Or.inl rfl
      next binding hbinding =>
        rcases handshakeBinding_eq_ok prims hbinding with
          ⟨hlength, hbindingEq⟩
        change binding = (args.exchange prims dk sk).binding prims
          at hbindingEq
        subst hbindingEq
        split
        next => exact Or.inl rfl
        next hverify =>
          refine Or.inr ⟨⟨dk, args.mlKemCt⟩, ?_, sk, hdk, hsk, rfl, hlength,
            hverify⟩
          rw [completeAuthenticatedFinalizeAnnotated_calls hdk hsk]
          rfl

/-- A call makes at most one decapsulation. -/
theorem execAnnotated_decapsulations
    (manager : SessionManager DecapsKey) (call : Call SigningKey) :
    decapsulations (manager.execAnnotated prims call).1 = [] ∨
      ∃ decapsulation,
        decapsulations (manager.execAnnotated prims call).1 =
          [decapsulation] ∧
        Decapsulates prims manager call decapsulation := by
  cases call with
  | finalizeHandshake peerX25519Pk mlKemCt salt info =>
      simp only [execAnnotated, finalizeHandshakeAnnotated]
      cases hdk : manager.mlKemDk with
      | none => exact Or.inl rfl
      | some dk =>
          cases hsk : manager.x25519Sk with
          | none => exact Or.inl rfl
          | some sk =>
              refine Or.inr ⟨⟨dk, mlKemCt⟩, ?_, sk, hdk, hsk, rfl⟩
              simp only [finalizeSecretsAnnotated_calls]
              rfl
  | finalizeAuthenticated args =>
      exact manager.finalizeAuthenticated_decapsulations args
  | encapsulateAuthenticated args => exact Or.inl (decapsulations_exited _)
  | encryptPacket => exact Or.inl (decapsulations_exited _)
  | decryptPacket => exact Or.inl (decapsulations_exited _)
  | getNextTxNonce => exact Or.inl (decapsulations_exited _)
  | _ => exact Or.inl rfl

end Calls

end SessionManager

/-! ## The call which stored a key -/

namespace Record

/-- A successful `initiate_handshake`. -/
def Initiates (record : Record DecapsKey SigningKey) : Prop :=
  ∃ entropy mlKemPk x25519Pk, record.call = .initiateHandshake entropy ∧
    record.result = .ok (.firstMessage mlKemPk x25519Pk)

end Record

/-- The decapsulation key which call `k` finds was stored by call `i`: no call
in between has stored another one or given it up. -/
structure StoredBy
    (records : List (Record DecapsKey SigningKey)) (i k : ℕ)
    (key : DecapsKey) : Prop where
  lt : i < k
  stored : ∃ record, records[i]? = some record ∧ record.Initiates ∧
    record.after.mlKemDk = some key
  kept : ∀ j record, i < j → j < k → records[j]? = some record →
    record.after.mlKemDk = some key ∧ ¬ record.Initiates

namespace StoredBy

variable {records : List (Record DecapsKey SigningKey)} {i k : ℕ}
variable {key : DecapsKey}

theorem snoc
    (hstored : StoredBy records i records.length key)
    {record : Record DecapsKey SigningKey}
    (hkey : record.after.mlKemDk = some key)
    (hinitiates : ¬ record.Initiates) :
    StoredBy (records ++ [record]) i (records.length + 1) key := by
  refine ⟨Nat.lt_succ_of_lt hstored.lt, ?_, ?_⟩
  · rcases hstored.stored with ⟨first, hfirst, hfacts⟩
    refine ⟨first, ?_, hfacts⟩
    rw [List.getElem?_append_left hstored.lt]
    exact hfirst
  · intro j later hij hj hlater
    rcases Nat.lt_succ_iff_lt_or_eq.mp hj with hlt | heq
    · rw [List.getElem?_append_left hlt] at hlater
      exact hstored.kept j later hij hlt hlater
    · subst heq
      rw [List.getElem?_concat_length] at hlater
      obtain rfl : record = later := Option.some.inj hlater
      exact ⟨hkey, hinitiates⟩

theorem of_take (hstored : StoredBy (records.take k) i k key) :
    StoredBy records i k key := by
  refine ⟨hstored.lt, ?_, ?_⟩
  · rcases hstored.stored with ⟨first, hfirst, hfacts⟩
    rw [List.getElem?_take_of_lt hstored.lt] at hfirst
    exact ⟨first, hfirst, hfacts⟩
  · intro j later hij hj hlater
    apply hstored.kept j later hij hj
    rw [List.getElem?_take_of_lt hj]
    exact hlater

end StoredBy

namespace SessionManager

/-- Only a successful `initiate_handshake` stores a decapsulation key. -/
theorem perform_mlKemDk
    (manager : SessionManager DecapsKey)
    (invocation : Invocation DecapsKey SigningKey) {key : DecapsKey}
    (hkey : (manager.perform invocation).after.mlKemDk = some key)
    (hinitiates : ¬ (manager.perform invocation).Initiates) :
    manager.mlKemDk = some key := by
  have htransition := manager.perform_transition invocation
  unfold Record.Initiates at hinitiates
  generalize (manager.perform invocation).call = call at *
  generalize (manager.perform invocation).result = result at *
  generalize (manager.perform invocation).after = after at *
  cases htransition with
  | refused => exact hkey
  | failedClosed => cases hkey
  | zeroized => cases hkey
  | initiated entropy mlKemPk x25519Pk =>
      exact absurd ⟨entropy, mlKemPk, x25519Pk, rfl, rfl⟩ hinitiates
  | installed => cases hkey
  | sent => exact hkey
  | received _ _ nonce =>
      rcases manager.commitRxNonce_frame nonce with ⟨_, _, hframe⟩
      rw [hframe] at hkey
      exact hkey
  | confirmed => exact hkey

theorem history_length
    (manager : SessionManager DecapsKey)
    (life : List (Invocation DecapsKey SigningKey)) :
    (manager.history life).length = life.length := by
  induction life generalizing manager with
  | nil => rfl
  | cons invocation rest ih =>
      rw [history, List.length_cons, List.length_cons, ih]

theorem history_take
    (manager : SessionManager DecapsKey)
    (life : List (Invocation DecapsKey SigningKey)) (k : ℕ) :
    manager.history (life.take k) = (manager.history life).take k := by
  induction life generalizing manager k with
  | nil => simp [history]
  | cons invocation rest ih =>
      cases k with
      | zero => rfl
      | succ k => rw [List.take_succ_cons, history, history,
          List.take_succ_cons, ih]

/-- The record of call `k`. -/
theorem history_getElem?
    (manager : SessionManager DecapsKey)
    (life : List (Invocation DecapsKey SigningKey)) (k : ℕ) :
    (manager.history life)[k]? = life[k]?.map fun invocation =>
      (manager.afterCalls (life.take k)).perform invocation := by
  induction life generalizing manager k with
  | nil => rfl
  | cons invocation rest ih =>
      cases k with
      | zero => rfl
      | succ k =>
          rw [history, List.getElem?_cons_succ, List.getElem?_cons_succ, ih,
            List.take_succ_cons]
          rfl

/-- A decapsulation key held at the end of a life was stored by one of its
calls. -/
theorem exists_storedBy
    (life : List (Invocation DecapsKey SigningKey)) {key : DecapsKey}
    (hkey : (new.afterCalls life).mlKemDk = some key) :
    ∃ i, StoredBy (new.history life) i life.length key := by
  induction life using List.reverseRecOn generalizing key with
  | nil => cases hkey
  | append_singleton life invocation ih =>
      rw [afterCalls_append] at hkey
      change ((new.afterCalls life).perform invocation).after.mlKemDk =
        some key at hkey
      have hhistory : new.history (life ++ [invocation]) = new.history life ++
          [(new.afterCalls life).perform invocation] :=
        new.history_append life [invocation]
      rw [hhistory, List.length_append, List.length_singleton]
      by_cases hinitiates :
          ((new.afterCalls life).perform invocation).Initiates
      · refine ⟨life.length, Nat.lt_succ_self _, ?_, ?_⟩
        · refine ⟨_, ?_, hinitiates, hkey⟩
          rw [← new.history_length life]
          exact List.getElem?_concat_length
        · intro j record hj hlt
          omega
      · rcases ih (perform_mlKemDk _ invocation hkey hinitiates) with
          ⟨i, hstored⟩
        rw [← new.history_length life] at hstored ⊢
        exact ⟨i, hstored.snoc hkey hinitiates⟩

/-! ## Main result -/

/-- The decapsulations made by call `k` of a life. -/
def decapsulationsAt
    (life : List (Invocation DecapsKey SigningKey)) (k : ℕ) :
    List (Decapsulation DecapsKey) :=
  match life[k]? with
  | none => []
  | some invocation =>
      decapsulations ((new.afterCalls (life.take k)).execAnnotated
        invocation.prims invocation.call).1

theorem decapsulationsAt_cases
    {life : List (Invocation DecapsKey SigningKey)} {k : ℕ}
    {decapsulation : Decapsulation DecapsKey}
    (hmem : decapsulation ∈ decapsulationsAt life k) :
    decapsulationsAt life k = [decapsulation] ∧
      ∃ invocation, life[k]? = some invocation ∧
        Decapsulates invocation.prims (new.afterCalls (life.take k))
          invocation.call decapsulation := by
  unfold decapsulationsAt at hmem ⊢
  cases hcall : life[k]? with
  | none => simp [hcall] at hmem
  | some invocation =>
      simp only [hcall] at hmem ⊢
      rcases execAnnotated_decapsulations (new.afterCalls (life.take k))
          invocation.call with hnone | ⟨found, hfound, hdecapsulates⟩
      · rw [hnone] at hmem
        cases hmem
      · rw [hfound] at hmem ⊢
        obtain rfl := List.mem_singleton.mp hmem
        exact ⟨rfl, invocation, rfl, hdecapsulates⟩

/-- A key found by a later call than the one which decapsulated cannot be the
same stored key. -/
theorem le_of_decapsulated
    {life : List (Invocation DecapsKey SigningKey)} {i k later : ℕ}
    {key : DecapsKey} {decapsulation : Decapsulation DecapsKey}
    (hfirst : i < k) (hmem : decapsulation ∈ decapsulationsAt life k)
    (hstored : StoredBy (new.history life) i later key) : later ≤ k := by
  by_contra hlt
  rcases decapsulationsAt_cases hmem with
    ⟨_, invocation, hcall, hdecapsulates⟩
  have hrecord : (new.history life)[k]? =
      some ((new.afterCalls (life.take k)).perform invocation) := by
    rw [history_getElem?, hcall, Option.map_some]
  have hkept := (hstored.kept k _ hfirst (by omega) hrecord).1
  have hgone := hdecapsulates.mlKemDk_after
  cases hgone.symm.trans hkept

/-- Every decapsulation of a life uses the key which one `initiate_handshake`
of that life stored, no two of them use the key of the same
`initiate_handshake`, and `finalize_authenticated` decapsulates only what a
verified signature of its peer covers. -/
theorem decapsulationKeys_used_once
    (life : List (Invocation DecapsKey SigningKey)) (k : ℕ)
    (decapsulation : Decapsulation DecapsKey)
    (hmem : decapsulation ∈ decapsulationsAt life k) :
    decapsulationsAt life k = [decapsulation] ∧
      (∃ i, StoredBy (new.history life) i k decapsulation.key) ∧
      (∀ i other another, StoredBy (new.history life) i k decapsulation.key →
        another ∈ decapsulationsAt life other →
        StoredBy (new.history life) i other another.key → other = k) ∧
      ∃ invocation, life[k]? = some invocation ∧
        ((new.afterCalls (life.take k)).execAnnotated invocation.prims
            invocation.call).2 =
          (new.afterCalls (life.take k)).exec invocation.prims
            invocation.call ∧
        Decapsulates invocation.prims (new.afterCalls (life.take k))
          invocation.call decapsulation := by
  rcases decapsulationsAt_cases hmem with
    ⟨honly, invocation, hcall, hdecapsulates⟩
  refine ⟨honly, ?_, ?_, invocation, hcall, execAnnotated_erase _ _ _,
    hdecapsulates⟩
  · rcases hdecapsulates with ⟨_, hkey, _⟩
    rcases exists_storedBy (life.take k) hkey with ⟨i, hstored⟩
    have hk : k < life.length := (List.getElem?_eq_some_iff.mp hcall).1
    rw [history_take, List.length_take_of_le hk.le] at hstored
    exact ⟨i, hstored.of_take⟩
  · intro i other another hstored hother hstoredOther
    have hle := le_of_decapsulated hstored.lt hmem hstoredOther
    have hge := le_of_decapsulated hstoredOther.lt hother hstored
    omega

theorem decapsulationKeys_used_once_by_finalize :
    let life : List (Invocation UInt8 UInt8) :=
      [⟨Reference.primitives, .initiateHandshake (Block.fill 96 3)⟩,
        ⟨Reference.primitives, .finalizeHandshake (Block.fill 32 5)
          (Block.fill 1568 7) [] []⟩]
    decapsulationsAt life 1 = [⟨3, Block.fill 1568 7⟩] ∧
      ∃ i, StoredBy (new.history life) i 1 3 := by
  intro life
  have honly : decapsulationsAt life 1 = [⟨3, Block.fill 1568 7⟩] :=
    congrArg decapsulations (finalizeSecretsAnnotated_calls 3
      (Block.fill 32 3) (Block.fill 32 5) (Block.fill 1568 7) [] [])
  refine ⟨honly, ?_⟩
  refine (decapsulationKeys_used_once life 1 ⟨3, Block.fill 1568 7⟩ ?_).2.1
  rw [honly]
  exact List.mem_singleton_self _

end SessionManager

end ShawnCore
