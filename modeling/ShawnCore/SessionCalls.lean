import ShawnCore.SessionManager

/-!
# Calls, their effects and the life of a manager

The eleven public operations of a session manager become one type of calls.
`Transition` says once what any call can do to the manager, whatever the
primitives answer; the invariants of later modules are read off from it.  A
life is a sequence of calls, each with primitives of its own, so that the
outcome of a primitive may change from call to call.
-/

namespace ShawnCore

open ByteBlocks

inductive Call (SigningKey : Type)
  | initiateHandshake (entropy : Block 96)
  | finalizeHandshake (peerX25519Pk : X25519Public)
      (mlKemCt : Ciphertext1024) (salt info : Bytes)
  | encapsulateForPeer (peerMlKemPk : PublicKey1024)
      (peerX25519Pk : X25519Public) (entropy : Block 64) (salt info : Bytes)
  | encapsulateAuthenticated (args : EncapsulateAuthenticatedArgs SigningKey)
  | finalizeAuthenticated (args : FinalizeAuthenticatedArgs SigningKey)
  | confirmPeer (args : ConfirmPeerArgs)
  | encryptPacket (aad : Slice) (plaintext ciphertext : Bytes)
      (nonce : Block 12) (tag : Block 48)
  | decryptPacket (aad : Slice) (ciphertext : Bytes) (nonce : Block 12)
      (tag : Block 48) (plaintext : Bytes)
  | getNextTxNonce (nonce : Block 12)
  | commitRxNonce (nonce : Block 12)
  | zeroizeSession

inductive Output
  | done
  | firstMessage (mlKemPk : PublicKey1024) (x25519Pk : X25519Public)
  | encapsulated (ct : Ciphertext1024) (pk : X25519Public)
  | authEncapsulated (output : EncapsulateAuthenticatedOutput)
  | proof (output : FinalizeAuthenticatedOutput)
  | packet (ciphertext : Bytes) (nonce : Block 12) (tag : Block 48)
  | plaintext (bytes : Bytes)
  | txNonce (nonce : Block 12)
deriving DecidableEq

variable {DecapsKey SigningKey : Type}

/-- The nonce which an output hands to the caller for transmission. -/
def Output.nonce? : Output → Option (Block 12)
  | .packet _ nonce _ => some nonce
  | .txNonce nonce => some nonce
  | _ => none

/-- The calls which install session keys when they succeed. -/
def Call.installsKeys : Call SigningKey → Bool
  | .finalizeHandshake .. => true
  | .encapsulateForPeer .. => true
  | .encapsulateAuthenticated _ => true
  | .finalizeAuthenticated _ => true
  | _ => false

/-- The calls which process application traffic. -/
def Call.isPacket : Call SigningKey → Bool
  | .encryptPacket .. => true
  | .decryptPacket .. => true
  | _ => false

/-- The nonce whose sequence number a successful call records. -/
def Call.commitNonce? : Call SigningKey → Option (Block 12)
  | .decryptPacket _ _ nonce _ _ => some nonce
  | .commitRxNonce nonce => some nonce
  | _ => none

namespace SessionManager

variable (prims : Primitives DecapsKey SigningKey)

def exec (manager : SessionManager DecapsKey) :
    Call SigningKey → Except CryptoError Output × SessionManager DecapsKey
  | .initiateHandshake entropy =>
      match manager.initiateHandshake prims entropy with
      | (.ok (mlKemPk, x25519Pk), next) =>
          (.ok (.firstMessage mlKemPk x25519Pk), next)
      | (.error failure, next) => (.error failure, next)
  | .finalizeHandshake peerX25519Pk mlKemCt salt info =>
      match manager.finalizeHandshake prims peerX25519Pk mlKemCt salt info with
      | (.ok (), next) => (.ok .done, next)
      | (.error failure, next) => (.error failure, next)
  | .encapsulateForPeer peerMlKemPk peerX25519Pk entropy salt info =>
      match manager.encapsulateForPeer prims peerMlKemPk peerX25519Pk entropy
          salt info with
      | (.ok (ct, pk), next) => (.ok (.encapsulated ct pk), next)
      | (.error failure, next) => (.error failure, next)
  | .encapsulateAuthenticated args =>
      match manager.encapsulateAuthenticated prims args with
      | (.ok output, next) => (.ok (.authEncapsulated output), next)
      | (.error failure, next) => (.error failure, next)
  | .finalizeAuthenticated args =>
      match manager.finalizeAuthenticated prims args with
      | (.ok output, next) => (.ok (.proof output), next)
      | (.error failure, next) => (.error failure, next)
  | .confirmPeer args =>
      match manager.confirmPeer prims args with
      | (.ok (), next) => (.ok .done, next)
      | (.error failure, next) => (.error failure, next)
  | .encryptPacket aad plaintext ciphertext nonce tag =>
      let outcome :=
        manager.encryptPacket prims aad plaintext ciphertext nonce tag
      match outcome.result with
      | .ok () =>
          (.ok (.packet outcome.ciphertext outcome.nonce outcome.tag),
            outcome.manager)
      | .error failure => (.error failure, outcome.manager)
  | .decryptPacket aad ciphertext nonce tag plaintext =>
      let outcome :=
        manager.decryptPacket prims aad ciphertext nonce tag plaintext
      match outcome.result with
      | .ok () => (.ok (.plaintext outcome.plaintext), outcome.manager)
      | .error failure => (.error failure, outcome.manager)
  | .getNextTxNonce nonce =>
      let outcome := manager.getNextTxNonce nonce
      match outcome.result with
      | .ok () => (.ok (.txNonce outcome.nonce), outcome.manager)
      | .error failure => (.error failure, outcome.manager)
  | .commitRxNonce nonce => (.ok .done, manager.commitRxNonce nonce)
  | .zeroizeSession => (.ok .done, manager.zeroizeSession)

/-- Recording a nonce touches the receive counter and the window only. -/
theorem commitRxNonce_frame
    (manager : SessionManager DecapsKey) (nonce : Block 12) :
    ∃ counter window,
      manager.commitRxNonce nonce =
        { manager with rxCounter := counter, rxWindow := window } := by
  unfold commitRxNonce
  dsimp only
  split
  next => exact ⟨_, _, rfl⟩
  next =>
    split
    next => exact ⟨manager.rxCounter, manager.rxWindow, rfl⟩
    next => exact ⟨manager.rxCounter, _, rfl⟩

@[simp] theorem commitRxNonce_txKey
    (manager : SessionManager DecapsKey) (nonce : Block 12) :
    (manager.commitRxNonce nonce).txKey = manager.txKey := by
  rcases manager.commitRxNonce_frame nonce with ⟨_, _, hframe⟩
  rw [hframe]

@[simp] theorem commitRxNonce_rxKey
    (manager : SessionManager DecapsKey) (nonce : Block 12) :
    (manager.commitRxNonce nonce).rxKey = manager.rxKey := by
  rcases manager.commitRxNonce_frame nonce with ⟨_, _, hframe⟩
  rw [hframe]

@[simp] theorem commitRxNonce_txCounter
    (manager : SessionManager DecapsKey) (nonce : Block 12) :
    (manager.commitRxNonce nonce).txCounter = manager.txCounter := by
  rcases manager.commitRxNonce_frame nonce with ⟨_, _, hframe⟩
  rw [hframe]

@[simp] theorem commitRxNonce_pendingAuth
    (manager : SessionManager DecapsKey) (nonce : Block 12) :
    (manager.commitRxNonce nonce).pendingAuth = manager.pendingAuth := by
  rcases manager.commitRxNonce_frame nonce with ⟨_, _, hframe⟩
  rw [hframe]

/-- The manager right after an operation installed session keys. -/
def installed (txKey rxKey : Block 64)
    (pendingAuth : Option PendingAuthentication) : SessionManager DecapsKey :=
  { (new : SessionManager DecapsKey).installKeys txKey rxKey with
    pendingAuth := pendingAuth }

/-- Everything a call can do to a manager. -/
inductive Transition (manager : SessionManager DecapsKey) :
    Call SigningKey → Except CryptoError Output → SessionManager DecapsKey →
      Prop
  | refused (call : Call SigningKey) (failure : CryptoError) :
      Transition manager call (.error failure) manager
  | failedClosed (call : Call SigningKey) (failure : CryptoError) :
      Transition manager call (.error failure) new
  | zeroized : Transition manager .zeroizeSession (.ok .done) new
  | initiated (entropy : Block 96) (mlKemPk : PublicKey1024)
      (x25519Pk : X25519Public) (mlKemDk : DecapsKey)
      (x25519Sk : X25519Secret) :
      Transition manager (.initiateHandshake entropy)
        (.ok (.firstMessage mlKemPk x25519Pk))
        { (new : SessionManager DecapsKey) with
          mlKemDk := some mlKemDk
          x25519Sk := some x25519Sk }
  | installed (call : Call SigningKey) (output : Output)
      (txKey rxKey : Block 64) (pendingAuth : Option PendingAuthentication)
      (hcall : call.installsKeys = true) (hnonce : output.nonce? = none)
      (hpending : pendingAuth ≠ none → ∃ args result,
        call = .encapsulateAuthenticated args ∧
          output = .authEncapsulated result) :
      Transition manager call (.ok output)
        (SessionManager.installed txKey rxKey pendingAuth)
  | sent (call : Call SigningKey) (output : Output)
      (hcounter : manager.txCounter ≠ u64Max)
      (hcall : call.installsKeys = false)
      (hcommit : call.commitNonce? = none)
      (hnonce : output.nonce? = some (sequenceNonce manager.txCounter)) :
      Transition manager call (.ok output)
        { manager with txCounter := manager.txCounter + 1 }
  | received (call : Call SigningKey) (output : Output) (nonce : Block 12)
      (hcall : call.installsKeys = false)
      (hcommit : call.commitNonce? = some nonce)
      (hnonce : output.nonce? = none) :
      Transition manager call (.ok output) (manager.commitRxNonce nonce)
  | confirmed (args : ConfirmPeerArgs)
      (hpending : manager.pendingAuth.isSome = true) :
      Transition manager (.confirmPeer args) (.ok .done)
        manager.wipePendingAuthentication

/-! ## Every operation is one of the transitions -/

theorem initiateHandshake_cases
    (manager : SessionManager DecapsKey) (entropy : Block 96) :
    (∃ failure,
      manager.initiateHandshake prims entropy = (.error failure, manager)) ∨
      ∃ mlKemPk x25519Pk mlKemDk x25519Sk,
        manager.initiateHandshake prims entropy =
          (.ok (mlKemPk, x25519Pk),
            { (new : SessionManager DecapsKey) with
              mlKemDk := some mlKemDk
              x25519Sk := some x25519Sk }) := by
  unfold initiateHandshake
  split
  next => exact Or.inl ⟨_, rfl⟩
  next =>
    split
    next failure _ => exact Or.inl ⟨failure, rfl⟩
    next mlKemPk mlKemDk _ => exact Or.inr ⟨mlKemPk, _, mlKemDk, _, rfl⟩

theorem finalizeHandshake_cases
    (manager : SessionManager DecapsKey) (peerX25519Pk : X25519Public)
    (mlKemCt : Ciphertext1024) (salt info : Bytes) :
    (∃ failure,
      manager.finalizeHandshake prims peerX25519Pk mlKemCt salt info =
          (.error failure, manager) ∨
        manager.finalizeHandshake prims peerX25519Pk mlKemCt salt info =
          (.error failure, new)) ∨
      ∃ txKey rxKey,
        manager.finalizeHandshake prims peerX25519Pk mlKemCt salt info =
          (.ok (), SessionManager.installed txKey rxKey none) := by
  unfold finalizeHandshake
  split
  next =>
    split
    next failure _ => exact Or.inl ⟨failure, Or.inr rfl⟩
    next => exact Or.inr ⟨_, _, rfl⟩
  next => exact Or.inl ⟨_, Or.inl rfl⟩

theorem encapsulateInner_cases
    (manager : SessionManager DecapsKey)
    (peerMlKemPk : PublicKey1024) (peerX25519Pk : X25519Public)
    (entropy : Block 64) (salt info : Bytes) (wantConfirmation : Bool) :
    (∃ failure,
      manager.encapsulateInner prims peerMlKemPk peerX25519Pk entropy salt info
        wantConfirmation = (.error failure, manager)) ∨
      ∃ output hybridKey,
        encapsulateSecrets prims peerMlKemPk peerX25519Pk entropy salt info
          wantConfirmation = .ok (output, hybridKey) ∧
        manager.encapsulateInner prims peerMlKemPk peerX25519Pk entropy salt
          info wantConfirmation =
            (.ok output, SessionManager.installed (keygenRxKey hybridKey)
              (keygenTxKey hybridKey) none) := by
  unfold encapsulateInner
  split
  next => exact Or.inl ⟨_, rfl⟩
  next =>
    cases hsecrets : encapsulateSecrets prims peerMlKemPk peerX25519Pk entropy
        salt info wantConfirmation with
    | error failure => exact Or.inl ⟨failure, rfl⟩
    | ok result => exact Or.inr ⟨result.1, result.2, rfl, rfl⟩

/-- What a successful confirmed encapsulation has computed. -/
theorem encapsulateSecrets_eq_ok
    {peerMlKemPk : PublicKey1024} {peerX25519Pk : X25519Public}
    {entropy : Block 64} {salt info : Bytes} {output : EncapsulateInnerOutput}
    {hybridKey : Block 128}
    (hok : encapsulateSecrets prims peerMlKemPk peerX25519Pk entropy salt info
      true = .ok (output, hybridKey)) :
    ∃ pqSecret classicalSecret material,
      mlKemEncapsulate prims peerMlKemPk (entropy.slice 0 32 lowHalf_le) =
        .ok (pqSecret, output.ct) ∧
      output.pk = prims.x25519PublicKey (entropy.slice 32 32 highHalf_le) ∧
      x25519DiffieHellman prims (entropy.slice 32 32 highHalf_le)
        peerX25519Pk = .ok classicalSecret ∧
      deriveHybridKeyWithConfirmation prims pqSecret classicalSecret salt
        (handshakeTranscript prims output.ct output.pk info).bytes
        (confirmationInfo
          (handshakeTranscript prims output.ct output.pk info)) =
        .ok (hybridKey, material) ∧
      output.confirmation = some material := by
  unfold encapsulateSecrets at hok
  rcases Execution.bind_eq_ok.mp hok with ⟨⟨pqSecret, ct⟩, hkem, hrest⟩
  rcases Execution.bind_eq_ok.mp hrest with ⟨classicalSecret, hdh, hderived⟩
  simp only [if_true] at hderived
  rcases Execution.bind_eq_ok.mp hderived with ⟨⟨session, material⟩, hkdf, hout⟩
  cases hout
  exact ⟨pqSecret, classicalSecret, material, hkem, rfl, hdh, hkdf, rfl⟩

theorem encapsulateForPeer_cases
    (manager : SessionManager DecapsKey)
    (peerMlKemPk : PublicKey1024) (peerX25519Pk : X25519Public)
    (entropy : Block 64) (salt info : Bytes) :
    (∃ failure,
      manager.encapsulateForPeer prims peerMlKemPk peerX25519Pk entropy salt
        info = (.error failure, manager)) ∨
      ∃ ct pk txKey rxKey,
        manager.encapsulateForPeer prims peerMlKemPk peerX25519Pk entropy salt
          info = (.ok (ct, pk), SessionManager.installed txKey rxKey none) := by
  unfold encapsulateForPeer
  rcases encapsulateInner_cases prims manager peerMlKemPk peerX25519Pk entropy
      salt info false with ⟨failure, hinner⟩ | ⟨output, key, _, hinner⟩
  · rw [hinner]
    exact Or.inl ⟨failure, rfl⟩
  · rw [hinner]
    exact Or.inr ⟨output.ct, output.pk, _, _, rfl⟩

theorem encapsulateAuthenticated_cases
    (manager : SessionManager DecapsKey)
    (args : EncapsulateAuthenticatedArgs SigningKey) :
    (∃ failure,
      manager.encapsulateAuthenticated prims args = (.error failure, manager) ∨
        manager.encapsulateAuthenticated prims args =
          (.error failure, new)) ∨
      ∃ output txKey rxKey pending,
        manager.encapsulateAuthenticated prims args =
          (.ok output,
            SessionManager.installed txKey rxKey (some pending)) := by
  unfold encapsulateAuthenticated
  dsimp only
  split
  next failure _ => exact Or.inl ⟨failure, Or.inl rfl⟩
  next binding _ =>
    rcases encapsulateInner_cases prims manager args.peerMlKemPk
        args.peerX25519Pk args.entropy args.salt binding.bytes true with
      ⟨failure, hinner⟩ | ⟨output, key, hsecrets, hinner⟩
    · rw [hinner]
      exact Or.inl ⟨failure, Or.inl rfl⟩
    · rcases encapsulateSecrets_eq_ok prims hsecrets with
        ⟨_, _, material, _, _, _, _, hmaterial⟩
      rw [hinner]
      simp only [hmaterial]
      split
      next tag digest signature _ =>
        exact Or.inr ⟨⟨output.ct, output.pk, signature, tag⟩, _, _, _, rfl⟩
      next failure _ => exact Or.inl ⟨failure, Or.inr rfl⟩

theorem finalizeAuthenticated_cases
    (manager : SessionManager DecapsKey)
    (args : FinalizeAuthenticatedArgs SigningKey) :
    (∃ failure,
      manager.finalizeAuthenticated prims args = (.error failure, manager) ∨
        manager.finalizeAuthenticated prims args = (.error failure, new)) ∨
      ∃ output txKey rxKey,
        manager.finalizeAuthenticated prims args =
          (.ok output, SessionManager.installed txKey rxKey none) := by
  unfold finalizeAuthenticated
  split
  next =>
    dsimp only
    split
    next failure _ => exact Or.inl ⟨failure, Or.inl rfl⟩
    next =>
      split
      next failure _ => exact Or.inl ⟨failure, Or.inl rfl⟩
      next =>
        split
        next => exact Or.inr ⟨_, _, _, rfl⟩
        next failure _ => exact Or.inl ⟨failure, Or.inr rfl⟩
  next => exact Or.inl ⟨_, Or.inl rfl⟩

theorem confirmPeer_cases
    (manager : SessionManager DecapsKey) (args : ConfirmPeerArgs) :
    (∃ failure,
      manager.confirmPeer prims args = (.error failure, manager) ∨
        manager.confirmPeer prims args = (.error failure, new)) ∨
      manager.pendingAuth.isSome = true ∧
        manager.confirmPeer prims args =
          (.ok (), manager.wipePendingAuthentication) := by
  unfold confirmPeer
  cases hpending : manager.pendingAuth with
  | none => exact Or.inl ⟨_, Or.inl rfl⟩
  | some pending =>
      dsimp only
      split
      next => exact Or.inl ⟨_, Or.inl rfl⟩
      next =>
        split
        next failure _ => exact Or.inl ⟨failure, Or.inl rfl⟩
        next =>
          split
          next =>
            split
            next => exact Or.inr ⟨rfl, rfl⟩
            next => exact Or.inl ⟨_, Or.inr rfl⟩
          next failure _ => exact Or.inl ⟨failure, Or.inr rfl⟩

theorem checkedSucc_of_ne {value : UInt64} (hvalue : value ≠ u64Max) :
    checkedSucc value = some (value + 1) := by
  have hlt : value.toNat + 1 < 2 ^ 64 := by
    have hbound := value.toNat_lt
    by_contra hge
    apply hvalue
    apply UInt64.toNat_inj.mp
    have hmax : u64Max.toNat = 2 ^ 64 - 1 := rfl
    rw [hmax]
    omega
  exact if_pos hlt

theorem getNextTxNonce_cases
    (manager : SessionManager DecapsKey) (nonce : Block 12) :
    manager.getNextTxNonce nonce = ⟨.error .invalidState, nonce, manager⟩ ∨
      manager.txCounter ≠ u64Max ∧
        manager.getNextTxNonce nonce =
          ⟨.ok (), sequenceNonce manager.txCounter,
            { manager with txCounter := manager.txCounter + 1 }⟩ := by
  unfold getNextTxNonce
  by_cases hmax : manager.txCounter = u64Max
  · exact Or.inl (if_pos hmax)
  · rw [if_neg hmax, checkedSucc_of_ne hmax]
    exact Or.inr ⟨hmax, rfl⟩

/-- A successful encryption used the transmit key, the nonce of the counter
and a successful AEAD call. -/
theorem encryptPacket_cases
    (manager : SessionManager DecapsKey) (aad : Slice)
    (plaintext ciphertext : Bytes) (nonce : Block 12) (tag : Block 48) :
    (∃ failure buffer outTag,
      manager.encryptPacket prims aad plaintext ciphertext nonce tag =
        ⟨.error failure, buffer, nonce, outTag, manager⟩) ∨
      ∃ key sealed,
        manager.txKey = some key ∧ manager.txCounter ≠ u64Max ∧
        plaintext.length ≤ chacha20MaxBytes ∧
        prims.chacha20TryApplyKeystream (key.slice 0 32 lowHalf_le)
          (sequenceNonce manager.txCounter) plaintext = (true, sealed) ∧
        manager.encryptPacket prims aad plaintext ciphertext nonce tag =
          ⟨.ok (), sealed, sequenceNonce manager.txCounter,
            prims.hmacSha384 (key.slice 32 32 highHalf_le).bytes
              (macInput aad sealed (sequenceNonce manager.txCounter)),
            { manager with txCounter := manager.txCounter + 1 }⟩ := by
  unfold encryptPacket
  split
  next => exact Or.inl ⟨_, _, _, rfl⟩
  next =>
    by_cases hmax : manager.txCounter = u64Max
    · rw [if_pos hmax]
      exact Or.inl ⟨_, _, _, rfl⟩
    · rw [if_neg hmax, checkedSucc_of_ne hmax]
      cases hkey : manager.txKey with
      | none => exact Or.inl ⟨_, _, _, rfl⟩
      | some key =>
          dsimp only
          split
          next failure _ => exact Or.inl ⟨failure, _, _, rfl⟩
          next hok =>
            rcases aeadEncrypt_ok prims hok with
              ⟨sealed, happly, hlength, _, hsealed⟩
            refine Or.inr ⟨key, sealed, rfl, hmax, hlength, happly, ?_⟩
            rw [hsealed]

/-- A successful decryption passed the replay check and the tag check under
the receive key, and recorded its nonce. -/
theorem decryptPacket_cases
    (manager : SessionManager DecapsKey) (aad : Slice) (ciphertext : Bytes)
    (nonce : Block 12) (tag : Block 48) (plaintext : Bytes) :
    (∃ failure buffer,
      manager.decryptPacket prims aad ciphertext nonce tag plaintext =
        ⟨.error failure, buffer, manager⟩) ∨
      ∃ key opened,
        manager.rxKey = some key ∧ manager.checkRxNonce nonce = .ok () ∧
        ciphertext.length ≤ chacha20MaxBytes ∧
        prims.hmacSha384 (key.slice 32 32 highHalf_le).bytes
          (macInput aad ciphertext nonce) = tag ∧
        prims.chacha20TryApplyKeystream (key.slice 0 32 lowHalf_le) nonce
          ciphertext = (true, opened) ∧
        manager.decryptPacket prims aad ciphertext nonce tag plaintext =
          ⟨.ok (), opened, manager.commitRxNonce nonce⟩ := by
  unfold decryptPacket
  split
  next => exact Or.inl ⟨_, _, rfl⟩
  next =>
    cases hcheck : manager.checkRxNonce nonce with
    | error failure => exact Or.inl ⟨failure, _, rfl⟩
    | ok _ =>
        cases hkey : manager.rxKey with
        | none => exact Or.inl ⟨_, _, rfl⟩
        | some key =>
            dsimp only
            split
            next failure _ => exact Or.inl ⟨failure, _, rfl⟩
            next hok =>
              rcases aeadDecrypt_ok prims hok with
                ⟨opened, happly, hlength, htag, hopened⟩
              refine Or.inr
                ⟨key, opened, rfl, rfl, hlength, htag, happly, ?_⟩
              rw [hopened]

theorem exec_transition
    (manager : SessionManager DecapsKey) (call : Call SigningKey) :
    Transition manager call (manager.exec prims call).1
      (manager.exec prims call).2 := by
  cases call with
  | initiateHandshake entropy =>
      rcases initiateHandshake_cases prims manager entropy with
        ⟨failure, hcase⟩ | ⟨mlKemPk, x25519Pk, mlKemDk, x25519Sk, hcase⟩
      · simp only [exec, hcase]
        exact .refused _ failure
      · simp only [exec, hcase]
        exact .initiated entropy mlKemPk x25519Pk mlKemDk x25519Sk
  | finalizeHandshake peerX25519Pk mlKemCt salt info =>
      rcases finalizeHandshake_cases prims manager peerX25519Pk mlKemCt salt
          info with ⟨failure, hcase | hcase⟩ | ⟨txKey, rxKey, hcase⟩
      · simp only [exec, hcase]
        exact .refused _ failure
      · simp only [exec, hcase]
        exact .failedClosed _ failure
      · simp only [exec, hcase]
        exact .installed _ _ txKey rxKey none rfl rfl (absurd rfl)
  | encapsulateForPeer peerMlKemPk peerX25519Pk entropy salt info =>
      rcases encapsulateForPeer_cases prims manager peerMlKemPk peerX25519Pk
          entropy salt info with ⟨failure, hcase⟩ | ⟨ct, pk, txKey, rxKey, hcase⟩
      · simp only [exec, hcase]
        exact .refused _ failure
      · simp only [exec, hcase]
        exact .installed _ _ txKey rxKey none rfl rfl (absurd rfl)
  | encapsulateAuthenticated args =>
      rcases encapsulateAuthenticated_cases prims manager args with
        ⟨failure, hcase | hcase⟩ | ⟨output, txKey, rxKey, pending, hcase⟩
      · simp only [exec, hcase]
        exact .refused _ failure
      · simp only [exec, hcase]
        exact .failedClosed _ failure
      · simp only [exec, hcase]
        exact .installed _ _ txKey rxKey (some pending) rfl rfl
          fun _ => ⟨args, output, rfl, rfl⟩
  | finalizeAuthenticated args =>
      rcases finalizeAuthenticated_cases prims manager args with
        ⟨failure, hcase | hcase⟩ | ⟨output, txKey, rxKey, hcase⟩
      · simp only [exec, hcase]
        exact .refused _ failure
      · simp only [exec, hcase]
        exact .failedClosed _ failure
      · simp only [exec, hcase]
        exact .installed _ _ txKey rxKey none rfl rfl (absurd rfl)
  | confirmPeer args =>
      rcases confirmPeer_cases prims manager args with
        ⟨failure, hcase | hcase⟩ | ⟨hpending, hcase⟩
      · simp only [exec, hcase]
        exact .refused _ failure
      · simp only [exec, hcase]
        exact .failedClosed _ failure
      · simp only [exec, hcase]
        exact .confirmed args hpending
  | encryptPacket aad plaintext ciphertext nonce tag =>
      rcases encryptPacket_cases prims manager aad plaintext ciphertext nonce
          tag with ⟨failure, buffer, outTag, hcase⟩ |
        ⟨key, sealed, _, hcounter, _, _, hcase⟩
      · simp only [exec, hcase]
        exact .refused _ failure
      · simp only [exec, hcase]
        exact .sent _ _ hcounter rfl rfl rfl
  | decryptPacket aad ciphertext nonce tag plaintext =>
      rcases decryptPacket_cases prims manager aad ciphertext nonce tag
          plaintext with ⟨failure, buffer, hcase⟩ |
        ⟨key, opened, _, _, _, _, _, hcase⟩
      · simp only [exec, hcase]
        exact .refused _ failure
      · simp only [exec, hcase]
        exact .received _ _ nonce rfl rfl rfl
  | getNextTxNonce nonce =>
      rcases getNextTxNonce_cases manager nonce with hcase | ⟨hcounter, hcase⟩
      · simp only [exec, hcase]
        exact .refused _ .invalidState
      · simp only [exec, hcase]
        exact .sent _ _ hcounter rfl rfl rfl
  | commitRxNonce nonce => exact .received _ .done nonce rfl rfl rfl
  | zeroizeSession => exact .zeroized

end SessionManager

/-! ## Lives -/

/-- A call together with the primitives which answer it. -/
structure Invocation (DecapsKey SigningKey : Type) where
  prims : Primitives DecapsKey SigningKey
  call : Call SigningKey

/-- What one call did to a manager. -/
structure Record (DecapsKey SigningKey : Type) where
  before : SessionManager DecapsKey
  call : Call SigningKey
  result : Except CryptoError Output
  after : SessionManager DecapsKey

namespace Record

def outputNonce? (record : Record DecapsKey SigningKey) : Option (Block 12) :=
  match record.result with
  | .ok output => output.nonce?
  | .error _ => none

def committed? (record : Record DecapsKey SigningKey) : Option UInt64 :=
  match record.result with
  | .ok _ => record.call.commitNonce?.map nonceSequence
  | .error _ => none

/-- The call installed session keys. -/
def Installs (record : Record DecapsKey SigningKey) : Prop :=
  record.call.installsKeys = true ∧ record.result.isOk = true

/-- The session keys were left in place: they are still there and were not
installed anew. -/
def KeepsKeys (record : Record DecapsKey SigningKey) : Prop :=
  record.after.txKey ≠ none ∧ ¬ record.Installs

instance (record : Record DecapsKey SigningKey) : Decidable record.Installs :=
  inferInstanceAs (Decidable (_ ∧ _))

instance (record : Record DecapsKey SigningKey) : Decidable record.KeepsKeys :=
  inferInstanceAs (Decidable (_ ∧ _))

end Record

namespace SessionManager

def perform
    (manager : SessionManager DecapsKey)
    (invocation : Invocation DecapsKey SigningKey) :
    Record DecapsKey SigningKey where
  before := manager
  call := invocation.call
  result := (manager.exec invocation.prims invocation.call).1
  after := (manager.exec invocation.prims invocation.call).2

def history (manager : SessionManager DecapsKey) :
    List (Invocation DecapsKey SigningKey) → List (Record DecapsKey SigningKey)
  | [] => []
  | invocation :: rest =>
      manager.perform invocation ::
        (manager.perform invocation).after.history rest

def afterCalls
    (manager : SessionManager DecapsKey)
    (life : List (Invocation DecapsKey SigningKey)) :
    SessionManager DecapsKey :=
  life.foldl (fun current invocation => (current.perform invocation).after)
    manager

@[simp] theorem afterCalls_nil (manager : SessionManager DecapsKey) :
    manager.afterCalls ([] : List (Invocation DecapsKey SigningKey)) =
      manager := rfl

@[simp] theorem afterCalls_cons
    (manager : SessionManager DecapsKey)
    (invocation : Invocation DecapsKey SigningKey)
    (rest : List (Invocation DecapsKey SigningKey)) :
    manager.afterCalls (invocation :: rest) =
      (manager.perform invocation).after.afterCalls rest := rfl

theorem perform_transition
    (manager : SessionManager DecapsKey)
    (invocation : Invocation DecapsKey SigningKey) :
    Transition manager (manager.perform invocation).call
      (manager.perform invocation).result
      (manager.perform invocation).after :=
  exec_transition invocation.prims manager invocation.call

/-- A successful installation leaves freshly installed keys. -/
theorem perform_installs
    (manager : SessionManager DecapsKey)
    (invocation : Invocation DecapsKey SigningKey)
    (hinstalls : (manager.perform invocation).Installs) :
    ∃ txKey rxKey pendingAuth,
      (manager.perform invocation).after =
        installed txKey rxKey pendingAuth := by
  rcases hinstalls with ⟨hcall, hresult⟩
  have htransition := manager.perform_transition invocation
  generalize (manager.perform invocation).call = call at *
  generalize (manager.perform invocation).result = result at *
  generalize (manager.perform invocation).after = after at *
  cases htransition with
  | refused => cases hresult
  | failedClosed => cases hresult
  | zeroized => cases hcall
  | initiated => cases hcall
  | installed _ _ txKey rxKey pendingAuth =>
      exact ⟨txKey, rxKey, pendingAuth, rfl⟩
  | sent _ _ _ hkeep => simp [hkeep] at hcall
  | received _ _ _ hkeep => simp [hkeep] at hcall
  | confirmed => cases hcall

/-- What a call which keeps the session keys can have done. -/
theorem perform_keepsKeys
    (manager : SessionManager DecapsKey)
    (invocation : Invocation DecapsKey SigningKey)
    (hkeeps : (manager.perform invocation).KeepsKeys) :
    let record := manager.perform invocation
    ((∃ failure, record.result = .error failure) ∧ record.after = manager) ∨
      (∃ output, record.result = .ok output ∧
        output.nonce? = some (sequenceNonce manager.txCounter) ∧
        record.call.commitNonce? = none ∧
        manager.txCounter ≠ u64Max ∧
        record.after = { manager with txCounter := manager.txCounter + 1 }) ∨
      (∃ output nonce, record.result = .ok output ∧ output.nonce? = none ∧
        record.call.commitNonce? = some nonce ∧
        record.after = manager.commitRxNonce nonce) ∨
      (∃ output, record.result = .ok output ∧ output.nonce? = none ∧
        record.call.commitNonce? = none ∧
        record.after = manager.wipePendingAuthentication) := by
  rcases hkeeps with ⟨hkey, hinstalls⟩
  have htransition := manager.perform_transition invocation
  unfold Record.Installs at hinstalls
  dsimp only
  generalize (manager.perform invocation).call = call at *
  generalize (manager.perform invocation).result = result at *
  generalize (manager.perform invocation).after = after at *
  cases htransition with
  | refused _ failure => exact Or.inl ⟨⟨failure, rfl⟩, rfl⟩
  | failedClosed => exact absurd rfl hkey
  | zeroized => exact absurd rfl hkey
  | initiated => exact absurd rfl hkey
  | installed _ output _ _ _ hcall =>
      exact absurd ⟨hcall, rfl⟩ hinstalls
  | sent _ output hcounter _ hcommit hnonce =>
      exact Or.inr (Or.inl ⟨output, rfl, hnonce, hcommit, hcounter, rfl⟩)
  | received _ output nonce _ hcommit hnonce =>
      exact Or.inr (Or.inr (Or.inl ⟨output, nonce, rfl, hnonce, hcommit, rfl⟩))
  | confirmed =>
      exact Or.inr (Or.inr (Or.inr ⟨_, rfl, rfl, rfl, rfl⟩))

end SessionManager

end ShawnCore
