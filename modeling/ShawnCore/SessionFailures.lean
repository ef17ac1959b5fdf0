import ShawnCore.AuthorizedTraffic

/-!
# Failed calls

A call which returns an error leaves the manager as it was or as `new` leaves
it.  Which of the two happens is decided by how far the call has got: up to a
point it has read only, and from there on every failure wipes the whole state.
The error code alone does not tell the two apart.
-/

namespace ShawnCore

open ByteBlocks

variable {DecapsKey SigningKey : Type}
variable (prims : Primitives DecapsKey SigningKey)

/-! ## How far a call has got -/

/-- The reply carries a signature of the peer over the exchange of the pending
handshake. -/
def FinalizeAuthenticatedArgs.Verified
    (manager : SessionManager DecapsKey)
    (args : FinalizeAuthenticatedArgs SigningKey) : Prop :=
  ∃ dk sk, manager.mlKemDk = some dk ∧ manager.x25519Sk = some sk ∧
    args.appInfo.length < 2 ^ 32 ∧
    mlDsaVerifyWithContext prims args.peerVerifyingKey
      ((args.exchange prims dk sk).digest prims args.peerConfirmation).bytes
      contextEncapsulatingSide args.peerSignature = .ok ()

/-- The proof carries a signature of the pinned peer over the awaited
digest. -/
def ConfirmPeerArgs.Verified
    (manager : SessionManager DecapsKey) (args : ConfirmPeerArgs) : Prop :=
  ∃ pending, manager.pendingAuth = some pending ∧
    identityFingerprint prims args.peerVerifyingKey = pending.peerIdentity ∧
    mlDsaVerifyWithContext prims args.peerVerifyingKey
      (keygenDigest prims pending.digest args.peerConfirmation).bytes
      contextKeygenSide args.peerSignature = .ok ()

def EncapsulateAuthenticatedArgs.binding
    (args : EncapsulateAuthenticatedArgs SigningKey) : Block 48 :=
  prims.sha384 (handshakeBindingInput args.peerMlKemPk args.peerX25519Pk
    (identityFingerprint prims args.peerVerifyingKey)
    (identityFingerprint prims (prims.mlDsaVerifyingKey args.ownSigningKey))
    args.appInfo)

/-- `encapsulate_inner` has done its work inside
`encapsulate_authenticated`. -/
def EncapsulateAuthenticatedArgs.Encapsulated
    (manager : SessionManager DecapsKey)
    (args : EncapsulateAuthenticatedArgs SigningKey) : Prop :=
  args.appInfo.length < 2 ^ 32 ∧
    ∃ output, (manager.encapsulateInner prims args.peerMlKemPk
      args.peerX25519Pk args.entropy args.salt (args.binding prims).bytes
      true).1 = .ok output

/-- The call has got past everything which can fail without a trace. -/
def Call.Committed (manager : SessionManager DecapsKey) :
    Call SigningKey → Prop
  | .finalizeHandshake .. => manager.mlKemDk ≠ none ∧ manager.x25519Sk ≠ none
  | .encapsulateAuthenticated args => args.Encapsulated prims manager
  | .finalizeAuthenticated args => args.Verified prims manager
  | .confirmPeer args => args.Verified prims manager
  | _ => False

/-- The call presents a reply or a proof whose signature or identity is
wrong. -/
def Call.Forged (manager : SessionManager DecapsKey) :
    Call SigningKey → Prop
  | .finalizeAuthenticated args =>
      ∃ dk sk, manager.mlKemDk = some dk ∧ manager.x25519Sk = some sk ∧
        args.appInfo.length < 2 ^ 32 ∧
        mlDsaVerifyWithContext prims args.peerVerifyingKey
          ((args.exchange prims dk sk).digest prims
            args.peerConfirmation).bytes
          contextEncapsulatingSide args.peerSignature ≠ .ok ()
  | .confirmPeer args =>
      ∃ pending, manager.pendingAuth = some pending ∧
        (identityFingerprint prims args.peerVerifyingKey ≠
            pending.peerIdentity ∨
          mlDsaVerifyWithContext prims args.peerVerifyingKey
            (keygenDigest prims pending.digest args.peerConfirmation).bytes
            contextKeygenSide args.peerSignature ≠ .ok ())
  | _ => False

theorem mlDsaVerifyWithContext_ne_ok
    {pk : PublicKey87} {msg context : Bytes} {sig : Signature87}
    (hverify : mlDsaVerifyWithContext prims pk msg context sig ≠ .ok ()) :
    mlDsaVerifyWithContext prims pk msg context sig =
      .error .verificationFailed := by
  unfold mlDsaVerifyWithContext at hverify ⊢
  split
  next => rfl
  next hdecodes =>
    rw [if_neg hdecodes] at hverify
    split
    next hok => exact absurd (if_pos hok) hverify
    next => rfl

namespace SessionManager

/-- A failure wipes everything when `committed` holds and nothing
otherwise. -/
structure FailsAtomically
    (committed : Prop) (manager after : SessionManager DecapsKey) : Prop where
  wiped : committed → after = new
  kept : ¬ committed → after = manager

theorem FailsAtomically.of_kept
    {committed : Prop} (manager : SessionManager DecapsKey)
    (hnot : ¬ committed) : FailsAtomically committed manager manager :=
  ⟨fun hcommitted => absurd hcommitted hnot, fun _ => rfl⟩

theorem FailsAtomically.of_wiped
    {committed : Prop} (manager : SessionManager DecapsKey)
    (hcommitted : committed) : FailsAtomically committed manager new :=
  ⟨fun _ => rfl, fun hnot => absurd hcommitted hnot⟩

variable {prims}

/-! ## One lemma for each operation which can wipe -/

theorem finalizeHandshake_failsAtomically
    {manager next : SessionManager DecapsKey} {peerX25519Pk : X25519Public}
    {mlKemCt : Ciphertext1024} {salt info : Bytes} {failure : CryptoError}
    (hfailed : manager.finalizeHandshake prims peerX25519Pk mlKemCt salt info =
      (.error failure, next)) :
    FailsAtomically (manager.mlKemDk ≠ none ∧ manager.x25519Sk ≠ none)
      manager next := by
  unfold finalizeHandshake at hfailed
  split at hfailed
  next dk sk hdk hsk =>
    split at hfailed
    next =>
      cases hfailed
      apply FailsAtomically.of_wiped
      rw [hdk, hsk]
      exact ⟨Option.some_ne_none dk, Option.some_ne_none sk⟩
    next => cases hfailed
  next hpending =>
    cases hfailed
    apply FailsAtomically.of_kept
    rintro ⟨hdk, hsk⟩
    rcases Option.ne_none_iff_exists'.mp hdk with ⟨dk, hdk⟩
    rcases Option.ne_none_iff_exists'.mp hsk with ⟨sk, hsk⟩
    exact hpending dk sk hdk hsk

theorem encapsulateAuthenticated_failsAtomically
    {manager next : SessionManager DecapsKey}
    {args : EncapsulateAuthenticatedArgs SigningKey} {failure : CryptoError}
    (hfailed : manager.encapsulateAuthenticated prims args =
      (.error failure, next)) :
    FailsAtomically (args.Encapsulated prims manager) manager next := by
  unfold encapsulateAuthenticated at hfailed
  dsimp only at hfailed
  split at hfailed
  next hbinding =>
    cases hfailed
    apply FailsAtomically.of_kept
    rintro ⟨hlength, _⟩
    rw [handshakeBinding_of_length _ _ _ _ hlength] at hbinding
    cases hbinding
  next binding hbinding =>
    rcases handshakeBinding_eq_ok prims hbinding with ⟨hlength, hbindingEq⟩
    change binding = args.binding prims at hbindingEq
    subst hbindingEq
    rcases encapsulateInner_cases prims manager args.peerMlKemPk
        args.peerX25519Pk args.entropy args.salt (args.binding prims).bytes
        true with ⟨_, hinner⟩ | ⟨inner, key, hsecrets, hinner⟩
    · rw [hinner] at hfailed
      cases hfailed
      apply FailsAtomically.of_kept
      rintro ⟨_, output, houtput⟩
      rw [hinner] at houtput
      cases houtput
    · rcases encapsulateSecrets_eq_ok prims hsecrets with
        ⟨_, _, material, _, _, _, _, hmaterial⟩
      rw [hinner] at hfailed
      simp only [hmaterial] at hfailed
      split at hfailed
      next => cases hfailed
      next =>
        cases hfailed
        apply FailsAtomically.of_wiped
        exact ⟨hlength, inner, congrArg Prod.fst hinner⟩

theorem finalizeAuthenticated_failsAtomically
    {manager next : SessionManager DecapsKey}
    {args : FinalizeAuthenticatedArgs SigningKey} {failure : CryptoError}
    (hfailed : manager.finalizeAuthenticated prims args =
      (.error failure, next)) :
    FailsAtomically (args.Verified prims manager) manager next := by
  unfold finalizeAuthenticated at hfailed
  split at hfailed
  next dk sk hdk hsk =>
    dsimp only at hfailed
    split at hfailed
    next hbinding =>
      cases hfailed
      apply FailsAtomically.of_kept
      rintro ⟨_, _, _, _, hlength, _⟩
      rw [handshakeBinding_of_length _ _ _ _ hlength] at hbinding
      cases hbinding
    next binding hbinding =>
      rcases handshakeBinding_eq_ok prims hbinding with ⟨hlength, hbindingEq⟩
      change binding = (args.exchange prims dk sk).binding prims at hbindingEq
      subst hbindingEq
      split at hfailed
      next hverify =>
        cases hfailed
        apply FailsAtomically.of_kept
        rintro ⟨dk', sk', hdk', hsk', _, hverify'⟩
        obtain rfl : dk = dk' := Option.some.inj (hdk.symm.trans hdk')
        obtain rfl : sk = sk' := Option.some.inj (hsk.symm.trans hsk')
        cases hverify.symm.trans hverify'
      next hverify =>
        split at hfailed
        next => cases hfailed
        next =>
          cases hfailed
          apply FailsAtomically.of_wiped
          exact ⟨dk, sk, hdk, hsk, hlength, hverify⟩
  next hpending =>
    cases hfailed
    apply FailsAtomically.of_kept
    rintro ⟨dk, sk, hdk, hsk, _⟩
    exact hpending dk sk hdk hsk

theorem confirmPeer_failsAtomically
    {manager next : SessionManager DecapsKey} {args : ConfirmPeerArgs}
    {failure : CryptoError}
    (hfailed : manager.confirmPeer prims args = (.error failure, next)) :
    FailsAtomically (args.Verified prims manager) manager next := by
  unfold confirmPeer at hfailed
  split at hfailed
  next hnone =>
    cases hfailed
    apply FailsAtomically.of_kept
    rintro ⟨pending, hpending, _⟩
    cases hnone.symm.trans hpending
  next pending hpending =>
    dsimp only at hfailed
    split at hfailed
    next hidentity =>
      cases hfailed
      apply FailsAtomically.of_kept
      rintro ⟨found, hfound, hequal, _⟩
      obtain rfl : pending = found :=
        Option.some.inj (hpending.symm.trans hfound)
      simp [confirmationTagsEqual, hequal] at hidentity
    next hidentity =>
      have hpinned : identityFingerprint prims args.peerVerifyingKey =
          pending.peerIdentity := by
        simpa [confirmationTagsEqual] using hidentity
      split at hfailed
      next hverify =>
        cases hfailed
        apply FailsAtomically.of_kept
        rintro ⟨found, hfound, _, hverify'⟩
        obtain rfl : pending = found :=
          Option.some.inj (hpending.symm.trans hfound)
        cases hverify.symm.trans hverify'
      next hverify =>
        have hcommitted : args.Verified prims manager :=
          ⟨pending, hpending, hpinned, hverify⟩
        split at hfailed
        next =>
          split at hfailed
          next => cases hfailed
          next =>
            cases hfailed
            exact FailsAtomically.of_wiped manager hcommitted
        next =>
          cases hfailed
          exact FailsAtomically.of_wiped manager hcommitted

/-! ## Every operation -/

theorem exec_failsAtomically
    {manager next : SessionManager DecapsKey} {call : Call SigningKey}
    {failure : CryptoError}
    (hfailed : manager.exec prims call = (.error failure, next)) :
    FailsAtomically (call.Committed prims manager) manager next := by
  cases call with
  | initiateHandshake entropy =>
      rcases initiateHandshake_cases prims manager entropy with
        ⟨_, hcase⟩ | ⟨_, _, _, _, hcase⟩
      · simp only [exec, hcase] at hfailed
        cases hfailed
        exact .of_kept manager id
      · simp only [exec, hcase] at hfailed
        cases hfailed
  | finalizeHandshake peerX25519Pk mlKemCt salt info =>
      rcases hcase : manager.finalizeHandshake prims peerX25519Pk mlKemCt salt
        info with ⟨result, after⟩
      cases result with
      | error found =>
          simp only [exec, hcase] at hfailed
          cases hfailed
          exact finalizeHandshake_failsAtomically hcase
      | ok output =>
          simp only [exec, hcase] at hfailed
          cases hfailed
  | encapsulateForPeer peerMlKemPk peerX25519Pk entropy salt info =>
      rcases encapsulateForPeer_cases prims manager peerMlKemPk peerX25519Pk
          entropy salt info with ⟨_, hcase⟩ | ⟨_, _, _, _, hcase⟩
      · simp only [exec, hcase] at hfailed
        cases hfailed
        exact .of_kept manager id
      · simp only [exec, hcase] at hfailed
        cases hfailed
  | encapsulateAuthenticated args =>
      rcases hcase : manager.encapsulateAuthenticated prims args with
        ⟨result, after⟩
      cases result with
      | error found =>
          simp only [exec, hcase] at hfailed
          cases hfailed
          exact encapsulateAuthenticated_failsAtomically hcase
      | ok output =>
          simp only [exec, hcase] at hfailed
          cases hfailed
  | finalizeAuthenticated args =>
      rcases hcase : manager.finalizeAuthenticated prims args with
        ⟨result, after⟩
      cases result with
      | error found =>
          simp only [exec, hcase] at hfailed
          cases hfailed
          exact finalizeAuthenticated_failsAtomically hcase
      | ok output =>
          simp only [exec, hcase] at hfailed
          cases hfailed
  | confirmPeer args =>
      rcases hcase : manager.confirmPeer prims args with ⟨result, after⟩
      cases result with
      | error found =>
          simp only [exec, hcase] at hfailed
          cases hfailed
          exact confirmPeer_failsAtomically hcase
      | ok output =>
          simp only [exec, hcase] at hfailed
          cases hfailed
  | encryptPacket aad plaintext ciphertext nonce tag =>
      rcases encryptPacket_cases prims manager aad plaintext ciphertext nonce
          tag with ⟨_, _, _, hcase⟩ | ⟨_, _, _, _, _, _, hcase⟩
      · simp only [exec, hcase] at hfailed
        cases hfailed
        exact .of_kept manager id
      · simp only [exec, hcase] at hfailed
        cases hfailed
  | decryptPacket aad ciphertext nonce tag plaintext =>
      rcases decryptPacket_cases prims manager aad ciphertext nonce tag
          plaintext with ⟨_, _, hcase⟩ | ⟨_, _, _, _, _, _, _, hcase⟩
      · simp only [exec, hcase] at hfailed
        cases hfailed
        exact .of_kept manager id
      · simp only [exec, hcase] at hfailed
        cases hfailed
  | getNextTxNonce nonce =>
      rcases getNextTxNonce_cases manager nonce with hcase | ⟨_, hcase⟩
      · simp only [exec, hcase] at hfailed
        cases hfailed
        exact .of_kept manager id
      · simp only [exec, hcase] at hfailed
        cases hfailed
  | commitRxNonce nonce => cases hfailed
  | zeroizeSession => cases hfailed

/-! ## Forged replies and proofs -/

theorem exec_forged
    {manager : SessionManager DecapsKey} {call : Call SigningKey}
    (hforged : call.Forged prims manager) :
    manager.exec prims call = (.error .verificationFailed, manager) := by
  cases call with
  | finalizeAuthenticated args =>
      rcases hforged with ⟨dk, sk, hdk, hsk, hlength, hverify⟩
      have hcase : manager.finalizeAuthenticated prims args =
          (.error .verificationFailed, manager) := by
        rw [finalizeAuthenticated_of_pending hdk hsk hlength,
          mlDsaVerifyWithContext_ne_ok prims hverify]
      simp only [exec, hcase]
  | confirmPeer args =>
      rcases hforged with ⟨pending, hpending, hwrong⟩
      have hcase : manager.confirmPeer prims args =
          (.error .verificationFailed, manager) := by
        unfold confirmPeer
        rw [hpending]
        dsimp only
        split
        next => rfl
        next hidentity =>
          rcases hwrong with hother | hverify
          · simp [confirmationTagsEqual, hother] at hidentity
          · rw [mlDsaVerifyWithContext_ne_ok prims hverify]
      simp only [exec, hcase]
  | _ => exact absurd hforged id

/-- Any number of forged replies and proofs leaves no trace. -/
theorem afterCalls_forged
    {manager : SessionManager DecapsKey}
    {attempts : List (Invocation DecapsKey SigningKey)}
    (hforged : ∀ attempt ∈ attempts,
      attempt.call.Forged attempt.prims manager) :
    manager.afterCalls attempts = manager ∧
      ∀ record ∈ manager.history attempts,
        record.result = .error .verificationFailed := by
  induction attempts with
  | nil =>
      refine ⟨rfl, ?_⟩
      intro record hrecord
      cases hrecord
  | cons attempt rest ih =>
      have hfirst : manager.perform attempt =
          ⟨manager, attempt.call, .error .verificationFailed, manager⟩ :=
        perform_eq (exec_forged (hforged attempt List.mem_cons_self))
      rcases ih (fun later hlater =>
          hforged later (List.mem_cons_of_mem _ hlater)) with
        ⟨hstate, hresults⟩
      constructor
      · rw [afterCalls_cons, hfirst]
        exact hstate
      · intro record hrecord
        rcases List.mem_cons.mp hrecord with rfl | hlater
        · rw [hfirst]
        · rw [hfirst] at hlater
          exact hresults record hlater

/-! ## Main results -/

/-- Every failed call of a life leaves the manager as it was or as `new` leaves
it, and the stage at which it failed decides which.  Forged replies and proofs
change nothing, so that whatever comes after them ends as it would have ended
without them. -/
theorem failures_atomic
    (life : List (Invocation DecapsKey SigningKey)) :
    let manager := new.afterCalls life
    (∀ (invocation : Invocation DecapsKey SigningKey) (failure : CryptoError),
      (manager.perform invocation).result = .error failure →
        FailsAtomically (invocation.call.Committed invocation.prims manager)
          manager (manager.perform invocation).after) ∧
    ∀ attempts : List (Invocation DecapsKey SigningKey),
      (∀ attempt ∈ attempts, attempt.call.Forged attempt.prims manager) →
        (∀ record ∈ manager.history attempts,
          record.result = .error .verificationFailed) ∧
        ∀ genuine : Invocation DecapsKey SigningKey,
          (manager.afterCalls attempts).perform genuine =
            manager.perform genuine := by
  intro manager
  constructor
  · intro invocation failure hfailed
    have hexec : manager.exec invocation.prims invocation.call =
        (.error failure, (manager.perform invocation).after) :=
      Prod.ext hfailed rfl
    exact exec_failsAtomically hexec
  · intro attempts hforged
    rcases afterCalls_forged hforged with ⟨hstate, hresults⟩
    refine ⟨hresults, ?_⟩
    intro genuine
    rw [hstate]

theorem failures_atomic_for_bad_signatures :
    let initiate : Invocation UInt8 UInt8 :=
      ⟨Reference.primitives, .initiateHandshake (Block.fill 96 3)⟩
    let forged : Invocation UInt8 UInt8 :=
      ⟨Reference.primitives, .finalizeAuthenticated
        { (Reference.honestRun [9]).finalizeArgs [9] with
          peerSignature := Block.fill 4627 0 }⟩
    let genuine : Invocation UInt8 UInt8 :=
      ⟨Reference.primitives, .finalizeAuthenticated
        ((Reference.honestRun [9]).finalizeArgs [9])⟩
    (new.afterCalls [initiate, forged, forged]).perform genuine =
      ⟨Reference.keygenPending, genuine.call,
        .ok (.proof (Reference.finalizeProof [9])),
        Reference.keygenAfter [9]⟩ := by
  intro initiate forged genuine
  have hinitiated : new.perform initiate =
      ⟨new, initiate.call,
        .ok (.firstMessage (Block.fill 1568 3) (Block.fill 32 3)),
        Reference.keygenPending⟩ :=
    perform_eq Reference.exec_initiate
  have hpending : new.afterCalls [initiate] = Reference.keygenPending := by
    rw [afterCalls_cons, hinitiated, afterCalls_nil]
  have hforged : forged.call.Forged forged.prims Reference.keygenPending :=
    ⟨3, Block.fill 32 3, rfl, rfl, by decide, by decide +kernel⟩
  have hsplit : new.afterCalls [initiate, forged, forged] =
      (new.afterCalls [initiate]).afterCalls [forged, forged] :=
    new.afterCalls_append [initiate] [forged, forged]
  rw [hsplit]
  refine ((failures_atomic [initiate]).2 [forged, forged] ?_).2 genuine
    |>.trans ?_
  · intro attempt hattempt
    rw [hpending]
    simp only [List.mem_cons, List.not_mem_nil, or_false, or_self] at hattempt
    rw [hattempt]
    exact hforged
  · rw [hpending]
    exact perform_eq
      (exec_finalizeAuthenticated (Reference.finalize_eq [9]))

/-! ## What the error code tells -/

/-- The two errors documented as free of side effects are, and a failed key
confirmation has wiped everything. -/
def ErrorCodeTruthful
    (manager : SessionManager DecapsKey)
    (outcome : Except CryptoError Output × SessionManager DecapsKey) : Prop :=
  (outcome.1 = .error .verificationFailed ∨
      outcome.1 = .error .invalidState → outcome.2 = manager) ∧
    (outcome.1 = .error .keyConfirmationFailed → outcome.2 = new)

theorem errorCodeTruthful_ok
    (manager next : SessionManager DecapsKey) (output : Output) :
    manager.ErrorCodeTruthful (.ok output, next) := by
  constructor
  · rintro (hresult | hresult)
    · cases hresult
    · cases hresult
  · intro hresult
    cases hresult

theorem errorCodeTruthful_kept
    (manager : SessionManager DecapsKey) {failure : CryptoError}
    (hfailure : failure ≠ .keyConfirmationFailed) :
    manager.ErrorCodeTruthful (.error failure, manager) := by
  constructor
  · intro _
    rfl
  · intro hresult
    exact absurd (Except.error.inj hresult) hfailure

theorem errorCodeTruthful_wiped (manager : SessionManager DecapsKey) :
    manager.ErrorCodeTruthful (.error .keyConfirmationFailed, new) := by
  constructor
  · rintro (hresult | hresult)
    · cases hresult
    · cases hresult
  · intro _
    rfl

theorem x25519DiffieHellman_eq_error_iff
    (hzero : prims.ZeroNotContributory) {secret : X25519Secret}
    {theirPublic : X25519Public} :
    x25519DiffieHellman prims secret theirPublic = .error .invalidState ↔
      prims.x25519WasContributory
        (prims.x25519DiffieHellman secret theirPublic) = false := by
  unfold x25519DiffieHellman
  cases hall : theirPublic.bytes.all (· == 0) with
  | true => simp [hzero secret theirPublic hall]
  | false =>
      cases prims.x25519WasContributory
          (prims.x25519DiffieHellman secret theirPublic) with
      | true => simp
      | false => simp

theorem x25519DiffieHellman_cases
    (prims : Primitives DecapsKey SigningKey) (secret : X25519Secret)
    (theirPublic : X25519Public) :
    x25519DiffieHellman prims secret theirPublic = .error .invalidState ∨
      ∃ shared, x25519DiffieHellman prims secret theirPublic = .ok shared := by
  unfold x25519DiffieHellman
  split
  next => exact Or.inl rfl
  next =>
    split
    next => exact Or.inl rfl
    next => exact Or.inr ⟨_, rfl⟩

theorem contextEncapsulatingSide_length :
    contextEncapsulatingSide.length ≤ 255 := by
  decide

theorem contextKeygenSide_length : contextKeygenSide.length ≤ 255 := by
  decide

theorem encapsulateSecrets_error_of_total
    (hhkdf : prims.HkdfTotal) (hkem : prims.KemTotal)
    {peerMlKemPk : PublicKey1024} {peerX25519Pk : X25519Public}
    {entropy : Block 64} {salt info : Bytes} {failure : CryptoError}
    (hfailed : encapsulateSecrets prims peerMlKemPk peerX25519Pk entropy salt
      info true = .error failure) : failure = .invalidState := by
  rcases hkem.encapsulate peerMlKemPk (entropy.slice 0 32 lowHalf_le) with
    ⟨result, hencaps⟩
  simp only [encapsulateSecrets, mlKemEncapsulate, hencaps, x25519Keygen,
    if_true, bind, Except.bind, pure, Except.pure] at hfailed
  rcases x25519DiffieHellman_cases prims (entropy.slice 32 32 highHalf_le)
      peerX25519Pk with hweak | ⟨classicalSecret, hdh⟩
  · rw [hweak] at hfailed
    exact (Except.error.inj hfailed).symm
  · simp only [hdh, deriveHybridKeyWithConfirmation_of_total hhkdf] at hfailed
    cases hfailed

theorem encapsulateInner_error_of_total
    (hhkdf : prims.HkdfTotal) (hkem : prims.KemTotal)
    {manager next : SessionManager DecapsKey}
    {peerMlKemPk : PublicKey1024} {peerX25519Pk : X25519Public}
    {entropy : Block 64} {salt info : Bytes} {failure : CryptoError}
    (hfailed : manager.encapsulateInner prims peerMlKemPk peerX25519Pk entropy
      salt info true = (.error failure, next)) : failure = .invalidState := by
  unfold encapsulateInner at hfailed
  split at hfailed
  next =>
    cases hfailed
    rfl
  next =>
    split at hfailed
    next hsecrets =>
      cases hfailed
      exact encapsulateSecrets_error_of_total hhkdf hkem hsecrets
    next => cases hfailed

/-- With primitives which do not fail, `encapsulate_authenticated` fails only
where it has changed nothing. -/
theorem encapsulateAuthenticated_error_of_total
    (hhmac : prims.HmacTotal) (hhkdf : prims.HkdfTotal)
    (hkem : prims.KemTotal) (hsign : prims.SigningTotal)
    {manager next : SessionManager DecapsKey}
    {args : EncapsulateAuthenticatedArgs SigningKey} {failure : CryptoError}
    (hfailed : manager.encapsulateAuthenticated prims args =
      (.error failure, next)) :
    next = manager ∧ failure ≠ .keyConfirmationFailed := by
  unfold encapsulateAuthenticated at hfailed
  dsimp only at hfailed
  split at hfailed
  next hbinding =>
    cases hfailed
    refine ⟨rfl, ?_⟩
    unfold handshakeBinding at hbinding
    split at hbinding
    next => cases hbinding
    next =>
      cases hbinding
      decide
  next binding _ =>
    rcases encapsulateInner_cases prims manager args.peerMlKemPk
        args.peerX25519Pk args.entropy args.salt binding.bytes true with
      ⟨found, hinner⟩ | ⟨inner, key, hsecrets, hinner⟩
    · have hfound := encapsulateInner_error_of_total hhkdf hkem hinner
      rw [hinner] at hfailed
      cases hfailed
      rw [hfound]
      exact ⟨rfl, by decide⟩
    · rcases encapsulateSecrets_eq_ok prims hsecrets with
        ⟨_, _, material, _, _, _, _, hmaterial⟩
      rw [hinner] at hfailed
      simp only [hmaterial] at hfailed
      split at hfailed
      next => cases hfailed
      next hsigned =>
        -- Neither the tag nor the signature can have failed.
        simp only [confirmationTag_of_total hhmac _ _ encapsulatorLabel_length,
          bind, Except.bind] at hsigned
        split at hsigned
        next hrefused =>
          rcases hsign args.ownSigningKey _ _ contextEncapsulatingSide_length
            with ⟨sig, hsig⟩
          cases hsig.symm.trans hrefused
        next => cases hsigned

/-- With primitives which do not fail, a verified reply wipes the handshake
either for its tag or for its X25519 share. -/
theorem finalizeAuthenticated_weakShare
    (hkem : prims.KemTotal)
    {manager : SessionManager DecapsKey} {dk : DecapsKey} {sk : X25519Secret}
    {args : FinalizeAuthenticatedArgs SigningKey}
    (hdk : manager.mlKemDk = some dk) (hsk : manager.x25519Sk = some sk)
    (hlength : args.appInfo.length < 2 ^ 32)
    (hverify : mlDsaVerifyWithContext prims args.peerVerifyingKey
      ((args.exchange prims dk sk).digest prims args.peerConfirmation).bytes
      contextEncapsulatingSide args.peerSignature = .ok ())
    (hweak : x25519DiffieHellman prims sk args.peerX25519Pk =
      .error .invalidState) :
    manager.finalizeAuthenticated prims args = (.error .invalidState, new) := by
  rcases hkem.decapsulate dk args.mlKemCt with ⟨shared, hshared⟩
  have hcomplete : completeAuthenticatedFinalize prims manager
      args.ownSigningKey args.peerX25519Pk args.mlKemCt args.peerConfirmation
      args.salt ((args.exchange prims dk sk).binding prims)
      ((args.exchange prims dk sk).transcript prims)
      ((args.exchange prims dk sk).digest prims args.peerConfirmation) =
        .error .invalidState := by
    simp only [completeAuthenticatedFinalize, hdk, hsk, okOr, mlKemDecapsulate,
      hshared, hweak, bind, Except.bind]
  rw [finalizeAuthenticated_of_pending hdk hsk hlength, hverify, hcomplete]

end SessionManager

/-- The calls of the authenticated handshake. -/
def Call.isAuthenticated : Call SigningKey → Bool
  | .encapsulateAuthenticated _ => true
  | .finalizeAuthenticated _ => true
  | .confirmPeer _ => true
  | _ => false

/-- A reply with a verified signature whose X25519 share does not contribute
to the shared secret. -/
def Call.WeakShare (manager : SessionManager DecapsKey) :
    Call SigningKey → Prop
  | .finalizeAuthenticated args =>
      ∃ dk sk, manager.mlKemDk = some dk ∧ manager.x25519Sk = some sk ∧
        args.appInfo.length < 2 ^ 32 ∧
        mlDsaVerifyWithContext prims args.peerVerifyingKey
          ((args.exchange prims dk sk).digest prims
            args.peerConfirmation).bytes
          contextEncapsulatingSide args.peerSignature = .ok () ∧
        prims.x25519WasContributory
          (prims.x25519DiffieHellman sk args.peerX25519Pk) = false
  | _ => False

namespace SessionManager

variable {prims}

theorem exec_weakShare
    (hkem : prims.KemTotal) (hzero : prims.ZeroNotContributory)
    {manager : SessionManager DecapsKey} {call : Call SigningKey}
    (hweak : call.WeakShare prims manager) :
    manager.exec prims call = (.error .invalidState, new) ∧
      manager ≠ new := by
  cases call with
  | finalizeAuthenticated args =>
      rcases hweak with ⟨dk, sk, hdk, hsk, hlength, hverify, hshare⟩
      have hcase := finalizeAuthenticated_weakShare hkem hdk hsk hlength
        hverify ((x25519DiffieHellman_eq_error_iff hzero).mpr hshare)
      refine ⟨by simp only [exec, hcase], ?_⟩
      rintro rfl
      cases hdk
  | _ => exact absurd hweak id

theorem exec_confirmPeer_truthful
    (hhmac : prims.HmacTotal)
    (manager : SessionManager DecapsKey) (args : ConfirmPeerArgs) :
    manager.ErrorCodeTruthful (manager.exec prims (.confirmPeer args)) := by
  cases hpending : manager.pendingAuth with
  | none =>
      have hcase : manager.confirmPeer prims args =
          (.error .invalidState, manager) := by
        simp only [confirmPeer, hpending]
      simp only [exec, hcase]
      exact manager.errorCodeTruthful_kept (by decide)
  | some pending =>
      by_cases hverified : args.Verified prims manager
      · rcases hverified with ⟨found, hfound, hidentity, hverify⟩
        by_cases htag : prims.hmacSha384 found.confirmationKey.bytes
            (confirmLabelKeygenSide ++ found.digest.bytes) =
              args.peerConfirmation
        · rw [exec_confirmPeer
            (confirmPeer_of_total hhmac hfound hidentity hverify htag)]
          exact manager.errorCodeTruthful_ok _ _
        · have hcase :=
            confirmPeer_of_wrong_tag hhmac hfound hidentity hverify htag
          simp only [exec, hcase]
          exact manager.errorCodeTruthful_wiped
      · have hforged :
            (Call.confirmPeer args : Call SigningKey).Forged prims manager := by
          refine ⟨pending, hpending, ?_⟩
          by_contra hright
          rw [not_or, not_not, not_not] at hright
          exact hverified ⟨pending, hpending, hright⟩
        rw [exec_forged hforged]
        exact manager.errorCodeTruthful_kept (by decide)

theorem exec_finalizeAuthenticated_truthful
    (hhmac : prims.HmacTotal) (hhkdf : prims.HkdfTotal)
    (hkem : prims.KemTotal) (hsign : prims.SigningTotal)
    (hzero : prims.ZeroNotContributory)
    (manager : SessionManager DecapsKey)
    (args : FinalizeAuthenticatedArgs SigningKey)
    (hstrong : ¬ (Call.finalizeAuthenticated args).WeakShare prims manager) :
    manager.ErrorCodeTruthful
      (manager.exec prims (.finalizeAuthenticated args)) := by
  by_cases hpending : ∃ dk sk, manager.mlKemDk = some dk ∧
      manager.x25519Sk = some sk
  · rcases hpending with ⟨dk, sk, hdk, hsk⟩
    by_cases hlength : args.appInfo.length < 2 ^ 32
    · by_cases hverify : mlDsaVerifyWithContext prims args.peerVerifyingKey
          ((args.exchange prims dk sk).digest prims
            args.peerConfirmation).bytes
          contextEncapsulatingSide args.peerSignature = .ok ()
      · rcases x25519DiffieHellman_cases prims sk args.peerX25519Pk with
          hweak | ⟨classicalSecret, hdh⟩
        · exact absurd ⟨dk, sk, hdk, hsk, hlength, hverify,
            (x25519DiffieHellman_eq_error_iff hzero).mp hweak⟩ hstrong
        · rcases hkem.decapsulate dk args.mlKemCt with ⟨shared, hshared⟩
          have hprk : args.prk prims dk sk =
              .ok (hybridPrk prims shared classicalSecret args.salt) := by
            simp only [FinalizeAuthenticatedArgs.prk, mlKemDecapsulate, hshared,
              hdh, bind, Except.bind]
            rfl
          have hcase := finalizeAuthenticated_of_total hhmac hhkdf hdk hsk
            hlength hprk hverify
          dsimp only at hcase
          split at hcase
          next =>
            rcases hsign args.ownSigningKey _ _ contextKeygenSide_length with
              ⟨signature, hsigned⟩
            rw [hsigned] at hcase
            simp only [exec, hcase]
            exact manager.errorCodeTruthful_ok _ _
          next =>
            simp only [exec, hcase]
            exact manager.errorCodeTruthful_wiped
      · have hforged :
            (Call.finalizeAuthenticated args).Forged prims manager :=
          ⟨dk, sk, hdk, hsk, hlength, hverify⟩
        rw [exec_forged hforged]
        exact manager.errorCodeTruthful_kept (by decide)
    · have hcase : manager.finalizeAuthenticated prims args =
          (.error .invalidLength, manager) := by
        simp only [finalizeAuthenticated, hdk, hsk, handshakeBinding,
          if_neg hlength]
      simp only [exec, hcase]
      exact manager.errorCodeTruthful_kept (by decide)
  · have hcase : manager.finalizeAuthenticated prims args =
        (.error .invalidState, manager) := by
      unfold finalizeAuthenticated
      split
      next dk sk hdk hsk => exact absurd ⟨dk, sk, hdk, hsk⟩ hpending
      next => rfl
    simp only [exec, hcase]
    exact manager.errorCodeTruthful_kept (by decide)

/-- With primitives which do not fail, the error code of an authenticated
handshake call tells what happened to the state, except for one reply: one
which is signed by the peer and carries an X25519 share which does not
contribute is answered with `InvalidState` after the handshake was wiped. -/
theorem errorCode_truthful_iff
    (hhmac : prims.HmacTotal) (hhkdf : prims.HkdfTotal)
    (hkem : prims.KemTotal) (hsign : prims.SigningTotal)
    (hzero : prims.ZeroNotContributory)
    (life : List (Invocation DecapsKey SigningKey)) {call : Call SigningKey}
    (hcall : call.isAuthenticated = true) :
    (new.afterCalls life).ErrorCodeTruthful
        ((new.afterCalls life).exec prims call) ↔
      ¬ call.WeakShare prims (new.afterCalls life) := by
  constructor
  · intro htruthful hweak
    rcases exec_weakShare hkem hzero hweak with ⟨hexec, hne⟩
    rw [hexec] at htruthful
    exact hne (htruthful.1 (Or.inr rfl)).symm
  · intro hstrong
    cases call with
    | encapsulateAuthenticated args =>
        rcases hcase : (new.afterCalls life).encapsulateAuthenticated prims
          args with ⟨result, next⟩
        simp only [exec, hcase]
        cases result with
        | ok output => exact errorCodeTruthful_ok _ _ _
        | error failure =>
            rcases encapsulateAuthenticated_error_of_total hhmac hhkdf hkem
              hsign hcase with ⟨rfl, hfailure⟩
            exact errorCodeTruthful_kept _ hfailure
    | finalizeAuthenticated args =>
        exact exec_finalizeAuthenticated_truthful hhmac hhkdf hkem hsign hzero
          _ args hstrong
    | confirmPeer args => exact exec_confirmPeer_truthful hhmac _ args
    | _ => cases hcall

theorem errorCode_truthful_for_genuine_reply :
    let initiate : Invocation UInt8 UInt8 :=
      ⟨Reference.primitives, .initiateHandshake (Block.fill 96 3)⟩
    let reply : Call UInt8 :=
      .finalizeAuthenticated ((Reference.honestRun [9]).finalizeArgs [9])
    (new.afterCalls [initiate]).ErrorCodeTruthful
      ((new.afterCalls [initiate]).exec Reference.primitives reply) := by
  intro initiate reply
  refine (errorCode_truthful_iff Reference.primitives_hmacTotal
    Reference.primitives_hkdfTotal Reference.primitives_kemTotal
    Reference.primitives_signingTotal Reference.primitives_zeroNotContributory
    [initiate] rfl).mpr ?_
  rintro ⟨dk, sk, _, hsk, _, _, hweak⟩
  obtain rfl : Block.fill 32 3 = sk := Option.some.inj hsk
  revert hweak
  decide +kernel

/-- What the encapsulating side signs when it sends an all-zero X25519
share. -/
def zeroShareDigest : Block 48 :=
  (⟨Block.fill 1568 3, Block.fill 32 3, Block.fill 2592 1, Block.fill 2592 2,
    [4], Block.fill 1568 7, Block.fill 32 0⟩ : Exchange).digest
      Reference.primitives (Block.fill 48 0)

def zeroShareReply : FinalizeAuthenticatedArgs UInt8 where
  ownSigningKey := 1
  peerVerifyingKey := Block.fill 2592 2
  peerX25519Pk := Block.fill 32 0
  mlKemCt := Block.fill 1568 7
  peerSignature := Reference.signature (Block.fill 2592 2)
    zeroShareDigest.bytes contextEncapsulatingSide
  peerConfirmation := Block.fill 48 0
  salt := [9]
  appInfo := [4]

theorem invalidState_wipes_pending_handshake :
    let initiate : Invocation UInt8 UInt8 :=
      ⟨Reference.primitives, .initiateHandshake (Block.fill 96 3)⟩
    let manager : SessionManager UInt8 := new.afterCalls [initiate]
    let outcome :=
      manager.exec Reference.primitives (.finalizeAuthenticated zeroShareReply)
    outcome.1 = .error .invalidState ∧ manager.mlKemDk = some 3 ∧
      outcome.2.mlKemDk = none := by
  intro initiate manager outcome
  have hweak : (Call.finalizeAuthenticated zeroShareReply).WeakShare
      Reference.primitives manager := by
    have hverify := Reference.primitives_signatureCorrect 2 _ _ _
      (Reference.sign_eq_ok 2 zeroShareDigest.bytes contextEncapsulatingSide)
    exact ⟨3, Block.fill 32 3, rfl, rfl, by decide, hverify, by decide +kernel⟩
  have houtcome : outcome = (.error .invalidState, new) :=
    (exec_weakShare Reference.primitives_kemTotal
      Reference.primitives_zeroNotContributory hweak).1
  rw [houtcome]
  exact ⟨rfl, rfl, rfl⟩

end SessionManager

end ShawnCore
