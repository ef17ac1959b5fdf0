import ShawnCore.SessionNetwork
import ShawnCore.SaltConfirmation

/-!
# Agreement of the authenticated handshake

Any number of managers run under a scheduler which invents all messages.  The
primitives are ideal in the following sense: a signature verifies under an
honest key only if its owner signed that message before, and no two of the
strings which the successful calls of the run hash collide.  Then both sides of
a completed handshake agree on everything they have used, and hold the same
keys with the directions exchanged.
-/

namespace ShawnCore

open ByteBlocks

variable {ι DecapsKey SigningKey : Type}
variable (prims : Primitives DecapsKey SigningKey)

/-! ## The idealised primitives of a run -/

namespace Event

/-- The verifying key, message and context of the signature which a call
issued.  Signing is the last step which can fail, so exactly the successful
calls have signed. -/
def signed? (event : Event ι DecapsKey SigningKey) :
    Option (PublicKey87 × Bytes × Bytes) :=
  match event.record.call, event.record.result with
  | .encapsulateAuthenticated args, .ok (.authEncapsulated output) =>
      some (prims.mlDsaVerifyingKey args.ownSigningKey,
        ((args.exchange prims output.ct output.pk).digest prims
          output.confirmation).bytes,
        contextEncapsulatingSide)
  | .finalizeAuthenticated args, .ok (.proof output) =>
      match event.record.before.mlKemDk, event.record.before.x25519Sk with
      | some dk, some sk =>
          some (prims.mlDsaVerifyingKey args.ownSigningKey,
            (keygenDigest prims ((args.exchange prims dk sk).digest prims
              args.peerConfirmation) output.confirmation).bytes,
            contextKeygenSide)
      | _, _ => none
  | _, _ => none

/-- The verifying key, message, context and signature of the verification
which a call performs. -/
def verification? (event : Event ι DecapsKey SigningKey) :
    Option (PublicKey87 × Bytes × Bytes × Signature87) :=
  match event.record.call with
  | .finalizeAuthenticated args =>
      match event.record.before.mlKemDk, event.record.before.x25519Sk with
      | some dk, some sk =>
          if args.appInfo.length < 2 ^ 32 then
            some (args.peerVerifyingKey,
              ((args.exchange prims dk sk).digest prims
                args.peerConfirmation).bytes,
              contextEncapsulatingSide, args.peerSignature)
          else
            none
      | _, _ => none
  | .confirmPeer args =>
      match event.record.before.pendingAuth with
      | some pending =>
          if identityFingerprint prims args.peerVerifyingKey =
              pending.peerIdentity then
            some (args.peerVerifyingKey,
              (keygenDigest prims pending.digest
                args.peerConfirmation).bytes,
              contextKeygenSide, args.peerSignature)
          else
            none
      | none => none
  | _ => none

/-- The strings which a successful call hashes with SHA-384. -/
def hashInputs (event : Event ι DecapsKey SigningKey) : List Bytes :=
  match event.record.call, event.record.result with
  | .encapsulateAuthenticated args, .ok (.authEncapsulated output) =>
      (args.exchange prims output.ct output.pk).hashInputs prims
        output.confirmation
  | .finalizeAuthenticated args, .ok (.proof output) =>
      match event.record.before.mlKemDk, event.record.before.x25519Sk with
      | some dk, some sk =>
          keygenDigestInput ((args.exchange prims dk sk).digest prims
              args.peerConfirmation) output.confirmation ::
            (args.exchange prims dk sk).hashInputs prims
              args.peerConfirmation
      | _, _ => []
  | .confirmPeer args, .ok .done =>
      match event.record.before.pendingAuth with
      | some pending =>
          [identityFingerprintInput args.peerVerifyingKey,
            keygenDigestInput pending.digest args.peerConfirmation]
      | none => []
  | _, _ => []

/-- The 48-byte keys and messages of the keyed hashes behind the
encapsulator's tag which a successful call evaluates. -/
def macInputs (event : Event ι DecapsKey SigningKey) :
    List (Block 48 × Bytes) :=
  match event.record.call, event.record.result with
  | .encapsulateAuthenticated args, .ok (.authEncapsulated output) =>
      match args.prk prims with
      | .ok prk => (args.exchange prims output.ct output.pk).macInputs prims prk
      | .error _ => []
  | .finalizeAuthenticated args, .ok (.proof _) =>
      match event.record.before.mlKemDk, event.record.before.x25519Sk with
      | some dk, some sk =>
          match args.prk prims dk sk with
          | .ok prk => (args.exchange prims dk sk).macInputs prims prk
          | .error _ => []
      | _, _ => []
  | _, _ => []

end Event

/-- Verification under `vk` succeeds only for what its owner signed before. -/
def Unforgeable
    (events : List (Event ι DecapsKey SigningKey)) (vk : PublicKey87) : Prop :=
  ∀ (j : ℕ) (event : Event ι DecapsKey SigningKey) (msg context : Bytes)
      (sig : Signature87),
    events[j]? = some event →
    event.verification? prims = some (vk, msg, context, sig) →
    mlDsaVerifyWithContext prims vk msg context sig = .ok () →
    ∃ i < j, ∃ source, events[i]? = some source ∧
      source.signed? prims = some (vk, msg, context)

/-- No two different strings hashed in a run collide. -/
structure CollisionFree (events : List (Event ι DecapsKey SigningKey)) :
    Prop where
  sha384 : Set.InjOn prims.sha384
    {input | ∃ event ∈ events, input ∈ event.hashInputs prims}
  hmac : Set.InjOn
    (fun query : Block 48 × Bytes => prims.hmacSha384 query.1.bytes query.2)
    {query | ∃ event ∈ events, query ∈ event.macInputs prims}

/-- Both sides of a handshake have used the same data and hold the same keys
with the directions exchanged. -/
structure Agreement
    (keygen encapsulator : Record DecapsKey SigningKey)
    (keygenArgs : FinalizeAuthenticatedArgs SigningKey)
    (encapsulatorArgs : EncapsulateAuthenticatedArgs SigningKey)
    (output : EncapsulateAuthenticatedOutput) : Prop where
  ct_eq : output.ct = keygenArgs.mlKemCt
  pk_eq : output.pk = keygenArgs.peerX25519Pk
  tag_eq : output.confirmation = keygenArgs.peerConfirmation
  encapsulatorKey_eq :
    prims.mlDsaVerifyingKey encapsulatorArgs.ownSigningKey =
      keygenArgs.peerVerifyingKey
  keygenKey_eq : encapsulatorArgs.peerVerifyingKey =
    prims.mlDsaVerifyingKey keygenArgs.ownSigningKey
  mlKemPk_eq : keygen.before.mlKemDk.map prims.mlKemEncapsulationKey =
    some encapsulatorArgs.peerMlKemPk
  x25519Pk_eq : keygen.before.x25519Sk.map prims.x25519PublicKey =
    some encapsulatorArgs.peerX25519Pk
  appInfo_eq : encapsulatorArgs.appInfo = keygenArgs.appInfo
  txKey_eq : keygen.after.txKey = encapsulator.after.rxKey
  rxKey_eq : keygen.after.rxKey = encapsulator.after.txKey
  installed : keygen.after.txKey ≠ none ∧ keygen.after.rxKey ≠ none

/-! ## Records of a trace -/

/-- The record tells what the call really did. -/
def Record.Genuine (record : Record DecapsKey SigningKey) : Prop :=
  record = record.before.perform ⟨prims, record.call⟩

variable {prims}

theorem Network.trace_genuine [DecidableEq ι]
    {network : Network ι DecapsKey} {schedule : List (ι × Call SigningKey)}
    {j : ℕ} {event : Event ι DecapsKey SigningKey}
    (hevent : (network.trace prims schedule)[j]? = some event) :
    event.record.Genuine prims := by
  rcases Execution.trace_event hevent with ⟨current, action, _, rfl⟩
  rfl

namespace Record.Genuine

variable {record : Record DecapsKey SigningKey}

theorem exec_eq
    (hgenuine : record.Genuine prims) {call : Call SigningKey}
    {result : Except CryptoError Output} (hcall : record.call = call)
    (hresult : record.result = result) :
    record.before.exec prims call = (result, record.after) := by
  subst hcall hresult
  exact Prod.ext (congrArg Record.result hgenuine).symm
    (congrArg Record.after hgenuine).symm

theorem encapsulateAuthenticated
    (hgenuine : record.Genuine prims)
    {args : EncapsulateAuthenticatedArgs SigningKey}
    {output : EncapsulateAuthenticatedOutput}
    (hcall : record.call = .encapsulateAuthenticated args)
    (hresult : record.result = .ok (.authEncapsulated output)) :
    record.before.encapsulateAuthenticated prims args =
      (.ok output, record.after) := by
  have hexec := hgenuine.exec_eq hcall hresult
  simp only [SessionManager.exec] at hexec
  split at hexec
  next value next heq =>
    cases hexec
    exact heq
  next => cases hexec

theorem finalizeAuthenticated
    (hgenuine : record.Genuine prims)
    {args : FinalizeAuthenticatedArgs SigningKey}
    {output : FinalizeAuthenticatedOutput}
    (hcall : record.call = .finalizeAuthenticated args)
    (hresult : record.result = .ok (.proof output)) :
    record.before.finalizeAuthenticated prims args =
      (.ok output, record.after) := by
  have hexec := hgenuine.exec_eq hcall hresult
  simp only [SessionManager.exec] at hexec
  split at hexec
  next value next heq =>
    cases hexec
    exact heq
  next => cases hexec

theorem confirmPeer
    (hgenuine : record.Genuine prims) {args : ConfirmPeerArgs}
    (hcall : record.call = .confirmPeer args)
    (hresult : record.result = .ok .done) :
    record.before.confirmPeer prims args = (.ok (), record.after) := by
  have hexec := hgenuine.exec_eq hcall hresult
  simp only [SessionManager.exec] at hexec
  split at hexec
  next next heq =>
    cases hexec
    exact heq
  next => cases hexec

end Record.Genuine

/-- What the two contexts tell about the signer of a message. -/
theorem Event.signed?_cases
    {event : Event ι DecapsKey SigningKey} {vk : PublicKey87}
    {msg context : Bytes}
    (hsigned : event.signed? prims = some (vk, msg, context)) :
    (context = contextEncapsulatingSide ∧ ∃ args output,
      event.record.call = .encapsulateAuthenticated args ∧
      event.record.result = .ok (.authEncapsulated output) ∧
      prims.mlDsaVerifyingKey args.ownSigningKey = vk ∧
      msg = ((args.exchange prims output.ct output.pk).digest prims
        output.confirmation).bytes) ∨
    (context = contextKeygenSide ∧ ∃ args output dk sk,
      event.record.call = .finalizeAuthenticated args ∧
      event.record.result = .ok (.proof output) ∧
      event.record.before.mlKemDk = some dk ∧
      event.record.before.x25519Sk = some sk ∧
      prims.mlDsaVerifyingKey args.ownSigningKey = vk ∧
      msg = (keygenDigest prims ((args.exchange prims dk sk).digest prims
        args.peerConfirmation) output.confirmation).bytes) := by
  unfold Event.signed? at hsigned
  split at hsigned
  next args output hcall hresult =>
    cases hsigned
    exact Or.inl ⟨rfl, args, output, hcall, hresult, rfl, rfl⟩
  next args output hcall hresult =>
    split at hsigned
    next dk sk hdk hsk =>
      cases hsigned
      exact Or.inr ⟨rfl, args, output, dk, sk, hcall, hresult, hdk, hsk, rfl,
        rfl⟩
    next => cases hsigned
  next => cases hsigned

/-- Equal encapsulator digests on the two sides mean agreement. -/
theorem CollisionFree.agreement
    {events : List (Event ι DecapsKey SigningKey)}
    (hfree : CollisionFree prims events)
    {keygen encapsulator : Event ι DecapsKey SigningKey}
    (hkeygen : keygen ∈ events) (hencapsulator : encapsulator ∈ events)
    (hkeygenGenuine : keygen.record.Genuine prims)
    (hencapsulatorGenuine : encapsulator.record.Genuine prims)
    {keygenArgs : FinalizeAuthenticatedArgs SigningKey}
    {proof : FinalizeAuthenticatedOutput}
    {encapsulatorArgs : EncapsulateAuthenticatedArgs SigningKey}
    {output : EncapsulateAuthenticatedOutput}
    {dk : DecapsKey} {sk : X25519Secret}
    (hdk : keygen.record.before.mlKemDk = some dk)
    (hsk : keygen.record.before.x25519Sk = some sk)
    (hkeygenCall : keygen.record.call = .finalizeAuthenticated keygenArgs)
    (hkeygenResult : keygen.record.result = .ok (.proof proof))
    (hencapsulatorCall :
      encapsulator.record.call = .encapsulateAuthenticated encapsulatorArgs)
    (hencapsulatorResult :
      encapsulator.record.result = .ok (.authEncapsulated output))
    (hdigest : (encapsulatorArgs.exchange prims output.ct output.pk).digest
        prims output.confirmation =
      (keygenArgs.exchange prims dk sk).digest prims
        keygenArgs.peerConfirmation) :
    Agreement prims keygen.record encapsulator.record keygenArgs
      encapsulatorArgs output := by
  rcases SessionManager.encapsulateAuthenticated_ok
      (hencapsulatorGenuine.encapsulateAuthenticated hencapsulatorCall
        hencapsulatorResult) with
    ⟨_, _, prk, _, _, _, _, _, hprk, htag, _, hinstalled⟩
  rcases SessionManager.finalizeAuthenticated_ok
      (hkeygenGenuine.finalizeAuthenticated hkeygenCall hkeygenResult) with
    ⟨dk', sk', prk', hdk', hsk', _, hprk', _, htag', _, _, hinstalled'⟩
  cases hdk.symm.trans hdk'
  cases hsk.symm.trans hsk'
  have hexchange := Exchange.digest_inj hfree.sha384
    (fun input hinput => ⟨encapsulator, hencapsulator, by
      simpa only [Event.hashInputs, hencapsulatorCall, hencapsulatorResult]
        using hinput⟩)
    (fun input hinput => ⟨keygen, hkeygen, by
      simp only [Event.hashInputs, hkeygenCall, hkeygenResult, hdk, hsk]
      exact List.mem_cons_of_mem _ hinput⟩)
    hdigest
  rcases hexchange with ⟨hexchange, htagEq⟩
  have hencapsulatorMacs : ∀ query ∈
      (keygenArgs.exchange prims dk sk).macInputs prims prk,
        ∃ event ∈ events, query ∈ event.macInputs prims := by
    intro query hquery
    refine ⟨encapsulator, hencapsulator, ?_⟩
    rw [← hexchange] at hquery
    simpa only [Event.macInputs, hencapsulatorCall, hencapsulatorResult,
      hprk] using hquery
  have hkeygenMacs : ∀ query ∈
      (keygenArgs.exchange prims dk sk).macInputs prims prk',
        ∃ event ∈ events, query ∈ event.macInputs prims := by
    intro query hquery
    refine ⟨keygen, hkeygen, ?_⟩
    simpa only [Event.macInputs, hkeygenCall, hkeygenResult, hdk, hsk,
      hprk'] using hquery
  have hprkEq : prk = prk' := by
    apply Exchange.encapsulatorTag_inj hfree.hmac hencapsulatorMacs hkeygenMacs
    rw [← htag', ← htagEq, htag, hexchange]
  subst hprkEq
  have hkeys : encapsulator.record.after = SessionManager.installed
      (keygenRxKey ((keygenArgs.exchange prims dk sk).sessionKey prims prk))
      (keygenTxKey ((keygenArgs.exchange prims dk sk).sessionKey prims prk))
      encapsulator.record.after.pendingAuth := by
    rw [hinstalled, hexchange]
    rfl
  exact {
    ct_eq := congrArg Exchange.ct hexchange
    pk_eq := congrArg Exchange.encapsulatorX25519Pk hexchange
    tag_eq := htagEq
    encapsulatorKey_eq := congrArg Exchange.encapsulatorKey hexchange
    keygenKey_eq := congrArg Exchange.keygenKey hexchange
    mlKemPk_eq := by
      rw [hdk]
      exact congrArg some (congrArg Exchange.mlKemPk hexchange).symm
    x25519Pk_eq := by
      rw [hsk]
      exact congrArg some (congrArg Exchange.x25519Pk hexchange).symm
    appInfo_eq := congrArg Exchange.appInfo hexchange
    txKey_eq := by
      rw [hkeys, hinstalled']
      rfl
    rxKey_eq := by
      rw [hkeys, hinstalled']
      rfl
    installed := by
      rw [hinstalled']
      exact ⟨Option.some_ne_none _, Option.some_ne_none _⟩ }

section Runs

variable [DecidableEq ι] {schedule : List (ι × Call SigningKey)}

/-- Key-generating side: a successful `finalize_authenticated` for an honest
trust anchor agrees with an earlier `encapsulate_authenticated` of the anchor's
owner. -/
theorem finalizeAuthenticated_agreement
    (honest : Set PublicKey87)
    (hfree : CollisionFree prims
      ((Network.initial : Network ι DecapsKey).trace prims schedule))
    (hhonest : ∀ vk ∈ honest, Unforgeable prims
      ((Network.initial : Network ι DecapsKey).trace prims schedule) vk)
    {j : ℕ} {event : Event ι DecapsKey SigningKey}
    {args : FinalizeAuthenticatedArgs SigningKey}
    {proof : FinalizeAuthenticatedOutput}
    (hevent : ((Network.initial : Network ι DecapsKey).trace prims
      schedule)[j]? = some event)
    (hcall : event.record.call = .finalizeAuthenticated args)
    (hresult : event.record.result = .ok (.proof proof))
    (hanchor : args.peerVerifyingKey ∈ honest) :
    ∃ i < j, ∃ source encapsulatorArgs output,
      ((Network.initial : Network ι DecapsKey).trace prims schedule)[i]? =
        some source ∧
      source.record.call = .encapsulateAuthenticated encapsulatorArgs ∧
      source.record.result = .ok (.authEncapsulated output) ∧
      Agreement prims event.record source.record args encapsulatorArgs
        output := by
  have hgenuine := Network.trace_genuine hevent
  rcases SessionManager.finalizeAuthenticated_ok
      (hgenuine.finalizeAuthenticated hcall hresult) with
    ⟨dk, sk, prk, hdk, hsk, hlength, _, hverify, _⟩
  have hquery : event.verification? prims = some (args.peerVerifyingKey,
      ((args.exchange prims dk sk).digest prims args.peerConfirmation).bytes,
      contextEncapsulatingSide, args.peerSignature) := by
    simp only [Event.verification?, hcall, hdk, hsk, if_pos hlength]
  rcases hhonest _ hanchor j event _ _ _ hevent hquery hverify with
    ⟨i, hlt, source, hsource, hsigned⟩
  rcases Event.signed?_cases hsigned with
    ⟨_, encapsulatorArgs, output, hsourceCall, hsourceResult, _, hmsg⟩ |
    ⟨hcontext, _⟩
  · refine ⟨i, hlt, source, encapsulatorArgs, output, hsource, hsourceCall,
      hsourceResult, ?_⟩
    exact hfree.agreement (List.mem_of_getElem? hevent)
      (List.mem_of_getElem? hsource) hgenuine (Network.trace_genuine hsource)
      hdk hsk hcall hresult hsourceCall hsourceResult
      (Block.bytes_inj.mp hmsg).symm
  · exact absurd hcontext contexts_ne

/-! ## The pending authentication of the encapsulating side -/

/-- Every pending authentication stems from a successful
`encapsulate_authenticated` whose keys are still in place. -/
def PendingFromEncapsulation
    (past : List (Event ι DecapsKey SigningKey))
    (network : Network ι DecapsKey) : Prop :=
  ∀ party pending, (network party).pendingAuth = some pending →
    ∃ source ∈ past, source.party = party ∧
      (∃ args output, source.record.call = .encapsulateAuthenticated args ∧
        source.record.result = .ok (.authEncapsulated output)) ∧
      source.record.after.pendingAuth = some pending ∧
      source.record.after.txKey = (network party).txKey ∧
      source.record.after.rxKey = (network party).rxKey

/-- A pending authentication after a call was there before it, with the same
keys, or was just created. -/
theorem perform_pendingAuth
    (manager : SessionManager DecapsKey)
    (invocation : Invocation DecapsKey SigningKey)
    {pending : PendingAuthentication}
    (hpending :
      (manager.perform invocation).after.pendingAuth = some pending) :
    (manager.pendingAuth = some pending ∧
      (manager.perform invocation).after.txKey = manager.txKey ∧
      (manager.perform invocation).after.rxKey = manager.rxKey) ∨
    ∃ args output,
      (manager.perform invocation).call = .encapsulateAuthenticated args ∧
      (manager.perform invocation).result =
        .ok (.authEncapsulated output) := by
  have htransition := manager.perform_transition invocation
  generalize (manager.perform invocation).call = call at *
  generalize (manager.perform invocation).result = result at *
  generalize (manager.perform invocation).after = after at *
  cases htransition with
  | refused => exact Or.inl ⟨hpending, rfl, rfl⟩
  | failedClosed => cases hpending
  | zeroized => cases hpending
  | initiated => cases hpending
  | installed _ _ _ _ pendingAuth _ _ hauth =>
      have hsome : pendingAuth = some pending := hpending
      rcases hauth (by simp [hsome]) with ⟨args, output, hcall, houtput⟩
      exact Or.inr ⟨args, output, hcall, by rw [houtput]⟩
  | sent => exact Or.inl ⟨hpending, rfl, rfl⟩
  | received _ _ nonce =>
      simp only [SessionManager.commitRxNonce_pendingAuth] at hpending
      exact Or.inl ⟨hpending, manager.commitRxNonce_txKey nonce,
        manager.commitRxNonce_rxKey nonce⟩
  | confirmed => cases hpending

theorem PendingFromEncapsulation.step
    {past : List (Event ι DecapsKey SigningKey)}
    {network : Network ι DecapsKey}
    (hpast : PendingFromEncapsulation past network)
    (action : ι × Call SigningKey) :
    PendingFromEncapsulation (past ++ [(network.step prims action).2])
      (network.step prims action).1 := by
  intro party pending hpending
  by_cases hparty : party = action.1
  · subst hparty
    rw [Network.step_self] at hpending ⊢
    rcases perform_pendingAuth (network action.1) ⟨prims, action.2⟩
        hpending with ⟨hbefore, htx, hrx⟩ | hcreated
    · rcases hpast action.1 pending hbefore with
        ⟨source, hmem, hsource, hcall, hafter, hsourceTx, hsourceRx⟩
      rw [htx, hrx]
      exact ⟨source, List.mem_append_left _ hmem, hsource, hcall, hafter,
        hsourceTx, hsourceRx⟩
    · exact ⟨_, List.mem_append_right _ List.mem_cons_self, rfl, hcreated,
        hpending, rfl, rfl⟩
  · rw [Network.step_other prims network action hparty] at hpending ⊢
    rcases hpast party pending hpending with ⟨source, hmem, hrest⟩
    exact ⟨source, List.mem_append_left _ hmem, hrest⟩

/-- A manager with a pending authentication has encapsulated before. -/
theorem encapsulation_of_pendingAuth
    {j : ℕ} {event : Event ι DecapsKey SigningKey}
    {pending : PendingAuthentication}
    (hevent : ((Network.initial : Network ι DecapsKey).trace prims
      schedule)[j]? = some event)
    (hpending : event.record.before.pendingAuth = some pending) :
    ∃ i < j, ∃ source args output,
      ((Network.initial : Network ι DecapsKey).trace prims schedule)[i]? =
        some source ∧
      source.party = event.party ∧
      source.record.call = .encapsulateAuthenticated args ∧
      source.record.result = .ok (.authEncapsulated output) ∧
      source.record.after.pendingAuth = some pending ∧
      source.record.after.txKey = event.record.before.txKey ∧
      source.record.after.rxKey = event.record.before.rxKey := by
  have hinitial : PendingFromEncapsulation
      ([] : List (Event ι DecapsKey SigningKey)) Network.initial := by
    intro party pending hpending
    cases hpending
  rcases Execution.trace_invariant
      (fun past state action _ (hgood : PendingFromEncapsulation past state) =>
        hgood.step action) hinitial hevent with
    ⟨current, action, _, hcurrent, rfl⟩
  rcases hcurrent action.1 pending hpending with
    ⟨source, hmem, hparty, ⟨args, output, hcall, hresult⟩, hafter, htx, hrx⟩
  rcases List.mem_iff_getElem?.mp hmem with ⟨i, hi⟩
  rw [List.getElem?_take] at hi
  split at hi
  next hlt =>
    exact ⟨i, hlt, source, args, output, hi, hparty, hcall, hresult, hafter,
      htx, hrx⟩
  next => cases hi

/-- Encapsulating side: a successful `confirm_peer` presents the key to which
the session was bound, and if that key is honest its owner has finalized the
same handshake. -/
theorem confirmPeer_agreement
    (honest : Set PublicKey87)
    (hfree : CollisionFree prims
      ((Network.initial : Network ι DecapsKey).trace prims schedule))
    (hhonest : ∀ vk ∈ honest, Unforgeable prims
      ((Network.initial : Network ι DecapsKey).trace prims schedule) vk)
    {j : ℕ} {event : Event ι DecapsKey SigningKey} {args : ConfirmPeerArgs}
    (hevent : ((Network.initial : Network ι DecapsKey).trace prims
      schedule)[j]? = some event)
    (hcall : event.record.call = .confirmPeer args)
    (hresult : event.record.result = .ok .done) :
    ∃ i < j, ∃ source encapsulatorArgs output,
      ((Network.initial : Network ι DecapsKey).trace prims schedule)[i]? =
        some source ∧
      source.party = event.party ∧
      source.record.call = .encapsulateAuthenticated encapsulatorArgs ∧
      source.record.result = .ok (.authEncapsulated output) ∧
      source.record.after.txKey = event.record.after.txKey ∧
      source.record.after.rxKey = event.record.after.rxKey ∧
      args.peerVerifyingKey = encapsulatorArgs.peerVerifyingKey ∧
      (encapsulatorArgs.peerVerifyingKey ∈ honest →
        ∃ k < j, ∃ keygen keygenArgs proof,
          ((Network.initial : Network ι DecapsKey).trace prims
            schedule)[k]? = some keygen ∧
          keygen.record.call = .finalizeAuthenticated keygenArgs ∧
          keygen.record.result = .ok (.proof proof) ∧
          Agreement prims keygen.record source.record keygenArgs
            encapsulatorArgs output) := by
  have hgenuine := Network.trace_genuine hevent
  rcases SessionManager.confirmPeer_ok
      (hgenuine.confirmPeer hcall hresult) with
    ⟨pending, hpending, hidentity, hverify, _, hafter⟩
  rcases encapsulation_of_pendingAuth hevent hpending with
    ⟨i, hlt, source, encapsulatorArgs, output, hsource, hparty, hsourceCall,
      hsourceResult, hsourcePending, htx, hrx⟩
  have hsourceGenuine := Network.trace_genuine hsource
  rcases SessionManager.encapsulateAuthenticated_ok
      (hsourceGenuine.encapsulateAuthenticated hsourceCall hsourceResult) with
    ⟨_, _, prk, _, _, _, _, _, _, _, _, hinstalled⟩
  have hpendingEq := hsourcePending
  rw [hinstalled] at hpendingEq
  cases Option.some.inj hpendingEq
  have hpresented : args.peerVerifyingKey =
      encapsulatorArgs.peerVerifyingKey := by
    apply identityFingerprintInput_inj
    refine hfree.sha384 ⟨event, List.mem_of_getElem? hevent, ?_⟩
      ⟨source, List.mem_of_getElem? hsource, ?_⟩ hidentity
    · simp only [Event.hashInputs, hcall, hresult, hpending]
      exact List.mem_cons_self
    · simp only [Event.hashInputs, hsourceCall, hsourceResult]
      exact List.mem_cons_self
  refine ⟨i, hlt, source, encapsulatorArgs, output, hsource, hparty,
    hsourceCall, hsourceResult, ?_, ?_, hpresented, ?_⟩
  · rw [htx, hafter]
    rfl
  · rw [hrx, hafter]
    rfl
  · intro hanchor
    rw [← hpresented] at hanchor
    have hquery : event.verification? prims = some (args.peerVerifyingKey,
        (keygenDigest prims ((encapsulatorArgs.exchange prims output.ct
          output.pk).digest prims output.confirmation)
            args.peerConfirmation).bytes,
        contextKeygenSide, args.peerSignature) := by
      simp only [Event.verification?, hcall, hpending, if_pos hidentity]
    rcases hhonest _ hanchor j event _ _ _ hevent hquery hverify with
      ⟨k, hk, keygen, hkeygen, hsigned⟩
    rcases Event.signed?_cases hsigned with
      ⟨hcontext, _⟩ |
      ⟨_, keygenArgs, proof, dk, sk, hkeygenCall, hkeygenResult, hdk, hsk, _,
        hmsg⟩
    · exact absurd hcontext contexts_ne.symm
    · refine ⟨k, hk, keygen, keygenArgs, proof, hkeygen, hkeygenCall,
        hkeygenResult, ?_⟩
      have hinputs := hfree.sha384
        ⟨event, List.mem_of_getElem? hevent, by
          simp only [Event.hashInputs, hcall, hresult, hpending]
          exact List.mem_cons_of_mem _ List.mem_cons_self⟩
        ⟨keygen, List.mem_of_getElem? hkeygen, by
          simp only [Event.hashInputs, hkeygenCall, hkeygenResult, hdk, hsk]
          exact List.mem_cons_self⟩
        (Block.bytes_inj.mp hmsg)
      exact hfree.agreement (List.mem_of_getElem? hkeygen)
        (List.mem_of_getElem? hsource) (Network.trace_genuine hkeygen)
        hsourceGenuine hdk hsk hkeygenCall hkeygenResult hsourceCall
        hsourceResult (keygenDigestInput_inj hinputs).1

end Runs

/-! ## A complete handshake of the reference primitives -/

namespace Reference

def finalizeProof (salt : Bytes) : FinalizeAuthenticatedOutput :=
  let tag := handshakeExchange.keygenTag primitives (handshakePrk salt)
    (encapsulateOutput salt).confirmation
  ⟨signature (Block.fill 2592 1)
      (keygenDigest primitives (handshakeExchange.digest primitives
        (encapsulateOutput salt).confirmation) tag).bytes contextKeygenSide,
    tag⟩

def keygenAfter (salt : Bytes) : SessionManager UInt8 :=
  .installed
    (keygenTxKey (handshakeExchange.sessionKey primitives (handshakePrk salt)))
    (keygenRxKey (handshakeExchange.sessionKey primitives (handshakePrk salt)))
    none

def confirmArgs (salt : Bytes) : ConfirmPeerArgs where
  peerVerifyingKey := Block.fill 2592 1
  peerSignature := (finalizeProof salt).signature
  peerConfirmation := (finalizeProof salt).confirmation

theorem finalize_eq (salt : Bytes) :
    keygenPending.finalizeAuthenticated primitives
        ((honestRun salt).finalizeArgs salt) =
      (.ok (finalizeProof salt), keygenAfter salt) := by
  have houtcome := (honestRun salt).finalize_outcome primitives_kemCorrect
    primitives_dhCommutes primitives_zeroNotContributory
    primitives_signatureCorrect primitives_hmacTotal primitives_hkdfTotal salt
  have hsalt : (honestRun salt).salt = salt := rfl
  simp only [hsalt, sign_eq_ok, if_true] at houtcome
  exact houtcome

theorem confirm_eq (salt : Bytes) :
    (encapsulatorAfter salt).confirmPeer primitives (confirmArgs salt) =
      (.ok (), (encapsulatorAfter salt).wipePendingAuthentication) := by
  apply SessionManager.confirmPeer_of_total primitives_hmacTotal rfl rfl _ rfl
  exact primitives_signatureCorrect 1 _ _ _ (sign_eq_ok 1 _ _)

def handshakeSchedule : List (Bool × Call UInt8) :=
  [(true, .initiateHandshake (Block.fill 96 3)),
    (false, .encapsulateAuthenticated (encapsulateArgs [9])),
    (true, .finalizeAuthenticated ((honestRun [9]).finalizeArgs [9])),
    (false, .confirmPeer (confirmArgs [9]))]

def handshakeEvents : List (Event Bool UInt8 UInt8) :=
  [⟨true, ⟨.new, .initiateHandshake (Block.fill 96 3),
      .ok (.firstMessage (Block.fill 1568 3) (Block.fill 32 3)),
      keygenPending⟩⟩,
    ⟨false, ⟨.new, .encapsulateAuthenticated (encapsulateArgs [9]),
      .ok (.authEncapsulated (encapsulateOutput [9])),
      encapsulatorAfter [9]⟩⟩,
    ⟨true, ⟨keygenPending,
      .finalizeAuthenticated ((honestRun [9]).finalizeArgs [9]),
      .ok (.proof (finalizeProof [9])), keygenAfter [9]⟩⟩,
    ⟨false, ⟨encapsulatorAfter [9], .confirmPeer (confirmArgs [9]), .ok .done,
      (encapsulatorAfter [9]).wipePendingAuthentication⟩⟩]

theorem exec_initiate :
    (SessionManager.new : SessionManager UInt8).exec primitives
        (.initiateHandshake (Block.fill 96 3)) =
      (.ok (.firstMessage (Block.fill 1568 3) (Block.fill 32 3)),
        keygenPending) := rfl

theorem handshakeTrace_eq :
    (Network.initial : Network Bool UInt8).trace primitives handshakeSchedule =
      handshakeEvents := by
  unfold handshakeSchedule handshakeEvents
  have hinitial : (Network.initial : Network Bool UInt8) true = .new := rfl
  rw [Network.trace_cons primitives hinitial exec_initiate]
  have hencapsulator : Function.update (Network.initial : Network Bool UInt8)
      true keygenPending false = .new := rfl
  rw [Network.trace_cons primitives hencapsulator
    (SessionManager.exec_encapsulateAuthenticated (encapsulate_eq [9]))]
  have hkeygen : Function.update (Function.update
      (Network.initial : Network Bool UInt8) true keygenPending) false
        (encapsulatorAfter [9]) true = keygenPending := rfl
  rw [Network.trace_cons primitives hkeygen
    (SessionManager.exec_finalizeAuthenticated (finalize_eq [9]))]
  have hconfirming : Function.update (Function.update (Function.update
      (Network.initial : Network Bool UInt8) true keygenPending) false
        (encapsulatorAfter [9])) true (keygenAfter [9]) false =
          encapsulatorAfter [9] := rfl
  rw [Network.trace_cons primitives hconfirming
    (SessionManager.exec_confirmPeer (confirm_eq [9]))]
  rfl

/-- All strings hashed in the handshake. -/
def handshakeHashes : List Bytes :=
  keygenDigestInput (handshakeExchange.digest primitives
      (encapsulateOutput [9]).confirmation) (finalizeProof [9]).confirmation ::
    handshakeExchange.hashInputs primitives (encapsulateOutput [9]).confirmation

theorem handshakeHashes_injOn :
    Set.InjOn primitives.sha384 {input | input ∈ handshakeHashes} := by
  have hnodup : (handshakeHashes.map primitives.sha384).Nodup := by
    decide +kernel
  intro left hleft right hright heq
  exact List.inj_on_of_nodup_map hnodup hleft hright heq

theorem handshakeMacs_injOn :
    Set.InjOn
      (fun query : Block 48 × Bytes =>
        primitives.hmacSha384 query.1.bytes query.2)
      {query | query ∈
        handshakeExchange.macInputs primitives (handshakePrk [9])} := by
  have hnodup : ((handshakeExchange.macInputs primitives
      (handshakePrk [9])).map fun query =>
        primitives.hmacSha384 query.1.bytes query.2).Nodup := by
    decide +kernel
  intro left hleft right hright heq
  exact List.inj_on_of_nodup_map hnodup hleft hright heq

theorem handshake_collisionFree : CollisionFree primitives handshakeEvents := by
  constructor
  · apply handshakeHashes_injOn.mono
    intro input hinput
    rcases hinput with ⟨event, hevent, hmem⟩
    simp only [handshakeEvents, List.mem_cons, List.not_mem_nil, or_false]
      at hevent
    rcases hevent with rfl | rfl | rfl | rfl
    · cases hmem
    · exact List.mem_cons_of_mem _ hmem
    · exact hmem
    · rcases List.mem_cons.mp hmem with rfl | hdigest
      · exact List.mem_cons_of_mem _ List.mem_cons_self
      · rcases List.mem_cons.mp hdigest with rfl | hnone
        · exact List.mem_cons_self
        · cases hnone
  · apply handshakeMacs_injOn.mono
    intro query hquery
    rcases hquery with ⟨event, hevent, hmem⟩
    simp only [handshakeEvents, List.mem_cons, List.not_mem_nil, or_false]
      at hevent
    rcases hevent with rfl | rfl | rfl | rfl
    · cases hmem
    · exact hmem
    · exact hmem
    · cases hmem

theorem handshake_unforgeable (vk : PublicKey87) :
    Unforgeable primitives handshakeEvents vk := by
  intro j event msg context sig hevent hquery _
  match j with
  | 0 =>
      cases hevent
      cases hquery
  | 1 =>
      cases hevent
      cases hquery
  | 2 =>
      cases hevent
      cases hquery
      exact ⟨1, by omega, _, rfl, rfl⟩
  | 3 =>
      cases hevent
      have hpending : (encapsulatorAfter [9]).pendingAuth = some
          ⟨handshakeExchange.digest primitives
              (encapsulateOutput [9]).confirmation,
            identityFingerprint primitives (Block.fill 2592 1),
            handshakeExchange.keygenConfirmKey primitives
              (handshakePrk [9])⟩ := rfl
      have hpresented : (confirmArgs [9]).peerVerifyingKey =
          Block.fill 2592 1 := rfl
      simp only [Event.verification?, hpending, hpresented, if_true,
        Option.some.injEq, Prod.mk.injEq] at hquery
      rcases hquery with ⟨rfl, rfl, rfl, _⟩
      exact ⟨2, by omega, _, rfl, rfl⟩
  | j + 4 => cases hevent

theorem finalize_agrees :
    ∃ i < 2, ∃ source encapsulatorArgs output,
      handshakeEvents[i]? = some source ∧
      source.record.call = .encapsulateAuthenticated encapsulatorArgs ∧
      source.record.result = .ok (.authEncapsulated output) ∧
      (keygenAfter [9]).txKey = source.record.after.rxKey := by
  have hevent : ((Network.initial : Network Bool UInt8).trace primitives
      handshakeSchedule)[2]? = some ⟨true, ⟨keygenPending,
        .finalizeAuthenticated ((honestRun [9]).finalizeArgs [9]),
        .ok (.proof (finalizeProof [9])), keygenAfter [9]⟩⟩ := by
    rw [handshakeTrace_eq]
    rfl
  rcases finalizeAuthenticated_agreement Set.univ
      (handshakeTrace_eq ▸ handshake_collisionFree)
      (fun vk _ => handshakeTrace_eq ▸ handshake_unforgeable vk) hevent rfl rfl
      (Set.mem_univ _) with
    ⟨i, hi, source, args, output, hsource, hcall, hresult, hagreement⟩
  rw [handshakeTrace_eq] at hsource
  exact ⟨i, hi, source, args, output, hsource, hcall, hresult,
    hagreement.txKey_eq⟩

theorem confirm_agrees :
    ∃ k < 3, ∃ keygen keygenArgs proof,
      handshakeEvents[k]? = some keygen ∧
      keygen.record.call = .finalizeAuthenticated keygenArgs ∧
      keygen.record.result = .ok (.proof proof) ∧
      keygen.record.after.txKey = (encapsulatorAfter [9]).rxKey := by
  have hevent : ((Network.initial : Network Bool UInt8).trace primitives
      handshakeSchedule)[3]? = some ⟨false, ⟨encapsulatorAfter [9],
        .confirmPeer (confirmArgs [9]), .ok .done,
        (encapsulatorAfter [9]).wipePendingAuthentication⟩⟩ := by
    rw [handshakeTrace_eq]
    rfl
  rcases confirmPeer_agreement Set.univ
      (handshakeTrace_eq ▸ handshake_collisionFree)
      (fun vk _ => handshakeTrace_eq ▸ handshake_unforgeable vk) hevent rfl
      rfl with
    ⟨_, _, source, _, _, _, _, _, _, _, hrx, _, hkeygen⟩
  rcases hkeygen (Set.mem_univ _) with
    ⟨k, hk, keygen, keygenArgs, proof, hevent', hcall, hresult, hagreement⟩
  rw [handshakeTrace_eq] at hevent'
  refine ⟨k, hk, keygen, keygenArgs, proof, hevent', hcall, hresult, ?_⟩
  rw [hagreement.txKey_eq, hrx]
  rfl

end Reference

end ShawnCore
