import ShawnCore.HandshakeAgreement
import ShawnCore.SessionFailures
import ShawnCore.SessionLives

/-!
# Handshakes complete despite interference

An attacker may present any replies and proofs to the two sides of an
authenticated handshake, and any packets.  If the signatures of honest parties
cannot be forged, a reply or a proof which touches the state at all comes from
the honest peer, and then the call succeeds.  So a handshake stays pending
until the genuine message arrives, however much is delivered before, and the
genuine message completes it.
-/

namespace ShawnCore

open ByteBlocks

variable {ι DecapsKey SigningKey : Type}

/-! ## Honest parties -/

/-- The signing keys of the honest parties, and the salt on which two
identities have agreed, the key-generating one first. -/
structure Deployment (ι SigningKey : Type) where
  identity : ι → Option SigningKey
  salt : PublicKey87 → PublicKey87 → Bytes

variable (prims : Primitives DecapsKey SigningKey)

def Deployment.anchors (deployment : Deployment ι SigningKey) :
    Set PublicKey87 :=
  {vk | ∃ party key, deployment.identity party = some key ∧
    prims.mlDsaVerifyingKey key = vk}

/-- The call uses this signing key and the agreed salt. -/
def Deployment.Uses (deployment : Deployment ι SigningKey)
    (key : SigningKey) : Call SigningKey → Prop
  | .encapsulateAuthenticated args =>
      args.ownSigningKey = key ∧
        args.salt = deployment.salt args.peerVerifyingKey
          (prims.mlDsaVerifyingKey key)
  | .finalizeAuthenticated args =>
      args.ownSigningKey = key ∧
        args.salt = deployment.salt (prims.mlDsaVerifyingKey key)
          args.peerVerifyingKey
  | _ => True

/-- The signing key which a call is given. -/
def Call.ownSigningKey? : Call SigningKey → Option SigningKey
  | .encapsulateAuthenticated args => some args.ownSigningKey
  | .finalizeAuthenticated args => some args.ownSigningKey
  | _ => none

/-- The strings hashed by a call on the way to a signature which it issues or
a verification which it tries. -/
def Event.attempted (event : Event ι DecapsKey SigningKey) : List Bytes :=
  match event.record.call with
  | .encapsulateAuthenticated args =>
      match event.record.result with
      | .ok (.authEncapsulated output) =>
          (args.exchange prims output.ct output.pk).hashInputs prims
            output.confirmation
      | _ => []
  | .finalizeAuthenticated args =>
      match event.record.before.mlKemDk, event.record.before.x25519Sk with
      | some dk, some sk =>
          (args.exchange prims dk sk).hashInputs prims args.peerConfirmation ++
            match event.record.result with
            | .ok (.proof output) =>
                [keygenDigestInput ((args.exchange prims dk sk).digest prims
                  args.peerConfirmation) output.confirmation]
            | _ => []
      | _, _ => []
  | .confirmPeer args =>
      match event.record.before.pendingAuth with
      | some pending =>
          [identityFingerprintInput args.peerVerifyingKey,
            keygenDigestInput pending.digest args.peerConfirmation]
      | none => []
  | _ => []

/-- The honest parties use their own keys, which nobody else has, and the
agreed salts; their signatures cannot be forged, and no two hashed strings
collide. -/
structure Deployment.Secure (deployment : Deployment ι SigningKey)
    (events : List (Event ι DecapsKey SigningKey)) : Prop where
  uses : ∀ event ∈ events, ∀ key,
    deployment.identity event.party = some key →
      deployment.Uses prims key event.record.call
  exclusive : ∀ event ∈ events, ∀ key,
    event.record.call.ownSigningKey? = some key →
      prims.mlDsaVerifyingKey key ∈ deployment.anchors prims →
        deployment.identity event.party = some key
  unforgeable : ∀ vk ∈ deployment.anchors prims, Unforgeable prims events vk
  collisionFree : Set.InjOn prims.sha384
    {input | ∃ event ∈ events, input ∈ event.attempted prims}

/-- What is needed of the primitives: they do not fail on the inputs of an
honest run, and both sides compute the same secrets. -/
structure Primitives.Interoperable : Prop where
  kemCorrect : prims.KemCorrect
  dhCommutes : prims.DhCommutes
  zeroNotContributory : prims.ZeroNotContributory
  signatureCorrect : prims.SignatureCorrect
  signingTotal : prims.SigningTotal
  hmacTotal : prims.HmacTotal
  hkdfTotal : prims.HkdfTotal

variable {prims}

/-! ## Both sides of one exchange -/

/-- The key-generating side extracts the same key from the exchange. -/
theorem FinalizeAuthenticatedArgs.prk_of_exchange_eq
    (hprims : prims.Interoperable)
    {manager next : SessionManager DecapsKey}
    {encapsulatorArgs : EncapsulateAuthenticatedArgs SigningKey}
    {output : EncapsulateAuthenticatedOutput}
    (hok : manager.encapsulateAuthenticated prims encapsulatorArgs =
      (.ok output, next))
    {args : FinalizeAuthenticatedArgs SigningKey} {dk : DecapsKey}
    {sk : X25519Secret}
    (hexchange : encapsulatorArgs.exchange prims output.ct output.pk =
      args.exchange prims dk sk)
    (hsalt : encapsulatorArgs.salt = args.salt) :
    args.prk prims dk sk = encapsulatorArgs.prk prims := by
  obtain ⟨pqSecret, classicalSecret, prk, -, hencaps, hshared, hpk, hprkEq,
    hprk, -⟩ := SessionManager.encapsulateAuthenticated_ok hok
  have hek : encapsulatorArgs.peerMlKemPk = prims.mlKemEncapsulationKey dk :=
    congrArg Exchange.mlKemPk hexchange
  have hxk : encapsulatorArgs.peerX25519Pk = prims.x25519PublicKey sk :=
    congrArg Exchange.x25519Pk hexchange
  have hct : output.ct = args.mlKemCt := congrArg Exchange.ct hexchange
  have hpeer : output.pk = args.peerX25519Pk :=
    congrArg Exchange.encapsulatorX25519Pk hexchange
  have hdecaps : mlKemDecapsulate prims dk args.mlKemCt = .ok pqSecret := by
    obtain ⟨⟨ct, secret⟩, hraw, hpair⟩ := Execution.bind_eq_ok.mp hencaps
    rw [hek] at hraw
    rw [← hct]
    cases hpair
    exact hprims.kemCorrect dk _ _ _ hraw
  have hkeygen :
      x25519DiffieHellman prims sk args.peerX25519Pk = .ok classicalSecret := by
    obtain ⟨-, hcontributory, hvalue⟩ :=
      (x25519DiffieHellman_eq_ok prims).mp hshared
    have hsame : prims.x25519DiffieHellman sk args.peerX25519Pk =
        classicalSecret := by
      rw [← hpeer, hpk, hprims.dhCommutes, ← hxk]
      exact hvalue
    rw [hvalue] at hcontributory
    refine (x25519DiffieHellman_eq_ok prims).mpr ⟨?_, ?_, hsame⟩
    · rw [← Bool.not_eq_true]
      intro hall
      have hnot := hprims.zeroNotContributory sk args.peerX25519Pk hall
      rw [hsame, hcontributory] at hnot
      cases hnot
    · rw [hsame]
      exact hcontributory
  rw [hprk, hprkEq, hsalt]
  simp only [FinalizeAuthenticatedArgs.prk, hdecaps, hkeygen]
  rfl

/-- A verified reply of the peer to the pending handshake completes it. -/
theorem SessionManager.finalizeAuthenticated_of_peer
    (hprims : prims.Interoperable)
    {encapsulator next manager : SessionManager DecapsKey}
    {encapsulatorArgs : EncapsulateAuthenticatedArgs SigningKey}
    {output : EncapsulateAuthenticatedOutput}
    (hok : encapsulator.encapsulateAuthenticated prims encapsulatorArgs =
      (.ok output, next))
    {args : FinalizeAuthenticatedArgs SigningKey} {dk : DecapsKey}
    {sk : X25519Secret}
    (hexchange : encapsulatorArgs.exchange prims output.ct output.pk =
      args.exchange prims dk sk)
    (hsalt : encapsulatorArgs.salt = args.salt)
    (htag : output.confirmation = args.peerConfirmation)
    (hdk : manager.mlKemDk = some dk) (hsk : manager.x25519Sk = some sk)
    (hverify : mlDsaVerifyWithContext prims args.peerVerifyingKey
      ((args.exchange prims dk sk).digest prims args.peerConfirmation).bytes
      contextEncapsulatingSide args.peerSignature = .ok ()) :
    ∃ proof prk, encapsulatorArgs.prk prims = .ok prk ∧
      manager.finalizeAuthenticated prims args =
        (.ok proof, installed
          (keygenTxKey ((args.exchange prims dk sk).sessionKey prims prk))
          (keygenRxKey ((args.exchange prims dk sk).sessionKey prims prk))
          none) := by
  have hprkEq := FinalizeAuthenticatedArgs.prk_of_exchange_eq hprims hok
    hexchange hsalt
  obtain ⟨-, -, prk, hlength, -, -, -, -, hprk, htagEq, -⟩ :=
    SessionManager.encapsulateAuthenticated_ok hok
  have happ : encapsulatorArgs.appInfo = args.appInfo :=
    congrArg Exchange.appInfo hexchange
  rw [happ] at hlength
  rw [hexchange, htag] at htagEq
  obtain ⟨signature, hsign⟩ := hprims.signingTotal args.ownSigningKey
    (keygenDigest prims
      ((args.exchange prims dk sk).digest prims args.peerConfirmation)
      ((args.exchange prims dk sk).keygenTag prims prk
        args.peerConfirmation)).bytes
    contextKeygenSide contextKeygenSide_length
  exact ⟨_, prk, hprk, finalizeAuthenticated_of_signed hprims.hmacTotal
    hprims.hkdfTotal hdk hsk hlength (hprkEq.trans hprk) hverify htagEq.symm
    hsign⟩

/-- The key-generating party completes a handshake with an honest peer. -/
def Deployment.FinalizedAt (deployment : Deployment ι SigningKey)
    (prims : Primitives DecapsKey SigningKey)
    (events : List (Event ι DecapsKey SigningKey)) (party : ι) (k : ℕ) :
    Prop :=
  ∃ event args proof, events[k]? = some event ∧ event.party = party ∧
    event.record.call = .finalizeAuthenticated args ∧
    event.record.result = .ok (.proof proof) ∧
    ∃ i < k, ∃ source encapsulatorArgs output,
      events[i]? = some source ∧ deployment.identity source.party ≠ none ∧
      source.record.call = .encapsulateAuthenticated encapsulatorArgs ∧
      source.record.result = .ok (.authEncapsulated output) ∧
      Agreement prims event.record source.record args encapsulatorArgs output

/-- The encapsulating party is confirmed. -/
def ConfirmedAt (events : List (Event ι DecapsKey SigningKey)) (party : ι)
    (k : ℕ) : Prop :=
  ∃ event args, events[k]? = some event ∧ event.party = party ∧
    event.record.call = .confirmPeer args ∧ event.record.result = .ok .done

section Events

variable {events : List (Event ι DecapsKey SigningKey)}
  {deployment : Deployment ι SigningKey}

/-- A reply which verifies under the key of an honest party was made by this
party for the pending handshake. -/
theorem Deployment.Secure.exists_encapsulation
    (hsecure : deployment.Secure prims events)
    {j : ℕ} {event : Event ι DecapsKey SigningKey}
    {args : FinalizeAuthenticatedArgs SigningKey}
    (hevent : events[j]? = some event)
    (hcall : event.record.call = .finalizeAuthenticated args)
    (hanchor : args.peerVerifyingKey ∈ deployment.anchors prims)
    {dk : DecapsKey} {sk : X25519Secret}
    (hdk : event.record.before.mlKemDk = some dk)
    (hsk : event.record.before.x25519Sk = some sk)
    (hlength : args.appInfo.length < 2 ^ 32)
    (hverify : mlDsaVerifyWithContext prims args.peerVerifyingKey
      ((args.exchange prims dk sk).digest prims args.peerConfirmation).bytes
      contextEncapsulatingSide args.peerSignature = .ok ()) :
    ∃ i < j, ∃ source encapsulatorArgs output,
      events[i]? = some source ∧
      deployment.identity source.party =
        some encapsulatorArgs.ownSigningKey ∧
      source.record.call = .encapsulateAuthenticated encapsulatorArgs ∧
      source.record.result = .ok (.authEncapsulated output) ∧
      encapsulatorArgs.exchange prims output.ct output.pk =
        args.exchange prims dk sk ∧
      output.confirmation = args.peerConfirmation := by
  have hquery : event.verification? prims = some (args.peerVerifyingKey,
      ((args.exchange prims dk sk).digest prims args.peerConfirmation).bytes,
      contextEncapsulatingSide, args.peerSignature) := by
    simp only [Event.verification?, hcall, hdk, hsk, if_pos hlength]
  obtain ⟨i, hlt, source, hsource, hsigned⟩ :=
    hsecure.unforgeable _ hanchor j event _ _ _ hevent hquery hverify
  rcases Event.signed?_cases hsigned with
    ⟨-, encapsulatorArgs, output, hsourceCall, hsourceResult, hkey, hmsg⟩ |
    ⟨hcontext, -⟩
  · have hmem := List.mem_of_getElem? hsource
    have hidentity := hsecure.exclusive source hmem
      encapsulatorArgs.ownSigningKey (by rw [hsourceCall]; rfl)
      (by rw [hkey]; exact hanchor)
    obtain ⟨hexchange, htag⟩ := Exchange.digest_inj hsecure.collisionFree
      (fun input hinput => ⟨source, hmem, by
        simpa only [Event.attempted, hsourceCall, hsourceResult]
          using hinput⟩)
      (fun input hinput => ⟨event, List.mem_of_getElem? hevent, by
        simp only [Event.attempted, hcall, hdk, hsk]
        exact List.mem_append_left _ hinput⟩)
      (Block.bytes_inj.mp hmsg).symm
    exact ⟨i, hlt, source, encapsulatorArgs, output, hsource, hidentity,
      hsourceCall, hsourceResult, hexchange, htag⟩
  · exact absurd hcontext contexts_ne

/-- Two honest parties in one exchange use the same salt. -/
theorem Deployment.Secure.salt_eq
    (hsecure : deployment.Secure prims events)
    {keygen encapsulator : Event ι DecapsKey SigningKey}
    (hkeygen : keygen ∈ events) (hencapsulator : encapsulator ∈ events)
    {args : FinalizeAuthenticatedArgs SigningKey}
    {encapsulatorArgs : EncapsulateAuthenticatedArgs SigningKey}
    {output : EncapsulateAuthenticatedOutput}
    (hkeygenCall : keygen.record.call = .finalizeAuthenticated args)
    (hencapsulatorCall :
      encapsulator.record.call = .encapsulateAuthenticated encapsulatorArgs)
    {key key' : SigningKey}
    (hidentity : deployment.identity keygen.party = some key)
    (hidentity' : deployment.identity encapsulator.party = some key')
    {dk : DecapsKey} {sk : X25519Secret}
    (hexchange : encapsulatorArgs.exchange prims output.ct output.pk =
      args.exchange prims dk sk) :
    encapsulatorArgs.salt = args.salt := by
  have huses := hsecure.uses keygen hkeygen key hidentity
  have huses' := hsecure.uses encapsulator hencapsulator key' hidentity'
  rw [hkeygenCall] at huses
  rw [hencapsulatorCall] at huses'
  have hkeygenKey : encapsulatorArgs.peerVerifyingKey =
      prims.mlDsaVerifyingKey args.ownSigningKey :=
    congrArg Exchange.keygenKey hexchange
  have hencapsulatorKey :
      prims.mlDsaVerifyingKey encapsulatorArgs.ownSigningKey =
        args.peerVerifyingKey :=
    congrArg Exchange.encapsulatorKey hexchange
  rw [huses.2, huses'.2, hkeygenKey, ← hencapsulatorKey, huses.1, huses'.1]

theorem agreement_of_exchange_eq
    {keygen encapsulator : Record DecapsKey SigningKey}
    {args : FinalizeAuthenticatedArgs SigningKey}
    {encapsulatorArgs : EncapsulateAuthenticatedArgs SigningKey}
    {output : EncapsulateAuthenticatedOutput}
    (hok : encapsulator.before.encapsulateAuthenticated prims
      encapsulatorArgs = (.ok output, encapsulator.after))
    {dk : DecapsKey} {sk : X25519Secret}
    (hdk : keygen.before.mlKemDk = some dk)
    (hsk : keygen.before.x25519Sk = some sk)
    (hexchange : encapsulatorArgs.exchange prims output.ct output.pk =
      args.exchange prims dk sk)
    (htag : output.confirmation = args.peerConfirmation)
    {prk : Block 48} (hprk : encapsulatorArgs.prk prims = .ok prk)
    (hafter : keygen.after = SessionManager.installed
      (keygenTxKey ((args.exchange prims dk sk).sessionKey prims prk))
      (keygenRxKey ((args.exchange prims dk sk).sessionKey prims prk))
      none) :
    Agreement prims keygen encapsulator args encapsulatorArgs output := by
  obtain ⟨-, -, prk', -, -, -, -, -, hprk', -, -, hinstalled⟩ :=
    SessionManager.encapsulateAuthenticated_ok hok
  cases hprk.symm.trans hprk'
  rw [hexchange] at hinstalled
  exact {
    ct_eq := congrArg Exchange.ct hexchange
    pk_eq := congrArg Exchange.encapsulatorX25519Pk hexchange
    tag_eq := htag
    encapsulatorKey_eq := congrArg Exchange.encapsulatorKey hexchange
    keygenKey_eq := congrArg Exchange.keygenKey hexchange
    mlKemPk_eq := by
      rw [hdk]
      exact congrArg some (congrArg Exchange.mlKemPk hexchange).symm
    x25519Pk_eq := by
      rw [hsk]
      exact congrArg some (congrArg Exchange.x25519Pk hexchange).symm
    appInfo_eq := congrArg Exchange.appInfo hexchange
    txKey_eq := by
      rw [hinstalled, hafter]
      rfl
    rxKey_eq := by
      rw [hinstalled, hafter]
      rfl
    installed := by
      rw [hafter]
      exact ⟨Option.some_ne_none _, Option.some_ne_none _⟩ }

/-- A verified reply for an honest trust anchor completes the handshake. -/
theorem Deployment.Secure.finalizedAt
    (hprims : prims.Interoperable) (hsecure : deployment.Secure prims events)
    (hgenuine : ∀ event ∈ events, event.record.Genuine prims)
    {j : ℕ} {event : Event ι DecapsKey SigningKey}
    {args : FinalizeAuthenticatedArgs SigningKey} {key : SigningKey}
    (hevent : events[j]? = some event)
    (hcall : event.record.call = .finalizeAuthenticated args)
    (hidentity : deployment.identity event.party = some key)
    (hanchor : args.peerVerifyingKey ∈ deployment.anchors prims)
    (hverified : args.Verified prims event.record.before) :
    deployment.FinalizedAt prims events event.party j := by
  obtain ⟨dk, sk, hdk, hsk, hlength, hverify⟩ := hverified
  obtain ⟨i, hlt, source, encapsulatorArgs, output, hsource, hpeer,
    hsourceCall, hsourceResult, hexchange, htag⟩ :=
    hsecure.exists_encapsulation hevent hcall hanchor hdk hsk hlength hverify
  have hmem := List.mem_of_getElem? hevent
  have hsourceMem := List.mem_of_getElem? hsource
  have hok := (hgenuine source hsourceMem).encapsulateAuthenticated
    hsourceCall hsourceResult
  have hsalt := hsecure.salt_eq hmem hsourceMem hcall hsourceCall hidentity
    hpeer hexchange
  obtain ⟨proof, prk, hprk, hfinal⟩ :=
    SessionManager.finalizeAuthenticated_of_peer hprims hok hexchange hsalt
      htag hdk hsk hverify
  have hexec := (hgenuine event hmem).exec_eq hcall rfl
  rw [SessionManager.exec_finalizeAuthenticated hfinal, Prod.mk.injEq]
    at hexec
  refine ⟨event, args, proof, hevent, rfl, hcall, hexec.1.symm, i, hlt,
    source, encapsulatorArgs, output, hsource, ?_, hsourceCall,
    hsourceResult, ?_⟩
  · rw [hpeer]
    exact Option.some_ne_none _
  · exact agreement_of_exchange_eq hok hdk hsk hexchange htag hprk
      hexec.2.symm

/-- A proof which verifies under the key of an honest party was made by this
party for the exchange of the awaiting session. -/
theorem Deployment.Secure.exists_finalization
    (hsecure : deployment.Secure prims events)
    {j : ℕ} {event source : Event ι DecapsKey SigningKey}
    {args : ConfirmPeerArgs}
    {encapsulatorArgs : EncapsulateAuthenticatedArgs SigningKey}
    {output : EncapsulateAuthenticatedOutput}
    (hevent : events[j]? = some event)
    (hcall : event.record.call = .confirmPeer args)
    (hsource : source ∈ events)
    (hsourceCall :
      source.record.call = .encapsulateAuthenticated encapsulatorArgs)
    (hsourceResult : source.record.result = .ok (.authEncapsulated output))
    (hanchor : encapsulatorArgs.peerVerifyingKey ∈ deployment.anchors prims)
    {pending : PendingAuthentication}
    (hpending : event.record.before.pendingAuth = some pending)
    (hdigest : pending.digest =
      (encapsulatorArgs.exchange prims output.ct output.pk).digest prims
        output.confirmation)
    (hpinned : pending.peerIdentity =
      identityFingerprint prims encapsulatorArgs.peerVerifyingKey)
    (hidentity : identityFingerprint prims args.peerVerifyingKey =
      pending.peerIdentity)
    (hverify : mlDsaVerifyWithContext prims args.peerVerifyingKey
      (keygenDigest prims pending.digest args.peerConfirmation).bytes
      contextKeygenSide args.peerSignature = .ok ()) :
    ∃ keygen ∈ events, ∃ keygenArgs proof dk sk,
      deployment.identity keygen.party = some keygenArgs.ownSigningKey ∧
      keygen.record.call = .finalizeAuthenticated keygenArgs ∧
      keygen.record.result = .ok (.proof proof) ∧
      keygen.record.before.mlKemDk = some dk ∧
      keygen.record.before.x25519Sk = some sk ∧
      encapsulatorArgs.exchange prims output.ct output.pk =
        keygenArgs.exchange prims dk sk ∧
      output.confirmation = keygenArgs.peerConfirmation ∧
      proof.confirmation = args.peerConfirmation := by
  have hmem := List.mem_of_getElem? hevent
  have hsourceInputs : ∀ input ∈
      (encapsulatorArgs.exchange prims output.ct output.pk).hashInputs prims
        output.confirmation, input ∈ source.attempted prims := by
    intro input hinput
    simpa only [Event.attempted, hsourceCall, hsourceResult] using hinput
  have hpresented : args.peerVerifyingKey =
      encapsulatorArgs.peerVerifyingKey := by
    apply identityFingerprintInput_inj
    refine hsecure.collisionFree ⟨event, hmem, ?_⟩
      ⟨source, hsource, hsourceInputs _ List.mem_cons_self⟩
      (hidentity.trans hpinned)
    simp only [Event.attempted, hcall, hpending]
    exact List.mem_cons_self
  have hquery : event.verification? prims = some (args.peerVerifyingKey,
      (keygenDigest prims pending.digest args.peerConfirmation).bytes,
      contextKeygenSide, args.peerSignature) := by
    simp only [Event.verification?, hcall, hpending, if_pos hidentity]
  obtain ⟨k, -, keygen, hkeygen, hsigned⟩ :=
    hsecure.unforgeable _ (hpresented ▸ hanchor) j event _ _ _ hevent hquery
      hverify
  rcases Event.signed?_cases hsigned with ⟨hcontext, -⟩ |
    ⟨-, keygenArgs, proof, dk, sk, hkeygenCall, hkeygenResult, hdk, hsk, hkey,
      hmsg⟩
  · exact absurd hcontext contexts_ne.symm
  · have hkeygenMem := List.mem_of_getElem? hkeygen
    have hparty := hsecure.exclusive keygen hkeygenMem
      keygenArgs.ownSigningKey (by rw [hkeygenCall]; rfl)
      (by rw [hkey, hpresented]; exact hanchor)
    have hinputs := hsecure.collisionFree
      ⟨event, hmem, by
        simp only [Event.attempted, hcall, hpending]
        exact List.mem_cons_of_mem _ List.mem_cons_self⟩
      ⟨keygen, hkeygenMem, by
        simp only [Event.attempted, hkeygenCall, hkeygenResult, hdk, hsk]
        exact List.mem_append_right _ List.mem_cons_self⟩
      (Block.bytes_inj.mp hmsg)
    obtain ⟨hdigestEq, hproof⟩ := keygenDigestInput_inj hinputs
    obtain ⟨hexchange, htag⟩ := Exchange.digest_inj hsecure.collisionFree
      (fun input hinput => ⟨source, hsource, hsourceInputs input hinput⟩)
      (fun input hinput => ⟨keygen, hkeygenMem, by
        simp only [Event.attempted, hkeygenCall, hdk, hsk]
        exact List.mem_append_left _ hinput⟩)
      (hdigest.symm.trans hdigestEq)
    exact ⟨keygen, hkeygenMem, keygenArgs, proof, dk, sk, hparty, hkeygenCall,
      hkeygenResult, hdk, hsk, hexchange, htag, hproof.symm⟩

/-- A verified proof of the honest party to which a session is bound confirms
the session. -/
theorem Deployment.Secure.confirmedAt
    (hprims : prims.Interoperable) (hsecure : deployment.Secure prims events)
    (hgenuine : ∀ event ∈ events, event.record.Genuine prims)
    {j : ℕ} {event source : Event ι DecapsKey SigningKey}
    {args : ConfirmPeerArgs}
    {encapsulatorArgs : EncapsulateAuthenticatedArgs SigningKey}
    {output : EncapsulateAuthenticatedOutput} {key : SigningKey}
    (hevent : events[j]? = some event)
    (hcall : event.record.call = .confirmPeer args)
    (hsource : source ∈ events)
    (hsourceCall :
      source.record.call = .encapsulateAuthenticated encapsulatorArgs)
    (hsourceResult : source.record.result = .ok (.authEncapsulated output))
    (hidentity : deployment.identity source.party = some key)
    (hanchor : encapsulatorArgs.peerVerifyingKey ∈ deployment.anchors prims)
    (hpending :
      event.record.before.pendingAuth = source.record.after.pendingAuth)
    (hverified : args.Verified prims event.record.before) :
    ConfirmedAt events event.party j := by
  obtain ⟨pending, hfound, hpinned, hverify⟩ := hverified
  have hok := (hgenuine source hsource).encapsulateAuthenticated
    hsourceCall hsourceResult
  obtain ⟨-, -, prk, -, -, -, -, -, hprk, -, -, hinstalled⟩ :=
    SessionManager.encapsulateAuthenticated_ok hok
  have hawaited := hfound
  rw [hpending, hinstalled] at hawaited
  obtain rfl := Option.some.inj hawaited
  obtain ⟨keygen, hkeygen, keygenArgs, proof, dk, sk, hparty, hkeygenCall,
    hkeygenResult, hdk, hsk, hexchange, htag, hproof⟩ :=
    hsecure.exists_finalization hevent hcall hsource hsourceCall
      hsourceResult hanchor hfound rfl rfl hpinned hverify
  have hsalt := hsecure.salt_eq hkeygen hsource hkeygenCall hsourceCall
    hparty hidentity hexchange
  have hprkEq := FinalizeAuthenticatedArgs.prk_of_exchange_eq hprims hok
    hexchange hsalt
  obtain ⟨dk', sk', prk', hdk', hsk', -, hprk', -, -, hconfirmation, -⟩ :=
    SessionManager.finalizeAuthenticated_ok
      ((hgenuine keygen hkeygen).finalizeAuthenticated hkeygenCall
        hkeygenResult)
  cases hdk.symm.trans hdk'
  cases hsk.symm.trans hsk'
  cases hprk'.symm.trans (hprkEq.trans hprk)
  have hconfirmed := SessionManager.confirmPeer_of_total hprims.hmacTotal
    hfound hpinned hverify (by
      rw [← hproof, hconfirmation, ← hexchange, ← htag]
      rfl)
  have hexec :=
    (hgenuine event (List.mem_of_getElem? hevent)).exec_eq hcall rfl
  rw [SessionManager.exec_confirmPeer hconfirmed, Prod.mk.injEq] at hexec
  exact ⟨event, args, hevent, rfl, hcall, hexec.1.symm⟩

end Events

/-! ## Calls which leave a handshake pending -/

/-- The calls which neither start nor abandon a handshake, nor finish it
without authentication; the trust anchor is one of `trusted`. -/
def Call.LeavesHandshake (trusted : Set PublicKey87) :
    Call SigningKey → Prop
  | .finalizeAuthenticated args => args.peerVerifyingKey ∈ trusted
  | .confirmPeer _ => True
  | .encryptPacket .. => True
  | .decryptPacket .. => True
  | .getNextTxNonce _ => True
  | .commitRxNonce _ => True
  | .initiateHandshake _ => False
  | .finalizeHandshake .. => False
  | .encapsulateForPeer .. => False
  | .encapsulateAuthenticated _ => False
  | .zeroizeSession => False

namespace SessionManager

/-- The same handshake is pending. -/
structure SameHandshake (manager after : SessionManager DecapsKey) : Prop where
  mlKemDk_eq : after.mlKemDk = manager.mlKemDk
  x25519Sk_eq : after.x25519Sk = manager.x25519Sk
  pendingAuth_eq : after.pendingAuth = manager.pendingAuth

theorem SameHandshake.refl (manager : SessionManager DecapsKey) :
    SameHandshake manager manager :=
  ⟨rfl, rfl, rfl⟩

theorem commitRxNonce_sameHandshake
    (manager : SessionManager DecapsKey) (nonce : Block 12) :
    SameHandshake manager (manager.commitRxNonce nonce) := by
  obtain ⟨counter, window, hframe⟩ := manager.commitRxNonce_frame nonce
  rw [hframe]
  exact ⟨rfl, rfl, rfl⟩

/-- A call which is not about a handshake leaves it as it is. -/
theorem Transition.sameHandshake
    {manager after : SessionManager DecapsKey} {call : Call SigningKey}
    {output : Output}
    (htransition : Transition manager call (.ok output) after)
    (hinstalls : call.installsKeys = false)
    (hinitiate : ∀ entropy, call ≠ .initiateHandshake entropy)
    (hzeroize : call ≠ .zeroizeSession)
    (hconfirm : ∀ args, call ≠ .confirmPeer args) :
    SameHandshake manager after := by
  cases htransition with
  | zeroized => exact absurd rfl hzeroize
  | initiated entropy => exact absurd rfl (hinitiate entropy)
  | installed _ _ _ _ _ hcall =>
      rw [hinstalls] at hcall
      cases hcall
  | sent => exact ⟨rfl, rfl, rfl⟩
  | received _ _ nonce => exact manager.commitRxNonce_sameHandshake nonce
  | confirmed args => exact absurd rfl (hconfirm args)

theorem exec_sameHandshake
    {manager : SessionManager DecapsKey} {call : Call SigningKey}
    {trusted : Set PublicKey87} (hleaves : call.LeavesHandshake trusted)
    (hcommitted : ¬ call.Committed prims manager) :
    SameHandshake manager (manager.exec prims call).2 := by
  cases hexec : manager.exec prims call with
  | mk result after =>
      have htransition := exec_transition prims manager call
      rw [hexec] at htransition
      cases result with
      | error failure =>
          rw [(exec_failsAtomically hexec).kept hcommitted]
          exact SameHandshake.refl manager
      | ok output =>
          cases call with
          | initiateHandshake entropy => exact hleaves.elim
          | finalizeHandshake => exact hleaves.elim
          | encapsulateForPeer => exact hleaves.elim
          | encapsulateAuthenticated args => exact hleaves.elim
          | zeroizeSession => exact hleaves.elim
          | finalizeAuthenticated args =>
              rw [exec] at hexec
              split at hexec
              next proof next hok =>
                obtain ⟨dk, sk, -, hdk, hsk, hlength, -, hverify, -⟩ :=
                  finalizeAuthenticated_ok hok
                exact absurd ⟨dk, sk, hdk, hsk, hlength, hverify⟩ hcommitted
              next => cases hexec
          | confirmPeer args =>
              rw [exec] at hexec
              split at hexec
              next next hok =>
                obtain ⟨pending, hfound, hpinned, hverify, -⟩ :=
                  confirmPeer_ok hok
                exact absurd ⟨pending, hfound, hpinned, hverify⟩ hcommitted
              next => cases hexec
          | encryptPacket | decryptPacket | getNextTxNonce | commitRxNonce =>
              refine htransition.sameHandshake rfl ?_ ?_ ?_
              · intro entropy hsame
                cases hsame
              · intro hsame
                cases hsame
              · intro args hsame
                cases hsame

end SessionManager

theorem Call.Committed.cases
    {manager : SessionManager DecapsKey} {call : Call SigningKey}
    {trusted : Set PublicKey87} (hcommitted : call.Committed prims manager)
    (hleaves : call.LeavesHandshake trusted) :
    (∃ args, call = .finalizeAuthenticated args ∧
      args.peerVerifyingKey ∈ trusted ∧ args.Verified prims manager) ∨
    ∃ args, call = .confirmPeer args ∧ args.Verified prims manager := by
  cases call with
  | finalizeAuthenticated args =>
      exact Or.inl ⟨args, rfl, hleaves, hcommitted⟩
  | confirmPeer args => exact Or.inr ⟨args, rfl, hcommitted⟩
  | finalizeHandshake => exact hleaves.elim
  | encapsulateAuthenticated => exact hleaves.elim
  | initiateHandshake => exact hleaves.elim
  | encapsulateForPeer => exact hleaves.elim
  | zeroizeSession => exact hleaves.elim
  | encryptPacket => exact hcommitted.elim
  | decryptPacket => exact hcommitted.elim
  | getNextTxNonce => exact hcommitted.elim
  | commitRxNonce => exact hcommitted.elim

/-! ## Whole runs -/

/-- The reply which a peer has made for a first message. -/
structure FinalizeAuthenticatedArgs.Delivers
    (prims : Primitives DecapsKey SigningKey)
    (args : FinalizeAuthenticatedArgs SigningKey) (mlKemPk : PublicKey1024)
    (x25519Pk : X25519Public)
    (encapsulatorArgs : EncapsulateAuthenticatedArgs SigningKey)
    (output : EncapsulateAuthenticatedOutput) : Prop where
  mlKemPk_eq : encapsulatorArgs.peerMlKemPk = mlKemPk
  x25519Pk_eq : encapsulatorArgs.peerX25519Pk = x25519Pk
  keygenKey_eq : encapsulatorArgs.peerVerifyingKey =
    prims.mlDsaVerifyingKey args.ownSigningKey
  encapsulatorKey_eq :
    prims.mlDsaVerifyingKey encapsulatorArgs.ownSigningKey =
      args.peerVerifyingKey
  appInfo_eq : encapsulatorArgs.appInfo = args.appInfo
  ct_eq : output.ct = args.mlKemCt
  pk_eq : output.pk = args.peerX25519Pk
  signature_eq : output.signature = args.peerSignature
  confirmation_eq : output.confirmation = args.peerConfirmation

theorem Record.Genuine.initiateHandshake
    {record : Record DecapsKey SigningKey} (hgenuine : record.Genuine prims)
    {entropy : Block 96} {mlKemPk : PublicKey1024} {x25519Pk : X25519Public}
    (hcall : record.call = .initiateHandshake entropy)
    (hresult : record.result = .ok (.firstMessage mlKemPk x25519Pk)) :
    record.before.initiateHandshake prims entropy =
      (.ok (mlKemPk, x25519Pk), record.after) := by
  have hexec := hgenuine.exec_eq hcall hresult
  rw [SessionManager.exec] at hexec
  split at hexec
  next heq =>
    cases hexec
    exact heq
  next => cases hexec

theorem Record.Genuine.sameHandshake
    {record : Record DecapsKey SigningKey} (hgenuine : record.Genuine prims)
    {trusted : Set PublicKey87}
    (hleaves : record.call.LeavesHandshake trusted)
    (hcommitted : ¬ record.call.Committed prims record.before) :
    SessionManager.SameHandshake record.before record.after := by
  have hsame := SessionManager.exec_sameHandshake hleaves hcommitted
  rw [hgenuine.exec_eq rfl rfl] at hsame
  exact hsame

theorem SessionManager.initiateHandshake_ok
    {manager next : SessionManager DecapsKey} {entropy : Block 96}
    {mlKemPk : PublicKey1024} {x25519Pk : X25519Public}
    (hok : manager.initiateHandshake prims entropy =
      (.ok (mlKemPk, x25519Pk), next)) :
    ∃ dk sk, next.mlKemDk = some dk ∧ next.x25519Sk = some sk ∧
      next.pendingAuth = none ∧ mlKemPk = prims.mlKemEncapsulationKey dk ∧
      x25519Pk = prims.x25519PublicKey sk := by
  unfold initiateHandshake at hok
  split at hok
  next => cases hok
  next =>
    split at hok
    next => cases hok
    next pk dk hkeygen =>
      obtain ⟨_, _, hpair⟩ := Execution.bind_eq_ok.mp hkeygen
      cases hpair
      cases hok
      exact ⟨dk, _, rfl, rfl, rfl, rfl, rfl⟩

theorem FinalizeAuthenticatedArgs.Delivers.verified
    (hprims : prims.Interoperable)
    {args : FinalizeAuthenticatedArgs SigningKey} {dk : DecapsKey}
    {sk : X25519Secret}
    {encapsulatorArgs : EncapsulateAuthenticatedArgs SigningKey}
    {output : EncapsulateAuthenticatedOutput}
    (hdelivers : args.Delivers prims (prims.mlKemEncapsulationKey dk)
      (prims.x25519PublicKey sk) encapsulatorArgs output)
    {encapsulator next manager : SessionManager DecapsKey}
    (hok : encapsulator.encapsulateAuthenticated prims encapsulatorArgs =
      (.ok output, next))
    (hdk : manager.mlKemDk = some dk) (hsk : manager.x25519Sk = some sk) :
    args.Verified prims manager := by
  obtain ⟨-, -, -, hlength, -, -, -, -, -, -, hsign, -⟩ :=
    SessionManager.encapsulateAuthenticated_ok hok
  have hexchange : encapsulatorArgs.exchange prims output.ct output.pk =
      args.exchange prims dk sk := by
    simp only [EncapsulateAuthenticatedArgs.exchange,
      FinalizeAuthenticatedArgs.exchange, hdelivers.mlKemPk_eq,
      hdelivers.x25519Pk_eq, hdelivers.keygenKey_eq,
      hdelivers.encapsulatorKey_eq, hdelivers.appInfo_eq, hdelivers.ct_eq,
      hdelivers.pk_eq]
  have hverify := hprims.signatureCorrect _ _ _ _ hsign
  rw [hexchange, hdelivers.confirmation_eq, hdelivers.signature_eq,
    hdelivers.encapsulatorKey_eq] at hverify
  exact ⟨dk, sk, hdk, hsk, hdelivers.appInfo_eq ▸ hlength, hverify⟩

theorem Network.genuine_of_mem_trace [DecidableEq ι]
    {network : Network ι DecapsKey} {schedule : List (ι × Call SigningKey)}
    (event : Event ι DecapsKey SigningKey)
    (hmem : event ∈ network.trace prims schedule) :
    event.record.Genuine prims := by
  obtain ⟨j, hevent⟩ := List.mem_iff_getElem?.1 hmem
  exact Network.trace_genuine hevent

/-- The data on which both sides agree is one exchange. -/
theorem Agreement.exchange_eq
    {keygen encapsulator : Record DecapsKey SigningKey}
    {keygenArgs : FinalizeAuthenticatedArgs SigningKey}
    {encapsulatorArgs : EncapsulateAuthenticatedArgs SigningKey}
    {output : EncapsulateAuthenticatedOutput}
    (hagreement : Agreement prims keygen encapsulator keygenArgs
      encapsulatorArgs output)
    {dk : DecapsKey} {sk : X25519Secret}
    (hdk : keygen.before.mlKemDk = some dk)
    (hsk : keygen.before.x25519Sk = some sk) :
    encapsulatorArgs.exchange prims output.ct output.pk =
      keygenArgs.exchange prims dk sk := by
  have hmlKemPk := hagreement.mlKemPk_eq
  have hx25519Pk := hagreement.x25519Pk_eq
  rw [hdk] at hmlKemPk
  rw [hsk] at hx25519Pk
  simp only [EncapsulateAuthenticatedArgs.exchange,
    FinalizeAuthenticatedArgs.exchange, Option.some.inj hmlKemPk,
    Option.some.inj hx25519Pk, hagreement.keygenKey_eq,
    hagreement.encapsulatorKey_eq, hagreement.appInfo_eq, hagreement.ct_eq,
    hagreement.pk_eq]

/-- The genuine proof of the peer verifies. -/
theorem ConfirmPeerArgs.verified_of_agreement
    (hprims : prims.Interoperable)
    {keygen encapsulator : Record DecapsKey SigningKey}
    {keygenArgs : FinalizeAuthenticatedArgs SigningKey}
    {proof : FinalizeAuthenticatedOutput}
    {encapsulatorArgs : EncapsulateAuthenticatedArgs SigningKey}
    {output : EncapsulateAuthenticatedOutput}
    (hfinalized : keygen.before.finalizeAuthenticated prims keygenArgs =
      (.ok proof, keygen.after))
    (hencapsulated : encapsulator.before.encapsulateAuthenticated prims
      encapsulatorArgs = (.ok output, encapsulator.after))
    (hagreement : Agreement prims keygen encapsulator keygenArgs
      encapsulatorArgs output)
    {args : ConfirmPeerArgs} {manager : SessionManager DecapsKey}
    (hpending : manager.pendingAuth = encapsulator.after.pendingAuth)
    (hkey : args.peerVerifyingKey = encapsulatorArgs.peerVerifyingKey)
    (hsignature : args.peerSignature = proof.signature)
    (hconfirmation : args.peerConfirmation = proof.confirmation) :
    args.Verified prims manager := by
  obtain ⟨-, -, prk, -, -, -, -, -, -, -, -, hinstalled⟩ :=
    SessionManager.encapsulateAuthenticated_ok hencapsulated
  obtain ⟨dk, sk, -, hdk, hsk, -, -, -, -, -, hsign, -⟩ :=
    SessionManager.finalizeAuthenticated_ok hfinalized
  have hverify := hprims.signatureCorrect _ _ _ _ hsign
  rw [← hagreement.exchange_eq hdk hsk, ← hagreement.tag_eq,
    ← hagreement.keygenKey_eq, ← hkey, ← hconfirmation, ← hsignature]
    at hverify
  rw [hinstalled] at hpending
  exact ⟨_, hpending, congrArg (identityFingerprint prims) hkey, hverify⟩

section Runs

variable [DecidableEq ι] {schedule : List (ι × Call SigningKey)}
  {deployment : Deployment ι SigningKey}

/-- Key-generating side: whatever is delivered to an honest party after it has
initiated a handshake, it has completed the handshake with an honest peer when
the genuine reply of one has been delivered.  Honest parties use the agreed
salts, the party names honest trust anchors, and it neither restarts nor erases
the handshake, nor finishes it by `finalize_handshake`. -/
theorem keygen_completes_despite_interference
    (hprims : prims.Interoperable)
    (hsecure : deployment.Secure prims
      ((Network.initial : Network ι DecapsKey).trace prims schedule))
    {i j : ℕ} {opening source closing : Event ι DecapsKey SigningKey}
    (hopening : ((Network.initial : Network ι DecapsKey).trace prims
      schedule)[i]? = some opening)
    (hhonest : deployment.identity opening.party ≠ none)
    {entropy : Block 96} {mlKemPk : PublicKey1024} {x25519Pk : X25519Public}
    (hinitiate : opening.record.call = .initiateHandshake entropy)
    (hfirst : opening.record.result = .ok (.firstMessage mlKemPk x25519Pk))
    {encapsulatorArgs : EncapsulateAuthenticatedArgs SigningKey}
    {output : EncapsulateAuthenticatedOutput}
    (hsource : source ∈
      (Network.initial : Network ι DecapsKey).trace prims schedule)
    (hencapsulate :
      source.record.call = .encapsulateAuthenticated encapsulatorArgs)
    (hreply : source.record.result = .ok (.authEncapsulated output))
    (hclosing : ((Network.initial : Network ι DecapsKey).trace prims
      schedule)[j]? = some closing)
    (hlt : i < j) (hparty : closing.party = opening.party)
    {args : FinalizeAuthenticatedArgs SigningKey}
    (hfinalize : closing.record.call = .finalizeAuthenticated args)
    (hanchor : args.peerVerifyingKey ∈ deployment.anchors prims)
    (hdelivers : args.Delivers prims mlKemPk x25519Pk encapsulatorArgs output)
    (hleaves : ∀ n event, i < n → n < j →
      ((Network.initial : Network ι DecapsKey).trace prims schedule)[n]? =
        some event →
      event.party = opening.party →
        event.record.call.LeavesHandshake (deployment.anchors prims)) :
    ∃ k, i < k ∧ k ≤ j ∧ deployment.FinalizedAt prims
      ((Network.initial : Network ι DecapsKey).trace prims schedule)
      opening.party k := by
  obtain ⟨key, hidentity⟩ := Option.ne_none_iff_exists'.1 hhonest
  obtain ⟨dk, sk, hdk, hsk, hauth, rfl, rfl⟩ :=
    SessionManager.initiateHandshake_ok
      ((Network.trace_genuine hopening).initiateHandshake hinitiate hfirst)
  -- The keys of the handshake stay until an honest reply has used them.
  have hlasts := Network.lasts_or_ends prims
    (fun manager => manager.mlKemDk = some dk ∧
      manager.x25519Sk = some sk ∧ manager.pendingAuth = none)
    (deployment.FinalizedAt prims
      ((Network.initial : Network ι DecapsKey).trace prims schedule)
      opening.party)
    hopening hclosing hlt hparty ⟨hdk, hsk, hauth⟩
    (by
      intro n event hin hnj hevent hsame ⟨hkem, hx25519, hnone⟩
      have hleave := hleaves n event hin hnj hevent hsame
      by_cases hcommitted : event.record.call.Committed prims
          event.record.before
      · rcases hcommitted.cases hleave with
          ⟨reply, hcall, htrusted, hverified⟩ | ⟨reply, _, pending, hfound, _⟩
        · right
          rw [← hsame]
          exact hsecure.finalizedAt hprims Network.genuine_of_mem_trace hevent
            hcall (hsame ▸ hidentity) htrusted hverified
        · cases hnone.symm.trans hfound
      · left
        obtain ⟨hkem', hx25519', hnone'⟩ :=
          (Network.trace_genuine hevent).sameHandshake hleave hcommitted
        exact ⟨hkem'.trans hkem, hx25519'.trans hx25519, hnone'.trans hnone⟩)
  rcases hlasts with ⟨hkem, hx25519, -⟩ | ⟨k, hik, hkj, hfinalized⟩
  · have hverified := hdelivers.verified hprims
      ((Network.genuine_of_mem_trace source hsource).encapsulateAuthenticated
        hencapsulate hreply) hkem hx25519
    refine ⟨j, hlt, le_rfl, ?_⟩
    rw [← hparty]
    exact hsecure.finalizedAt hprims Network.genuine_of_mem_trace hclosing
      hfinalize (hparty ▸ hidentity) hanchor hverified
  · exact ⟨k, hik, hkj.le, hfinalized⟩

/-- Encapsulating side: whatever is delivered to an honest party after it has
encapsulated for an honest peer, its session is confirmed when the genuine
proof of the peer has been delivered. -/
theorem encapsulator_completes_despite_interference
    (hprims : prims.Interoperable)
    (hsecure : deployment.Secure prims
      ((Network.initial : Network ι DecapsKey).trace prims schedule))
    {i j : ℕ} {opening source closing : Event ι DecapsKey SigningKey}
    (hopening : ((Network.initial : Network ι DecapsKey).trace prims
      schedule)[i]? = some opening)
    (hhonest : deployment.identity opening.party ≠ none)
    {encapsulatorArgs : EncapsulateAuthenticatedArgs SigningKey}
    {output : EncapsulateAuthenticatedOutput}
    (hencapsulate :
      opening.record.call = .encapsulateAuthenticated encapsulatorArgs)
    (hreply : opening.record.result = .ok (.authEncapsulated output))
    (hanchor : encapsulatorArgs.peerVerifyingKey ∈ deployment.anchors prims)
    {keygenArgs : FinalizeAuthenticatedArgs SigningKey}
    {proof : FinalizeAuthenticatedOutput}
    (hsource : source ∈
      (Network.initial : Network ι DecapsKey).trace prims schedule)
    (hfinalize : source.record.call = .finalizeAuthenticated keygenArgs)
    (hproof : source.record.result = .ok (.proof proof))
    (hagreement : Agreement prims source.record opening.record keygenArgs
      encapsulatorArgs output)
    (hclosing : ((Network.initial : Network ι DecapsKey).trace prims
      schedule)[j]? = some closing)
    (hlt : i < j) (hparty : closing.party = opening.party)
    {args : ConfirmPeerArgs}
    (hconfirm : closing.record.call = .confirmPeer args)
    (hkey : args.peerVerifyingKey = encapsulatorArgs.peerVerifyingKey)
    (hsignature : args.peerSignature = proof.signature)
    (hconfirmation : args.peerConfirmation = proof.confirmation)
    (hleaves : ∀ n event, i < n → n < j →
      ((Network.initial : Network ι DecapsKey).trace prims schedule)[n]? =
        some event →
      event.party = opening.party →
        event.record.call.LeavesHandshake (deployment.anchors prims)) :
    ∃ k, i < k ∧ k ≤ j ∧ ConfirmedAt
      ((Network.initial : Network ι DecapsKey).trace prims schedule)
      opening.party k := by
  obtain ⟨key, hidentity⟩ := Option.ne_none_iff_exists'.1 hhonest
  have hopened := List.mem_of_getElem? hopening
  have hencapsulated :=
    (Network.trace_genuine hopening).encapsulateAuthenticated hencapsulate
      hreply
  have hnoKem : opening.record.after.mlKemDk = none := by
    obtain ⟨-, -, prk, -, -, -, -, -, -, -, -, hinstalled⟩ :=
      SessionManager.encapsulateAuthenticated_ok hencapsulated
    rw [hinstalled]
    rfl
  -- The session waits until an honest proof has confirmed it.
  have hlasts := Network.lasts_or_ends prims
    (fun manager => manager.mlKemDk = none ∧
      manager.pendingAuth = opening.record.after.pendingAuth)
    (ConfirmedAt ((Network.initial : Network ι DecapsKey).trace prims schedule)
      opening.party)
    hopening hclosing hlt hparty ⟨hnoKem, rfl⟩
    (by
      intro n event hin hnj hevent hsame ⟨hnone, hpending⟩
      have hleave := hleaves n event hin hnj hevent hsame
      by_cases hcommitted : event.record.call.Committed prims
          event.record.before
      · rcases hcommitted.cases hleave with
          ⟨reply, _, _, dk, sk, hfound, _⟩ | ⟨reply, hcall, hverified⟩
        · cases hnone.symm.trans hfound
        · right
          rw [← hsame]
          exact hsecure.confirmedAt hprims Network.genuine_of_mem_trace hevent
            hcall hopened hencapsulate hreply hidentity hanchor hpending
            hverified
      · left
        obtain ⟨hnone', -, hpending'⟩ :=
          (Network.trace_genuine hevent).sameHandshake hleave hcommitted
        exact ⟨hnone'.trans hnone, hpending'.trans hpending⟩)
  rcases hlasts with ⟨-, hpending⟩ | ⟨k, hik, hkj, hconfirmed⟩
  · have hverified := ConfirmPeerArgs.verified_of_agreement hprims
      ((Network.genuine_of_mem_trace source hsource).finalizeAuthenticated
        hfinalize hproof) hencapsulated hagreement hpending hkey hsignature
      hconfirmation
    refine ⟨j, hlt, le_rfl, ?_⟩
    rw [← hparty]
    exact hsecure.confirmedAt hprims Network.genuine_of_mem_trace hclosing
      hconfirm hopened hencapsulate hreply hidentity hanchor hpending hverified
  · exact ⟨k, hik, hkj.le, hconfirmed⟩

end Runs

/-! ## A handshake of the reference primitives under attack -/

namespace Reference

theorem primitives_interoperable : primitives.Interoperable where
  kemCorrect := primitives_kemCorrect
  dhCommutes := primitives_dhCommutes
  zeroNotContributory := primitives_zeroNotContributory
  signatureCorrect := primitives_signatureCorrect
  signingTotal := primitives_signingTotal
  hmacTotal := primitives_hmacTotal
  hkdfTotal := primitives_hkdfTotal

def deployment : Deployment Bool UInt8 where
  identity party := some (if party then 1 else 2)
  salt _ _ := [9]

def forgedReply : FinalizeAuthenticatedArgs UInt8 :=
  { (honestRun [9]).finalizeArgs [9] with
    peerSignature := Block.fill 4627 0 }

def forgedProof : ConfirmPeerArgs :=
  { confirmArgs [9] with peerSignature := Block.fill 4627 0 }

theorem blank_signature_rejected
    (pk : PublicKey87) (msg : Bytes) {context : Bytes}
    (hcontext : context.headD 0 ≠ 0) :
    mlDsaVerifyWithContext primitives pk msg context (Block.fill 4627 0) ≠
      .ok () := by
  cases context with
  | nil => exact absurd rfl hcontext
  | cons first rest =>
      have hblank : Block.fill 4627 0 ≠ signature pk msg (first :: rest) := by
        intro hsame
        exact hcontext (congrArg firstByte hsame).symm
      have hrejected : primitives.mlDsaVerifyWithContext pk msg
          (first :: rest) (Block.fill 4627 0) = false :=
        decide_eq_false hblank
      unfold mlDsaVerifyWithContext
      rw [hrejected]
      intro hok
      cases hok

theorem exec_forgedReply :
    keygenPending.exec primitives (.finalizeAuthenticated forgedReply) =
      (.error .verificationFailed, keygenPending) := by
  apply SessionManager.exec_forged
  refine ⟨3, Block.fill 32 3, rfl, rfl, ?_, ?_⟩
  · change ([4] : Bytes).length < 2 ^ 32
    decide
  · exact blank_signature_rejected _ _ (by decide)

theorem exec_forgedProof :
    (encapsulatorAfter [9]).exec primitives (.confirmPeer forgedProof) =
      (.error .verificationFailed, encapsulatorAfter [9]) := by
  apply SessionManager.exec_forged
  exact ⟨_, rfl, Or.inr (blank_signature_rejected _ _ (by decide))⟩

/-- The handshake with a forged reply and a forged proof before the genuine
ones. -/
def attackedSchedule : List (Bool × Call UInt8) :=
  [(true, .initiateHandshake (Block.fill 96 3)),
    (false, .encapsulateAuthenticated (encapsulateArgs [9])),
    (true, .finalizeAuthenticated forgedReply),
    (true, .finalizeAuthenticated ((honestRun [9]).finalizeArgs [9])),
    (false, .confirmPeer forgedProof),
    (false, .confirmPeer (confirmArgs [9]))]

def attackedEvents : List (Event Bool UInt8 UInt8) :=
  [⟨true, ⟨.new, .initiateHandshake (Block.fill 96 3),
      .ok (.firstMessage (Block.fill 1568 3) (Block.fill 32 3)),
      keygenPending⟩⟩,
    ⟨false, ⟨.new, .encapsulateAuthenticated (encapsulateArgs [9]),
      .ok (.authEncapsulated (encapsulateOutput [9])),
      encapsulatorAfter [9]⟩⟩,
    ⟨true, ⟨keygenPending, .finalizeAuthenticated forgedReply,
      .error .verificationFailed, keygenPending⟩⟩,
    ⟨true, ⟨keygenPending,
      .finalizeAuthenticated ((honestRun [9]).finalizeArgs [9]),
      .ok (.proof (finalizeProof [9])), keygenAfter [9]⟩⟩,
    ⟨false, ⟨encapsulatorAfter [9], .confirmPeer forgedProof,
      .error .verificationFailed, encapsulatorAfter [9]⟩⟩,
    ⟨false, ⟨encapsulatorAfter [9], .confirmPeer (confirmArgs [9]), .ok .done,
      (encapsulatorAfter [9]).wipePendingAuthentication⟩⟩]

theorem attackedTrace_eq :
    (Network.initial : Network Bool UInt8).trace primitives attackedSchedule =
      attackedEvents := by
  refine Eq.trans (Network.trace_cons primitives ?_ exec_initiate _)
    (congrArg (List.cons _) ?_)
  · rfl
  refine Eq.trans (Network.trace_cons primitives ?_
    (SessionManager.exec_encapsulateAuthenticated (encapsulate_eq [9])) _)
    (congrArg (List.cons _) ?_)
  · rfl
  refine Eq.trans (Network.trace_cons primitives ?_ exec_forgedReply _)
    (congrArg (List.cons _) ?_)
  · rfl
  refine Eq.trans (Network.trace_cons primitives ?_
    (SessionManager.exec_finalizeAuthenticated (finalize_eq [9])) _)
    (congrArg (List.cons _) ?_)
  · rfl
  refine Eq.trans (Network.trace_cons primitives ?_ exec_forgedProof _)
    (congrArg (List.cons _) ?_)
  · rfl
  refine Eq.trans (Network.trace_cons primitives ?_
    (SessionManager.exec_confirmPeer (confirm_eq [9])) _)
    (congrArg (List.cons _) ?_)
  · rfl
  rfl

/-- The strings hashed for a proof, genuine or not. -/
theorem attacked_proof_hashed
    {input : Bytes}
    (hmem : input ∈
      [identityFingerprintInput (Block.fill 2592 1),
        keygenDigestInput (handshakeExchange.digest primitives
          (encapsulateOutput [9]).confirmation)
          (finalizeProof [9]).confirmation]) :
    input ∈ handshakeHashes := by
  rcases List.mem_cons.1 hmem with rfl | hdigest
  · exact List.mem_cons_of_mem _ List.mem_cons_self
  · rw [List.mem_singleton.1 hdigest]
    exact List.mem_cons_self

theorem attacked_proof_query
    {args : ConfirmPeerArgs} {result : Except CryptoError Output}
    {after : SessionManager UInt8} {vk : PublicKey87} {msg context : Bytes}
    {sig : Signature87}
    (hkey : args.peerVerifyingKey = Block.fill 2592 1)
    (hconfirmation :
      args.peerConfirmation = (finalizeProof [9]).confirmation)
    (hquery : Event.verification? primitives
      (⟨false, ⟨encapsulatorAfter [9], .confirmPeer args, result, after⟩⟩ :
        Event Bool UInt8 UInt8) = some (vk, msg, context, sig)) :
    Block.fill 2592 1 = vk ∧
      (keygenDigest primitives (handshakeExchange.digest primitives
        (encapsulateOutput [9]).confirmation)
        (finalizeProof [9]).confirmation).bytes = msg ∧
      contextKeygenSide = context := by
  have hpending : (encapsulatorAfter [9]).pendingAuth = some
      ⟨handshakeExchange.digest primitives
          (encapsulateOutput [9]).confirmation,
        identityFingerprint primitives (Block.fill 2592 1),
        handshakeExchange.keygenConfirmKey primitives
          (handshakePrk [9])⟩ := rfl
  simp only [Event.verification?, hpending, hkey, hconfirmation, if_true,
    Option.some.injEq, Prod.mk.injEq] at hquery
  exact ⟨hquery.1, hquery.2.1, hquery.2.2.1⟩

theorem attacked_collisionFree :
    Set.InjOn primitives.sha384
      {input | ∃ event ∈ attackedEvents,
        input ∈ event.attempted primitives} := by
  apply handshakeHashes_injOn.mono
  rintro input ⟨event, hevent, hmem⟩
  simp only [attackedEvents, List.mem_cons, List.not_mem_nil, or_false]
    at hevent
  rcases hevent with rfl | rfl | rfl | rfl | rfl | rfl
  · cases hmem
  · exact List.mem_cons_of_mem _ hmem
  · rcases List.mem_append.1 hmem with hexchange | hnone
    · exact List.mem_cons_of_mem _ hexchange
    · cases hnone
  · rcases List.mem_append.1 hmem with hexchange | hproof
    · exact List.mem_cons_of_mem _ hexchange
    · rw [List.mem_singleton.1 hproof]
      exact List.mem_cons_self
  · exact attacked_proof_hashed hmem
  · exact attacked_proof_hashed hmem

theorem attacked_unforgeable (vk : PublicKey87) :
    Unforgeable primitives attackedEvents vk := by
  intro j event msg context sig hevent hquery _
  match j with
  | 0 =>
      cases hevent
      cases hquery
  | 1 =>
      cases hevent
      cases hquery
  | 2 =>
      cases hevent
      cases hquery
      exact ⟨1, by omega, _, rfl, rfl⟩
  | 3 =>
      cases hevent
      cases hquery
      exact ⟨1, by omega, _, rfl, rfl⟩
  | 4 =>
      cases hevent
      obtain ⟨rfl, rfl, rfl⟩ := attacked_proof_query rfl rfl hquery
      exact ⟨3, by omega, _, rfl, rfl⟩
  | 5 =>
      cases hevent
      obtain ⟨rfl, rfl, rfl⟩ := attacked_proof_query rfl rfl hquery
      exact ⟨3, by omega, _, rfl, rfl⟩
  | j + 6 => cases hevent

theorem attacked_secure : deployment.Secure primitives attackedEvents := by
  constructor
  · intro event hevent key hidentity
    simp only [attackedEvents, List.mem_cons, List.not_mem_nil, or_false]
      at hevent
    rcases hevent with rfl | rfl | rfl | rfl | rfl | rfl
    all_goals cases hidentity
    · trivial
    · exact ⟨rfl, rfl⟩
    · exact ⟨rfl, rfl⟩
    · exact ⟨rfl, rfl⟩
    · trivial
    · trivial
  · intro event hevent key hkey _
    simp only [attackedEvents, List.mem_cons, List.not_mem_nil, or_false]
      at hevent
    rcases hevent with rfl | rfl | rfl | rfl | rfl | rfl
    all_goals cases hkey
    all_goals rfl
  · exact fun vk _ => attacked_unforgeable vk
  · exact attacked_collisionFree

theorem attackedTrace_getElem? (j : ℕ) :
    ((Network.initial : Network Bool UInt8).trace primitives
      attackedSchedule)[j]? = attackedEvents[j]? := by
  rw [attackedTrace_eq]

theorem keygen_completes_despite_forged_reply :
    ∃ k, 0 < k ∧ k ≤ 3 ∧
      deployment.FinalizedAt primitives attackedEvents true k := by
  have hdelivers : ((honestRun [9]).finalizeArgs [9]).Delivers primitives
      (Block.fill 1568 3) (Block.fill 32 3) (encapsulateArgs [9])
      (encapsulateOutput [9]) :=
    ⟨rfl, rfl, rfl, rfl, rfl, rfl, rfl, rfl, rfl⟩
  have hanchor : Block.fill 2592 2 ∈ deployment.anchors primitives :=
    ⟨false, 2, rfl, rfl⟩
  have hcompletes := keygen_completes_despite_interference
    primitives_interoperable (attackedTrace_eq ▸ attacked_secure)
    (attackedTrace_getElem? 0) (Option.some_ne_none _) rfl rfl
    (List.mem_of_getElem? (attackedTrace_getElem? 1)) rfl rfl
    (attackedTrace_getElem? 3) (by decide) rfl rfl hanchor hdelivers
    (by
      intro n event hpos hlt hevent hparty
      rw [attackedTrace_eq] at hevent
      match n with
      | 1 =>
          cases hevent
          cases hparty
      | 2 =>
          cases hevent
          exact hanchor)
  rw [attackedTrace_eq] at hcompletes
  exact hcompletes

theorem encapsulator_completes_despite_forged_proof :
    ∃ k, 1 < k ∧ k ≤ 5 ∧ ConfirmedAt attackedEvents false k := by
  have hagreement : Agreement primitives
      ⟨keygenPending,
        .finalizeAuthenticated ((honestRun [9]).finalizeArgs [9]),
        .ok (.proof (finalizeProof [9])), keygenAfter [9]⟩
      ⟨.new, .encapsulateAuthenticated (encapsulateArgs [9]),
        .ok (.authEncapsulated (encapsulateOutput [9])),
        encapsulatorAfter [9]⟩
      ((honestRun [9]).finalizeArgs [9]) (encapsulateArgs [9])
      (encapsulateOutput [9]) :=
    agreement_of_exchange_eq (encapsulate_eq [9]) rfl rfl rfl rfl
      (show (encapsulateArgs [9]).prk primitives = .ok (handshakePrk [9])
        from rfl) rfl
  have hcompletes := encapsulator_completes_despite_interference
    primitives_interoperable (attackedTrace_eq ▸ attacked_secure)
    (attackedTrace_getElem? 1) (Option.some_ne_none _) rfl rfl
    ⟨true, 1, rfl, rfl⟩
    (List.mem_of_getElem? (attackedTrace_getElem? 3)) rfl rfl hagreement
    (attackedTrace_getElem? 5) (by decide) rfl rfl rfl rfl rfl
    (by
      intro n event hpos hlt hevent hparty
      rw [attackedTrace_eq] at hevent
      match n with
      | 2 =>
          cases hevent
          cases hparty
      | 3 =>
          cases hevent
          cases hparty
      | 4 =>
          cases hevent
          trivial)
  rw [attackedTrace_eq] at hcompletes
  exact hcompletes

end Reference

end ShawnCore
