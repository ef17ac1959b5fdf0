import ShawnCore.KeyMaterial
import ShawnCore.SessionLives

/-!
# The secure channel

Managers start without keys and an attacker schedules all calls with arguments
of its choice: handshakes of both kinds, packets, resets, in any number and
order.  If tags under the keys of sessions with honest peers cannot be forged,
a packet accepted in such a session was sent in the partner session, which has
used the same handshake data from the other side, and it is accepted once.
-/

namespace ShawnCore

open ByteBlocks
open SessionManager (Tenure Authorizes)

variable {ι DecapsKey SigningKey : Type}
variable (prims : Primitives DecapsKey SigningKey)

/-- The trust anchor against which an installation authenticates its peer. -/
def Call.anchor? : Call SigningKey → Option PublicKey87
  | .encapsulateAuthenticated args => some args.peerVerifyingKey
  | .finalizeAuthenticated args => some args.peerVerifyingKey
  | _ => none

/-! ## The idealised primitives of a run -/

/-- Different materials and directions give different packet
authentication keys. -/
def KeysSeparate (events : List (Event ι DecapsKey SigningKey)) : Prop :=
  ∀ left ∈ events, ∀ right ∈ events,
    ∀ side side' material material' direction direction',
      left.record.derivation? prims = some (side, material) →
      right.record.derivation? prims = some (side', material') →
      macHalf (material.sendKey prims direction) =
          macHalf (material'.sendKey prims direction') →
        material = material' ∧ direction = direction'

/-- A receive key whose session is authenticated by an honest anchor: at once
on the key-generating side, by `confirm_peer` on the other one. -/
def HonestKey
    (events : List (Event ι DecapsKey SigningKey)) (honest : Set PublicKey87)
    (key : Block 64) : Prop :=
  ∃ event ∈ events, event.record.after.rxKey = some key ∧
    ((∃ args, event.record.call = .finalizeAuthenticated args ∧
        event.record.result.isOk = true ∧ args.peerVerifyingKey ∈ honest) ∨
      ∃ args, event.record.call = .confirmPeer args ∧
        event.record.result = .ok .done ∧ args.peerVerifyingKey ∈ honest)

/-- Two installations on opposite sides of one handshake. -/
structure Partners (first second : Record DecapsKey SigningKey) : Prop where
  material : ∃ side material,
    first.derivation? prims = some (side, material) ∧
      second.derivation? prims = some (side.peer, material)
  exchange : ∀ exchange exchange',
    first.exchange? prims = some exchange →
      second.exchange? prims = some exchange' → exchange = exchange'
  rxKey : first.after.rxKey = second.after.txKey
  txKey : first.after.txKey = second.after.rxKey

variable {prims}

/-! ## Sessions with the same key are partners -/

theorem Exchange.binding_inj
    {hashed : Set Bytes} (hinj : Set.InjOn prims.sha384 hashed)
    {left right : Exchange} {leftTag rightTag : Block 48}
    (hleft : ∀ input ∈ left.hashInputs prims leftTag, input ∈ hashed)
    (hright : ∀ input ∈ right.hashInputs prims rightTag, input ∈ hashed)
    (hbinding : left.binding prims = right.binding prims)
    (hct : left.ct = right.ct)
    (hpk : left.encapsulatorX25519Pk = right.encapsulatorX25519Pk) :
    left = right := by
  simp only [hashInputs, List.mem_cons, List.not_mem_nil, or_false,
    forall_eq_or_imp, forall_eq] at hleft hright
  obtain ⟨hmlKem, hx25519, hkeygen, hencapsulator, happInfo⟩ :=
    handshakeBindingInput_inj
      (hinj hleft.2.2.1 hright.2.2.1 hbinding)
  have hkeygenKey := identityFingerprintInput_inj
    (hinj hleft.1 hright.1 hkeygen)
  have hencapsulatorKey := identityFingerprintInput_inj
    (hinj hleft.2.1 hright.2.1 hencapsulator)
  cases left
  cases right
  simp_all only

/-- The material of an authenticated installation contains its binding. -/
theorem Event.exchange?_material
    {event : Event ι DecapsKey SigningKey} {exchange : Exchange} {side : Side}
    {material : KeyMaterial}
    (hexchange : event.record.exchange? prims = some exchange)
    (hderivation : event.record.derivation? prims = some (side, material)) :
    material.ct = exchange.ct ∧
      material.pk = exchange.encapsulatorX25519Pk ∧
      material.info = (exchange.binding prims).bytes ∧
      ∃ tag, ∀ input ∈ exchange.hashInputs prims tag,
        input ∈ event.hashInputs prims := by
  unfold Record.exchange? at hexchange
  split at hexchange
  next args output hcall hresult =>
    cases hexchange
    simp only [Record.derivation?, hcall, hresult, Option.map_eq_some_iff,
      Prod.mk.injEq] at hderivation
    obtain ⟨prk, _, _, rfl⟩ := hderivation
    refine ⟨rfl, rfl, rfl, output.confirmation, ?_⟩
    intro input hinput
    simpa only [Event.hashInputs, hcall, hresult] using hinput
  next args output hcall hresult =>
    split at hexchange
    next dk sk hdk hsk =>
      cases hexchange
      simp only [Record.derivation?, hcall, hresult, hdk, hsk,
        Option.map_eq_some_iff, Prod.mk.injEq] at hderivation
      obtain ⟨prk, _, _, rfl⟩ := hderivation
      refine ⟨rfl, rfl, rfl, args.peerConfirmation, ?_⟩
      intro input hinput
      simp only [Event.hashInputs, hcall, hresult, hdk, hsk]
      exact List.mem_cons_of_mem _ hinput
    next => cases hexchange
  next => cases hexchange

theorem partners_of_derivations
    {events : List (Event ι DecapsKey SigningKey)}
    (hfree : CollisionFree prims events)
    {first second : Event ι DecapsKey SigningKey}
    (hfirst : first ∈ events) (hsecond : second ∈ events) {side : Side}
    {material : KeyMaterial}
    (hderives : first.record.derivation? prims = some (side, material))
    (hderives' : second.record.derivation? prims =
      some (side.peer, material))
    (hrxKey : first.record.after.rxKey = second.record.after.txKey)
    (htxKey : first.record.after.txKey = second.record.after.rxKey) :
    Partners prims first.record second.record := by
  refine ⟨⟨side, material, hderives, hderives'⟩, ?_, hrxKey, htxKey⟩
  intro exchange exchange' hexchange hexchange'
  obtain ⟨hct, hpk, hinfo, tag, hinputs⟩ :=
    Event.exchange?_material hexchange hderives
  obtain ⟨hct', hpk', hinfo', tag', hinputs'⟩ :=
    Event.exchange?_material hexchange' hderives'
  apply Exchange.binding_inj hfree.sha384
    (fun input hinput => ⟨first, hfirst, hinputs input hinput⟩)
    (fun input hinput => ⟨second, hsecond, hinputs' input hinput⟩)
  · rw [← Block.bytes_inj, ← hinfo, ← hinfo']
  · rw [← hct, ← hct']
  · rw [← hpk, ← hpk']

/-! ## Sessions of a run -/

section Runs

variable [DecidableEq ι]

variable (prims) in
/-- The keys which `party` holds before position `j` were installed by
`install`. -/
structure Session
    (schedule : List (ι × Call SigningKey)) (party : ι) (j : ℕ)
    (earlier : List (Invocation DecapsKey SigningKey))
    (install : Invocation DecapsKey SigningKey)
    (part : List (Invocation DecapsKey SigningKey)) : Prop where
  life : Network.lifeOf prims party (schedule.take j) =
    earlier ++ install :: part
  tenure : Tenure earlier install part

/-- What the installation of a session did. -/
def installation
    (earlier : List (Invocation DecapsKey SigningKey))
    (install : Invocation DecapsKey SigningKey) :
    Record DecapsKey SigningKey :=
  (SessionManager.new.afterCalls earlier).perform install

variable {schedule : List (ι × Call SigningKey)} {party : ι} {j : ℕ}
variable {earlier part : List (Invocation DecapsKey SigningKey)}
variable {install : Invocation DecapsKey SigningKey}

theorem Session.event
    (hsession : Session prims schedule party j earlier install part) :
    ∃ event ∈ (Network.initial : Network ι DecapsKey).trace prims schedule,
      event.party = party ∧ event.record = installation earlier install :=
  Network.exists_event_of_lifeOf prims .initial hsession.life

theorem Session.prims_eq
    (hsession : Session prims schedule party j earlier install part)
    {invocation : Invocation DecapsKey SigningKey}
    (hmem : invocation ∈ earlier ++ install :: part) :
    invocation.prims = prims := by
  rw [← hsession.life] at hmem
  obtain ⟨action, _, rfl⟩ := List.mem_map.1 hmem
  rfl

/-- The keys of a session are derived from the material of its installation. -/
theorem Session.keys
    (hsession : Session prims schedule party j earlier install part) :
    ∃ side material,
      (installation earlier install).derivation? prims =
          some (side, material) ∧
        (installation earlier install).after.txKey =
          some (material.sendKey prims side) ∧
        (installation earlier install).after.rxKey =
          some (material.sendKey prims side.peer) := by
  have hprims := hsession.prims_eq
    (List.mem_append_right earlier List.mem_cons_self)
  obtain ⟨_, call⟩ := install
  cases hprims
  obtain ⟨side, material, pendingAuth, hderives, hafter⟩ :=
    SessionManager.perform_derivation _ call hsession.tenure.installs
  refine ⟨side, material, hderives, ?_, ?_⟩
  · exact congrArg SessionManager.txKey hafter
  · exact congrArg SessionManager.rxKey hafter

/-- A packet call succeeds only in a session, whose keys it uses. -/
theorem exists_session_of_packet
    {event : Event ι DecapsKey SigningKey}
    (hevent : ((Network.initial : Network ι DecapsKey).trace prims
      schedule)[j]? = some event)
    (hpacket : event.record.call.isPacket = true)
    (hok : event.record.result.isOk = true) :
    ∃ earlier install part,
      Session prims schedule event.party j earlier install part ∧
        Authorizes earlier install part ∧
        event.record.before.txKey =
          (installation earlier install).after.txKey ∧
        event.record.before.rxKey =
          (installation earlier install).after.rxKey := by
  obtain ⟨call, hrecord⟩ := Network.trace_record prims hevent
  rw [hrecord] at hpacket hok
  obtain ⟨⟨hestablished, hpending⟩, _⟩ :=
    SessionManager.perform_packet hpacket hok
  change (SessionManager.new.afterCalls _).isEstablished = true
    at hestablished
  change (SessionManager.new.afterCalls _).pendingAuth = none at hpending
  obtain ⟨earlier, install, part, hlife, htenure⟩ :=
    SessionManager.exists_tenure _ hestablished
  rw [hlife] at hpending
  refine ⟨earlier, install, part, ⟨hlife, htenure⟩,
    htenure.authorizes hpending, ?_, ?_⟩
  · rw [hrecord, hlife]
    exact htenure.keys_kept.1
  · rw [hrecord, hlife]
    exact htenure.keys_kept.2

omit [DecidableEq ι] in
theorem Event.accepted?_isPacket
    {event : Event ι DecapsKey SigningKey} {packet : Packet × Bytes}
    (haccepted : event.accepted? = some packet) :
    event.record.call.isPacket = true ∧
      event.record.result.isOk = true := by
  unfold Event.accepted? at haccepted
  split at haccepted
  next hcall hresult =>
    rw [hcall, hresult]
    exact ⟨rfl, rfl⟩
  next => cases haccepted

omit [DecidableEq ι] in
theorem Event.ComputesTag.isPacket
    {event : Event ι DecapsKey SigningKey} {macKey : Block 32} {input : Bytes}
    {tag : Block 48} (hcomputes : event.ComputesTag macKey input tag) :
    event.record.call.isPacket = true ∧
      event.record.result.isOk = true := by
  obtain ⟨_, _, _, _, _, _, _, _, hcall, hresult, _⟩ := hcomputes
  rw [hcall, hresult]
  exact ⟨rfl, rfl⟩

/-- No call of the session has recorded a nonce which is still acceptable. -/
theorem SessionManager.Tenure.nonce_fresh
    (htenure : Tenure earlier install part) {nonce : Block 12}
    (hcheck : (SessionManager.new.afterCalls
      (earlier ++ install :: part)).checkRxNonce nonce = .ok ()) :
    ∀ record ∈ (installation earlier install).after.history part,
      record.committed? ≠ some (nonceSequence nonce) := by
  obtain ⟨txKey, rxKey, pendingAuth, hinstalled⟩ :=
    SessionManager.perform_installs _ install htenure.installs
  have hstart : (installation earlier install).after.Received ∅ := by
    rw [installation, hinstalled]
    exact SessionManager.installed_received txKey rxKey pendingAuth
  have hreceived := hstart.afterCalls part htenure.kept
  rw [SessionManager.afterCalls_append, SessionManager.afterCalls_cons]
    at hcheck
  have hfresh := ((hreceived.checkRxNonce_iff nonce).1 hcheck).2.1
  intro record hrecord hcommitted
  apply hfresh
  rw [Finset.empty_union, committedSequences, List.mem_toFinset]
  exact List.mem_map_of_mem
    (List.mem_filterMap.2 ⟨record, hrecord, hcommitted⟩)

variable {honest : Set PublicKey87} {key : Block 64}

theorem honestKey_of_finalizeAuthenticated
    (hsession : Session prims schedule party j earlier install part)
    {args : FinalizeAuthenticatedArgs SigningKey}
    (hcall : install.call = .finalizeAuthenticated args)
    (hanchor : args.peerVerifyingKey ∈ honest)
    (hkey : (installation earlier install).after.rxKey = some key) :
    HonestKey
      ((Network.initial : Network ι DecapsKey).trace prims schedule) honest
      key := by
  obtain ⟨event, hevent, _, hrecord⟩ := hsession.event
  rw [← hrecord] at hkey
  refine ⟨event, hevent, hkey, Or.inl ⟨args, ?_, ?_, hanchor⟩⟩
  · rw [hrecord]
    exact hcall
  · rw [hrecord]
    exact hsession.tenure.installs.2

theorem SessionManager.Tenure.left
    {before rest : List (Invocation DecapsKey SigningKey)}
    (htenure : Tenure earlier install (before ++ rest)) :
    Tenure earlier install before := by
  refine ⟨htenure.installs, ?_⟩
  intro record hrecord
  apply htenure.kept
  rw [SessionManager.history_append]
  exact List.mem_append_left _ hrecord

/-- The fingerprint of an anchor is one of the hashes of the run. -/
theorem Session.anchor_hashed
    (hsession : Session prims schedule party j earlier install part)
    {args : EncapsulateAuthenticatedArgs SigningKey}
    (hcall : install.call = .encapsulateAuthenticated args) :
    ∃ event ∈ (Network.initial : Network ι DecapsKey).trace prims schedule,
      identityFingerprintInput args.peerVerifyingKey ∈
        event.hashInputs prims := by
  obtain ⟨event, hevent, _, hrecord⟩ := hsession.event
  have heventCall : event.record.call = .encapsulateAuthenticated args := by
    rw [hrecord]
    exact hcall
  have hok : event.record.result.isOk = true := by
    rw [hrecord]
    exact hsession.tenure.installs.2
  obtain ⟨i, hi⟩ := List.mem_iff_getElem?.1 hevent
  have hexec := (Network.trace_genuine hi).exec_eq heventCall rfl
  refine ⟨event, hevent, ?_⟩
  simp only [SessionManager.exec] at hexec
  split at hexec
  next output next _ =>
    have hresult : event.record.result = .ok (.authEncapsulated output) :=
      (congrArg Prod.fst hexec).symm
    simp only [Event.hashInputs, heventCall, hresult]
    exact List.mem_cons_self
  next failure next _ =>
    have hresult : event.record.result = .error failure :=
      (congrArg Prod.fst hexec).symm
    rw [hresult] at hok
    cases hok

/-- The confirmation of a session has presented its anchor. -/
theorem honestKey_of_encapsulateAuthenticated
    (hfree : CollisionFree prims
      ((Network.initial : Network ι DecapsKey).trace prims schedule))
    (hsession : Session prims schedule party j earlier install part)
    (hauthorizes : Authorizes earlier install part)
    {args : EncapsulateAuthenticatedArgs SigningKey}
    (hcall : install.call = .encapsulateAuthenticated args)
    (hanchor : args.peerVerifyingKey ∈ honest)
    (hkey : (installation earlier install).after.rxKey = some key) :
    HonestKey
      ((Network.initial : Network ι DecapsKey).trace prims schedule) honest
      key := by
  obtain ⟨pending, before, confirm, rest, rfl, _, hidentity, hconfirmed,
    shown, hshown, hfingerprint, _⟩ := hauthorizes.confirmed args hcall
  have hlife : Network.lifeOf prims party (schedule.take j) =
      (earlier ++ install :: before) ++ confirm :: rest := by
    rw [hsession.life, List.append_assoc, List.cons_append]
  obtain ⟨event, hevent, _, hrecord⟩ :=
    Network.exists_event_of_lifeOf prims .initial hlife
  have hshownCall : event.record.call = .confirmPeer shown := by
    rw [hrecord]
    exact hshown
  have hresult : event.record.result = .ok .done := by
    rw [hrecord, Network.initial, SessionManager.afterCalls_append]
    exact hconfirmed
  have hrxKey : event.record.after.rxKey = some key := by
    have htenure : Tenure earlier install (before ++ [confirm]) := by
      have hwhole : Tenure earlier install ((before ++ [confirm]) ++ rest) := by
        rw [List.append_assoc]
        exact hsession.tenure
      exact hwhole.left
    rw [← hkey, installation, ← htenure.keys_kept.2, hrecord,
      ← List.cons_append, ← List.append_assoc,
      SessionManager.afterCalls_append _ _ [confirm]]
    rfl
  have hprims := hsession.prims_eq (List.mem_append_right earlier
    (List.mem_cons_of_mem install (List.mem_append_right before
      List.mem_cons_self)))
  have hinstallPrims := hsession.prims_eq
    (List.mem_append_right earlier List.mem_cons_self)
  obtain ⟨i, hi⟩ := List.mem_iff_getElem?.1 hevent
  obtain ⟨found, hfound, _⟩ := SessionManager.confirmPeer_ok
    ((Network.trace_genuine hi).confirmPeer hshownCall hresult)
  have hsame : shown.peerVerifyingKey = args.peerVerifyingKey := by
    apply identityFingerprintInput_inj
    refine hfree.sha384 ⟨event, hevent, ?_⟩ (hsession.anchor_hashed hcall) ?_
    · simp only [Event.hashInputs, hshownCall, hresult, hfound]
      exact List.mem_cons_self
    · rw [hprims] at hfingerprint
      rw [hinstallPrims] at hidentity
      exact hfingerprint.trans hidentity
  refine ⟨event, hevent, hrxKey, Or.inr ⟨shown, hshownCall, hresult, ?_⟩⟩
  rw [hsame]
  exact hanchor

theorem honestKey_of_anchor
    (hfree : CollisionFree prims
      ((Network.initial : Network ι DecapsKey).trace prims schedule))
    (hsession : Session prims schedule party j earlier install part)
    (hauthorizes : Authorizes earlier install part) {anchor : PublicKey87}
    (hanchor : install.call.anchor? = some anchor) (hhonest : anchor ∈ honest)
    (hkey : (installation earlier install).after.rxKey = some key) :
    HonestKey
      ((Network.initial : Network ι DecapsKey).trace prims schedule) honest
      key := by
  cases hcall : install.call with
  | finalizeAuthenticated args =>
      rw [hcall] at hanchor
      cases hanchor
      exact honestKey_of_finalizeAuthenticated hsession hcall hhonest hkey
  | encapsulateAuthenticated args =>
      rw [hcall] at hanchor
      cases hanchor
      exact honestKey_of_encapsulateAuthenticated hfree hsession hauthorizes
        hcall hhonest hkey
  | _ =>
      rw [hcall] at hanchor
      cases hanchor

/-- Sessions one of which receives with a key that authenticates like the one
with which the other sends are partners. -/
theorem partners_of_sessions
    (hfree : CollisionFree prims
      ((Network.initial : Network ι DecapsKey).trace prims schedule))
    (hseparate : KeysSeparate prims
      ((Network.initial : Network ι DecapsKey).trace prims schedule))
    (hsession : Session prims schedule party j earlier install part)
    {party' : ι} {i : ℕ}
    {earlier' part' : List (Invocation DecapsKey SigningKey)}
    {install' : Invocation DecapsKey SigningKey}
    (hsession' : Session prims schedule party' i earlier' install' part')
    {key' : Block 64}
    (hkey : (installation earlier install).after.rxKey = some key)
    (hkey' : (installation earlier' install').after.txKey = some key')
    (hmacKey : macHalf key' = macHalf key) :
    key' = key ∧
      Partners prims (installation earlier install)
        (installation earlier' install') := by
  obtain ⟨event, hevent, _, hrecord⟩ := hsession.event
  obtain ⟨event', hevent', _, hrecord'⟩ := hsession'.event
  obtain ⟨side, material, hderives, htx, hrx⟩ := hsession.keys
  obtain ⟨side', material', hderives', htx', hrx'⟩ := hsession'.keys
  cases hkey.symm.trans hrx
  cases hkey'.symm.trans htx'
  rw [← hrecord] at hderives
  rw [← hrecord'] at hderives'
  obtain ⟨rfl, rfl⟩ := hseparate event' hevent' event hevent side' side
    material' material side' side.peer hderives' hderives hmacKey
  refine ⟨rfl, ?_⟩
  have hpeer : side.peer.peer = side := by cases side <;> rfl
  rw [← hrecord, ← hrecord']
  apply partners_of_derivations hfree hevent hevent' hderives hderives'
  · rw [hrecord, hrecord', hkey, hkey']
  · rw [hrecord, hrecord', htx, hrx', hpeer]

/-- A packet which is accepted in a session was accepted there for the first
time, and if the session is anchored in an honest key the same packet was sent
before, with the plaintext which is returned, in a partner session. -/
theorem accepted_packets_are_authentic
    (honest : Set PublicKey87)
    {keystream : Block 32 → Block 12 → ℕ → UInt8}
    (hkeystream : prims.KeystreamFixed keystream)
    (hfree : CollisionFree prims
      ((Network.initial : Network ι DecapsKey).trace prims schedule))
    (hseparate : KeysSeparate prims
      ((Network.initial : Network ι DecapsKey).trace prims schedule))
    (hmac : ∀ key,
      HonestKey ((Network.initial : Network ι DecapsKey).trace prims schedule)
          honest key →
        UnforgeableTags prims
          ((Network.initial : Network ι DecapsKey).trace prims schedule) key)
    {receiver : ι} {packet : Packet} {plaintext : Bytes}
    (haccepted : AcceptedAt
      ((Network.initial : Network ι DecapsKey).trace prims schedule) receiver
      j packet plaintext) :
    ∃ earlier install part,
      Session prims schedule receiver j earlier install part ∧
      Authorizes earlier install part ∧
      (∀ record ∈ (installation earlier install).after.history part,
        record.committed? ≠ some (nonceSequence packet.nonce)) ∧
      ∀ anchor ∈ honest, install.call.anchor? = some anchor →
        ∃ i < j, ∃ sender earlier' install' part',
          SentAt ((Network.initial : Network ι DecapsKey).trace prims
            schedule) sender i packet plaintext ∧
          Session prims schedule sender i earlier' install' part' ∧
          Partners prims (installation earlier install)
            (installation earlier' install') := by
  obtain ⟨event, hevent, rfl, haccepted⟩ := haccepted
  obtain ⟨hpacket, hok⟩ := Event.accepted?_isPacket haccepted
  obtain ⟨earlier, install, part, hsession, hauthorizes, _, hkept⟩ :=
    exists_session_of_packet hevent hpacket hok
  refine ⟨earlier, install, part, hsession, hauthorizes, ?_⟩
  obtain ⟨call, hrecord⟩ := Network.trace_record prims hevent
  obtain ⟨receiver, record⟩ := event
  dsimp only at hrecord hsession
  subst hrecord
  obtain ⟨aad, buffer, key, hcall, haad, hrxKey, hcheck, htag, hopen, _⟩ :=
    SessionManager.perform_accepted prims haccepted
  constructor
  · rw [hsession.life] at hcheck
    exact hsession.tenure.nonce_fresh hcheck
  · intro anchor hhonest hanchor
    have hkey := hkept.symm.trans hrxKey
    have hhonestKey := honestKey_of_anchor hfree hsession hauthorizes hanchor
      hhonest hkey
    obtain ⟨i, hlt, source, hsource, hcomputes⟩ :=
      hmac key hhonestKey j _ aad _ _ _ buffer hevent hcall hrxKey htag
    obtain ⟨hsourcePacket, hsourceOk⟩ := hcomputes.isPacket
    obtain ⟨earlier', install', part', hsession', _, hkept', _⟩ :=
      exists_session_of_packet hsource hsourcePacket hsourceOk
    obtain ⟨sending, hsourceRecord⟩ := Network.trace_record prims hsource
    obtain ⟨sender, record⟩ := source
    dsimp only at hsourceRecord hsession'
    subst hsourceRecord
    obtain ⟨txKey, sentAad, sentText, ciphertext, nonce, htxKey, hhalf,
      hinput, hseal, hsent⟩ :=
      SessionManager.perform_computesTag prims hcomputes
    obtain ⟨rfl, hpartners⟩ := partners_of_sessions hfree hseparate hsession
      hsession' hkey (hkept'.symm.trans htxKey) hhalf
    obtain ⟨haadEq, rfl, rfl⟩ := macInput_inj hinput
    have hplaintext : plaintext = sentText := hkeystream.twice hseal hopen
    refine ⟨i, hlt, sender, earlier', install', part', ⟨_, hsource, rfl, ?_⟩,
      hsession', hpartners⟩
    rw [hsent, hplaintext, haadEq, haad]

end Runs

/-! ## A packet after the handshake of the reference primitives -/

namespace Reference

theorem channelAad_lt : ([7] : Bytes).length < 2 ^ 64 := by decide

def channelAad : Slice := ⟨[7], channelAad_lt⟩

def sealCall : Call UInt8 :=
  .encryptPacket channelAad [8, 9] [0, 0] (Block.fill 12 0) (Block.fill 48 0)

def channelSealed : EncryptPacketOutcome UInt8 :=
  (keygenAfter [9]).encryptPacket primitives channelAad [8, 9] [0, 0]
    (Block.fill 12 0) (Block.fill 48 0)

def channelPacket : Packet :=
  ⟨[7], channelSealed.ciphertext, channelSealed.nonce, channelSealed.tag⟩

def openCall : Call UInt8 :=
  .decryptPacket channelAad channelSealed.ciphertext channelSealed.nonce
    channelSealed.tag [0, 0]

def channelSchedule : List (Bool × Call UInt8) :=
  handshakeSchedule ++ [(true, sealCall), (false, openCall)]

def sealEvent : Event Bool UInt8 UInt8 :=
  ⟨true, (keygenAfter [9]).perform ⟨primitives, sealCall⟩⟩

def openEvent : Event Bool UInt8 UInt8 :=
  ⟨false, (encapsulatorAfter [9]).wipePendingAuthentication.perform
    ⟨primitives, openCall⟩⟩

theorem handshakeAfter_true :
    (Network.initial : Network Bool UInt8).after primitives handshakeSchedule
      true = keygenAfter [9] := by
  let initiate : Invocation UInt8 UInt8 :=
    ⟨primitives, .initiateHandshake (Block.fill 96 3)⟩
  let finalize : Invocation UInt8 UInt8 :=
    ⟨primitives, .finalizeAuthenticated ((honestRun [9]).finalizeArgs [9])⟩
  have hlife : Network.lifeOf primitives true handshakeSchedule =
      [initiate, finalize] := by
    simp [Network.lifeOf, handshakeSchedule, initiate, finalize]
  have hinitiated :
      (SessionManager.new : SessionManager UInt8).perform initiate =
        ⟨.new, initiate.call,
          .ok (.firstMessage (Block.fill 1568 3) (Block.fill 32 3)),
          keygenPending⟩ := SessionManager.perform_eq exec_initiate
  have hfinalized : keygenPending.perform finalize =
      ⟨keygenPending, finalize.call, .ok (.proof (finalizeProof [9])),
        keygenAfter [9]⟩ :=
    SessionManager.perform_eq
      (SessionManager.exec_finalizeAuthenticated (finalize_eq [9]))
  rw [Network.after_apply, hlife, Network.initial,
    SessionManager.afterCalls_cons, hinitiated,
    SessionManager.afterCalls_cons, hfinalized, SessionManager.afterCalls_nil]

theorem handshakeAfter_false :
    (Network.initial : Network Bool UInt8).after primitives handshakeSchedule
      false = (encapsulatorAfter [9]).wipePendingAuthentication := by
  let encapsulate : Invocation UInt8 UInt8 :=
    ⟨primitives, .encapsulateAuthenticated (encapsulateArgs [9])⟩
  let confirm : Invocation UInt8 UInt8 :=
    ⟨primitives, .confirmPeer (confirmArgs [9])⟩
  have hlife : Network.lifeOf primitives false handshakeSchedule =
      [encapsulate, confirm] := by
    simp [Network.lifeOf, handshakeSchedule, encapsulate, confirm]
  have hinstalled :
      (SessionManager.new : SessionManager UInt8).perform encapsulate =
        ⟨.new, encapsulate.call,
          .ok (.authEncapsulated (encapsulateOutput [9])),
          encapsulatorAfter [9]⟩ :=
    SessionManager.perform_eq
      (SessionManager.exec_encapsulateAuthenticated (encapsulate_eq [9]))
  have hconfirmed : (encapsulatorAfter [9]).perform confirm =
      ⟨encapsulatorAfter [9], confirm.call, .ok .done,
        (encapsulatorAfter [9]).wipePendingAuthentication⟩ :=
    SessionManager.perform_eq
      (SessionManager.exec_confirmPeer (confirm_eq [9]))
  rw [Network.after_apply, hlife, Network.initial,
    SessionManager.afterCalls_cons, hinstalled,
    SessionManager.afterCalls_cons, hconfirmed, SessionManager.afterCalls_nil]

theorem channelTrace_eq :
    (Network.initial : Network Bool UInt8).trace primitives channelSchedule =
      handshakeEvents ++ [sealEvent, openEvent] := by
  rw [channelSchedule, Network.trace_append, handshakeTrace_eq,
    Network.trace_perform, Network.trace_perform,
    Network.step_other _ _ _ Bool.false_ne_true, handshakeAfter_true,
    handshakeAfter_false]
  rfl

theorem channel_collisionFree :
    CollisionFree primitives (handshakeEvents ++ [sealEvent, openEvent]) := by
  constructor
  · apply handshake_collisionFree.sha384.mono
    rintro input ⟨event, hevent, hinput⟩
    rcases List.mem_append.1 hevent with hhandshake | hpacket
    · exact ⟨event, hhandshake, hinput⟩
    · simp only [List.mem_cons, List.not_mem_nil, or_false] at hpacket
      rcases hpacket with rfl | rfl
      · cases hinput
      · cases hinput
  · apply handshake_collisionFree.hmac.mono
    rintro query ⟨event, hevent, hquery⟩
    rcases List.mem_append.1 hevent with hhandshake | hpacket
    · exact ⟨event, hhandshake, hquery⟩
    · simp only [List.mem_cons, List.not_mem_nil, or_false] at hpacket
      rcases hpacket with rfl | rfl
      · cases hquery
      · cases hquery

def channelMaterial : KeyMaterial :=
  ⟨handshakePrk [9], Block.fill 1568 7, Block.fill 32 7,
    (handshakeExchange.binding primitives).bytes⟩

theorem channel_derivation
    {event : Event Bool UInt8 UInt8}
    (hevent : event ∈ handshakeEvents ++ [sealEvent, openEvent]) {side : Side}
    {material : KeyMaterial}
    (hderives : event.record.derivation? primitives = some (side, material)) :
    material = channelMaterial := by
  simp only [handshakeEvents, List.cons_append, List.nil_append,
    List.mem_cons, List.not_mem_nil, or_false] at hevent
  rcases hevent with rfl | rfl | rfl | rfl | rfl | rfl
  · cases hderives
  · cases hderives
    rfl
  · cases hderives
    rfl
  · cases hderives
  · cases hderives
  · cases hderives

theorem channel_keysSeparate :
    KeysSeparate primitives (handshakeEvents ++ [sealEvent, openEvent]) := by
  intro left hleft right hright side side' material material' direction
    direction' hderives hderives' hsame
  cases channel_derivation hleft hderives
  cases channel_derivation hright hderives'
  refine ⟨rfl, ?_⟩
  have hne : macHalf (channelMaterial.sendKey primitives .keygen) ≠
      macHalf (channelMaterial.sendKey primitives .encapsulator) := by
    decide +kernel
  cases direction with
  | keygen =>
      cases direction' with
      | keygen => rfl
      | encapsulator => exact absurd hsame hne
  | encapsulator =>
      cases direction' with
      | keygen => exact absurd hsame.symm hne
      | encapsulator => rfl

theorem channel_unforgeableTags (key : Block 64) :
    UnforgeableTags primitives (handshakeEvents ++ [sealEvent, openEvent])
      key := by
  intro j event aad ciphertext nonce tag buffer hevent hcall hkey _
  match j with
  | 0 | 1 | 2 | 3 | 4 =>
      cases hevent
      cases hcall
  | 5 =>
      cases hevent
      cases hcall
      cases hkey
      refine ⟨4, by omega, sealEvent, rfl, channelAad, [8, 9], [0, 0],
        Block.fill 12 0, Block.fill 48 0, channelSealed.ciphertext,
        channelSealed.nonce,
        channelMaterial.sendKey primitives .keygen, rfl, ?_, rfl, rfl, rfl⟩
      decide +kernel
  | j + 6 => cases hevent

theorem accepted_packets_are_authentic_after_handshake :
    AcceptedAt ((Network.initial : Network Bool UInt8).trace primitives
        channelSchedule) false 5 channelPacket [8, 9] ∧
      ∃ earlier install part,
        Session primitives channelSchedule false 5 earlier install part ∧
          ∀ anchor : PublicKey87, install.call.anchor? = some anchor →
            ∃ i < 5, ∃ sender, SentAt
              ((Network.initial : Network Bool UInt8).trace primitives
                channelSchedule) sender i channelPacket [8, 9] := by
  have haccepted : AcceptedAt
      ((Network.initial : Network Bool UInt8).trace primitives
        channelSchedule) false 5 channelPacket [8, 9] := by
    rw [channelTrace_eq]
    refine ⟨openEvent, rfl, rfl, ?_⟩
    decide +kernel
  refine ⟨haccepted, ?_⟩
  obtain ⟨earlier, install, part, hsession, _, _, horigin⟩ :=
    accepted_packets_are_authentic Set.univ
      primitives_keystreamFixed
      (channelTrace_eq ▸ channel_collisionFree)
      (channelTrace_eq ▸ channel_keysSeparate)
      (fun key _ => channelTrace_eq ▸ channel_unforgeableTags key) haccepted
  refine ⟨earlier, install, part, hsession, ?_⟩
  intro anchor hanchor
  obtain ⟨i, hlt, sender, _, _, _, hsent, _⟩ :=
    horigin anchor (Set.mem_univ _) hanchor
  exact ⟨i, hlt, sender, hsent⟩

end Reference

end ShawnCore
