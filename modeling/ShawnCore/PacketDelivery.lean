import ShawnCore.SessionNetwork
import ShawnCore.ReplayWindow

/-!
# Exactly-once authentic delivery

Two managers which share their directional keys exchange packets over a
network which the attacker controls.  Every packet one of them accepts was
sent by the other one, under the same nonce and with the same content, and is
accepted once.
-/

namespace ShawnCore

open ByteBlocks

variable {ι DecapsKey SigningKey : Type}

structure Packet where
  aad : Bytes
  ciphertext : Bytes
  nonce : Block 12
  tag : Block 48
deriving DecidableEq

/-- The half of a directional key which authenticates packets. -/
def macHalf (key : Block 64) : Block 32 := key.slice 32 32 highHalf_le

namespace Event

/-- The packet and the plaintext of a successful `encrypt_packet`. -/
def sent? (event : Event ι DecapsKey SigningKey) : Option (Packet × Bytes) :=
  match event.record.call, event.record.result with
  | .encryptPacket aad plaintext _ _ _, .ok (.packet ciphertext nonce tag) =>
      some (⟨aad.bytes, ciphertext, nonce, tag⟩, plaintext)
  | _, _ => none

/-- The packet and the returned plaintext of a successful
`decrypt_packet`. -/
def accepted? (event : Event ι DecapsKey SigningKey) :
    Option (Packet × Bytes) :=
  match event.record.call, event.record.result with
  | .decryptPacket aad ciphertext nonce tag _, .ok (.plaintext bytes) =>
      some (⟨aad.bytes, ciphertext, nonce, tag⟩, bytes)
  | _, _ => none

/-- The call is an `encrypt_packet` which computed `tag` over `input` under
`macKey`. -/
def ComputesTag
    (event : Event ι DecapsKey SigningKey) (macKey : Block 32)
    (input : Bytes) (tag : Block 48) : Prop :=
  ∃ aad plaintext buffer oldNonce oldTag ciphertext nonce key,
    event.record.call =
        .encryptPacket aad plaintext buffer oldNonce oldTag ∧
      event.record.result = .ok (.packet ciphertext nonce tag) ∧
      event.record.before.txKey = some key ∧ macHalf key = macKey ∧
      macInput aad ciphertext nonce = input

end Event

/-- A tag verifies under the key only if an `encrypt_packet` call computed it
before. -/
def UnforgeableTags
    (prims : Primitives DecapsKey SigningKey)
    (events : List (Event ι DecapsKey SigningKey)) (key : Block 64) : Prop :=
  ∀ (j : ℕ) (event : Event ι DecapsKey SigningKey) (aad : Slice)
      (ciphertext : Bytes) (nonce : Block 12) (tag : Block 48)
      (buffer : Bytes),
    events[j]? = some event →
    event.record.call = .decryptPacket aad ciphertext nonce tag buffer →
    event.record.before.rxKey = some key →
    prims.hmacSha384 (macHalf key).bytes (macInput aad ciphertext nonce) =
      tag →
    ∃ i < j, ∃ source, events[i]? = some source ∧
      source.ComputesTag (macHalf key) (macInput aad ciphertext nonce) tag

/-- A tag verifies in a `decrypt_packet` call only if an earlier
`encrypt_packet` call computed it over the same input with the same key. -/
def IdealMac
    (prims : Primitives DecapsKey SigningKey)
    (events : List (Event ι DecapsKey SigningKey)) : Prop :=
  ∀ key, UnforgeableTags prims events key

/-- Under different keys, the `encrypt_packet` calls of the run compute
different tags over one input. -/
def TagsSeparate (events : List (Event ι DecapsKey SigningKey)) : Prop :=
  ∀ first ∈ events, ∀ second ∈ events, ∀ macKey macKey' input tag,
    first.ComputesTag macKey input tag →
    second.ComputesTag macKey' input tag → macKey = macKey'

def SentAt
    (events : List (Event ι DecapsKey SigningKey)) (party : ι) (i : ℕ)
    (packet : Packet) (plaintext : Bytes) : Prop :=
  ∃ event, events[i]? = some event ∧ event.party = party ∧
    event.sent? = some (packet, plaintext)

def AcceptedAt
    (events : List (Event ι DecapsKey SigningKey)) (party : ι) (j : ℕ)
    (packet : Packet) (plaintext : Bytes) : Prop :=
  ∃ event, events[j]? = some event ∧ event.party = party ∧
    event.accepted? = some (packet, plaintext)

/-- What `receiver` accepts was sent by `sender`, and each packet is accepted
once. -/
structure DeliveredOnce
    (events : List (Event ι DecapsKey SigningKey)) (sender receiver : ι) :
    Prop where
  /-- Accepted packets map injectively to earlier sendings of the same packet
  with the same plaintext. -/
  origin : ∃ source : ℕ → ℕ,
    (∀ j packet plaintext, AcceptedAt events receiver j packet plaintext →
      source j < j ∧ SentAt events sender (source j) packet plaintext) ∧
    ∀ j j' packet packet' plaintext plaintext',
      AcceptedAt events receiver j packet plaintext →
      AcceptedAt events receiver j' packet' plaintext' →
        source j = source j' → j = j'
  /-- No nonce, and so no packet, is accepted twice. -/
  once : ∀ j j' packet packet' plaintext plaintext',
    AcceptedAt events receiver j packet plaintext →
    AcceptedAt events receiver j' packet' plaintext' →
      packet.nonce = packet'.nonce → j = j'
  /-- No packet which the receiver itself sends is accepted by it, before or
  after. -/
  noReflection : TagsSeparate events →
    ∀ i j packet sentText plaintext,
      SentAt events receiver i packet sentText →
        ¬ AcceptedAt events receiver j packet plaintext

/-- A confirmed session with fresh counters. -/
structure SessionManager.Fresh
    (manager : SessionManager DecapsKey) (txKey rxKey : Block 64) : Prop where
  established : manager.isEstablished = true
  confirmed : manager.pendingAuth = none
  txKey_eq : manager.txKey = some txKey
  rxKey_eq : manager.rxKey = some rxKey
  txCounter_eq : manager.txCounter = 0
  rxCounter_eq : manager.rxCounter = 0
  rxWindow_eq : manager.rxWindow = 0

/-! ## One packet call -/

namespace SessionManager

variable (prims : Primitives DecapsKey SigningKey)

theorem Fresh.received
    {manager : SessionManager DecapsKey} {txKey rxKey : Block 64}
    (hfresh : manager.Fresh txKey rxKey) : manager.Received ∅ := by
  unfold Received
  rw [hfresh.rxCounter_eq, hfresh.rxWindow_eq]
  exact SequenceWindow.represents_empty 64

/-- What a packet call leaves of the manager. -/
theorem perform_isPacket
    (manager : SessionManager DecapsKey) (call : Call SigningKey)
    (hcall : call.isPacket = true) :
    let record := manager.perform ⟨prims, call⟩
    record.after.txKey = manager.txKey ∧ record.after.rxKey = manager.rxKey ∧
      ∀ recorded, manager.Received recorded →
        record.after.Received
          (match record.committed? with
            | some sequence => insert sequence.toNat recorded
            | none => recorded) := by
  cases call with
  | encryptPacket aad plaintext ciphertext nonce tag =>
      rcases encryptPacket_cases prims manager aad plaintext ciphertext nonce
          tag with ⟨failure, buffer, outTag, hcase⟩ |
        ⟨key, sealed, _, _, _, _, hcase⟩
      · simp only [perform, exec, hcase, Record.committed?, true_and]
        exact fun _ hreceived => hreceived
      · simp only [perform, exec, hcase, Record.committed?, Call.commitNonce?,
          Option.map_none, true_and]
        exact fun _ hreceived => hreceived
  | decryptPacket aad ciphertext nonce tag plaintext =>
      rcases decryptPacket_cases prims manager aad ciphertext nonce tag
          plaintext with ⟨failure, buffer, hcase⟩ |
        ⟨key, opened, _, _, _, _, _, hcase⟩
      · simp only [perform, exec, hcase, Record.committed?, true_and]
        exact fun _ hreceived => hreceived
      · simp only [perform, exec, hcase, Record.committed?, Call.commitNonce?,
          Option.map_some]
        exact ⟨manager.commitRxNonce_txKey nonce,
          manager.commitRxNonce_rxKey nonce,
          fun _ hreceived => hreceived.commitRxNonce nonce⟩
  | _ => cases hcall

/-- What an accepted packet says about the receiving manager. -/
theorem perform_accepted
    {manager : SessionManager DecapsKey} {call : Call SigningKey} {party : ι}
    {packet : Packet} {plaintext : Bytes}
    (haccepted : (⟨party, manager.perform ⟨prims, call⟩⟩ :
      Event ι DecapsKey SigningKey).accepted? = some (packet, plaintext)) :
    ∃ aad buffer key,
      call = .decryptPacket aad packet.ciphertext packet.nonce packet.tag
        buffer ∧
      aad.bytes = packet.aad ∧ manager.rxKey = some key ∧
      manager.checkRxNonce packet.nonce = .ok () ∧
      prims.hmacSha384 (macHalf key).bytes
        (macInput aad packet.ciphertext packet.nonce) = packet.tag ∧
      prims.chacha20TryApplyKeystream (key.slice 0 32 lowHalf_le)
        packet.nonce packet.ciphertext = (true, plaintext) ∧
      (manager.perform ⟨prims, call⟩).committed? =
        some (nonceSequence packet.nonce) := by
  cases call with
  | decryptPacket aad ciphertext nonce tag buffer =>
      rcases decryptPacket_cases prims manager aad ciphertext nonce tag
          buffer with ⟨failure, left, hcase⟩ |
        ⟨key, opened, hkey, hcheck, _, htag, happly, hcase⟩
      · simp [Event.accepted?, perform, exec, hcase] at haccepted
      · simp only [Event.accepted?, perform, exec, hcase, Option.some.injEq,
          Prod.mk.injEq] at haccepted
        rcases haccepted with ⟨rfl, rfl⟩
        refine ⟨aad, buffer, key, rfl, rfl, hkey, hcheck, htag, happly, ?_⟩
        simp [Record.committed?, perform, exec, hcase, Call.commitNonce?]
  | _ => simp [Event.accepted?, perform] at haccepted

/-- A call which computed a tag sent the packet it computed it for. -/
theorem perform_computesTag
    {manager : SessionManager DecapsKey} {call : Call SigningKey} {party : ι}
    {macKey : Block 32} {input : Bytes} {tag : Block 48}
    (hcomputes : (⟨party, manager.perform ⟨prims, call⟩⟩ :
      Event ι DecapsKey SigningKey).ComputesTag macKey input tag) :
    ∃ key aad plaintext ciphertext nonce,
      manager.txKey = some key ∧ macHalf key = macKey ∧
      macInput aad ciphertext nonce = input ∧
      prims.chacha20TryApplyKeystream (key.slice 0 32 lowHalf_le) nonce
        plaintext = (true, ciphertext) ∧
      (⟨party, manager.perform ⟨prims, call⟩⟩ :
        Event ι DecapsKey SigningKey).sent? =
          some (⟨aad.bytes, ciphertext, nonce, tag⟩, plaintext) := by
  rcases hcomputes with ⟨aad, plaintext, buffer, oldNonce, oldTag, ciphertext,
    nonce, key, hcall, hresult, hkey, hmac, hinput⟩
  refine ⟨key, aad, plaintext, ciphertext, nonce, hkey, hmac, hinput, ?_, ?_⟩
  · change call = _ at hcall
    subst hcall
    rcases encryptPacket_cases prims manager aad plaintext buffer oldNonce
        oldTag with ⟨failure, left, outTag, hcase⟩ |
      ⟨key', sealed, hkey', _, _, happly, hcase⟩
    · simp [perform, exec, hcase] at hresult
    · simp only [perform, exec, hcase, Except.ok.injEq, Output.packet.injEq]
        at hresult
      rcases hresult with ⟨rfl, rfl, _⟩
      have hsame : key' = key := Option.some.inj (hkey'.symm.trans hkey)
      rwa [hsame] at happly
  · unfold Event.sent?
    rw [hcall, hresult]

/-- A call which sent a packet computed its tag. -/
theorem computesTag_of_sent
    {manager : SessionManager DecapsKey} {call : Call SigningKey} {party : ι}
    {packet : Packet} {plaintext : Bytes}
    (hsent : (⟨party, manager.perform ⟨prims, call⟩⟩ :
      Event ι DecapsKey SigningKey).sent? = some (packet, plaintext)) :
    ∃ aad key, aad.bytes = packet.aad ∧ manager.txKey = some key ∧
      (⟨party, manager.perform ⟨prims, call⟩⟩ :
        Event ι DecapsKey SigningKey).ComputesTag (macHalf key)
          (macInput aad packet.ciphertext packet.nonce) packet.tag := by
  cases call with
  | encryptPacket aad text buffer oldNonce oldTag =>
      rcases encryptPacket_cases prims manager aad text buffer oldNonce
          oldTag with ⟨failure, left, outTag, hcase⟩ |
        ⟨key, sealed, hkey, _, _, _, hcase⟩
      · simp [Event.sent?, perform, exec, hcase] at hsent
      · simp only [Event.sent?, perform, exec, hcase, Option.some.injEq,
          Prod.mk.injEq] at hsent
        rcases hsent with ⟨rfl, rfl⟩
        refine ⟨aad, key, rfl, hkey, aad, text, buffer, oldNonce, oldTag, _,
          _, key, rfl, ?_, hkey, rfl, rfl⟩
        simp only [perform, exec, hcase]
  | _ => simp [Event.sent?, perform] at hsent

end SessionManager

/-! ## Whole runs -/

/-- The sequence numbers which `party` has committed. -/
def committedBy [DecidableEq ι]
    (party : ι) (events : List (Event ι DecapsKey SigningKey)) : Finset ℕ :=
  committedSequences
    ((events.filter fun event => event.party = party).map Event.record)

theorem committedSequences_append_singleton
    (records : List (Record DecapsKey SigningKey))
    (record : Record DecapsKey SigningKey) :
    committedSequences (records ++ [record]) =
      match record.committed? with
      | some sequence => insert sequence.toNat (committedSequences records)
      | none => committedSequences records := by
  cases hcommitted : record.committed? with
  | none => simp [committedSequences, hcommitted]
  | some sequence =>
      ext value
      simp [committedSequences, hcommitted]

section Runs

variable [DecidableEq ι] (prims : Primitives DecapsKey SigningKey)

/-- The part of the state on which one direction of the traffic rests. -/
structure Linked
    (sender receiver : ι) (key back : Block 64)
    (past : List (Event ι DecapsKey SigningKey))
    (network : Network ι DecapsKey) : Prop where
  senderKey : (network sender).txKey = some key
  receiverKey : (network receiver).rxKey = some key
  backKey : (network receiver).txKey = some back
  received : (network receiver).Received (committedBy receiver past)

theorem Linked.step
    {sender receiver : ι} {key back : Block 64}
    {past : List (Event ι DecapsKey SigningKey)}
    {network : Network ι DecapsKey}
    (hlinked : Linked sender receiver key back past network)
    (action : ι × Call SigningKey) (hcall : action.2.isPacket = true) :
    Linked sender receiver key back (past ++ [(network.step prims action).2])
      (network.step prims action).1 := by
  rcases (network action.1).perform_isPacket prims action.2 hcall with
    ⟨htx, hrx, hreceived⟩
  have hkeys : ∀ party,
      ((network.step prims action).1 party).txKey = (network party).txKey ∧
        ((network.step prims action).1 party).rxKey =
          (network party).rxKey := by
    intro party
    by_cases hparty : party = action.1
    · subst hparty
      rw [Network.step_self]
      exact ⟨htx, hrx⟩
    · rw [Network.step_other prims network action hparty]
      exact ⟨rfl, rfl⟩
  constructor
  · rw [(hkeys sender).1]
    exact hlinked.senderKey
  · rw [(hkeys receiver).2]
    exact hlinked.receiverKey
  · rw [(hkeys receiver).1]
    exact hlinked.backKey
  · by_cases hparty : receiver = action.1
    · subst hparty
      have hnext := hreceived _ hlinked.received
      rw [Network.step_self]
      unfold committedBy at hnext ⊢
      rw [List.filter_append, List.map_append]
      simpa [committedSequences_append_singleton] using hnext
    · rw [Network.step_other prims network action hparty]
      have hother : action.1 ≠ receiver := fun heq => hparty heq.symm
      have hreceived := hlinked.received
      unfold committedBy at hreceived ⊢
      rw [List.filter_append, List.map_append]
      simpa [hother] using hreceived

theorem mem_committedBy
    {events : List (Event ι DecapsKey SigningKey)} {party : ι}
    {event : Event ι DecapsKey SigningKey} {sequence : UInt64}
    (hmem : event ∈ events) (hparty : event.party = party)
    (hcommitted : event.record.committed? = some sequence) :
    sequence.toNat ∈ committedBy party events := by
  unfold committedBy committedSequences
  rw [List.mem_toFinset, List.mem_map]
  refine ⟨sequence, List.mem_filterMap.mpr ⟨event.record, ?_, hcommitted⟩, rfl⟩
  apply List.mem_map_of_mem
  exact List.mem_filter.mpr ⟨hmem, by simpa using hparty⟩

variable {prims}
variable {network : Network ι DecapsKey} {schedule : List (ι × Call SigningKey)}
variable {sender receiver : ι} {key back : Block 64}

section PacketCalls

variable
    (hlinked : Linked sender receiver key back
      ([] : List (Event ι DecapsKey SigningKey)) network)
    (hcalls : ∀ action ∈ schedule, action.2.isPacket = true)

include hlinked hcalls

/-- The link invariant holds before every event of a run of packet calls. -/
theorem Linked.before_event
    {j : ℕ} {event : Event ι DecapsKey SigningKey}
    (hevent : (network.trace prims schedule)[j]? = some event) :
    ∃ current : Network ι DecapsKey, ∃ action ∈ schedule,
      Linked sender receiver key back
        ((network.trace prims schedule).take j) current ∧
      (current.step prims action).2 = event := by
  apply Execution.trace_invariant _ hlinked hevent
  intro past state action haction hgood
  exact hgood.step prims action (hcalls action haction)

/-- An accepted packet has a fresh sequence number. -/
theorem Linked.accepted_fresh
    {j : ℕ} {packet : Packet} {plaintext : Bytes}
    (haccepted : AcceptedAt (network.trace prims schedule) receiver j packet
      plaintext) :
    (nonceSequence packet.nonce).toNat ∉
        committedBy receiver ((network.trace prims schedule).take j) ∧
      ∃ event, (network.trace prims schedule)[j]? = some event ∧
        event.party = receiver ∧
        event.record.committed? = some (nonceSequence packet.nonce) := by
  rcases haccepted with ⟨event, hevent, hparty, haccepted⟩
  rcases hlinked.before_event hcalls hevent with
    ⟨current, action, _, hcurrent, rfl⟩
  have hreceiver : action.1 = receiver := hparty
  rcases SessionManager.perform_accepted prims haccepted with
    ⟨aad, buffer, key', _, _, _, hcheck, _, _, hcommitted⟩
  rw [hreceiver] at hcheck
  have hacceptable := (hcurrent.received.checkRxNonce_iff _).mp hcheck
  exact ⟨hacceptable.2.1, _, hevent, hparty, hcommitted⟩

/-- A later packet with the nonce of an accepted one is not accepted. -/
theorem Linked.accepted_once
    {i j : ℕ} {packet packet' : Packet} {plaintext plaintext' : Bytes}
    (hearlier : AcceptedAt (network.trace prims schedule) receiver i packet
      plaintext)
    (hlater : AcceptedAt (network.trace prims schedule) receiver j packet'
      plaintext')
    (hnonce : packet.nonce = packet'.nonce) : ¬ i < j := by
  intro hlt
  rcases hlinked.accepted_fresh hcalls hearlier with
    ⟨_, event, hevent, hparty, hcommitted⟩
  have hfresh := (hlinked.accepted_fresh hcalls hlater).1
  apply hfresh
  rw [← hnonce]
  refine mem_committedBy ?_ hparty hcommitted
  apply List.mem_of_getElem? (i := i)
  rw [List.getElem?_take_of_lt hlt]
  exact hevent

/-- The tag of an accepted packet was computed before, under the key from the
other side. -/
theorem Linked.accepted_computed
    (hmac : IdealMac prims (network.trace prims schedule))
    {j : ℕ} {packet : Packet} {plaintext : Bytes}
    (haccepted : AcceptedAt (network.trace prims schedule) receiver j packet
      plaintext) :
    ∃ aad, aad.bytes = packet.aad ∧
      prims.chacha20TryApplyKeystream (key.slice 0 32 lowHalf_le)
        packet.nonce packet.ciphertext = (true, plaintext) ∧
      ∃ i < j, ∃ source, (network.trace prims schedule)[i]? = some source ∧
        source.ComputesTag (macHalf key)
          (macInput aad packet.ciphertext packet.nonce) packet.tag := by
  rcases haccepted with ⟨event, hevent, hparty, haccepted⟩
  rcases hlinked.before_event hcalls hevent with
    ⟨current, action, _, hcurrent, rfl⟩
  have hreceiver : action.1 = receiver := hparty
  rcases SessionManager.perform_accepted prims haccepted with
    ⟨aad, buffer, rxKey, hcall, haad, hrxKey, _, htag, hopen, _⟩
  have hsame : rxKey = key := by
    rw [hreceiver, hcurrent.receiverKey] at hrxKey
    exact (Option.some.inj hrxKey).symm
  subst hsame
  exact ⟨aad, haad, hopen,
    hmac rxKey j _ aad _ _ _ buffer hevent hcall hrxKey htag⟩

/-- What a side sends carries a tag under its own key, which is not the one it
verifies with. -/
theorem Linked.not_accepted_own
    (hdistinct : macHalf back ≠ macHalf key)
    (hmac : IdealMac prims (network.trace prims schedule))
    (hseparate : TagsSeparate (network.trace prims schedule))
    {i j : ℕ} {packet : Packet} {sentText plaintext : Bytes}
    (hsent : SentAt (network.trace prims schedule) receiver i packet sentText) :
    ¬ AcceptedAt (network.trace prims schedule) receiver j packet
      plaintext := by
  intro haccepted
  rcases hlinked.accepted_computed hcalls hmac haccepted with
    ⟨aad, haad, _, _, _, source, hsource, hcomputes⟩
  rcases hsent with ⟨event, hevent, hparty, hsent⟩
  rcases hlinked.before_event hcalls hevent with
    ⟨current, action, _, hcurrent, rfl⟩
  rcases SessionManager.computesTag_of_sent prims hsent with
    ⟨aad', txKey, haad', htxKey, hown⟩
  have hreceiver : action.1 = receiver := hparty
  have hback : back = txKey := by
    rw [hreceiver, hcurrent.backKey] at htxKey
    exact Option.some.inj htxKey
  have hslice : aad' = aad := by
    rcases aad with ⟨bytes, _⟩
    rcases aad' with ⟨bytes', _⟩
    rw [Slice.mk.injEq]
    exact haad'.trans haad.symm
  rw [hslice] at hown
  apply hdistinct
  rw [hback]
  exact hseparate _ (List.mem_of_getElem? hevent) _
    (List.mem_of_getElem? hsource) _ _ _ _ hown hcomputes

end PacketCalls

/-- An accepted packet was sent before by the other side. -/
theorem Linked.accepted_origin
    {keystream : Block 32 → Block 12 → ℕ → UInt8}
    (hkeystream : prims.KeystreamFixed keystream)
    (hlinked : Linked sender receiver key back
      ([] : List (Event ι DecapsKey SigningKey)) network)
    (hcalls : ∀ action ∈ schedule,
      (action.1 = sender ∨ action.1 = receiver) ∧ action.2.isPacket = true)
    (hdistinct : macHalf back ≠ macHalf key)
    (hmac : IdealMac prims (network.trace prims schedule))
    {j : ℕ} {packet : Packet} {plaintext : Bytes}
    (haccepted : AcceptedAt (network.trace prims schedule) receiver j packet
      plaintext) :
    ∃ i < j, SentAt (network.trace prims schedule) sender i packet
      plaintext := by
  have hpackets : ∀ action ∈ schedule, action.2.isPacket = true :=
    fun action haction => (hcalls action haction).2
  rcases hlinked.accepted_computed hpackets hmac haccepted with
    ⟨aad, haad, hopen, i, hlt, source, hsource, hcomputes⟩
  rcases hlinked.before_event hpackets hsource with
    ⟨earlier, sending, hsending, hearlier, rfl⟩
  rcases SessionManager.perform_computesTag prims hcomputes with
    ⟨txKey, aad', plaintext', ciphertext, nonce, htxKey, hhalf, hinput, hseal,
      hsent⟩
  have hsender : sending.1 = sender := by
    rcases (hcalls sending hsending).1 with hsender | hself
    · exact hsender
    · rw [hself, hearlier.backKey] at htxKey
      rw [← Option.some.inj htxKey] at hhalf
      exact absurd hhalf hdistinct
  have hkeyEq : txKey = key := by
    rw [hsender, hearlier.senderKey] at htxKey
    exact (Option.some.inj htxKey).symm
  subst hkeyEq
  rcases macInput_inj hinput with ⟨haadEq, rfl, rfl⟩
  have hplaintext : plaintext = plaintext' := hkeystream.twice hseal hopen
  refine ⟨i, hlt, _, hsource, hsender, ?_⟩
  rw [hplaintext]
  refine hsent.trans ?_
  rw [haadEq, haad]

theorem Linked.deliveredOnce
    {keystream : Block 32 → Block 12 → ℕ → UInt8}
    (hkeystream : prims.KeystreamFixed keystream)
    (hlinked : Linked sender receiver key back
      ([] : List (Event ι DecapsKey SigningKey)) network)
    (hcalls : ∀ action ∈ schedule,
      (action.1 = sender ∨ action.1 = receiver) ∧ action.2.isPacket = true)
    (hdistinct : macHalf back ≠ macHalf key)
    (hmac : IdealMac prims (network.trace prims schedule)) :
    DeliveredOnce (network.trace prims schedule) sender receiver := by
  have hpackets : ∀ action ∈ schedule, action.2.isPacket = true :=
    fun action haction => (hcalls action haction).2
  have honce : ∀ j j' packet packet' plaintext plaintext',
      AcceptedAt (network.trace prims schedule) receiver j packet plaintext →
      AcceptedAt (network.trace prims schedule) receiver j' packet'
        plaintext' →
        packet.nonce = packet'.nonce → j = j' := by
    intro j j' packet packet' plaintext plaintext' hj hj' hnonce
    have hforward := hlinked.accepted_once hpackets hj hj' hnonce
    have hbackward := hlinked.accepted_once hpackets hj' hj hnonce.symm
    omega
  have horigin : ∀ j, ∃ i, ∀ packet plaintext,
      AcceptedAt (network.trace prims schedule) receiver j packet plaintext →
        i < j ∧ SentAt (network.trace prims schedule) sender i packet
          plaintext := by
    intro j
    by_cases hex : ∃ packet plaintext,
        AcceptedAt (network.trace prims schedule) receiver j packet plaintext
    · rcases hex with ⟨packet, plaintext, haccepted⟩
      rcases hlinked.accepted_origin hkeystream hcalls hdistinct hmac
          haccepted with ⟨i, hlt, hsent⟩
      refine ⟨i, ?_⟩
      intro packet' plaintext' haccepted'
      rcases haccepted with ⟨event, hevent, _, haccepted⟩
      rcases haccepted' with ⟨event', hevent', _, haccepted'⟩
      rw [hevent] at hevent'
      cases hevent'
      rw [haccepted] at haccepted'
      cases haccepted'
      exact ⟨hlt, hsent⟩
    · refine ⟨0, ?_⟩
      intro packet plaintext haccepted
      exact absurd ⟨packet, plaintext, haccepted⟩ hex
  choose source hsource using horigin
  refine ⟨⟨source, hsource, ?_⟩, honce, ?_⟩
  · intro j j' packet packet' plaintext plaintext' hj hj' heq
    rcases (hsource j packet plaintext hj).2 with ⟨event, hevent, _, hsent⟩
    rcases (hsource j' packet' plaintext' hj').2 with
      ⟨event', hevent', _, hsent'⟩
    rw [← heq, hevent] at hevent'
    cases hevent'
    rw [hsent] at hsent'
    cases hsent'
    exact honce j j' packet packet plaintext plaintext hj hj' rfl
  · intro hseparate i j packet sentText plaintext hsent
    exact hlinked.not_accepted_own hpackets hdistinct hmac hseparate hsent

/-- Whatever the network does with the packets, each side accepts exactly
once and unchanged what the other side sent, and nothing that it sent itself
unless the tags under the two keys collide. -/
theorem packets_delivered_exactly_once
    {keystream : Block 32 → Block 12 → ℕ → UInt8}
    (hkeystream : prims.KeystreamFixed keystream)
    {a b : ι} {keyAB keyBA : Block 64}
    (ha : (network a).Fresh keyAB keyBA) (hb : (network b).Fresh keyBA keyAB)
    (hdistinct : macHalf keyAB ≠ macHalf keyBA)
    (hcalls : ∀ action ∈ schedule,
      (action.1 = a ∨ action.1 = b) ∧ action.2.isPacket = true)
    (hmac : IdealMac prims (network.trace prims schedule)) :
    DeliveredOnce (network.trace prims schedule) a b ∧
      DeliveredOnce (network.trace prims schedule) b a := by
  have hforward : Linked a b keyAB keyBA
      ([] : List (Event ι DecapsKey SigningKey)) network :=
    ⟨ha.txKey_eq, hb.rxKey_eq, hb.txKey_eq, hb.received⟩
  have hbackward : Linked b a keyBA keyAB
      ([] : List (Event ι DecapsKey SigningKey)) network :=
    ⟨hb.txKey_eq, ha.rxKey_eq, ha.txKey_eq, ha.received⟩
  constructor
  · exact hforward.deliveredOnce hkeystream hcalls hdistinct.symm hmac
  · apply hbackward.deliveredOnce hkeystream _ hdistinct hmac
    intro action haction
    exact ⟨(hcalls action haction).1.symm, (hcalls action haction).2⟩

end Runs

/-! The reference primitives carry one packet from one side to the other. -/

namespace Reference

def network : Network Bool UInt8
  | true => .installed (Block.fill 64 1) (Block.fill 64 2) none
  | false => .installed (Block.fill 64 2) (Block.fill 64 1) none

def sealedPacket : EncryptPacketOutcome UInt8 :=
  (network true).encryptPacket primitives ⟨[7], by decide⟩ [8, 9] [0, 0]
    (Block.fill 12 0) (Block.fill 48 0)

def deliverySchedule : List (Bool × Call UInt8) :=
  [(true, .encryptPacket ⟨[7], by decide⟩ [8, 9] [0, 0] (Block.fill 12 0)
      (Block.fill 48 0)),
    (false, .decryptPacket ⟨[7], by decide⟩ sealedPacket.ciphertext
      sealedPacket.nonce sealedPacket.tag [0, 0])]

theorem network_idealMac :
    IdealMac primitives (network.trace primitives deliverySchedule) := by
  intro key j event aad ciphertext nonce tag buffer hevent hcall hkey htag
  match j with
  | 0 =>
      cases hevent
      cases hcall
  | 1 =>
      cases hevent
      cases hcall
      cases hkey
      refine ⟨0, Nat.zero_lt_one, _, rfl, ⟨[7], by decide⟩, [8, 9], [0, 0],
        Block.fill 12 0, Block.fill 48 0, sealedPacket.ciphertext,
        sealedPacket.nonce, Block.fill 64 1, rfl, ?_, rfl, rfl, rfl⟩
      decide +kernel
  | j + 2 => cases hevent

theorem network_tagsSeparate :
    TagsSeparate (network.trace primitives deliverySchedule) := by
  have hkey : ∀ event ∈ network.trace primitives deliverySchedule,
      ∀ macKey input tag, event.ComputesTag macKey input tag →
        macKey = macHalf (Block.fill 64 1) := by
    intro event hevent macKey input tag hcomputes
    rcases hcomputes with
      ⟨_, _, _, _, _, _, _, key, hcall, _, htxKey, rfl, _⟩
    rcases List.mem_pair.mp hevent with rfl | rfl
    · cases htxKey
      rfl
    · cases hcall
  intro first hfirst second hsecond macKey macKey' input tag hmac hmac'
  rw [hkey first hfirst _ _ _ hmac, hkey second hsecond _ _ _ hmac']

theorem packet_delivered :
    AcceptedAt (network.trace primitives deliverySchedule) false 1
        ⟨[7], sealedPacket.ciphertext, sealedPacket.nonce, sealedPacket.tag⟩
        [8, 9] ∧
      TagsSeparate (network.trace primitives deliverySchedule) ∧
      DeliveredOnce (network.trace primitives deliverySchedule) true false := by
  refine ⟨?_, network_tagsSeparate, ?_⟩
  · refine ⟨_, rfl, rfl, ?_⟩
    decide +kernel
  · have hsender : (network true).Fresh (Block.fill 64 1) (Block.fill 64 2) :=
      ⟨rfl, rfl, rfl, rfl, rfl, rfl, rfl⟩
    have hreceiver :
        (network false).Fresh (Block.fill 64 2) (Block.fill 64 1) :=
      ⟨rfl, rfl, rfl, rfl, rfl, rfl, rfl⟩
    refine (packets_delivered_exactly_once primitives_keystreamFixed hsender
      hreceiver ?_ ?_ network_idealMac).1
    · decide
    · decide

end Reference

end ShawnCore
