import ShawnCore.PacketDelivery
import ShawnCore.SessionFailures

/-!
# Honest handshakes interoperate

With primitives which do what they are documented to do, both handshakes of two
honest sides succeed, leave them with the same directional keys the other way
round, and every packet one side then produces is opened by the other.
-/

namespace ShawnCore

open ByteBlocks

variable {ι DecapsKey SigningKey : Type}

/-- The documented behaviour of the third-party primitives, on the inputs an
honest run gives them. -/
structure Primitives.WellBehaved
    (prims : Primitives DecapsKey SigningKey)
    (keystream : Block 32 → Block 12 → ℕ → UInt8) : Prop where
  kemSeeds : ∀ seed, ∃ dk, prims.mlKemFromSeed seed = .ok dk
  kemEncapsulates : ∀ dk entropy, ∃ result,
    prims.mlKemEncapsulateDeterministic (prims.mlKemEncapsulationKey dk)
      entropy = .ok result
  kemCorrect : prims.KemCorrect
  dhCommutes : prims.DhCommutes
  zeroNotContributory : prims.ZeroNotContributory
  signatureCorrect : prims.SignatureCorrect
  signingTotal : prims.SigningTotal
  hmacTotal : prims.HmacTotal
  hkdfTotal : prims.HkdfTotal
  keystreamFixed : prims.KeystreamFixed keystream
  cipherAccepts : ∀ key nonce, prims.chacha20NewFromSlices key nonce = true
  cipherApplies : ∀ key nonce data, data.length ≤ chacha20MaxBytes →
    ∃ out, prims.chacha20TryApplyKeystream key nonce data = (true, out)

/-! ## Packets between two sides with crossed keys -/

namespace SessionManager

variable (prims : Primitives DecapsKey SigningKey)

theorem perform_isPacket_isOpen
    {manager : SessionManager DecapsKey} {call : Call SigningKey}
    (hcall : call.isPacket = true) (hopen : manager.IsOpen) :
    (manager.perform ⟨prims, call⟩).after.IsOpen := by
  cases call with
  | encryptPacket aad plaintext ciphertext nonce tag =>
      rcases encryptPacket_cases prims manager aad plaintext ciphertext nonce
          tag with ⟨failure, buffer, outTag, hcase⟩ |
        ⟨key, sealed, _, _, _, _, hcase⟩
      · simp only [perform, exec, hcase]
        exact hopen
      · simp only [perform, exec, hcase]
        exact hopen
  | decryptPacket aad ciphertext nonce tag plaintext =>
      rcases decryptPacket_cases prims manager aad ciphertext nonce tag
          plaintext with ⟨failure, buffer, hcase⟩ |
        ⟨key, opened, _, _, _, _, _, hcase⟩
      · simp only [perform, exec, hcase]
        exact hopen
      · simp only [perform, exec, hcase]
        rcases manager.commitRxNonce_frame nonce with ⟨_, _, hframe⟩
        rw [hframe]
        exact hopen
  | _ => cases hcall

/-- What a sent packet says about the sending manager. -/
theorem perform_sent
    {manager : SessionManager DecapsKey} {call : Call SigningKey} {party : ι}
    {packet : Packet} {plaintext : Bytes}
    (hsent : (⟨party, manager.perform ⟨prims, call⟩⟩ :
      Event ι DecapsKey SigningKey).sent? = some (packet, plaintext)) :
    ∃ key aad, manager.txKey = some key ∧ aad.bytes = packet.aad ∧
      plaintext.length ≤ chacha20MaxBytes ∧
      packet.nonce = sequenceNonce manager.txCounter ∧
      prims.chacha20TryApplyKeystream (key.slice 0 32 lowHalf_le) packet.nonce
        plaintext = (true, packet.ciphertext) ∧
      prims.hmacSha384 (key.slice 32 32 highHalf_le).bytes
        (macInput aad packet.ciphertext packet.nonce) = packet.tag := by
  cases call with
  | encryptPacket aad text buffer nonce tag =>
      rcases encryptPacket_cases prims manager aad text buffer nonce tag with
        ⟨failure, left, outTag, hcase⟩ |
        ⟨key, sealed, hkey, _, hlength, happly, hcase⟩
      · simp [Event.sent?, perform, exec, hcase] at hsent
      · simp only [Event.sent?, perform, exec, hcase, Option.some.injEq,
          Prod.mk.injEq] at hsent
        rcases hsent with ⟨rfl, rfl⟩
        exact ⟨key, aad, hkey, rfl, hlength, rfl, happly, rfl⟩
  | _ => simp [Event.sent?, perform] at hsent

/-- A genuine packet with an acceptable nonce is opened. -/
theorem perform_decryptPacket
    {manager : SessionManager DecapsKey} {aad : Slice}
    {ciphertext buffer opened : Bytes} {nonce : Block 12} {tag : Block 48}
    {key : Block 64} (party : ι)
    (hopen : manager.IsOpen) (hkey : manager.rxKey = some key)
    (hlengths : buffer.length = ciphertext.length)
    (hmax : ciphertext.length ≤ chacha20MaxBytes)
    (hmac : prims.hmacNewFromSlice (key.slice 32 32 highHalf_le).bytes = true)
    (htag : prims.hmacSha384 (key.slice 32 32 highHalf_le).bytes
      (macInput aad ciphertext nonce) = tag)
    (hcipher : prims.chacha20NewFromSlices (key.slice 0 32 lowHalf_le) nonce =
      true)
    (happly : prims.chacha20TryApplyKeystream (key.slice 0 32 lowHalf_le) nonce
      ciphertext = (true, opened))
    (hcheck : manager.checkRxNonce nonce = .ok ()) :
    (⟨party, manager.perform
        ⟨prims, .decryptPacket aad ciphertext nonce tag buffer⟩⟩ :
      Event ι DecapsKey SigningKey).accepted? =
        some (⟨aad.bytes, ciphertext, nonce, tag⟩, opened) := by
  have hok := (decryptPacket_ok_iff prims hopen.1 hopen.2 hkey hlengths hmax
    hmac htag hcipher happly).mpr hcheck
  rcases decryptPacket_cases prims manager aad ciphertext nonce tag
      buffer with ⟨failure, left, hcase⟩ |
    ⟨key', opened', hkey', _, _, _, happly', hcase⟩
  · rw [hcase] at hok
    cases hok
  · obtain rfl : key = key' := Option.some.inj (hkey.symm.trans hkey')
    have hsame : opened = opened' :=
      congrArg Prod.snd (happly.symm.trans happly')
    simp only [Event.accepted?, perform, exec, hcase, hsame]

end SessionManager

section Delivery

variable [DecidableEq ι] {prims : Primitives DecapsKey SigningKey}
variable {keystream : Block 32 → Block 12 → ℕ → UInt8}
variable {network : Network ι DecapsKey} {sender receiver : ι}
variable {key back : Block 64}

/-- Whatever packet calls are made, a packet of `sender` which is handed to
`receiver` unaltered is opened to what was encrypted, unless the receiver has
accepted its number before or a number at least 64 higher. -/
def OpensPackets
    (prims : Primitives DecapsKey SigningKey) (network : Network ι DecapsKey)
    (sender receiver : ι) : Prop :=
  ∀ (schedule : List (ι × Call SigningKey)) (i j : ℕ) (packet : Packet)
      (plaintext : Bytes) (aad : Slice) (buffer : Bytes),
    (∀ action ∈ schedule, action.2.isPacket = true) →
    SentAt (network.trace prims schedule) sender i packet plaintext →
    schedule[j]? = some (receiver, .decryptPacket aad packet.ciphertext
      packet.nonce packet.tag buffer) →
    aad.bytes = packet.aad →
    buffer.length = packet.ciphertext.length →
    (nonceSequence packet.nonce).toNat ∉
      committedBy receiver ((network.trace prims schedule).take j) →
    (∀ number ∈
        committedBy receiver ((network.trace prims schedule).take j),
      number < (nonceSequence packet.nonce).toNat + 64) →
    AcceptedAt (network.trace prims schedule) receiver j packet plaintext

theorem nonceAcceptable_of_recent
    {recorded : Finset ℕ} {sequence : UInt64}
    (hnew : sequence.toNat ∉ recorded)
    (hrecent : ∀ number ∈ recorded, number < sequence.toNat + 64) :
    SessionManager.NonceAcceptable recorded (sequenceNonce sequence) := by
  unfold SessionManager.NonceAcceptable
  rw [nonceSequence_sequenceNonce]
  refine ⟨by simp [sequenceNonce], hnew, ?_⟩
  have hpositive : (⊥ : ℕ) < sequence.toNat + 64 := by
    rw [Nat.bot_eq_zero]
    omega
  have hsup := (Finset.sup_lt_iff hpositive).mpr hrecent
  change recorded.sup id < sequence.toNat + 64 at hsup
  omega

/-- The link of one direction together with an open receiver. -/
structure OpenLink
    (sender receiver : ι) (key back : Block 64)
    (past : List (Event ι DecapsKey SigningKey))
    (network : Network ι DecapsKey) : Prop
    extends Linked sender receiver key back past network where
  isOpen : (network receiver).IsOpen

theorem OpenLink.step
    {past : List (Event ι DecapsKey SigningKey)}
    (hlink : OpenLink sender receiver key back past network)
    (action : ι × Call SigningKey) (hcall : action.2.isPacket = true) :
    OpenLink sender receiver key back
      (past ++ [(network.step prims action).2])
      (network.step prims action).1 := by
  refine ⟨hlink.toLinked.step prims action hcall, ?_⟩
  by_cases hparty : receiver = action.1
  · subst hparty
    rw [Network.step_self]
    exact SessionManager.perform_isPacket_isOpen prims hcall hlink.isOpen
  · rw [Network.step_other prims network action hparty]
    exact hlink.isOpen

theorem OpenLink.opensPackets
    (hprims : prims.WellBehaved keystream)
    (hlink : OpenLink sender receiver key back
      ([] : List (Event ι DecapsKey SigningKey)) network) :
    OpensPackets prims network sender receiver := by
  intro schedule i j packet plaintext aad buffer hcalls hsent hdelivery haad
    hlengths hnew hrecent
  rcases hsent with ⟨event, hevent, hsender, hsent⟩
  rcases hlink.toLinked.before_event hcalls hevent with
    ⟨earlier, sending, _, hearlier, rfl⟩
  rcases SessionManager.perform_sent prims hsent with
    ⟨txKey, sentAad, htxKey, hsentAad, hmax, hnonce, hseal, htag⟩
  -- The sender used the key which the receiver holds.
  have hkey : txKey = key := by
    change sending.1 = sender at hsender
    rw [hsender, hearlier.senderKey] at htxKey
    exact (Option.some.inj htxKey).symm
  subst hkey
  obtain rfl : aad = sentAad := by
    cases aad
    cases sentAad
    congr 1
    exact haad.trans hsentAad.symm
  have hcipherLength : packet.ciphertext.length = plaintext.length := by
    rw [hprims.keystreamFixed _ _ _ _ hseal, List.length_mapIdx]
  rcases hprims.cipherApplies (txKey.slice 0 32 lowHalf_le) packet.nonce
      packet.ciphertext (hcipherLength ▸ hmax) with ⟨opened, hopened⟩
  have hplaintext : opened = plaintext :=
    hprims.keystreamFixed.twice hseal hopened
  subst hplaintext
  -- The receiver is open and finds the number acceptable when it is handed
  -- the packet.
  have hstep : ∀ past (state : Network ι DecapsKey), ∀ action ∈ schedule,
      OpenLink sender receiver txKey back past state →
        OpenLink sender receiver txKey back
          (past ++ [(state.step prims action).2])
          (state.step prims action).1 := by
    intro past state action haction hgood
    exact hgood.step action (hcalls action haction)
  rcases Execution.trace_invariant_at hstep hlink hdelivery with
    ⟨current, hcurrent, hlast⟩
  have hcheck : (current receiver).checkRxNonce packet.nonce = .ok () := by
    rw [hcurrent.received.checkRxNonce_iff, List.nil_append, hnonce]
    rw [hnonce, nonceSequence_sequenceNonce] at hnew hrecent
    exact nonceAcceptable_of_recent hnew hrecent
  refine ⟨_, hlast, rfl, ?_⟩
  have haccepted := SessionManager.perform_decryptPacket prims receiver
    hcurrent.isOpen hcurrent.receiverKey hlengths (hcipherLength ▸ hmax)
    (hprims.hmacTotal _) htag (hprims.cipherAccepts _ _) hopened hcheck
  rw [haad] at haccepted
  exact haccepted

end Delivery

/-! ## How the hybrid key is cut -/

/-- The byte positions of the hybrid key which make up each directional
key. -/
def keygenTxPositions : List ℕ := List.range' 0 32 ++ List.range' 96 32

def keygenRxPositions : List ℕ := List.range' 32 64

theorem keygenTxKey_bytes (hybridKey : Block 128) :
    (keygenTxKey hybridKey).bytes =
      keygenTxPositions.map fun position => hybridKey.bytes.getD position 0 := by
  unfold keygenTxPositions
  rw [List.map_append, ← Block.slice_bytes_eq_map _ (by omega),
    ← Block.slice_bytes_eq_map _ (by omega)]
  rfl

theorem keygenRxKey_bytes (hybridKey : Block 128) :
    (keygenRxKey hybridKey).bytes =
      keygenRxPositions.map fun position => hybridKey.bytes.getD position 0 :=
  hybridKey.slice_bytes_eq_map (by omega)

/-- Two sides which hold the directional keys of one hybrid key, each the
other's, and open each other's packets. -/
structure Interoperate
    (prims : Primitives DecapsKey SigningKey)
    (keygen encapsulator : SessionManager DecapsKey) (hybridKey : Block 128) :
    Prop where
  keygen_fresh :
    keygen.Fresh (keygenTxKey hybridKey) (keygenRxKey hybridKey)
  encapsulator_fresh :
    encapsulator.Fresh (keygenRxKey hybridKey) (keygenTxKey hybridKey)
  txKey_layout : (keygenTxKey hybridKey).bytes =
    keygenTxPositions.map fun position => hybridKey.bytes.getD position 0
  rxKey_layout : (keygenRxKey hybridKey).bytes =
    keygenRxPositions.map fun position => hybridKey.bytes.getD position 0
  partition : (keygenTxPositions ++ keygenRxPositions).Perm (List.range 128)
  opensPackets : ∀ {ι : Type} [DecidableEq ι] (network : Network ι DecapsKey)
      (a b : ι), network a = keygen → network b = encapsulator →
    OpensPackets prims network a b ∧ OpensPackets prims network b a

theorem SessionManager.installed_fresh (txKey rxKey : Block 64) :
    (SessionManager.installed txKey rxKey none :
      SessionManager DecapsKey).Fresh txKey rxKey :=
  ⟨rfl, rfl, rfl, rfl, rfl, rfl, rfl⟩

theorem interoperate_of_installed
    {prims : Primitives DecapsKey SigningKey}
    {keystream : Block 32 → Block 12 → ℕ → UInt8}
    (hprims : prims.WellBehaved keystream) (hybridKey : Block 128) :
    Interoperate prims
      (.installed (keygenTxKey hybridKey) (keygenRxKey hybridKey) none)
      (.installed (keygenRxKey hybridKey) (keygenTxKey hybridKey) none)
      hybridKey := by
  have hkeygen : (SessionManager.installed (keygenTxKey hybridKey)
      (keygenRxKey hybridKey) none : SessionManager DecapsKey).Fresh _ _ :=
    SessionManager.installed_fresh _ _
  have hencapsulator : (SessionManager.installed (keygenRxKey hybridKey)
      (keygenTxKey hybridKey) none : SessionManager DecapsKey).Fresh _ _ :=
    SessionManager.installed_fresh _ _
  refine ⟨hkeygen, hencapsulator, keygenTxKey_bytes hybridKey,
    keygenRxKey_bytes hybridKey, by decide, ?_⟩
  intro ι _ network a b ha hb
  rw [← ha] at hkeygen
  rw [← hb] at hencapsulator
  constructor
  · apply OpenLink.opensPackets hprims
    exact ⟨⟨hkeygen.txKey_eq, hencapsulator.rxKey_eq, hencapsulator.txKey_eq,
      hencapsulator.received⟩, hencapsulator.established,
      hencapsulator.confirmed⟩
  · apply OpenLink.opensPackets hprims
    exact ⟨⟨hencapsulator.txKey_eq, hkeygen.rxKey_eq, hkeygen.txKey_eq,
      hkeygen.received⟩, hkeygen.established, hkeygen.confirmed⟩

/-! ## The handshakes of two honest sides -/

/-- What two honest sides bring to a handshake.  Both managers may be in any
state. -/
structure HonestPair (prims : Primitives DecapsKey SigningKey) where
  keygenStart : SessionManager DecapsKey
  encapsulatorStart : SessionManager DecapsKey
  keygenEntropy : Block 96
  encapsulatorEntropy : Block 64
  salt : Bytes
  keygenEntropy_ok : entropyRejected keygenEntropy = false
  encapsulatorEntropy_ok : entropyRejected encapsulatorEntropy = false
  contributory : prims.x25519WasContributory (prims.x25519DiffieHellman
    (encapsulatorEntropy.slice 32 32 highHalf_le)
    (prims.x25519PublicKey (keygenEntropy.slice 64 32 x25519Seed_le))) = true

namespace HonestPair

variable {prims : Primitives DecapsKey SigningKey}
variable {keystream : Block 32 → Block 12 → ℕ → UInt8}
variable (pair : HonestPair prims)

def keygenSecret : X25519Secret := pair.keygenEntropy.slice 64 32 x25519Seed_le

def encapsulatorSecret : X25519Secret :=
  pair.encapsulatorEntropy.slice 32 32 highHalf_le

/-- The secrets of the pair: its decapsulation key, the ciphertext for it and
the two shared secrets, which both sides compute. -/
structure Secrets
    (dk : DecapsKey) (ct : Ciphertext1024) (pqSecret classicalSecret : Block 32) :
    Prop where
  seeded : prims.mlKemFromSeed (pair.keygenEntropy.slice 0 64 kemSeed_le) =
    .ok dk
  encapsulated : mlKemEncapsulate prims (prims.mlKemEncapsulationKey dk)
    (pair.encapsulatorEntropy.slice 0 32 lowHalf_le) = .ok (pqSecret, ct)
  decapsulated : mlKemDecapsulate prims dk ct = .ok pqSecret
  encapsulatorShared : x25519DiffieHellman prims pair.encapsulatorSecret
    (prims.x25519PublicKey pair.keygenSecret) = .ok classicalSecret
  keygenShared : x25519DiffieHellman prims pair.keygenSecret
    (prims.x25519PublicKey pair.encapsulatorSecret) = .ok classicalSecret

theorem x25519DiffieHellman_of_contributory
    (hzero : prims.ZeroNotContributory) {secret : X25519Secret}
    {theirPublic : X25519Public}
    (hcontributory : prims.x25519WasContributory
      (prims.x25519DiffieHellman secret theirPublic) = true) :
    x25519DiffieHellman prims secret theirPublic =
      .ok (prims.x25519DiffieHellman secret theirPublic) := by
  refine (x25519DiffieHellman_eq_ok prims).mpr ⟨?_, hcontributory, rfl⟩
  rw [← Bool.not_eq_true]
  intro hall
  rw [hzero secret theirPublic hall] at hcontributory
  cases hcontributory

theorem exists_secrets (hprims : prims.WellBehaved keystream) :
    ∃ dk ct pqSecret classicalSecret,
      pair.Secrets dk ct pqSecret classicalSecret := by
  rcases hprims.kemSeeds (pair.keygenEntropy.slice 0 64 kemSeed_le) with
    ⟨dk, hseeded⟩
  rcases hprims.kemEncapsulates dk
      (pair.encapsulatorEntropy.slice 0 32 lowHalf_le) with
    ⟨⟨ct, pqSecret⟩, hencaps⟩
  have hcommutes := hprims.dhCommutes pair.encapsulatorSecret pair.keygenSecret
  have hcontributory := pair.contributory
  refine ⟨dk, ct, pqSecret, _, hseeded, ?_, hprims.kemCorrect _ _ _ _ hencaps,
    x25519DiffieHellman_of_contributory hprims.zeroNotContributory
      hcontributory, ?_⟩
  · unfold mlKemEncapsulate
    rw [hencaps]
    rfl
  · change prims.x25519WasContributory (prims.x25519DiffieHellman
      pair.encapsulatorSecret (prims.x25519PublicKey pair.keygenSecret)) =
        true at hcontributory
    rw [hcommutes] at hcontributory
    rw [hcommutes]
    exact x25519DiffieHellman_of_contributory hprims.zeroNotContributory
      hcontributory

/-- The manager of the key-generating side while it waits for its peer. -/
def pending (dk : DecapsKey) : SessionManager DecapsKey :=
  { (SessionManager.new : SessionManager DecapsKey) with
    mlKemDk := some dk
    x25519Sk := some pair.keygenSecret }

variable {dk : DecapsKey} {ct : Ciphertext1024}
variable {pqSecret classicalSecret : Block 32}

theorem initiate_eq
    (hsecrets : pair.Secrets dk ct pqSecret classicalSecret) :
    pair.keygenStart.initiateHandshake prims pair.keygenEntropy =
      (.ok (prims.mlKemEncapsulationKey dk,
        prims.x25519PublicKey pair.keygenSecret), pair.pending dk) := by
  unfold SessionManager.initiateHandshake mlKemKeygen
  simp only [pair.keygenEntropy_ok, hsecrets.seeded, bind, Except.bind, pure,
    Except.pure, Bool.false_eq_true, if_false]
  rfl

/-- The hybrid key of a handshake with the given ciphertext and info. -/
def hybridKey
    (ct : Ciphertext1024) (pqSecret classicalSecret : Block 32)
    (info : Bytes) : Block 128 :=
  KeyedHash.expand prims.hmacSha384
    (hybridPrk prims pqSecret classicalSecret pair.salt).bytes
    (handshakeTranscript prims ct
      (prims.x25519PublicKey pair.encapsulatorSecret) info).bytes 128

theorem deriveHybridKey_of_total
    (hhkdf : prims.HkdfTotal) (salt info : Bytes) :
    deriveHybridKey prims pqSecret classicalSecret salt info =
      .ok (KeyedHash.expand prims.hmacSha384
        (hybridPrk prims pqSecret classicalSecret salt).bytes info 128) := by
  unfold deriveHybridKey hkdfExpand
  rw [hhkdf info 128 (by omega)]
  rfl

theorem encapsulateForPeer_eq
    (hhkdf : prims.HkdfTotal)
    (hsecrets : pair.Secrets dk ct pqSecret classicalSecret) (info : Bytes) :
    pair.encapsulatorStart.encapsulateForPeer prims
        (prims.mlKemEncapsulationKey dk)
        (prims.x25519PublicKey pair.keygenSecret) pair.encapsulatorEntropy
        pair.salt info =
      (.ok (ct, prims.x25519PublicKey pair.encapsulatorSecret),
        .installed
          (keygenRxKey (pair.hybridKey ct pqSecret classicalSecret info))
          (keygenTxKey (pair.hybridKey ct pqSecret classicalSecret info))
          none) := by
  have hshared := hsecrets.encapsulatorShared
  unfold encapsulatorSecret at hshared
  have hderived : SessionManager.encapsulateSecrets prims
      (prims.mlKemEncapsulationKey dk)
      (prims.x25519PublicKey pair.keygenSecret) pair.encapsulatorEntropy
      pair.salt info false =
        .ok (⟨ct, prims.x25519PublicKey pair.encapsulatorSecret, none⟩,
          pair.hybridKey ct pqSecret classicalSecret info) := by
    unfold SessionManager.encapsulateSecrets
    simp only [hsecrets.encapsulated, x25519Keygen, hshared,
      deriveHybridKey_of_total hhkdf, bind, Except.bind, Bool.false_eq_true,
      if_false]
    rfl
  unfold SessionManager.encapsulateForPeer SessionManager.encapsulateInner
  simp only [pair.encapsulatorEntropy_ok, hderived, Bool.false_eq_true,
    if_false]
  rfl

theorem finalizeHandshake_eq
    (hhkdf : prims.HkdfTotal)
    (hsecrets : pair.Secrets dk ct pqSecret classicalSecret) (info : Bytes) :
    (pair.pending dk).finalizeHandshake prims
        (prims.x25519PublicKey pair.encapsulatorSecret) ct pair.salt info =
      (.ok (), .installed
        (keygenTxKey (pair.hybridKey ct pqSecret classicalSecret info))
        (keygenRxKey (pair.hybridKey ct pqSecret classicalSecret info))
        none) := by
  have hderived : SessionManager.finalizeSecrets prims dk pair.keygenSecret
      (prims.x25519PublicKey pair.encapsulatorSecret) ct pair.salt info =
        .ok (pair.hybridKey ct pqSecret classicalSecret info) := by
    unfold SessionManager.finalizeSecrets
    simp only [hsecrets.decapsulated, hsecrets.keygenShared,
      deriveHybridKey_of_total hhkdf, bind, Except.bind]
    rfl
  unfold SessionManager.finalizeHandshake pending
  simp only [hderived]
  rfl

/-! ### The authenticated flow -/

/-- The arguments of the encapsulating side. -/
def encapsulateArgs
    (keygenKey encapsulatorKey : SigningKey) (dk : DecapsKey)
    (appInfo : Bytes) : EncapsulateAuthenticatedArgs SigningKey where
  ownSigningKey := encapsulatorKey
  peerVerifyingKey := prims.mlDsaVerifyingKey keygenKey
  peerMlKemPk := prims.mlKemEncapsulationKey dk
  peerX25519Pk := prims.x25519PublicKey pair.keygenSecret
  entropy := pair.encapsulatorEntropy
  salt := pair.salt
  appInfo := appInfo

/-- The arguments of the key-generating side, which has received `output`. -/
def finalizeArgs
    (keygenKey encapsulatorKey : SigningKey)
    (output : EncapsulateAuthenticatedOutput) (appInfo : Bytes) :
    FinalizeAuthenticatedArgs SigningKey where
  ownSigningKey := keygenKey
  peerVerifyingKey := prims.mlDsaVerifyingKey encapsulatorKey
  peerX25519Pk := output.pk
  mlKemCt := output.ct
  peerSignature := output.signature
  peerConfirmation := output.confirmation
  salt := pair.salt
  appInfo := appInfo

/-- The authenticated handshake succeeds in all four calls and installs the
keys of the unauthenticated one with the binding as its info. -/
theorem authenticated_flow
    (hprims : prims.WellBehaved keystream)
    (hsecrets : pair.Secrets dk ct pqSecret classicalSecret)
    (keygenKey encapsulatorKey : SigningKey) {appInfo : Bytes}
    (hlength : appInfo.length < 2 ^ 32) :
    let args := pair.encapsulateArgs keygenKey encapsulatorKey dk appInfo
    let hybrid := pair.hybridKey ct pqSecret classicalSecret
      (args.binding prims).bytes
    ∃ output unconfirmed proof,
      output.ct = ct ∧
      output.pk = prims.x25519PublicKey pair.encapsulatorSecret ∧
      pair.encapsulatorStart.encapsulateAuthenticated prims args =
        (.ok output, unconfirmed) ∧
      (pair.pending dk).finalizeAuthenticated prims
          (pair.finalizeArgs keygenKey encapsulatorKey output appInfo) =
        (.ok proof, .installed (keygenTxKey hybrid) (keygenRxKey hybrid)
          none) ∧
      unconfirmed.confirmPeer prims ⟨prims.mlDsaVerifyingKey keygenKey,
          proof.signature, proof.confirmation⟩ =
        (.ok (), .installed (keygenRxKey hybrid) (keygenTxKey hybrid)
          none) := by
  intro args hybrid
  let pk := prims.x25519PublicKey pair.encapsulatorSecret
  let exchange := args.exchange prims ct pk
  let prk := hybridPrk prims pqSecret classicalSecret pair.salt
  let tag := exchange.encapsulatorTag prims prk
  let keygenTag := exchange.keygenTag prims prk tag
  rcases hprims.signingTotal encapsulatorKey (exchange.digest prims tag).bytes
      _ SessionManager.contextEncapsulatingSide_length with ⟨signature, hsign⟩
  rcases hprims.signingTotal keygenKey (keygenDigest prims
      (exchange.digest prims tag) keygenTag).bytes
      _ SessionManager.contextKeygenSide_length with ⟨keygenSignature, hkeygenSign⟩
  let unconfirmed : SessionManager DecapsKey :=
    .installed (keygenRxKey hybrid) (keygenTxKey hybrid)
      (some ⟨exchange.digest prims tag,
        identityFingerprint prims args.peerVerifyingKey,
        exchange.keygenConfirmKey prims prk⟩)
  have hencapsulated : pair.encapsulatorStart.encapsulateAuthenticated prims
      args = (.ok ⟨ct, pk, signature, tag⟩, unconfirmed) := by
    have hshared := hsecrets.encapsulatorShared
    unfold encapsulatorSecret at hshared
    exact SessionManager.encapsulateAuthenticated_of_signed hprims.hmacTotal
      hprims.hkdfTotal pair.encapsulatorStart hlength
      pair.encapsulatorEntropy_ok hsecrets.encapsulated hshared rfl rfl rfl
      hsign
  refine ⟨⟨ct, pk, signature, tag⟩, unconfirmed,
    ⟨keygenSignature, keygenTag⟩, rfl, rfl, hencapsulated, ?_, ?_⟩
  · have hprk : (pair.finalizeArgs keygenKey encapsulatorKey
        ⟨ct, pk, signature, tag⟩ appInfo).prk prims dk pair.keygenSecret =
          .ok prk := by
      unfold FinalizeAuthenticatedArgs.prk finalizeArgs
      simp only [hsecrets.decapsulated, pk, hsecrets.keygenShared, bind,
        Except.bind]
      rfl
    exact SessionManager.finalizeAuthenticated_of_signed hprims.hmacTotal
      hprims.hkdfTotal rfl rfl hlength hprk
      (hprims.signatureCorrect _ _ _ _ hsign) rfl hkeygenSign
  · exact SessionManager.confirmPeer_of_total hprims.hmacTotal rfl rfl
      (hprims.signatureCorrect _ _ _ _ hkeygenSign) rfl

/-! ### Main result -/

/-- `derive_hybrid_key` makes this key of the shared secrets of the pair, for
the exchanged ciphertext and public key. -/
def Derives
    (ct : Ciphertext1024) (pk : X25519Public) (info : Bytes)
    (hybrid : Block 128) : Prop :=
  ∃ dk pqSecret classicalSecret,
    pair.Secrets dk ct pqSecret classicalSecret ∧
    deriveHybridKey prims pqSecret classicalSecret pair.salt
      (handshakeTranscript prims ct pk info).bytes = .ok hybrid

theorem derives_hybridKey
    (hhkdf : prims.HkdfTotal)
    (hsecrets : pair.Secrets dk ct pqSecret classicalSecret) (info : Bytes) :
    pair.Derives ct (prims.x25519PublicKey pair.encapsulatorSecret) info
      (pair.hybridKey ct pqSecret classicalSecret info) :=
  ⟨dk, pqSecret, classicalSecret, hsecrets,
    deriveHybridKey_of_total hhkdf pair.salt _⟩

/-- `encapsulate_for_peer` and `finalize_handshake` on the message of the
waiting side both succeed and end in the given managers; the hybrid key is the
one derived from what they exchange. -/
def PlainHandshake
    (mlKemPk : PublicKey1024) (x25519Pk : X25519Public)
    (waiting : SessionManager DecapsKey) (info : Bytes) (hybrid : Block 128)
    (keygen encapsulator : SessionManager DecapsKey) : Prop :=
  ∃ ct pk, pair.Derives ct pk info hybrid ∧
    pair.encapsulatorStart.encapsulateForPeer prims mlKemPk x25519Pk
        pair.encapsulatorEntropy pair.salt info =
      (.ok (ct, pk), encapsulator) ∧
    waiting.finalizeHandshake prims pk ct pair.salt info = (.ok (), keygen)

/-- `encapsulate_authenticated`, `finalize_authenticated` and `confirm_peer`
on the message of the waiting side all succeed and end in the given managers;
the hybrid key is the one derived from what they exchange and the binding. -/
def AuthenticatedHandshake
    (keygenKey encapsulatorKey : SigningKey) (appInfo : Bytes)
    (binding : Block 48) (mlKemPk : PublicKey1024) (x25519Pk : X25519Public)
    (waiting : SessionManager DecapsKey) (hybrid : Block 128)
    (keygen encapsulator : SessionManager DecapsKey) : Prop :=
  ∃ output unconfirmed proof,
    pair.Derives output.ct output.pk binding.bytes hybrid ∧
    pair.encapsulatorStart.encapsulateAuthenticated prims
        { ownSigningKey := encapsulatorKey
          peerVerifyingKey := prims.mlDsaVerifyingKey keygenKey
          peerMlKemPk := mlKemPk
          peerX25519Pk := x25519Pk
          entropy := pair.encapsulatorEntropy
          salt := pair.salt
          appInfo := appInfo } =
      (.ok output, unconfirmed) ∧
    waiting.finalizeAuthenticated prims
        (pair.finalizeArgs keygenKey encapsulatorKey output appInfo) =
      (.ok proof, keygen) ∧
    unconfirmed.confirmPeer prims
        { peerVerifyingKey := prims.mlDsaVerifyingKey keygenKey
          peerSignature := proof.signature
          peerConfirmation := proof.confirmation } =
      (.ok (), encapsulator)

/-- Both handshakes of an honest pair succeed and leave two sides which
interoperate; the authenticated one installs the keys which the other one
installs with the handshake binding as its info. -/
theorem honest_handshakes_interoperate
    (hprims : prims.WellBehaved keystream)
    (keygenKey encapsulatorKey : SigningKey) (info : Bytes) {appInfo : Bytes}
    (hlength : appInfo.length < 2 ^ 32) :
    ∃ mlKemPk x25519Pk waiting binding,
      pair.keygenStart.initiateHandshake prims pair.keygenEntropy =
        (.ok (mlKemPk, x25519Pk), waiting) ∧
      handshakeBinding prims mlKemPk x25519Pk
        (identityFingerprint prims (prims.mlDsaVerifyingKey keygenKey))
        (identityFingerprint prims (prims.mlDsaVerifyingKey encapsulatorKey))
        appInfo = .ok binding ∧
      (∃ keygen encapsulator hybrid,
        pair.PlainHandshake mlKemPk x25519Pk waiting info hybrid keygen
          encapsulator ∧
        Interoperate prims keygen encapsulator hybrid) ∧
      ∃ keygen encapsulator hybrid,
        pair.AuthenticatedHandshake keygenKey encapsulatorKey appInfo binding
          mlKemPk x25519Pk waiting hybrid keygen encapsulator ∧
        Interoperate prims keygen encapsulator hybrid ∧
        pair.PlainHandshake mlKemPk x25519Pk waiting binding.bytes hybrid
          keygen encapsulator := by
  rcases pair.exists_secrets hprims with
    ⟨dk, ct, pqSecret, classicalSecret, hsecrets⟩
  have hplain : ∀ common, pair.PlainHandshake (prims.mlKemEncapsulationKey dk)
      (prims.x25519PublicKey pair.keygenSecret) (pair.pending dk) common
      (pair.hybridKey ct pqSecret classicalSecret common)
      (.installed
        (keygenTxKey (pair.hybridKey ct pqSecret classicalSecret common))
        (keygenRxKey (pair.hybridKey ct pqSecret classicalSecret common)) none)
      (.installed
        (keygenRxKey (pair.hybridKey ct pqSecret classicalSecret common))
        (keygenTxKey (pair.hybridKey ct pqSecret classicalSecret common))
        none) := by
    intro common
    exact ⟨ct, _, pair.derives_hybridKey hprims.hkdfTotal hsecrets common,
      pair.encapsulateForPeer_eq hprims.hkdfTotal hsecrets common,
      pair.finalizeHandshake_eq hprims.hkdfTotal hsecrets common⟩
  refine ⟨_, _, pair.pending dk, _, pair.initiate_eq hsecrets,
    SessionManager.handshakeBinding_of_length _ _ _ _ hlength,
    ⟨_, _, _, hplain info, interoperate_of_installed hprims _⟩, ?_⟩
  rcases pair.authenticated_flow hprims hsecrets keygenKey encapsulatorKey
      hlength with
    ⟨output, unconfirmed, proof, hct, hpk, hencapsulated, hfinalized,
      hconfirmed⟩
  refine ⟨_, _, _, ⟨output, unconfirmed, proof, ?_, hencapsulated, hfinalized,
    hconfirmed⟩, interoperate_of_installed hprims _, hplain _⟩
  rw [hct, hpk]
  exact pair.derives_hybridKey hprims.hkdfTotal hsecrets _

end HonestPair

namespace Reference

theorem primitives_wellBehaved :
    primitives.WellBehaved fun key _ _ => firstByte key where
  kemSeeds := primitives_kemTotal.fromSeed
  kemEncapsulates _ := primitives_kemTotal.encapsulate _
  kemCorrect := primitives_kemCorrect
  dhCommutes := primitives_dhCommutes
  zeroNotContributory := primitives_zeroNotContributory
  signatureCorrect := primitives_signatureCorrect
  signingTotal := primitives_signingTotal
  hmacTotal := primitives_hmacTotal
  hkdfTotal := primitives_hkdfTotal
  keystreamFixed := primitives_keystreamFixed
  cipherAccepts _ _ := rfl
  cipherApplies _ _ _ _ := ⟨_, rfl⟩

def honestPair : HonestPair primitives where
  keygenStart := .new
  encapsulatorStart := .new
  keygenEntropy := Block.fill 96 3
  encapsulatorEntropy := Block.fill 64 7
  salt := [9]
  keygenEntropy_ok := by decide +kernel
  encapsulatorEntropy_ok := by decide +kernel
  contributory := by decide +kernel

theorem honestPair_interoperates :
    ∃ mlKemPk x25519Pk waiting binding keygen encapsulator hybrid,
      honestPair.AuthenticatedHandshake 1 2 [4] binding mlKemPk x25519Pk
        waiting hybrid keygen encapsulator ∧
      Interoperate primitives keygen encapsulator hybrid := by
  rcases honestPair.honest_handshakes_interoperate primitives_wellBehaved 1 2
      [] (show [4].length < 2 ^ 32 by decide) with
    ⟨mlKemPk, x25519Pk, waiting, binding, _, _, _, keygen, encapsulator,
      hybrid, hflow, hinteroperate, _⟩
  exact ⟨mlKemPk, x25519Pk, waiting, binding, keygen, encapsulator, hybrid,
    hflow, hinteroperate⟩

end Reference

end ShawnCore
