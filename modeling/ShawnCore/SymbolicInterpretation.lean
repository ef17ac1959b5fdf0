import ShawnCore.AuthExchange
import ShawnCore.SymbolicNetwork

/-!
# The bytes behind the terms

An interpretation gives every secret its bytes, and with it every term a value
computed by the primitives.  What the operations of the session manager send and
install is then the value of the term which the symbolic party sends or accepts,
so the symbolic network describes the messages of the code.
-/

namespace ShawnCore
namespace Symbolic

open ByteBlocks

variable {DecapsKey SigningKey : Type}

/-- The bytes of the secrets, for primitives which meet their contracts. -/
structure Interpretation (prims : Primitives DecapsKey SigningKey) where
  secret : Secret → Block 32
  decapsulationKey : ℕ → DecapsKey
  signingKey : ℕ → SigningKey
  dhCommutes : prims.DhCommutes
  kemCorrect : prims.KemCorrect
  /-- Encapsulation to a generated key succeeds. -/
  kemTotal : ∀ dk entropy, ∃ ct shared,
    prims.mlKemEncapsulateDeterministic (prims.mlKemEncapsulationKey dk)
      entropy = .ok (ct, shared)

/-- The reference primitives meet the contracts. -/
def Interpretation.reference (secret : Secret → Block 32) :
    Interpretation Reference.primitives where
  secret := secret
  decapsulationKey session := UInt8.ofNat session
  signingKey identity := UInt8.ofNat identity
  dhCommutes := Reference.primitives_dhCommutes
  kemCorrect := Reference.primitives_kemCorrect
  kemTotal _ _ := ⟨_, _, rfl⟩

def Side.context : Side → Bytes
  | .encapsulating => contextEncapsulatingSide
  | .keygen => contextKeygenSide

def Side.confirmLabel : Side → Bytes
  | .encapsulating => confirmLabelEncapsulatingSide
  | .keygen => confirmLabelKeygenSide

/-- The half of the confirmation material which is the key of a side. -/
def Side.confirmKey (side : Side) (material : Block 96) : Block 48 :=
  match side with
  | .encapsulating => material.slice 0 48 encapsulatorHalf_le
  | .keygen => material.slice 48 48 keygenHalf_le

namespace Interpretation

variable {prims : Primitives DecapsKey SigningKey}
  (interp : Interpretation prims)

def encapsulationKey : Term → Bytes
  | .atom (.decapsulationKey session) =>
      (prims.mlKemEncapsulationKey (interp.decapsulationKey session)).bytes
  | _ => []

def verifyingKey : Term → Bytes
  | .atom (.signingKey identity) =>
      (prims.mlDsaVerifyingKey (interp.signingKey identity)).bytes
  | _ => []

def signed (side : Side) (digest : Bytes) : Term → Bytes
  | .atom (.signingKey identity) =>
      (prims.mlDsaSignDeterministic (interp.signingKey identity) digest
        side.context).getD []
  | _ => []

def rejected (ct : Ciphertext1024) : Term → Bytes
  | .atom (.decapsulationKey session) =>
      match prims.mlKemDecapsulate (interp.decapsulationKey session) ct with
      | .ok shared => shared.bytes
      | .error _ => []
  | _ => []

def shared (secrets : Sym2 Secret) : Block 32 :=
  Sym2.lift
    ⟨fun left right => prims.x25519DiffieHellman (interp.secret left)
        (prims.x25519PublicKey (interp.secret right)),
      fun left right =>
        interp.dhCommutes (interp.secret left) (interp.secret right)⟩
    secrets

/-- The bytes of a term.  An argument of fixed length is cut or padded to it, so
that terms which make no sense have some value as well. -/
@[simp] def value : Term → Bytes
  | .bytes data => data
  | .atom secret => (interp.secret secret).bytes
  | .ek dk => interp.encapsulationKey dk
  | .pub secret => (prims.x25519PublicKey (.clip 32 (value secret))).bytes
  | .pk sk => interp.verifyingKey sk
  | .ct ek r =>
      match prims.mlKemEncapsulateDeterministic (.clip 1568 (value ek))
          (.clip 32 (value r)) with
      | .ok (ct, _) => ct.bytes
      | .error _ => []
  | .ss ek r =>
      match prims.mlKemEncapsulateDeterministic (.clip 1568 (value ek))
          (.clip 32 (value r)) with
      | .ok (_, shared) => shared.bytes
      | .error _ => []
  | .ssrej dk ct => interp.rejected (.clip 1568 (value ct)) dk
  | .dh secrets => (interp.shared secrets).bytes
  | .dhx secret received =>
      (prims.x25519DiffieHellman (.clip 32 (value secret))
        (.clip 32 (value received))).bytes
  | .fingerprint vk =>
      (identityFingerprint prims (.clip 2592 (value vk))).bytes
  | .binding ek xk keygen encapsulator appInfo =>
      (prims.sha384 (handshakeBindingInput (.clip 1568 (value ek))
        (.clip 32 (value xk)) (.clip 48 (value keygen))
        (.clip 48 (value encapsulator)) (value appInfo))).bytes
  | .inner ct xe binding =>
      (handshakeTranscript prims (.clip 1568 (value ct)) (.clip 32 (value xe))
        (value binding)).bytes
  | .transcript binding ct xe =>
      (transcriptHash prims (.clip 48 (value binding)) (.clip 1568 (value ct))
        (.clip 32 (value xe))).bytes
  | .encapsulatorDigest transcript tag =>
      (encapsulatorDigest prims (.clip 48 (value transcript))
        (.clip 48 (value tag))).bytes
  | .keygenDigest digest tag =>
      (keygenDigest prims (.clip 48 (value digest))
        (.clip 48 (value tag))).bytes
  | .prk salt ss dh =>
      (hybridPrk prims (.clip 32 (value ss)) (.clip 32 (value dh))
        (value salt)).bytes
  | .confirmKey side prk inner =>
      (side.confirmKey (KeyedHash.expand prims.hmacSha384
        (Block.clip 48 (value prk)).bytes
        (confirmationInfo (.clip 48 (value inner))) 96)).bytes
  | .okm prk inner =>
      (KeyedHash.expand prims.hmacSha384 (Block.clip 48 (value prk)).bytes
        (Block.clip 48 (value inner)).bytes 128).bytes
  | .mac key side digest =>
      (prims.hmacSha384 (Block.clip 48 (value key)).bytes
        (side.confirmLabel ++ (Block.clip 48 (value digest)).bytes)).bytes
  | .sig sk side digest =>
      interp.signed side (Block.clip 48 (value digest)).bytes sk

def block (n : ℕ) (term : Term) : Block n :=
  .clip n (interp.value term)

/-! ## Exchanges -/

def exchange (exchange : Exchange) : ShawnCore.Exchange where
  mlKemPk := interp.block 1568 exchange.mlKemPk
  x25519Pk := interp.block 32 exchange.x25519Pk
  keygenKey := interp.block 2592 exchange.keygenKey
  encapsulatorKey := interp.block 2592 exchange.encapsulatorKey
  appInfo := interp.value exchange.appInfo
  ct := interp.block 1568 exchange.ct
  encapsulatorX25519Pk := interp.block 32 exchange.encapsulatorX25519Pk

variable (symbolic : Exchange) (prk tag : Term)

theorem value_binding :
    interp.value symbolic.binding =
      ((interp.exchange symbolic).binding prims).bytes := by
  simp [Exchange.binding, value, ShawnCore.Exchange.binding,
    ShawnCore.Exchange.bindingInput, exchange, block]

theorem value_transcript :
    interp.value symbolic.transcript =
      ((interp.exchange symbolic).transcript prims).bytes := by
  rw [Exchange.transcript, value, interp.value_binding symbolic,
    Block.clip_bytes]
  rfl

theorem value_inner :
    interp.value symbolic.inner =
      ((interp.exchange symbolic).inner prims).bytes := by
  rw [Exchange.inner, value, interp.value_binding symbolic]
  rfl

theorem value_sessionKey :
    interp.value (symbolic.sessionKey prk) =
      ((interp.exchange symbolic).sessionKey prims
        (interp.block 48 prk)).bytes := by
  rw [Exchange.sessionKey, value, interp.value_inner symbolic,
    Block.clip_bytes]
  rfl

theorem value_keygenConfirmKey :
    interp.value (.confirmKey .keygen prk symbolic.inner) =
      ((interp.exchange symbolic).keygenConfirmKey prims
        (interp.block 48 prk)).bytes := by
  rw [value, interp.value_inner symbolic, Block.clip_bytes]
  rfl

theorem value_encapsulatorTag :
    interp.value (symbolic.encapsulatorTag prk) =
      ((interp.exchange symbolic).encapsulatorTag prims
        (interp.block 48 prk)).bytes := by
  rw [Exchange.encapsulatorTag, value, value, interp.value_inner symbolic,
    interp.value_transcript symbolic, Block.clip_bytes, Block.clip_bytes,
    Block.clip_bytes]
  rfl

theorem value_digest :
    interp.value (symbolic.digest tag) =
      ((interp.exchange symbolic).digest prims (interp.block 48 tag)).bytes := by
  rw [Exchange.digest, value, interp.value_transcript symbolic,
    Block.clip_bytes]
  rfl

theorem value_keygenTag :
    interp.value (symbolic.keygenTag prk tag) =
      ((interp.exchange symbolic).keygenTag prims (interp.block 48 prk)
        (interp.block 48 tag)).bytes := by
  rw [Exchange.keygenTag, value, interp.value_keygenConfirmKey symbolic prk,
    interp.value_digest symbolic tag, Block.clip_bytes, Block.clip_bytes]
  rfl

/-! ## The shared secrets -/

theorem block_eq_of_value
    {n : ℕ} {term : Term} {data : Block n}
    (hvalue : interp.value term = data.bytes) :
    interp.block n term = data := by
  rw [block, hvalue, Block.clip_bytes]

theorem value_diffieHellman (secret : Secret) (received : Term) :
    interp.value (diffieHellman secret received) =
      (prims.x25519DiffieHellman (interp.secret secret)
        (interp.block 32 received)).bytes := by
  unfold diffieHellman
  split
  next other => simp [value, shared, block]
  next => simp [value, block]

theorem value_encapsulation
    {ek r : Term} {ct : Ciphertext1024} {secret : SharedKey1024}
    (hkem : prims.mlKemEncapsulateDeterministic (interp.block 1568 ek)
      (interp.block 32 r) = .ok (ct, secret)) :
    interp.value (.ct ek r) = ct.bytes ∧
      interp.value (.ss ek r) = secret.bytes := by
  unfold block at hkem
  simp only [value, hkem, and_self]

/-- Decapsulating with the key that a ciphertext was made for gives the
encapsulated secret; every other ciphertext gives its rejection secret. -/
theorem value_decapsulate
    {session : ℕ} {ct : Term} {secret : SharedKey1024}
    (hkem : mlKemDecapsulate prims (interp.decapsulationKey session)
      (interp.block 1568 ct) = .ok secret) :
    interp.value (decapsulate (.decapsulationKey session) ct) =
      secret.bytes := by
  have hrejected : interp.value (.ssrej (.atom (.decapsulationKey session)) ct)
      = secret.bytes := by
    unfold mlKemDecapsulate block at hkem
    simp only [value, rejected, hkem]
  unfold decapsulate
  split
  next owner r =>
    split
    next howner =>
      subst howner
      obtain ⟨sent, encapsulated, hsent⟩ :=
        interp.kemTotal (interp.decapsulationKey session) (interp.block 32 r)
      have hek : interp.block 1568
          (.ek (.atom (.decapsulationKey session))) =
          prims.mlKemEncapsulationKey (interp.decapsulationKey session) :=
        interp.block_eq_of_value rfl
      rw [← hek] at hsent
      obtain ⟨hct, hss⟩ := interp.value_encapsulation hsent
      rw [hek] at hsent
      rw [interp.block_eq_of_value hct] at hkem
      have hsame : encapsulated = secret :=
        Except.ok.inj ((interp.kemCorrect _ _ _ _ hsent).symm.trans hkem)
      rw [hss, hsame]
    next => exact hrejected
  next => exact hrejected

theorem value_signature
    {identity : ℕ} {side : Side} {digest : Term} {signature : Signature87}
    (hsign : mlDsaSignWithContext prims (interp.signingKey identity)
      (interp.block 48 digest).bytes side.context = .ok signature) :
    interp.value (Symbolic.signature identity side digest) =
      signature.bytes := by
  unfold mlDsaSignWithContext at hsign
  split at hsign
  next => cases hsign
  next data hdata =>
    split at hsign
    next hlength =>
      cases hsign
      unfold block at hdata
      simp only [Symbolic.signature, value, signed, hdata, Option.getD_some]
    next => cases hsign

/-! ## The operations -/

/-- The arguments with which the code is called. -/
def encapsulateArgs (call : Encapsulation) :
    EncapsulateAuthenticatedArgs SigningKey where
  ownSigningKey := interp.signingKey call.own
  peerVerifyingKey := interp.block 2592 (Symbolic.verifyingKey call.peer)
  peerMlKemPk := interp.block 1568 call.mlKemPk
  peerX25519Pk := interp.block 32 call.x25519Pk
  entropy := (interp.secret (.encapsulation call.session)).append
    (interp.secret (.encapsulatorX25519 call.session))
  salt := interp.value call.salt
  appInfo := interp.value call.appInfo

def finalizeArgs (call : Finalization) :
    FinalizeAuthenticatedArgs SigningKey where
  ownSigningKey := interp.signingKey call.own
  peerVerifyingKey := interp.block 2592 (Symbolic.verifyingKey call.peer)
  peerX25519Pk := interp.block 32 call.peerX25519Pk
  mlKemCt := interp.block 1568 call.ct
  peerSignature := interp.block 4627 call.peerSignature
  peerConfirmation := interp.block 48 call.peerConfirmation
  salt := interp.value call.salt
  appInfo := interp.value call.appInfo

def confirmArgs (call : Confirmation) : ConfirmPeerArgs where
  peerVerifyingKey := interp.block 2592 (Symbolic.verifyingKey call.peer)
  peerSignature := interp.block 4627 call.peerSignature
  peerConfirmation := interp.block 48 call.peerConfirmation

/-- The handshake state which the code keeps of an encapsulation. -/
def encapsulated (call : Encapsulation) : SessionManager DecapsKey :=
  .installed (keygenRxKey (interp.block 128 call.sessionKey))
    (keygenTxKey (interp.block 128 call.sessionKey))
    (some
      { digest := interp.block 48 call.digest
        peerIdentity :=
          interp.block 48 (.fingerprint (Symbolic.verifyingKey call.peer))
        confirmationKey := interp.block 48
          (.confirmKey .keygen call.prk call.exchange.inner) })

theorem block_verifyingKey (identity : ℕ) :
    interp.block 2592 (Symbolic.verifyingKey identity) =
      prims.mlDsaVerifyingKey (interp.signingKey identity) :=
  interp.block_eq_of_value rfl

theorem block_fingerprint (key : Term) :
    interp.block 48 (.fingerprint key) =
      identityFingerprint prims (interp.block 2592 key) :=
  interp.block_eq_of_value rfl

theorem value_pub (secret : Secret) :
    interp.value (.pub (.atom secret)) =
      (prims.x25519PublicKey (interp.secret secret)).bytes := by
  simp only [value, Block.clip_bytes]

theorem value_prk
    {salt ss dh : Term} {pqSecret classicalSecret : Block 32}
    (hss : interp.value ss = pqSecret.bytes)
    (hdh : interp.value dh = classicalSecret.bytes) :
    interp.value (.prk salt ss dh) =
      (hybridPrk prims pqSecret classicalSecret (interp.value salt)).bytes := by
  simp only [value, hss, hdh, Block.clip_bytes]

theorem value_diffieHellman_of_ok
    {secret : Secret} {received : Term} {classicalSecret : Block 32}
    (hdh : x25519DiffieHellman prims (interp.secret secret)
      (interp.block 32 received) = .ok classicalSecret) :
    interp.value (diffieHellman secret received) = classicalSecret.bytes := by
  rw [interp.value_diffieHellman,
    ((x25519DiffieHellman_eq_ok prims).mp hdh).2.2]

/-- The message and the state of an encapsulation are the values of the
symbolic ones. -/
theorem encapsulateAuthenticated_values
    {manager next : SessionManager DecapsKey} {call : Encapsulation}
    {output : EncapsulateAuthenticatedOutput}
    (hok : manager.encapsulateAuthenticated prims (interp.encapsulateArgs call) =
      (.ok output, next)) :
    [output.ct.bytes, output.pk.bytes, output.signature.bytes,
        output.confirmation.bytes] = call.messages.map interp.value ∧
      next = interp.encapsulated call := by
  obtain ⟨pqSecret, classicalSecret, prk, -, hkem, hdh, hpk, hprk, -, htag,
    hsign, hnext⟩ := SessionManager.encapsulateAuthenticated_ok hok
  simp only [encapsulateArgs, Block.slice_append_left] at hkem
  have hsk : (interp.encapsulateArgs call).entropy.slice 32 32 highHalf_le =
      interp.secret (.encapsulatorX25519 call.session) :=
    Block.slice_append_right _ _
  rw [hsk] at hdh hpk
  obtain ⟨⟨ct, secret⟩, hprim, hpair⟩ := Execution.bind_eq_ok.mp hkem
  cases hpair
  have hr : interp.block 32 (.atom (.encapsulation call.session)) =
      interp.secret (.encapsulation call.session) :=
    interp.block_eq_of_value rfl
  rw [← hr] at hprim
  obtain ⟨hct, hss⟩ := interp.value_encapsulation hprim
  have hprkBlock : interp.block 48 call.prk = prk := by
    rw [hprk]
    exact interp.block_eq_of_value
      (interp.value_prk hss (interp.value_diffieHellman_of_ok hdh))
  have hpkValue : interp.value call.ownX25519Pk = output.pk.bytes := by
    rw [hpk]
    exact interp.value_pub _
  have hexchange : (interp.encapsulateArgs call).exchange prims output.ct
      output.pk = interp.exchange call.exchange := by
    simp only [exchange, Encapsulation.exchange, Encapsulation.ct,
      interp.block_eq_of_value hct, interp.block_eq_of_value hpkValue,
      interp.block_verifyingKey call.own]
    rfl
  rw [hexchange, ← hprkBlock] at htag hnext
  rw [hexchange] at hsign
  have htagValue : interp.value call.tag = output.confirmation.bytes := by
    rw [htag]
    exact interp.value_encapsulatorTag _ _
  have hdigest : interp.block 48 call.digest =
      (interp.exchange call.exchange).digest prims output.confirmation := by
    rw [← interp.block_eq_of_value htagValue]
    exact interp.block_eq_of_value (interp.value_digest _ _)
  have hkey : interp.block 128 call.sessionKey =
      (interp.exchange call.exchange).sessionKey prims
        (interp.block 48 call.prk) :=
    interp.block_eq_of_value (interp.value_sessionKey _ _)
  have hsignature : interp.value
      (signature call.own .encapsulating call.digest) =
      output.signature.bytes := by
    apply interp.value_signature
    rw [hdigest]
    exact hsign
  constructor
  · simp only [Encapsulation.messages, List.map_cons, List.map_nil, hpkValue,
      htagValue, hsignature]
    rw [Encapsulation.ct, hct]
  · rw [hnext, encapsulated, hkey, hdigest, interp.block_fingerprint,
      interp.block_eq_of_value (interp.value_keygenConfirmKey _ _)]
    rfl

/-- A finalization checks the values of what the symbolic party checks, and
replies and installs the values of the symbolic reply and key. -/
theorem finalizeAuthenticated_values
    {manager next : SessionManager DecapsKey} {call : Finalization}
    {output : FinalizeAuthenticatedOutput}
    (hdk : manager.mlKemDk = some (interp.decapsulationKey call.session))
    (hsk : manager.x25519Sk =
      some (interp.secret (.keygenX25519 call.session)))
    (hok : manager.finalizeAuthenticated prims (interp.finalizeArgs call) =
      (.ok output, next)) :
    mlDsaVerifyWithContext prims
        (interp.block 2592 (Symbolic.verifyingKey call.peer))
        (interp.block 48 call.peerDigest).bytes contextEncapsulatingSide
        (interp.block 4627 call.peerSignature) = .ok () ∧
      interp.block 48 (call.exchange.encapsulatorTag call.prk) =
        interp.block 48 call.peerConfirmation ∧
      [output.signature.bytes, output.confirmation.bytes] =
        call.messages.map interp.value ∧
      next = .installed (keygenTxKey (interp.block 128 call.sessionKey))
        (keygenRxKey (interp.block 128 call.sessionKey)) none := by
  obtain ⟨dk, sk, prk, hdk', hsk', -, hprk, hverify, hpeer, htag, hsign,
    hnext⟩ := SessionManager.finalizeAuthenticated_ok hok
  cases hdk.symm.trans hdk'
  cases hsk.symm.trans hsk'
  obtain ⟨pqSecret, hkem, hrest⟩ := Execution.bind_eq_ok.mp hprk
  obtain ⟨classicalSecret, hdh, hprkEq⟩ := Execution.bind_eq_ok.mp hrest
  have hprkBlock : interp.block 48 call.prk = prk := by
    cases hprkEq
    exact interp.block_eq_of_value
      (interp.value_prk (interp.value_decapsulate hkem)
        (interp.value_diffieHellman_of_ok hdh))
  have hexchange : (interp.finalizeArgs call).exchange prims
      (interp.decapsulationKey call.session)
      (interp.secret (.keygenX25519 call.session)) =
      interp.exchange call.exchange := by
    simp only [exchange, Finalization.exchange,
      interp.block_eq_of_value (interp.value_pub _),
      interp.block_verifyingKey call.own]
    rw [show interp.block 1568 (.ek (.atom (.decapsulationKey call.session))) =
      prims.mlKemEncapsulationKey (interp.decapsulationKey call.session) from
      interp.block_eq_of_value rfl]
    rfl
  rw [hexchange] at hverify hpeer htag hsign hnext
  rw [← hprkBlock] at hpeer htag hnext
  have hpeerDigest : interp.block 48 call.peerDigest =
      (interp.exchange call.exchange).digest prims
        (interp.block 48 call.peerConfirmation) :=
    interp.block_eq_of_value (interp.value_digest _ _)
  have htagValue : interp.value call.tag = output.confirmation.bytes := by
    rw [htag]
    exact interp.value_keygenTag _ _ _
  have hdigest : interp.block 48 call.digest =
      keygenDigest prims (interp.block 48 call.peerDigest)
        output.confirmation := by
    rw [← interp.block_eq_of_value htagValue]
    exact interp.block_eq_of_value rfl
  have hsignature : interp.value (signature call.own .keygen call.digest) =
      output.signature.bytes := by
    apply interp.value_signature
    rw [hdigest, hpeerDigest]
    exact hsign
  have hkey : interp.block 128 call.sessionKey =
      (interp.exchange call.exchange).sessionKey prims
        (interp.block 48 call.prk) :=
    interp.block_eq_of_value (interp.value_sessionKey _ _)
  refine ⟨?_, ?_, ?_, ?_⟩
  · rw [hpeerDigest]
    exact hverify
  · rw [interp.block_eq_of_value (interp.value_encapsulatorTag _ _)]
    exact hpeer.symm
  · simp only [Finalization.messages, List.map_cons, List.map_nil, hsignature,
      htagValue]
  · rw [hnext, hkey]

/-- A confirmation checks the values of what the symbolic party checks. -/
theorem confirmPeer_values
    {next : SessionManager DecapsKey} {pending : Encapsulation}
    {call : Confirmation}
    (hok : (interp.encapsulated pending).confirmPeer prims
      (interp.confirmArgs call) = (.ok (), next)) :
    interp.block 48 (.fingerprint (Symbolic.verifyingKey call.peer)) =
        interp.block 48 (.fingerprint (Symbolic.verifyingKey pending.peer)) ∧
      mlDsaVerifyWithContext prims
        (interp.block 2592 (Symbolic.verifyingKey call.peer))
        (interp.block 48
          (.keygenDigest pending.digest call.peerConfirmation)).bytes
        contextKeygenSide (interp.block 4627 call.peerSignature) = .ok () ∧
      interp.block 48
          (.mac (.confirmKey .keygen pending.prk pending.exchange.inner) .keygen
            pending.digest) = interp.block 48 call.peerConfirmation ∧
      next = (interp.encapsulated pending).wipePendingAuthentication := by
  obtain ⟨kept, hkept, hidentity, hverify, htag, hnext⟩ :=
    SessionManager.confirmPeer_ok hok
  cases hkept
  refine ⟨?_, ?_, ?_, hnext⟩
  · rw [interp.block_fingerprint]
    exact hidentity
  · rw [show interp.block 48 (.keygenDigest pending.digest
      call.peerConfirmation) = keygenDigest prims (interp.block 48
        pending.digest) (interp.block 48 call.peerConfirmation) from
      interp.block_eq_of_value rfl]
    exact hverify
  · rw [← show _ = interp.block 48 call.peerConfirmation from htag]
    exact interp.block_eq_of_value rfl

/-- The key shares sent by `initiate_handshake`, with the keys it keeps. -/
theorem initiateHandshake_values
    {manager next : SessionManager DecapsKey} {entropy : Block 96}
    {session : ℕ} {mlKemPk : PublicKey1024} {x25519Pk : X25519Public}
    (hseed : prims.mlKemFromSeed (entropy.slice 0 64 kemSeed_le) =
      .ok (interp.decapsulationKey session))
    (hsecret : entropy.slice 64 32 x25519Seed_le =
      interp.secret (.keygenX25519 session))
    (hok : manager.initiateHandshake prims entropy =
      (.ok (mlKemPk, x25519Pk), next)) :
    [mlKemPk.bytes, x25519Pk.bytes] =
        (initiateMessages session).map interp.value ∧
      next.mlKemDk = some (interp.decapsulationKey session) ∧
      next.x25519Sk = some (interp.secret (.keygenX25519 session)) := by
  unfold SessionManager.initiateHandshake at hok
  split at hok
  next => cases hok
  next =>
    simp only [mlKemKeygen, hseed, x25519Keygen, hsecret] at hok
    cases hok
    refine ⟨?_, rfl, rfl⟩
    simp only [initiateMessages, List.map_cons, List.map_nil,
      interp.value_pub]
    rfl

end Interpretation

end Symbolic
end ShawnCore
