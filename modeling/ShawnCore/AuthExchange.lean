import ShawnCore.SessionCalls
import ShawnCore.ReferencePrimitives

/-!
# What an authenticated handshake computes

An exchange collects the public data which one side of an authenticated
handshake has used.  All keys, tags and digests of the protocol are functions
of the exchange and of the pseudorandom key extracted from the two shared
secrets.  The specifications of the three authenticated operations are stated
in these terms.
-/

namespace ShawnCore

open ByteBlocks

structure Exchange where
  mlKemPk : PublicKey1024
  x25519Pk : X25519Public
  keygenKey : PublicKey87
  encapsulatorKey : PublicKey87
  appInfo : Bytes
  ct : Ciphertext1024
  encapsulatorX25519Pk : X25519Public
deriving DecidableEq

variable {DecapsKey SigningKey : Type}
variable (prims : Primitives DecapsKey SigningKey)

namespace Exchange

def bindingInput (exchange : Exchange) : Bytes :=
  handshakeBindingInput exchange.mlKemPk exchange.x25519Pk
    (identityFingerprint prims exchange.keygenKey)
    (identityFingerprint prims exchange.encapsulatorKey) exchange.appInfo

def binding (exchange : Exchange) : Block 48 :=
  prims.sha384 (exchange.bindingInput prims)

def transcript (exchange : Exchange) : Block 48 :=
  transcriptHash prims (exchange.binding prims) exchange.ct
    exchange.encapsulatorX25519Pk

def inner (exchange : Exchange) : Block 48 :=
  handshakeTranscript prims exchange.ct exchange.encapsulatorX25519Pk
    (exchange.binding prims).bytes

def sessionKey (exchange : Exchange) (prk : Block 48) : Block 128 :=
  KeyedHash.expand prims.hmacSha384 prk.bytes (exchange.inner prims).bytes 128

def confirmation (exchange : Exchange) (prk : Block 48) : Block 96 :=
  KeyedHash.expand prims.hmacSha384 prk.bytes
    (confirmationInfo (exchange.inner prims)) 96

def encapsulatorConfirmKey (exchange : Exchange) (prk : Block 48) : Block 48 :=
  (exchange.confirmation prims prk).slice 0 48 encapsulatorHalf_le

def keygenConfirmKey (exchange : Exchange) (prk : Block 48) : Block 48 :=
  (exchange.confirmation prims prk).slice 48 48 keygenHalf_le

def encapsulatorTag (exchange : Exchange) (prk : Block 48) : Block 48 :=
  prims.hmacSha384 (exchange.encapsulatorConfirmKey prims prk).bytes
    (confirmLabelEncapsulatingSide ++ (exchange.transcript prims).bytes)

def digest (exchange : Exchange) (tag : Block 48) : Block 48 :=
  encapsulatorDigest prims (exchange.transcript prims) tag

def keygenTag (exchange : Exchange) (prk tag : Block 48) : Block 48 :=
  prims.hmacSha384 (exchange.keygenConfirmKey prims prk).bytes
    (confirmLabelKeygenSide ++ (exchange.digest prims tag).bytes)

/-! ### Digests and tags determine what they were computed from -/

/-- The strings hashed on the way to the encapsulator's digest. -/
def hashInputs (exchange : Exchange) (tag : Block 48) : List Bytes :=
  [identityFingerprintInput exchange.keygenKey,
    identityFingerprintInput exchange.encapsulatorKey,
    exchange.bindingInput prims,
    transcriptHashInput (exchange.binding prims) exchange.ct
      exchange.encapsulatorX25519Pk,
    encapsulatorDigestInput (exchange.transcript prims) tag]

/-- The keyed hashes evaluated on the way to the encapsulator's tag. -/
def macInputs (exchange : Exchange) (prk : Block 48) :
    List (Block 48 × Bytes) :=
  [(exchange.encapsulatorConfirmKey prims prk,
      confirmLabelEncapsulatingSide ++ (exchange.transcript prims).bytes),
    (prk, confirmationInfo (exchange.inner prims) ++ [1])]

variable {prims}

theorem digest_inj
    {hashed : Set Bytes} (hinj : Set.InjOn prims.sha384 hashed)
    {left right : Exchange} {leftTag rightTag : Block 48}
    (hleft : ∀ input ∈ left.hashInputs prims leftTag, input ∈ hashed)
    (hright : ∀ input ∈ right.hashInputs prims rightTag, input ∈ hashed)
    (heq : left.digest prims leftTag = right.digest prims rightTag) :
    left = right ∧ leftTag = rightTag := by
  simp only [hashInputs, List.mem_cons, List.not_mem_nil, or_false,
    forall_eq_or_imp, forall_eq] at hleft hright
  rcases hleft with
    ⟨hkeygen, hencapsulator, hbinding, htranscript, hdigest⟩
  rcases hright with
    ⟨hkeygen', hencapsulator', hbinding', htranscript', hdigest'⟩
  rcases encapsulatorDigestInput_inj (hinj hdigest hdigest' heq) with
    ⟨htranscriptEq, htagEq⟩
  rcases transcriptHashInput_inj
      (hinj htranscript htranscript' htranscriptEq) with
    ⟨hbindingEq, hctEq, hxeEq⟩
  rcases handshakeBindingInput_inj (hinj hbinding hbinding' hbindingEq) with
    ⟨hekEq, hxkEq, hkeygenEq, hencapsulatorEq, happEq⟩
  have hkeygenKey := identityFingerprintInput_inj
    (hinj hkeygen hkeygen' hkeygenEq)
  have hencapsulatorKey := identityFingerprintInput_inj
    (hinj hencapsulator hencapsulator' hencapsulatorEq)
  refine ⟨?_, htagEq⟩
  cases left
  cases right
  simp_all only

theorem encapsulatorTag_inj
    {queried : Set (Block 48 × Bytes)}
    (hinj : Set.InjOn
      (fun query : Block 48 × Bytes =>
        prims.hmacSha384 query.1.bytes query.2) queried)
    {exchange : Exchange} {prk prk' : Block 48}
    (hleft : ∀ query ∈ exchange.macInputs prims prk, query ∈ queried)
    (hright : ∀ query ∈ exchange.macInputs prims prk', query ∈ queried)
    (heq : exchange.encapsulatorTag prims prk =
      exchange.encapsulatorTag prims prk') :
    prk = prk' := by
  simp only [macInputs, List.mem_cons, List.not_mem_nil, or_false,
    forall_eq_or_imp, forall_eq] at hleft hright
  have hconfirmKey : exchange.encapsulatorConfirmKey prims prk =
      exchange.encapsulatorConfirmKey prims prk' :=
    congrArg Prod.fst (hinj hleft.1 hright.1 heq)
  unfold encapsulatorConfirmKey confirmation at hconfirmKey
  rw [KeyedHash.expand_slice_first, KeyedHash.expand_slice_first]
    at hconfirmKey
  exact congrArg Prod.fst (hinj hleft.2 hright.2 hconfirmKey)

end Exchange

/-! ## The exchange and the extracted key of each side -/

namespace EncapsulateAuthenticatedArgs

def exchange
    (args : EncapsulateAuthenticatedArgs SigningKey) (ct : Ciphertext1024)
    (pk : X25519Public) : Exchange where
  mlKemPk := args.peerMlKemPk
  x25519Pk := args.peerX25519Pk
  keygenKey := args.peerVerifyingKey
  encapsulatorKey := prims.mlDsaVerifyingKey args.ownSigningKey
  appInfo := args.appInfo
  ct := ct
  encapsulatorX25519Pk := pk

def prk (args : EncapsulateAuthenticatedArgs SigningKey) :
    Except CryptoError (Block 48) := do
  let (pqSecret, _) ← mlKemEncapsulate prims args.peerMlKemPk
    (args.entropy.slice 0 32 lowHalf_le)
  let classicalSecret ← x25519DiffieHellman prims
    (args.entropy.slice 32 32 highHalf_le) args.peerX25519Pk
  return hybridPrk prims pqSecret classicalSecret args.salt

end EncapsulateAuthenticatedArgs

namespace FinalizeAuthenticatedArgs

def exchange
    (args : FinalizeAuthenticatedArgs SigningKey) (dk : DecapsKey)
    (sk : X25519Secret) : Exchange where
  mlKemPk := prims.mlKemEncapsulationKey dk
  x25519Pk := prims.x25519PublicKey sk
  keygenKey := prims.mlDsaVerifyingKey args.ownSigningKey
  encapsulatorKey := args.peerVerifyingKey
  appInfo := args.appInfo
  ct := args.mlKemCt
  encapsulatorX25519Pk := args.peerX25519Pk

def prk
    (args : FinalizeAuthenticatedArgs SigningKey) (dk : DecapsKey)
    (sk : X25519Secret) : Except CryptoError (Block 48) := do
  let pqSecret ← mlKemDecapsulate prims dk args.mlKemCt
  let classicalSecret ← x25519DiffieHellman prims sk args.peerX25519Pk
  return hybridPrk prims pqSecret classicalSecret args.salt

end FinalizeAuthenticatedArgs

/-! ## Specifications of the operations -/

namespace SessionManager

variable {prims}

theorem encapsulateAuthenticated_ok
    {manager next : SessionManager DecapsKey}
    {args : EncapsulateAuthenticatedArgs SigningKey}
    {output : EncapsulateAuthenticatedOutput}
    (hok : manager.encapsulateAuthenticated prims args = (.ok output, next)) :
    let exchange := args.exchange prims output.ct output.pk
    ∃ pqSecret classicalSecret prk,
      args.appInfo.length < 2 ^ 32 ∧
      mlKemEncapsulate prims args.peerMlKemPk
        (args.entropy.slice 0 32 lowHalf_le) = .ok (pqSecret, output.ct) ∧
      x25519DiffieHellman prims (args.entropy.slice 32 32 highHalf_le)
        args.peerX25519Pk = .ok classicalSecret ∧
      output.pk =
        prims.x25519PublicKey (args.entropy.slice 32 32 highHalf_le) ∧
      prk = hybridPrk prims pqSecret classicalSecret args.salt ∧
      args.prk prims = .ok prk ∧
      output.confirmation = exchange.encapsulatorTag prims prk ∧
      mlDsaSignWithContext prims args.ownSigningKey
        (exchange.digest prims output.confirmation).bytes
        contextEncapsulatingSide = .ok output.signature ∧
      next = installed (keygenRxKey (exchange.sessionKey prims prk))
        (keygenTxKey (exchange.sessionKey prims prk))
        (some ⟨exchange.digest prims output.confirmation,
          identityFingerprint prims args.peerVerifyingKey,
          exchange.keygenConfirmKey prims prk⟩) := by
  unfold encapsulateAuthenticated at hok
  dsimp only at hok
  split at hok
  next => cases hok
  next binding hbinding =>
    rcases handshakeBinding_eq_ok prims hbinding with ⟨hlength, hbindingEq⟩
    rcases encapsulateInner_cases prims manager args.peerMlKemPk
        args.peerX25519Pk args.entropy args.salt binding.bytes true with
      ⟨failure, hinner⟩ | ⟨inner, key, hsecrets, hinner⟩
    · rw [hinner] at hok
      cases hok
    · rcases encapsulateSecrets_eq_ok prims hsecrets with
        ⟨pqSecret, classicalSecret, material, hkem, hpk, hdh, hkdf, hmaterial⟩
      rcases deriveHybridKeyWithConfirmation_eq_ok prims hkdf with
        ⟨hsession, hconfirmation⟩
      rw [hinner] at hok
      simp only [hmaterial] at hok
      split at hok
      next tag digest signature hsigned =>
        rcases Execution.bind_eq_ok.mp hsigned with ⟨tag', htag, hrest⟩
        rcases Execution.bind_eq_ok.mp hrest with ⟨signature', hsign, hpair⟩
        cases hpair
        cases hok
        subst hbindingEq hsession hconfirmation
        refine ⟨pqSecret, classicalSecret, _, hlength, hkem, hdh, hpk, rfl, ?_,
          (confirmationTag_eq_ok prims htag).symm, hsign, rfl⟩
        simp only [EncapsulateAuthenticatedArgs.prk, hkem, hdh]
        rfl
      next => cases hok

theorem completeAuthenticatedFinalize_ok
    {manager : SessionManager DecapsKey} {dk : DecapsKey} {sk : X25519Secret}
    {args : FinalizeAuthenticatedArgs SigningKey}
    {signature : Signature87} {tag : Block 48} {secrets : DerivedSecrets}
    (hdk : manager.mlKemDk = some dk) (hsk : manager.x25519Sk = some sk)
    (hok : completeAuthenticatedFinalize prims manager args.ownSigningKey
      args.peerX25519Pk args.mlKemCt args.peerConfirmation args.salt
      ((args.exchange prims dk sk).binding prims)
      ((args.exchange prims dk sk).transcript prims)
      ((args.exchange prims dk sk).digest prims args.peerConfirmation) =
        .ok (signature, tag, secrets)) :
    let exchange := args.exchange prims dk sk
    ∃ prk, args.prk prims dk sk = .ok prk ∧
      args.peerConfirmation = exchange.encapsulatorTag prims prk ∧
      tag = exchange.keygenTag prims prk args.peerConfirmation ∧
      mlDsaSignWithContext prims args.ownSigningKey
        (keygenDigest prims (exchange.digest prims args.peerConfirmation)
          tag).bytes contextKeygenSide = .ok signature ∧
      secrets.session = exchange.sessionKey prims prk := by
  unfold completeAuthenticatedFinalize at hok
  rw [hdk, hsk] at hok
  rcases Execution.bind_eq_ok.mp hok with ⟨_, hdk', hok⟩
  cases hdk'
  rcases Execution.bind_eq_ok.mp hok with ⟨_, hsk', hok⟩
  cases hsk'
  rcases Execution.bind_eq_ok.mp hok with ⟨pqSecret, hkem, hok⟩
  rcases Execution.bind_eq_ok.mp hok with ⟨classicalSecret, hdh, hok⟩
  rcases Execution.bind_eq_ok.mp hok with ⟨⟨session, material⟩, hkdf, hok⟩
  rcases deriveHybridKeyWithConfirmation_eq_ok prims hkdf with
    ⟨hsession, hconfirmation⟩
  rcases Execution.bind_eq_ok.mp hok with ⟨expected, hexpected, hok⟩
  split at hok
  next => cases hok
  next hequal =>
    have htag : expected = args.peerConfirmation := by
      simpa [confirmationTagsEqual] using hequal
    rcases Execution.bind_eq_ok.mp hok with ⟨ownTag, hownTag, hok⟩
    rcases Execution.bind_eq_ok.mp hok with ⟨ownSignature, hsign, hok⟩
    cases hok
    subst hsession hconfirmation
    refine ⟨hybridPrk prims pqSecret classicalSecret args.salt, ?_, ?_,
      (confirmationTag_eq_ok prims hownTag).symm, hsign, rfl⟩
    · simp only [FinalizeAuthenticatedArgs.prk, hkem, hdh]
      rfl
    · rw [← htag]
      exact (confirmationTag_eq_ok prims hexpected).symm

theorem finalizeAuthenticated_ok
    {manager next : SessionManager DecapsKey}
    {args : FinalizeAuthenticatedArgs SigningKey}
    {output : FinalizeAuthenticatedOutput}
    (hok : manager.finalizeAuthenticated prims args = (.ok output, next)) :
    ∃ dk sk prk, manager.mlKemDk = some dk ∧ manager.x25519Sk = some sk ∧
      args.appInfo.length < 2 ^ 32 ∧ args.prk prims dk sk = .ok prk ∧
      mlDsaVerifyWithContext prims args.peerVerifyingKey
        ((args.exchange prims dk sk).digest prims args.peerConfirmation).bytes
        contextEncapsulatingSide args.peerSignature = .ok () ∧
      args.peerConfirmation =
        (args.exchange prims dk sk).encapsulatorTag prims prk ∧
      output.confirmation = (args.exchange prims dk sk).keygenTag prims prk
        args.peerConfirmation ∧
      mlDsaSignWithContext prims args.ownSigningKey
        (keygenDigest prims ((args.exchange prims dk sk).digest prims
          args.peerConfirmation) output.confirmation).bytes
        contextKeygenSide = .ok output.signature ∧
      next = installed
        (keygenTxKey ((args.exchange prims dk sk).sessionKey prims prk))
        (keygenRxKey ((args.exchange prims dk sk).sessionKey prims prk))
        none := by
  unfold finalizeAuthenticated at hok
  split at hok
  next dk sk hdk hsk =>
    dsimp only at hok
    split at hok
    next => cases hok
    next binding hbinding =>
      rcases handshakeBinding_eq_ok prims hbinding with ⟨hlength, hbindingEq⟩
      change binding = (args.exchange prims dk sk).binding prims at hbindingEq
      subst hbindingEq
      split at hok
      next => cases hok
      next hverify =>
        split at hok
        next signature tag secrets hcomplete =>
          rcases completeAuthenticatedFinalize_ok hdk hsk hcomplete with
            ⟨prk, hprk, hpeer, htag, hsign, hsession⟩
          cases hok
          refine ⟨dk, sk, prk, hdk, hsk, hlength, hprk, hverify, hpeer, htag,
            hsign, ?_⟩
          rw [hsession]
          rfl
        next => cases hok
  next => cases hok

theorem confirmPeer_ok
    {manager next : SessionManager DecapsKey} {args : ConfirmPeerArgs}
    (hok : manager.confirmPeer prims args = (.ok (), next)) :
    ∃ pending, manager.pendingAuth = some pending ∧
      identityFingerprint prims args.peerVerifyingKey =
        pending.peerIdentity ∧
      mlDsaVerifyWithContext prims args.peerVerifyingKey
        (keygenDigest prims pending.digest args.peerConfirmation).bytes
        contextKeygenSide args.peerSignature = .ok () ∧
      prims.hmacSha384 pending.confirmationKey.bytes
        (confirmLabelKeygenSide ++ pending.digest.bytes) =
          args.peerConfirmation ∧
      next = manager.wipePendingAuthentication := by
  unfold confirmPeer at hok
  split at hok
  next => cases hok
  next pending hpending =>
    dsimp only at hok
    split at hok
    next => cases hok
    next hidentity =>
      split at hok
      next => cases hok
      next hverify =>
        split at hok
        next tag htag =>
          split at hok
          next hequal =>
            cases hok
            have htagEq : tag = args.peerConfirmation := by
              simpa [confirmationTagsEqual] using hequal
            refine ⟨pending, hpending, ?_, hverify, ?_, rfl⟩
            · simpa [confirmationTagsEqual] using hidentity
            · rw [← htagEq]
              exact confirmationTag_eq_ok prims htag
          next => cases hok
        next => cases hok

/-! ## Operations whose primitives do not fail -/

theorem confirmationTag_of_total
    (hhmac : prims.HmacTotal) (key digest : Block 48) {label : Bytes}
    (hlabel : label.length ≤ 80) :
    confirmationTag prims key label digest =
      .ok (prims.hmacSha384 key.bytes (label ++ digest.bytes)) := by
  have hshort : ¬ 128 < label.length + 48 := by omega
  unfold confirmationTag hmacSha384
  rw [if_neg hshort, if_pos (hhmac key.bytes)]

theorem deriveHybridKeyWithConfirmation_of_total
    (hhkdf : prims.HkdfTotal) (pqSecret classicalSecret : Block 32)
    (salt info confirmInfo : Bytes) :
    deriveHybridKeyWithConfirmation prims pqSecret classicalSecret salt info
        confirmInfo =
      .ok (KeyedHash.expand prims.hmacSha384
          (hybridPrk prims pqSecret classicalSecret salt).bytes info 128,
        KeyedHash.expand prims.hmacSha384
          (hybridPrk prims pqSecret classicalSecret salt).bytes
          confirmInfo 96) := by
  unfold deriveHybridKeyWithConfirmation hkdfExpand
  rw [hhkdf info 128 (by omega), hhkdf confirmInfo 96 (by omega)]
  rfl

theorem handshakeBinding_of_length
    (mlKemPk : PublicKey1024) (x25519Pk : X25519Public)
    (keygenIdentity encapsulatorIdentity : Block 48) {appInfo : Bytes}
    (hlength : appInfo.length < 2 ^ 32) :
    handshakeBinding prims mlKemPk x25519Pk keygenIdentity
        encapsulatorIdentity appInfo =
      .ok (prims.sha384 (handshakeBindingInput mlKemPk x25519Pk
        keygenIdentity encapsulatorIdentity appInfo)) := if_pos hlength

theorem encapsulatorLabel_length :
    confirmLabelEncapsulatingSide.length ≤ 80 := by
  decide

theorem keygenLabel_length : confirmLabelKeygenSide.length ≤ 80 := by
  decide

theorem completeAuthenticatedFinalize_of_total
    (hhmac : prims.HmacTotal) (hhkdf : prims.HkdfTotal)
    {manager : SessionManager DecapsKey} {dk : DecapsKey} {sk : X25519Secret}
    {args : FinalizeAuthenticatedArgs SigningKey} {prk : Block 48}
    (hdk : manager.mlKemDk = some dk) (hsk : manager.x25519Sk = some sk)
    (hprk : args.prk prims dk sk = .ok prk) :
    let exchange := args.exchange prims dk sk
    let tag := exchange.keygenTag prims prk args.peerConfirmation
    completeAuthenticatedFinalize prims manager args.ownSigningKey
        args.peerX25519Pk args.mlKemCt args.peerConfirmation args.salt
        (exchange.binding prims) (exchange.transcript prims)
        (exchange.digest prims args.peerConfirmation) =
      if exchange.encapsulatorTag prims prk = args.peerConfirmation then
        (mlDsaSignWithContext prims args.ownSigningKey
          (keygenDigest prims (exchange.digest prims args.peerConfirmation)
            tag).bytes contextKeygenSide).map fun signature =>
          (signature, tag, ⟨exchange.sessionKey prims prk,
            exchange.confirmation prims prk⟩)
      else
        .error .keyConfirmationFailed := by
  intro exchange tag
  rcases Execution.bind_eq_ok.mp hprk with ⟨pqSecret, hkem, hrest⟩
  rcases Execution.bind_eq_ok.mp hrest with ⟨classicalSecret, hdh, hprkEq⟩
  have hprkEq := Except.ok.inj hprkEq
  subst hprkEq
  unfold completeAuthenticatedFinalize
  simp only [hdk, hsk, okOr, hkem, hdh,
    deriveHybridKeyWithConfirmation_of_total hhkdf,
    confirmationTag_of_total hhmac _ _ encapsulatorLabel_length,
    confirmationTag_of_total hhmac _ _ keygenLabel_length, bind, Except.bind]
  change (if (!confirmationTagsEqual (exchange.encapsulatorTag prims
      (hybridPrk prims pqSecret classicalSecret args.salt))
        args.peerConfirmation) = true then _ else _) = _
  rw [confirmationTagsEqual_eq_decide]
  by_cases hequal : exchange.encapsulatorTag prims
      (hybridPrk prims pqSecret classicalSecret args.salt) =
        args.peerConfirmation
  · rw [if_pos hequal, decide_eq_true hequal]
    rfl
  · rw [if_neg hequal, decide_eq_false hequal]
    rfl

/-- `finalize_authenticated` on a pending handshake, in terms of the exchange
it is about. -/
theorem finalizeAuthenticated_of_pending
    {manager : SessionManager DecapsKey} {dk : DecapsKey} {sk : X25519Secret}
    {args : FinalizeAuthenticatedArgs SigningKey}
    (hdk : manager.mlKemDk = some dk) (hsk : manager.x25519Sk = some sk)
    (hlength : args.appInfo.length < 2 ^ 32) :
    let exchange := args.exchange prims dk sk
    manager.finalizeAuthenticated prims args =
      match mlDsaVerifyWithContext prims args.peerVerifyingKey
          (exchange.digest prims args.peerConfirmation).bytes
          contextEncapsulatingSide args.peerSignature with
      | .error failure => (.error failure, manager)
      | .ok () =>
          match completeAuthenticatedFinalize prims manager args.ownSigningKey
              args.peerX25519Pk args.mlKemCt args.peerConfirmation args.salt
              (exchange.binding prims) (exchange.transcript prims)
              (exchange.digest prims args.peerConfirmation) with
          | .ok (signature, tag, secrets) =>
              (.ok ⟨signature, tag⟩,
                installed (keygenTxKey secrets.session)
                  (keygenRxKey secrets.session) none)
          | .error failure => (.error failure, new) := by
  unfold finalizeAuthenticated
  simp only [hdk, hsk, handshakeBinding_of_length _ _ _ _ hlength]
  rfl

/-- Without failing primitives only the signature and the tag decide how
`finalize_authenticated` ends. -/
theorem finalizeAuthenticated_of_total
    (hhmac : prims.HmacTotal) (hhkdf : prims.HkdfTotal)
    {manager : SessionManager DecapsKey} {dk : DecapsKey} {sk : X25519Secret}
    {args : FinalizeAuthenticatedArgs SigningKey} {prk : Block 48}
    (hdk : manager.mlKemDk = some dk) (hsk : manager.x25519Sk = some sk)
    (hlength : args.appInfo.length < 2 ^ 32)
    (hprk : args.prk prims dk sk = .ok prk)
    (hverify : mlDsaVerifyWithContext prims args.peerVerifyingKey
      ((args.exchange prims dk sk).digest prims args.peerConfirmation).bytes
      contextEncapsulatingSide args.peerSignature = .ok ()) :
    let exchange := args.exchange prims dk sk
    let tag := exchange.keygenTag prims prk args.peerConfirmation
    manager.finalizeAuthenticated prims args =
      if exchange.encapsulatorTag prims prk = args.peerConfirmation then
        match mlDsaSignWithContext prims args.ownSigningKey
            (keygenDigest prims (exchange.digest prims args.peerConfirmation)
              tag).bytes contextKeygenSide with
        | .ok signature =>
            (.ok ⟨signature, tag⟩,
              installed (keygenTxKey (exchange.sessionKey prims prk))
                (keygenRxKey (exchange.sessionKey prims prk)) none)
        | .error failure => (.error failure, new)
      else
        (.error .keyConfirmationFailed, new) := by
  intro exchange tag
  have hcomplete := completeAuthenticatedFinalize_of_total hhmac hhkdf hdk hsk
    hprk
  rw [finalizeAuthenticated_of_pending hdk hsk hlength, hverify, hcomplete]
  by_cases hequal :
      exchange.encapsulatorTag prims prk = args.peerConfirmation
  · simp only [exchange] at hequal
    simp only [exchange, tag, if_pos hequal]
    cases mlDsaSignWithContext prims args.ownSigningKey
        (keygenDigest prims ((args.exchange prims dk sk).digest prims
          args.peerConfirmation) ((args.exchange prims dk sk).keygenTag prims
            prk args.peerConfirmation)).bytes contextKeygenSide with
    | ok signature => rfl
    | error failure => rfl
  · simp only [exchange] at hequal
    simp only [exchange, if_neg hequal]

theorem finalizeAuthenticated_of_signed
    (hhmac : prims.HmacTotal) (hhkdf : prims.HkdfTotal)
    {manager : SessionManager DecapsKey} {dk : DecapsKey} {sk : X25519Secret}
    {args : FinalizeAuthenticatedArgs SigningKey} {prk : Block 48}
    {signature : Signature87}
    (hdk : manager.mlKemDk = some dk) (hsk : manager.x25519Sk = some sk)
    (hlength : args.appInfo.length < 2 ^ 32)
    (hprk : args.prk prims dk sk = .ok prk)
    (hverify : mlDsaVerifyWithContext prims args.peerVerifyingKey
      ((args.exchange prims dk sk).digest prims args.peerConfirmation).bytes
      contextEncapsulatingSide args.peerSignature = .ok ())
    (htag : (args.exchange prims dk sk).encapsulatorTag prims prk =
      args.peerConfirmation)
    (hsign : mlDsaSignWithContext prims args.ownSigningKey
      (keygenDigest prims
        ((args.exchange prims dk sk).digest prims args.peerConfirmation)
        ((args.exchange prims dk sk).keygenTag prims prk
          args.peerConfirmation)).bytes contextKeygenSide =
        .ok signature) :
    let exchange := args.exchange prims dk sk
    manager.finalizeAuthenticated prims args =
      (.ok ⟨signature,
          exchange.keygenTag prims prk args.peerConfirmation⟩,
        installed (keygenTxKey (exchange.sessionKey prims prk))
          (keygenRxKey (exchange.sessionKey prims prk)) none) := by
  intro exchange
  rw [finalizeAuthenticated_of_total hhmac hhkdf hdk hsk hlength hprk hverify,
    if_pos htag, hsign]

/-- Without failing primitives `encapsulate_authenticated` ends as its
signature does. -/
theorem encapsulateAuthenticated_of_total
    (hhmac : prims.HmacTotal) (hhkdf : prims.HkdfTotal)
    (manager : SessionManager DecapsKey)
    {args : EncapsulateAuthenticatedArgs SigningKey}
    {pqSecret classicalSecret : Block 32} {ct : Ciphertext1024}
    (hlength : args.appInfo.length < 2 ^ 32)
    (hentropy : entropyRejected args.entropy = false)
    (hkem : mlKemEncapsulate prims args.peerMlKemPk
      (args.entropy.slice 0 32 lowHalf_le) = .ok (pqSecret, ct))
    (hdh : x25519DiffieHellman prims (args.entropy.slice 32 32 highHalf_le)
      args.peerX25519Pk = .ok classicalSecret) :
    let pk := prims.x25519PublicKey (args.entropy.slice 32 32 highHalf_le)
    let exchange := args.exchange prims ct pk
    let prk := hybridPrk prims pqSecret classicalSecret args.salt
    let tag := exchange.encapsulatorTag prims prk
    manager.encapsulateAuthenticated prims args =
      match mlDsaSignWithContext prims args.ownSigningKey
          (exchange.digest prims tag).bytes contextEncapsulatingSide with
      | .ok signature =>
          (.ok ⟨ct, pk, signature, tag⟩,
            installed (keygenRxKey (exchange.sessionKey prims prk))
              (keygenTxKey (exchange.sessionKey prims prk))
              (some ⟨exchange.digest prims tag,
                identityFingerprint prims args.peerVerifyingKey,
                exchange.keygenConfirmKey prims prk⟩))
      | .error failure => (.error failure, new) := by
  intro pk exchange prk tag
  have hsecrets : encapsulateSecrets prims args.peerMlKemPk args.peerX25519Pk
      args.entropy args.salt (exchange.binding prims).bytes true =
        .ok (⟨ct, pk, some (exchange.confirmation prims prk)⟩,
          exchange.sessionKey prims prk) := by
    unfold encapsulateSecrets
    simp only [hkem, hdh, x25519Keygen, if_true,
      deriveHybridKeyWithConfirmation_of_total hhkdf, bind, Except.bind]
    rfl
  have hbinding : handshakeBinding prims args.peerMlKemPk args.peerX25519Pk
      (identityFingerprint prims args.peerVerifyingKey)
      (identityFingerprint prims (prims.mlDsaVerifyingKey args.ownSigningKey))
      args.appInfo = .ok (exchange.binding prims) :=
    handshakeBinding_of_length _ _ _ _ hlength
  have hdigest : encapsulatorDigest prims
      (transcriptHash prims (exchange.binding prims) ct pk)
      (prims.hmacSha384
        ((exchange.confirmation prims prk).slice 0 48 encapsulatorHalf_le).bytes
        (confirmLabelEncapsulatingSide ++
          (transcriptHash prims (exchange.binding prims) ct pk).bytes)) =
      exchange.digest prims tag := rfl
  unfold encapsulateAuthenticated encapsulateInner
  simp only [hbinding, hentropy, hsecrets, Bool.false_eq_true, if_false,
    confirmationTag_of_total hhmac _ _ encapsulatorLabel_length, bind,
    Except.bind, hdigest]
  cases mlDsaSignWithContext prims args.ownSigningKey
      (exchange.digest prims tag).bytes contextEncapsulatingSide with
  | ok signature => rfl
  | error failure => rfl

theorem encapsulateAuthenticated_of_signed
    (hhmac : prims.HmacTotal) (hhkdf : prims.HkdfTotal)
    (manager : SessionManager DecapsKey)
    {args : EncapsulateAuthenticatedArgs SigningKey}
    {pqSecret classicalSecret : Block 32} {ct : Ciphertext1024}
    {pk : X25519Public} {signature : Signature87}
    (hlength : args.appInfo.length < 2 ^ 32)
    (hentropy : entropyRejected args.entropy = false)
    (hkem : mlKemEncapsulate prims args.peerMlKemPk
      (args.entropy.slice 0 32 lowHalf_le) = .ok (pqSecret, ct))
    (hdh : x25519DiffieHellman prims (args.entropy.slice 32 32 highHalf_le)
      args.peerX25519Pk = .ok classicalSecret)
    (hpk : prims.x25519PublicKey (args.entropy.slice 32 32 highHalf_le) = pk)
    {prk : Block 48}
    (hprk : hybridPrk prims pqSecret classicalSecret args.salt = prk)
    {tag : Block 48}
    (htag : (args.exchange prims ct pk).encapsulatorTag prims prk = tag)
    (hsign : mlDsaSignWithContext prims args.ownSigningKey
      ((args.exchange prims ct pk).digest prims tag).bytes
      contextEncapsulatingSide = .ok signature) :
    let exchange := args.exchange prims ct pk
    manager.encapsulateAuthenticated prims args =
      (.ok ⟨ct, pk, signature, tag⟩,
        installed (keygenRxKey (exchange.sessionKey prims prk))
          (keygenTxKey (exchange.sessionKey prims prk))
          (some ⟨exchange.digest prims tag,
            identityFingerprint prims args.peerVerifyingKey,
            exchange.keygenConfirmKey prims prk⟩)) := by
  subst hpk hprk htag
  intro exchange
  rw [encapsulateAuthenticated_of_total hhmac hhkdf manager hlength hentropy
    hkem hdh, hsign]

/-! Without failing primitives and with a verified signature only the tag
decides how `confirm_peer` ends. -/

section ConfirmPeer

variable (hhmac : prims.HmacTotal)
  {manager : SessionManager DecapsKey} {args : ConfirmPeerArgs}
  {pending : PendingAuthentication}
  (hpending : manager.pendingAuth = some pending)
  (hidentity : identityFingerprint prims args.peerVerifyingKey =
    pending.peerIdentity)
  (hverify : mlDsaVerifyWithContext prims args.peerVerifyingKey
    (keygenDigest prims pending.digest args.peerConfirmation).bytes
    contextKeygenSide args.peerSignature = .ok ())

include hhmac hpending hidentity hverify

theorem confirmPeer_of_total
    (htag : prims.hmacSha384 pending.confirmationKey.bytes
      (confirmLabelKeygenSide ++ pending.digest.bytes) =
        args.peerConfirmation) :
    manager.confirmPeer prims args =
      (.ok (), manager.wipePendingAuthentication) := by
  unfold confirmPeer
  simp [hpending, hidentity, hverify, htag, confirmationTagsEqual,
    confirmationTag_of_total hhmac _ _ keygenLabel_length]

theorem confirmPeer_of_wrong_tag
    (htag : prims.hmacSha384 pending.confirmationKey.bytes
      (confirmLabelKeygenSide ++ pending.digest.bytes) ≠
        args.peerConfirmation) :
    manager.confirmPeer prims args = (.error .keyConfirmationFailed, new) := by
  unfold confirmPeer
  simp [hpending, hidentity, hverify, htag, confirmationTagsEqual,
    confirmationTag_of_total hhmac _ _ keygenLabel_length]
  rfl

end ConfirmPeer

/-! ## The operations as calls -/

theorem exec_encapsulateAuthenticated
    {manager next : SessionManager DecapsKey}
    {args : EncapsulateAuthenticatedArgs SigningKey}
    {output : EncapsulateAuthenticatedOutput}
    (hok : manager.encapsulateAuthenticated prims args = (.ok output, next)) :
    manager.exec prims (.encapsulateAuthenticated args) =
      (.ok (.authEncapsulated output), next) := by
  simp only [exec, hok]

theorem exec_finalizeAuthenticated
    {manager next : SessionManager DecapsKey}
    {args : FinalizeAuthenticatedArgs SigningKey}
    {output : FinalizeAuthenticatedOutput}
    (hok : manager.finalizeAuthenticated prims args = (.ok output, next)) :
    manager.exec prims (.finalizeAuthenticated args) =
      (.ok (.proof output), next) := by
  simp only [exec, hok]

theorem exec_confirmPeer
    {manager next : SessionManager DecapsKey} {args : ConfirmPeerArgs}
    (hok : manager.confirmPeer prims args = (.ok (), next)) :
    manager.exec prims (.confirmPeer args) = (.ok .done, next) := by
  simp only [exec, hok]

end SessionManager

end ShawnCore
