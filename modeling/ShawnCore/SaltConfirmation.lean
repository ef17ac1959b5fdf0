import ShawnCore.AuthExchange

/-!
# Salt mismatches and key confirmation

The salt is in no transcript; it enters the handshake only as the key of
HKDF-Extract, that is, through the key block of HMAC.  In an otherwise honest
run `finalize_authenticated` fails with `KeyConfirmationFailed` exactly when
the two salts have different key blocks.  Different salts can have the same
key block: trailing zero bytes are padded away, and a salt longer than the
block is replaced by its hash.
-/

namespace ShawnCore

open ByteBlocks

variable {DecapsKey SigningKey : Type}

/-- A run in which the key-generating side initiates and the encapsulating
side answers its message. -/
structure HonestRun (prims : Primitives DecapsKey SigningKey) where
  keygenSigningKey : SigningKey
  encapsulatorSigningKey : SigningKey
  keygenStart : SessionManager DecapsKey
  encapsulatorStart : SessionManager DecapsKey
  keygenEntropy : Block 96
  encapsulatorEntropy : Block 64
  salt : Bytes
  appInfo : Bytes
  mlKemPk : PublicKey1024
  x25519Pk : X25519Public
  keygen : SessionManager DecapsKey
  output : EncapsulateAuthenticatedOutput
  encapsulator : SessionManager DecapsKey
  initiated : keygenStart.initiateHandshake prims keygenEntropy =
    (.ok (mlKemPk, x25519Pk), keygen)
  encapsulated : encapsulatorStart.encapsulateAuthenticated prims
      { ownSigningKey := encapsulatorSigningKey
        peerVerifyingKey := prims.mlDsaVerifyingKey keygenSigningKey
        peerMlKemPk := mlKemPk
        peerX25519Pk := x25519Pk
        entropy := encapsulatorEntropy
        salt := salt
        appInfo := appInfo } = (.ok output, encapsulator)

namespace HonestRun

variable {prims : Primitives DecapsKey SigningKey} (run : HonestRun prims)

def encapsulateArgs : EncapsulateAuthenticatedArgs SigningKey where
  ownSigningKey := run.encapsulatorSigningKey
  peerVerifyingKey := prims.mlDsaVerifyingKey run.keygenSigningKey
  peerMlKemPk := run.mlKemPk
  peerX25519Pk := run.x25519Pk
  entropy := run.encapsulatorEntropy
  salt := run.salt
  appInfo := run.appInfo

/-- The key-generating side finalizes with the genuine outputs of its peer
and a salt of its own. -/
def finalizeArgs (salt : Bytes) : FinalizeAuthenticatedArgs SigningKey where
  ownSigningKey := run.keygenSigningKey
  peerVerifyingKey := prims.mlDsaVerifyingKey run.encapsulatorSigningKey
  peerX25519Pk := run.output.pk
  mlKemCt := run.output.ct
  peerSignature := run.output.signature
  peerConfirmation := run.output.confirmation
  salt := salt
  appInfo := run.appInfo

def exchange : Exchange :=
  run.encapsulateArgs.exchange prims run.output.ct run.output.pk

/-- Both shared secrets, as the encapsulating side computed them. -/
def inputKeyMaterial : Bytes :=
  match mlKemEncapsulate prims run.mlKemPk
      (run.encapsulatorEntropy.slice 0 32 lowHalf_le),
    x25519DiffieHellman prims (run.encapsulatorEntropy.slice 32 32 highHalf_le)
      run.x25519Pk with
  | .ok (pqSecret, _), .ok classicalSecret =>
      pqSecret.bytes ++ classicalSecret.bytes
  | _, _ => []

def prk (salt : Bytes) : Block 48 :=
  prims.hmacSha384 salt run.inputKeyMaterial

/-- The key blocks and messages of the keyed hashes between a salt and the
encapsulator's tag. -/
def macQueries (salt : Bytes) : List (Bytes × Bytes) :=
  [(KeyedHash.keyBlock prims.sha384 128 salt, run.inputKeyMaterial),
    (KeyedHash.keyBlock prims.sha384 128 (run.prk salt).bytes,
      confirmationInfo (run.exchange.inner prims) ++ [1]),
    (KeyedHash.keyBlock prims.sha384 128
      (run.exchange.encapsulatorConfirmKey prims (run.prk salt)).bytes,
      confirmLabelEncapsulatingSide ++ (run.exchange.transcript prims).bytes)]

theorem initiated_keys :
    ∃ dk sk, run.keygen.mlKemDk = some dk ∧ run.keygen.x25519Sk = some sk ∧
      run.mlKemPk = prims.mlKemEncapsulationKey dk ∧
      run.x25519Pk = prims.x25519PublicKey sk := by
  have hinitiated := run.initiated
  unfold SessionManager.initiateHandshake at hinitiated
  split at hinitiated
  next => cases hinitiated
  next =>
    split at hinitiated
    next => cases hinitiated
    next mlKemPk mlKemDk hkeygen =>
      rcases Execution.bind_eq_ok.mp hkeygen with ⟨_, _, hpair⟩
      cases hpair
      simp only [x25519Keygen, Prod.mk.injEq, Except.ok.injEq] at hinitiated
      rcases hinitiated with ⟨⟨hek, hxk⟩, hkeygen⟩
      rw [← hkeygen]
      exact ⟨mlKemDk, _, rfl, rfl, hek.symm, hxk.symm⟩

/-- Both sides extract from the same secrets, and agree on the exchange. -/
theorem finalize_inputs
    (hkem : prims.KemCorrect) (hdh : prims.DhCommutes)
    (hzero : prims.ZeroNotContributory) (hsig : prims.SignatureCorrect)
    (salt : Bytes) :
    ∃ dk sk, run.keygen.mlKemDk = some dk ∧ run.keygen.x25519Sk = some sk ∧
      run.appInfo.length < 2 ^ 32 ∧
      (run.finalizeArgs salt).exchange prims dk sk = run.exchange ∧
      (run.finalizeArgs salt).prk prims dk sk = .ok (run.prk salt) ∧
      run.output.confirmation =
        run.exchange.encapsulatorTag prims (run.prk run.salt) ∧
      mlDsaVerifyWithContext prims
        (prims.mlDsaVerifyingKey run.encapsulatorSigningKey)
        (run.exchange.digest prims run.output.confirmation).bytes
        contextEncapsulatingSide run.output.signature = .ok () := by
  rcases run.initiated_keys with ⟨dk, sk, hdk, hsk, hek, hxk⟩
  rcases SessionManager.encapsulateAuthenticated_ok run.encapsulated with
    ⟨pqSecret, classicalSecret, prk, hlength, hencaps, hshared, hpk, hprkEq,
      _, htag, hsign, _⟩
  dsimp only at hlength hencaps hshared hpk hprkEq htag hsign
  have hmaterial : run.inputKeyMaterial =
      pqSecret.bytes ++ classicalSecret.bytes := by
    simp only [inputKeyMaterial, hencaps, hshared]
  have hdecaps : mlKemDecapsulate prims dk run.output.ct = .ok pqSecret := by
    rcases Execution.bind_eq_ok.mp hencaps with ⟨⟨ct, secret⟩, hraw, hpair⟩
    cases hpair
    rw [hek] at hraw
    exact hkem dk _ _ _ hraw
  have hkeygenShared :
      x25519DiffieHellman prims sk run.output.pk = .ok classicalSecret := by
    rcases (x25519DiffieHellman_eq_ok prims).mp hshared with
      ⟨_, hcontributory, hvalue⟩
    have hsame : prims.x25519DiffieHellman sk run.output.pk =
        classicalSecret := by
      rw [hpk, hdh, ← hxk]
      exact hvalue
    rw [hvalue] at hcontributory
    refine (x25519DiffieHellman_eq_ok prims).mpr ⟨?_, ?_, hsame⟩
    · rw [← Bool.not_eq_true]
      intro hall
      have hnot := hzero sk run.output.pk hall
      rw [hsame, hcontributory] at hnot
      cases hnot
    · rw [hsame]
      exact hcontributory
  have hprk : run.prk run.salt = prk := by
    rw [hprkEq, HonestRun.prk, hmaterial]
    rfl
  refine ⟨dk, sk, hdk, hsk, hlength, ?_, ?_, ?_, hsig _ _ _ _ hsign⟩
  · unfold exchange encapsulateArgs finalizeArgs
      EncapsulateAuthenticatedArgs.exchange FinalizeAuthenticatedArgs.exchange
    rw [hek, hxk]
  · unfold finalizeArgs FinalizeAuthenticatedArgs.prk
    simp only [hdecaps, hkeygenShared, HonestRun.prk, hmaterial]
    rfl
  · rw [hprk]
    exact htag

/-- The encapsulator's tag determines the key block of the salt. -/
theorem encapsulatorTag_eq_iff
    {core : Bytes → Bytes → Block 48} (hpads : prims.HmacPadsKey core)
    {salt : Bytes}
    (hinj : Set.InjOn (fun query : Bytes × Bytes => core query.1 query.2)
      {query | query ∈ run.macQueries run.salt ++ run.macQueries salt}) :
    run.exchange.encapsulatorTag prims (run.prk salt) =
        run.exchange.encapsulatorTag prims (run.prk run.salt) ↔
      KeyedHash.keyBlock prims.sha384 128 run.salt =
        KeyedHash.keyBlock prims.sha384 128 salt := by
  have hown : ∀ query ∈ run.macQueries run.salt,
      query ∈ run.macQueries run.salt ++ run.macQueries salt :=
    fun query hquery => List.mem_append_left _ hquery
  have hother : ∀ query ∈ run.macQueries salt,
      query ∈ run.macQueries run.salt ++ run.macQueries salt :=
    fun query hquery => List.mem_append_right _ hquery
  simp only [macQueries, List.mem_cons, List.not_mem_nil, or_false,
    forall_eq_or_imp, forall_eq] at hown hother
  constructor
  · intro htag
    have hconfirmKey : run.exchange.encapsulatorConfirmKey prims
        (run.prk salt) =
          run.exchange.encapsulatorConfirmKey prims (run.prk run.salt) := by
      unfold Exchange.encapsulatorTag at htag
      rw [hpads, hpads] at htag
      have hblocks := congrArg Prod.fst (hinj hother.2.2 hown.2.2 htag)
      apply Block.ext
      exact KeyedHash.keyBlock_inj_of_length_eq prims.sha384 (by simp)
        (by simp) hblocks
    have hprk : run.prk salt = run.prk run.salt := by
      unfold Exchange.encapsulatorConfirmKey Exchange.confirmation
        at hconfirmKey
      rw [KeyedHash.expand_slice_first, KeyedHash.expand_slice_first, hpads,
        hpads] at hconfirmKey
      have hblocks := congrArg Prod.fst (hinj hother.2.1 hown.2.1 hconfirmKey)
      apply Block.ext
      exact KeyedHash.keyBlock_inj_of_length_eq prims.sha384 (by simp)
        (by simp) hblocks
    unfold HonestRun.prk at hprk
    rw [hpads, hpads] at hprk
    exact (congrArg Prod.fst (hinj hother.1 hown.1 hprk)).symm
  · intro hblocks
    have hprk : run.prk salt = run.prk run.salt := by
      unfold HonestRun.prk
      rw [hpads, hpads, hblocks]
    rw [hprk]

/-- How the key-generating side of an honest run ends. -/
theorem finalize_outcome
    (hkem : prims.KemCorrect) (hdh : prims.DhCommutes)
    (hzero : prims.ZeroNotContributory) (hsig : prims.SignatureCorrect)
    (hhmac : prims.HmacTotal) (hhkdf : prims.HkdfTotal) (salt : Bytes) :
    let tag := run.exchange.keygenTag prims (run.prk salt)
      run.output.confirmation
    run.keygen.finalizeAuthenticated prims (run.finalizeArgs salt) =
      if run.exchange.encapsulatorTag prims (run.prk salt) =
          run.exchange.encapsulatorTag prims (run.prk run.salt) then
        match mlDsaSignWithContext prims run.keygenSigningKey
            (keygenDigest prims (run.exchange.digest prims
              run.output.confirmation) tag).bytes contextKeygenSide with
        | .ok signature =>
            (.ok ⟨signature, tag⟩, SessionManager.installed
              (keygenTxKey (run.exchange.sessionKey prims (run.prk salt)))
              (keygenRxKey (run.exchange.sessionKey prims (run.prk salt)))
              none)
        | .error failure => (.error failure, .new)
      else
        (.error .keyConfirmationFailed, .new) := by
  rcases run.finalize_inputs hkem hdh hzero hsig salt with
    ⟨dk, sk, hdk, hsk, hlength, hexchange, hprk, htag, hverify⟩
  have houtcome := SessionManager.finalizeAuthenticated_of_total hhmac hhkdf
    hdk hsk hlength hprk (by rw [hexchange]; exact hverify)
  simp only [hexchange] at houtcome
  rw [← htag]
  exact houtcome

/-- In an otherwise honest run a salt mismatch is caught exactly when the two
salts have different key blocks. -/
theorem saltMismatch_detected_iff
    (hkem : prims.KemCorrect) (hdh : prims.DhCommutes)
    (hzero : prims.ZeroNotContributory) (hsig : prims.SignatureCorrect)
    (hhmac : prims.HmacTotal) (hhkdf : prims.HkdfTotal)
    {core : Bytes → Bytes → Block 48} (hpads : prims.HmacPadsKey core)
    {salt : Bytes}
    (hinj : Set.InjOn (fun query : Bytes × Bytes => core query.1 query.2)
      {query | query ∈ run.macQueries run.salt ++ run.macQueries salt}) :
    let outcome :=
      run.keygen.finalizeAuthenticated prims (run.finalizeArgs salt)
    (outcome.1 = .error .keyConfirmationFailed ∧ outcome.2.txKey = none ∧
        outcome.2.rxKey = none) ↔
      KeyedHash.keyBlock prims.sha384 128 run.salt ≠
        KeyedHash.keyBlock prims.sha384 128 salt := by
  intro outcome
  have houtcome : outcome = _ :=
    run.finalize_outcome hkem hdh hzero hsig hhmac hhkdf salt
  have htags := run.encapsulatorTag_eq_iff hpads hinj
  rw [houtcome]
  constructor
  · intro hfailed hblocks
    rw [if_pos (htags.mpr hblocks)] at hfailed
    split at hfailed
    next => cases hfailed.1
    next failure hsign =>
      have hlength := mlDsaSignWithContext_eq_error prims hsign
      rw [hlength] at hfailed
      cases hfailed.1
  · intro hblocks
    rw [if_neg (fun htag => hblocks (htags.mp htag))]
    exact ⟨rfl, rfl, rfl⟩

end HonestRun

/-! ## Salts with one key block -/

namespace Reference

theorem sign_eq_ok (sk : UInt8) (msg context : Bytes) :
    mlDsaSignWithContext primitives sk msg context =
      .ok (signature (Block.fill 2592 sk) msg context) :=
  mlDsaSignWithContext_of_some primitives rfl

def encapsulateArgs (salt : Bytes) : EncapsulateAuthenticatedArgs UInt8 where
  ownSigningKey := 2
  peerVerifyingKey := Block.fill 2592 1
  peerMlKemPk := Block.fill 1568 3
  peerX25519Pk := Block.fill 32 3
  entropy := Block.fill 64 7
  salt := salt
  appInfo := [4]

def handshakePrk (salt : Bytes) : Block 48 :=
  hybridPrk primitives (Block.fill 32 (3 ^^^ 7)) (Block.fill 32 (7 * 3)) salt

def handshakeExchange : Exchange where
  mlKemPk := Block.fill 1568 3
  x25519Pk := Block.fill 32 3
  keygenKey := Block.fill 2592 1
  encapsulatorKey := Block.fill 2592 2
  appInfo := [4]
  ct := Block.fill 1568 7
  encapsulatorX25519Pk := Block.fill 32 7

def encapsulateOutput (salt : Bytes) : EncapsulateAuthenticatedOutput where
  ct := Block.fill 1568 7
  pk := Block.fill 32 7
  signature := signature (Block.fill 2592 2)
    (handshakeExchange.digest primitives
      (handshakeExchange.encapsulatorTag primitives
        (handshakePrk salt))).bytes contextEncapsulatingSide
  confirmation := handshakeExchange.encapsulatorTag primitives
    (handshakePrk salt)

def encapsulatorAfter (salt : Bytes) : SessionManager UInt8 :=
  .installed
    (keygenRxKey (handshakeExchange.sessionKey primitives (handshakePrk salt)))
    (keygenTxKey (handshakeExchange.sessionKey primitives (handshakePrk salt)))
    (some ⟨handshakeExchange.digest primitives
        (handshakeExchange.encapsulatorTag primitives (handshakePrk salt)),
      identityFingerprint primitives (Block.fill 2592 1),
      handshakeExchange.keygenConfirmKey primitives (handshakePrk salt)⟩)

theorem encapsulate_eq (salt : Bytes) :
    (SessionManager.new : SessionManager UInt8).encapsulateAuthenticated
        primitives (encapsulateArgs salt) =
      (.ok (encapsulateOutput salt), encapsulatorAfter salt) := by
  have hlength : (encapsulateArgs salt).appInfo.length < 2 ^ 32 := by
    change ([4] : Bytes).length < 2 ^ 32
    decide
  have hentropy : entropyRejected (encapsulateArgs salt).entropy = false := by
    change entropyRejected (Block.fill 64 7) = false
    decide
  have hkem : mlKemEncapsulate primitives (Block.fill 1568 3)
      ((Block.fill 64 7).slice 0 32 lowHalf_le) =
        .ok (Block.fill 32 (3 ^^^ 7), Block.fill 1568 7) := rfl
  have hdh : x25519DiffieHellman primitives
      ((Block.fill 64 7).slice 32 32 highHalf_le) (Block.fill 32 3) =
        .ok (Block.fill 32 (7 * 3)) := rfl
  have hequation := SessionManager.encapsulateAuthenticated_of_total
    primitives_hmacTotal primitives_hkdfTotal
    (SessionManager.new : SessionManager UInt8) hlength hentropy hkem hdh
  simp only [sign_eq_ok] at hequation
  exact hequation

def keygenPending : SessionManager UInt8 :=
  { (SessionManager.new : SessionManager UInt8) with
    mlKemDk := some 3
    x25519Sk := some (Block.fill 32 3) }

/-- An honest run of the reference primitives with any salt. -/
def honestRun (salt : Bytes) : HonestRun primitives where
  keygenSigningKey := 1
  encapsulatorSigningKey := 2
  keygenStart := .new
  encapsulatorStart := .new
  keygenEntropy := Block.fill 96 3
  encapsulatorEntropy := Block.fill 64 7
  salt := salt
  appInfo := [4]
  mlKemPk := Block.fill 1568 3
  x25519Pk := Block.fill 32 3
  keygen := keygenPending
  output := encapsulateOutput salt
  encapsulator := encapsulatorAfter salt
  initiated := rfl
  encapsulated := encapsulate_eq salt

/-- The empty salt and the salt which is one zero byte are different, but the
mismatch goes unnoticed and session keys are installed. -/
theorem emptySalt_accepted_for_zeroSalt :
    (honestRun []).salt ≠ [0] ∧
      ∃ proof next,
        (honestRun []).keygen.finalizeAuthenticated primitives
          ((honestRun []).finalizeArgs [0]) = (.ok proof, next) ∧
        next.txKey = (honestRun []).encapsulator.rxKey ∧
        next.rxKey = (honestRun []).encapsulator.txKey ∧
        next.txKey ≠ none := by
  have hsalt : (honestRun []).salt = [] := rfl
  have hprk : (honestRun []).prk [0] = (honestRun []).prk [] := rfl
  have houtcome := (honestRun []).finalize_outcome primitives_kemCorrect
    primitives_dhCommutes primitives_zeroNotContributory
    primitives_signatureCorrect primitives_hmacTotal primitives_hkdfTotal [0]
  simp only [hsalt, hprk, sign_eq_ok, if_true] at houtcome
  refine ⟨?_, _, _, houtcome, rfl, rfl, Option.some_ne_none _⟩
  rw [hsalt]
  exact (List.cons_ne_nil 0 []).symm

theorem macQueries_injOn :
    Set.InjOn (fun query : Bytes × Bytes => keyedDigest query.1 query.2)
      {query | query ∈ (honestRun [1]).macQueries [1] ++
        (honestRun [1]).macQueries [2]} := by
  have hnodup : (((honestRun [1]).macQueries [1] ++
      (honestRun [1]).macQueries [2]).map
        fun query => keyedDigest query.1 query.2).Nodup := by
    decide +kernel
  intro left hleft right hright heq
  exact List.inj_on_of_nodup_map hnodup hleft hright heq

theorem saltMismatch_detected_for_short_salts :
    ((honestRun [1]).keygen.finalizeAuthenticated primitives
      ((honestRun [1]).finalizeArgs [2])).1 =
        .error .keyConfirmationFailed := by
  have hblocks : KeyedHash.keyBlock primitives.sha384 128 [1] ≠
      KeyedHash.keyBlock primitives.sha384 128 [2] := by
    decide
  exact (((honestRun [1]).saltMismatch_detected_iff primitives_kemCorrect
    primitives_dhCommutes primitives_zeroNotContributory
    primitives_signatureCorrect primitives_hmacTotal primitives_hkdfTotal
    primitives_hmacPadsKey macQueries_injOn).mpr hblocks).1

end Reference

end ShawnCore
