import ShawnCore.AuthExchange

/-!
# What session keys are derived from

Four operations install session keys: each side of the handshake with and
without authentication.  All of them derive the keys in the same way from an
extracted secret, the public data of the encapsulating side and an info string,
which the authenticated operations replace by their binding.
-/

namespace ShawnCore

open ByteBlocks

variable {DecapsKey SigningKey : Type}
variable (prims : Primitives DecapsKey SigningKey)

inductive Side
  | keygen
  | encapsulator
deriving DecidableEq

def Side.peer : Side → Side
  | .keygen => .encapsulator
  | .encapsulator => .keygen

/-- The inputs of the session keys. -/
structure KeyMaterial where
  prk : Block 48
  ct : Ciphertext1024
  pk : X25519Public
  info : Bytes
deriving DecidableEq

namespace KeyMaterial

def sessionKey (material : KeyMaterial) : Block 128 :=
  KeyedHash.expand prims.hmacSha384 material.prk.bytes
    (handshakeTranscript prims material.ct material.pk material.info).bytes 128

/-- The directional key under which one side sends. -/
def sendKey (material : KeyMaterial) : Side → Block 64
  | .keygen => keygenTxKey (material.sessionKey prims)
  | .encapsulator => keygenRxKey (material.sessionKey prims)

end KeyMaterial

def finalizePrk
    (dk : DecapsKey) (sk : X25519Secret) (peerX25519Pk : X25519Public)
    (ct : Ciphertext1024) (salt : Bytes) : Except CryptoError (Block 48) := do
  let pqSecret ← mlKemDecapsulate prims dk ct
  let classicalSecret ← x25519DiffieHellman prims sk peerX25519Pk
  return hybridPrk prims pqSecret classicalSecret salt

def encapsulatePrk
    (peerMlKemPk : PublicKey1024) (peerX25519Pk : X25519Public)
    (entropy : Block 64) (salt : Bytes) : Except CryptoError (Block 48) := do
  let (pqSecret, _) ← mlKemEncapsulate prims peerMlKemPk
    (entropy.slice 0 32 lowHalf_le)
  let classicalSecret ← x25519DiffieHellman prims
    (entropy.slice 32 32 highHalf_le) peerX25519Pk
  return hybridPrk prims pqSecret classicalSecret salt

/-- The exchange of a successful authenticated installation. -/
def Record.exchange? (record : Record DecapsKey SigningKey) :
    Option Exchange :=
  match record.call, record.result with
  | .encapsulateAuthenticated args, .ok (.authEncapsulated output) =>
      some (args.exchange prims output.ct output.pk)
  | .finalizeAuthenticated args, .ok (.proof _) =>
      match record.before.mlKemDk, record.before.x25519Sk with
      | some dk, some sk => some (args.exchange prims dk sk)
      | _, _ => none
  | _, _ => none

/-- The side on which a successful installation was called, and the material
of its keys. -/
def Record.derivation? (record : Record DecapsKey SigningKey) :
    Option (Side × KeyMaterial) :=
  match record.call, record.result with
  | .finalizeHandshake peerX25519Pk ct salt info, .ok .done =>
      match record.before.mlKemDk, record.before.x25519Sk with
      | some dk, some sk =>
          (finalizePrk prims dk sk peerX25519Pk ct salt).toOption.map
            fun prk => (.keygen, ⟨prk, ct, peerX25519Pk, info⟩)
      | _, _ => none
  | .encapsulateForPeer peerMlKemPk peerX25519Pk entropy salt info,
      .ok (.encapsulated ct pk) =>
      (encapsulatePrk prims peerMlKemPk peerX25519Pk entropy
        salt).toOption.map fun prk => (.encapsulator, ⟨prk, ct, pk, info⟩)
  | .encapsulateAuthenticated args, .ok (.authEncapsulated output) =>
      (args.prk prims).toOption.map fun prk =>
        (.encapsulator, ⟨prk, output.ct, output.pk,
          ((args.exchange prims output.ct output.pk).binding prims).bytes⟩)
  | .finalizeAuthenticated args, .ok (.proof _) =>
      match record.before.mlKemDk, record.before.x25519Sk with
      | some dk, some sk =>
          (args.prk prims dk sk).toOption.map fun prk =>
            (.keygen, ⟨prk, args.mlKemCt, args.peerX25519Pk,
              ((args.exchange prims dk sk).binding prims).bytes⟩)
      | _, _ => none
  | _, _ => none

variable {prims}

theorem deriveHybridKey_eq_ok
    {pqSecret classicalSecret : Block 32} {salt info : Bytes}
    {derivedKey : Block 128}
    (hderive : deriveHybridKey prims pqSecret classicalSecret salt info =
      .ok derivedKey) :
    derivedKey = KeyedHash.expand prims.hmacSha384
      (hybridPrk prims pqSecret classicalSecret salt).bytes info 128 := by
  unfold deriveHybridKey at hderive
  split at hderive
  next hexpand =>
    cases hderive
    exact hkdfExpand_eq_some prims hexpand
  next => cases hderive

namespace SessionManager

theorem finalizeHandshake_ok
    {manager next : SessionManager DecapsKey} {peerX25519Pk : X25519Public}
    {ct : Ciphertext1024} {salt info : Bytes}
    (hok : manager.finalizeHandshake prims peerX25519Pk ct salt info =
      (.ok (), next)) :
    ∃ dk sk prk, manager.mlKemDk = some dk ∧ manager.x25519Sk = some sk ∧
      finalizePrk prims dk sk peerX25519Pk ct salt = .ok prk ∧
      next = installed
        (KeyMaterial.sendKey prims ⟨prk, ct, peerX25519Pk, info⟩ .keygen)
        (KeyMaterial.sendKey prims ⟨prk, ct, peerX25519Pk, info⟩
          .encapsulator) none := by
  unfold finalizeHandshake at hok
  split at hok
  next dk sk hdk hsk =>
    split at hok
    next => cases hok
    next hybridKey hsecrets =>
      obtain ⟨pqSecret, hkem, hrest⟩ := Execution.bind_eq_ok.mp hsecrets
      obtain ⟨classicalSecret, hdh, hderive⟩ := Execution.bind_eq_ok.mp hrest
      cases hok
      refine ⟨dk, sk, hybridPrk prims pqSecret classicalSecret salt, hdk, hsk,
        ?_, ?_⟩
      · simp only [finalizePrk, hkem, hdh]
        rfl
      · rw [deriveHybridKey_eq_ok hderive]
        rfl
  next => cases hok

theorem encapsulateForPeer_ok
    {manager next : SessionManager DecapsKey} {peerMlKemPk : PublicKey1024}
    {peerX25519Pk : X25519Public} {entropy : Block 64} {salt info : Bytes}
    {ct : Ciphertext1024} {pk : X25519Public}
    (hok : manager.encapsulateForPeer prims peerMlKemPk peerX25519Pk entropy
      salt info = (.ok (ct, pk), next)) :
    ∃ prk, encapsulatePrk prims peerMlKemPk peerX25519Pk entropy salt =
        .ok prk ∧
      next = installed
        (KeyMaterial.sendKey prims ⟨prk, ct, pk, info⟩ .encapsulator)
        (KeyMaterial.sendKey prims ⟨prk, ct, pk, info⟩ .keygen) none := by
  unfold encapsulateForPeer at hok
  rcases encapsulateInner_cases prims manager peerMlKemPk peerX25519Pk entropy
      salt info false with ⟨failure, hinner⟩ | ⟨output, key, hsecrets, hinner⟩
  · rw [hinner] at hok
    cases hok
  · rw [hinner] at hok
    cases hok
    obtain ⟨⟨pqSecret, sentCt⟩, hkem, hrest⟩ :=
      Execution.bind_eq_ok.mp hsecrets
    obtain ⟨classicalSecret, hdh, hderived⟩ := Execution.bind_eq_ok.mp hrest
    simp only [Bool.false_eq_true, if_false] at hderived
    obtain ⟨session, hderive, hout⟩ := Execution.bind_eq_ok.mp hderived
    cases hout
    refine ⟨hybridPrk prims pqSecret classicalSecret salt, ?_, ?_⟩
    · have hdh' : x25519DiffieHellman prims
          (entropy.slice 32 32 highHalf_le) peerX25519Pk =
            .ok classicalSecret := hdh
      simp only [encapsulatePrk, hkem, hdh']
      rfl
    · rw [deriveHybridKey_eq_ok hderive]
      rfl

/-- Every installation derives its keys from its material. -/
theorem perform_derivation
    (manager : SessionManager DecapsKey) (call : Call SigningKey)
    (hinstalls : (manager.perform ⟨prims, call⟩).Installs) :
    ∃ side material pendingAuth,
      (manager.perform ⟨prims, call⟩).derivation? prims =
          some (side, material) ∧
        (manager.perform ⟨prims, call⟩).after =
          installed (material.sendKey prims side)
            (material.sendKey prims side.peer) pendingAuth := by
  obtain ⟨hcall, hok⟩ := hinstalls
  cases call with
  | finalizeHandshake peerX25519Pk ct salt info =>
      rcases hcase : manager.finalizeHandshake prims peerX25519Pk ct salt
        info with ⟨result, next⟩
      simp only [perform, exec, hcase] at hok ⊢
      cases result with
      | error failure => cases hok
      | ok _ =>
          obtain ⟨dk, sk, prk, hdk, hsk, hprk, hnext⟩ :=
            finalizeHandshake_ok hcase
          refine ⟨.keygen, ⟨prk, ct, peerX25519Pk, info⟩, none, ?_, hnext⟩
          simp only [Record.derivation?, hdk, hsk, hprk]
          rfl
  | encapsulateForPeer peerMlKemPk peerX25519Pk entropy salt info =>
      rcases hcase : manager.encapsulateForPeer prims peerMlKemPk peerX25519Pk
        entropy salt info with ⟨result, next⟩
      simp only [perform, exec, hcase] at hok ⊢
      cases result with
      | error failure => cases hok
      | ok output =>
          obtain ⟨prk, hprk, hnext⟩ := encapsulateForPeer_ok hcase
          refine ⟨.encapsulator, ⟨prk, output.1, output.2, info⟩, none, ?_,
            hnext⟩
          simp only [Record.derivation?, hprk]
          rfl
  | encapsulateAuthenticated args =>
      rcases hcase : manager.encapsulateAuthenticated prims args with
        ⟨result, next⟩
      simp only [perform, exec, hcase] at hok ⊢
      cases result with
      | error failure => cases hok
      | ok output =>
          obtain ⟨_, _, prk, _, _, _, _, _, hprk, _, _, hnext⟩ :=
            encapsulateAuthenticated_ok hcase
          refine ⟨.encapsulator, ⟨prk, output.ct, output.pk,
            ((args.exchange prims output.ct output.pk).binding prims).bytes⟩,
            _, ?_, hnext⟩
          simp only [Record.derivation?, hprk]
          rfl
  | finalizeAuthenticated args =>
      rcases hcase : manager.finalizeAuthenticated prims args with
        ⟨result, next⟩
      simp only [perform, exec, hcase] at hok ⊢
      cases result with
      | error failure => cases hok
      | ok output =>
          obtain ⟨dk, sk, prk, hdk, hsk, _, hprk, _, _, _, _, hnext⟩ :=
            finalizeAuthenticated_ok hcase
          refine ⟨.keygen, ⟨prk, args.mlKemCt, args.peerX25519Pk,
            ((args.exchange prims dk sk).binding prims).bytes⟩, _, ?_, hnext⟩
          simp only [Record.derivation?, hdk, hsk, hprk]
          rfl
  | _ => cases hcall

end SessionManager

end ShawnCore
