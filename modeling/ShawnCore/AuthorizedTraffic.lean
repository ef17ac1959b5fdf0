import ShawnCore.HandshakeAgreement
import ShawnCore.TransmitNonce

/-!
# Authorized traffic

A packet is processed only in the tenure of keys which some handshake operation
installed.  Keys of `encapsulate_authenticated` are installed together with a
pending authentication, which only a matching `confirm_peer` clears; until then
both packet operations refuse.
-/

namespace ShawnCore

open ByteBlocks

variable {DecapsKey SigningKey : Type}

/-- The call presents the pinned identity, a signature of it over the awaited
digest, and the awaited confirmation tag. -/
def Invocation.Confirms
    (invocation : Invocation DecapsKey SigningKey)
    (pending : PendingAuthentication) : Prop :=
  ∃ args : ConfirmPeerArgs, invocation.call = .confirmPeer args ∧
    identityFingerprint invocation.prims args.peerVerifyingKey =
      pending.peerIdentity ∧
    mlDsaVerifyWithContext invocation.prims args.peerVerifyingKey
      (keygenDigest invocation.prims pending.digest
        args.peerConfirmation).bytes
      contextKeygenSide args.peerSignature = .ok () ∧
    invocation.prims.hmacSha384 pending.confirmationKey.bytes
      (confirmLabelKeygenSide ++ pending.digest.bytes) =
        args.peerConfirmation

/-- The successful packet operation worked with the session keys of
`manager`. -/
def Record.UsesKeys
    (record : Record DecapsKey SigningKey)
    (prims : Primitives DecapsKey SigningKey)
    (manager : SessionManager DecapsKey) : Prop :=
  match record.call with
  | .encryptPacket aad plaintext _ _ _ =>
      ∃ key sealed nonce, manager.txKey = some key ∧
        prims.chacha20TryApplyKeystream (key.slice 0 32 lowHalf_le) nonce
          plaintext = (true, sealed) ∧
        record.result = .ok (.packet sealed nonce
          (prims.hmacSha384 (key.slice 32 32 highHalf_le).bytes
            (macInput aad sealed nonce)))
  | .decryptPacket aad ciphertext nonce tag _ =>
      ∃ key opened, manager.rxKey = some key ∧
        prims.hmacSha384 (key.slice 32 32 highHalf_le).bytes
          (macInput aad ciphertext nonce) = tag ∧
        prims.chacha20TryApplyKeystream (key.slice 0 32 lowHalf_le) nonce
          ciphertext = (true, opened) ∧
        record.result = .ok (.plaintext opened)
  | _ => False

theorem Record.UsesKeys.of_keys_eq
    {record : Record DecapsKey SigningKey}
    {prims : Primitives DecapsKey SigningKey}
    {manager other : SessionManager DecapsKey}
    (huses : record.UsesKeys prims manager)
    (htx : manager.txKey = other.txKey) (hrx : manager.rxKey = other.rxKey) :
    record.UsesKeys prims other := by
  unfold Record.UsesKeys at huses ⊢
  rwa [htx, hrx] at huses

namespace SessionManager

/-! ## Packet operations need an open session -/

/-- The session is established and awaits no confirmation. -/
def IsOpen (manager : SessionManager DecapsKey) : Prop :=
  manager.isEstablished = true ∧ manager.pendingAuth = none

theorem isOpen_of_not_refused
    {manager : SessionManager DecapsKey} {refused : Prop}
    (hguard : ¬ (!manager.isEstablished ∨ manager.pendingAuth.isSome ∨
      refused)) : manager.IsOpen := by
  rw [not_or, not_or] at hguard
  exact ⟨by simpa using hguard.1, by simpa using hguard.2.1⟩

theorem isOpen_of_encryptPacket
    {prims : Primitives DecapsKey SigningKey}
    {manager : SessionManager DecapsKey} {aad : Slice}
    {plaintext ciphertext : Bytes} {nonce : Block 12} {tag : Block 48}
    (hok : (manager.encryptPacket prims aad plaintext ciphertext nonce
      tag).result = .ok ()) : manager.IsOpen := by
  unfold encryptPacket at hok
  split at hok
  next => cases hok
  next hguard => exact isOpen_of_not_refused hguard

theorem isOpen_of_decryptPacket
    {prims : Primitives DecapsKey SigningKey}
    {manager : SessionManager DecapsKey} {aad : Slice} {ciphertext : Bytes}
    {nonce : Block 12} {tag : Block 48} {plaintext : Bytes}
    (hok : (manager.decryptPacket prims aad ciphertext nonce tag
      plaintext).result = .ok ()) : manager.IsOpen := by
  unfold decryptPacket at hok
  split at hok
  next => cases hok
  next hguard => exact isOpen_of_not_refused hguard

/-- A successful packet operation found the session open and worked with its
keys. -/
theorem perform_packet
    {manager : SessionManager DecapsKey}
    {packet : Invocation DecapsKey SigningKey}
    (hpacket : packet.call.isPacket = true)
    (hok : (manager.perform packet).result.isOk = true) :
    manager.IsOpen ∧
      (manager.perform packet).UsesKeys packet.prims manager := by
  rcases packet with ⟨prims, call⟩
  cases call with
  | encryptPacket aad plaintext ciphertext nonce tag =>
      rcases encryptPacket_cases prims manager aad plaintext ciphertext nonce
          tag with ⟨failure, buffer, outTag, hcase⟩ |
        ⟨key, sealed, hkey, _, _, happly, hcase⟩
      · simp [perform, exec, hcase, Except.isOk, Except.toBool] at hok
      · refine ⟨isOpen_of_encryptPacket (congrArg _ hcase), ?_⟩
        refine ⟨key, sealed, _, hkey, happly, ?_⟩
        simp only [perform, exec, hcase]
  | decryptPacket aad ciphertext nonce tag plaintext =>
      rcases decryptPacket_cases prims manager aad ciphertext nonce tag
          plaintext with ⟨failure, buffer, hcase⟩ |
        ⟨key, opened, hkey, _, _, htag, happly, hcase⟩
      · simp [perform, exec, hcase, Except.isOk, Except.toBool] at hok
      · refine ⟨isOpen_of_decryptPacket (congrArg _ hcase), ?_⟩
        refine ⟨key, opened, hkey, htag, happly, ?_⟩
        simp only [perform, exec, hcase]
  | _ => cases hpacket

/-! ## The tenure of the present keys -/

theorem perform_eq
    {manager next : SessionManager DecapsKey}
    {invocation : Invocation DecapsKey SigningKey}
    {result : Except CryptoError Output}
    (hexec : manager.exec invocation.prims invocation.call = (result, next)) :
    manager.perform invocation = ⟨manager, invocation.call, result, next⟩ := by
  simp only [perform, hexec]

theorem afterCalls_append
    (manager : SessionManager DecapsKey)
    (left right : List (Invocation DecapsKey SigningKey)) :
    manager.afterCalls (left ++ right) =
      (manager.afterCalls left).afterCalls right :=
  List.foldl_append

theorem history_append
    (manager : SessionManager DecapsKey)
    (left right : List (Invocation DecapsKey SigningKey)) :
    manager.history (left ++ right) =
      manager.history left ++ (manager.afterCalls left).history right := by
  induction left generalizing manager with
  | nil => rfl
  | cons invocation rest ih =>
      simp only [List.cons_append, history, afterCalls_cons, ih]

/-- `install` succeeded after `earlier` and every call of `part` left its keys
in place. -/
structure Tenure
    (earlier : List (Invocation DecapsKey SigningKey))
    (install : Invocation DecapsKey SigningKey)
    (part : List (Invocation DecapsKey SigningKey)) : Prop where
  installs : ((new.afterCalls earlier).perform install).Installs
  kept : ∀ record ∈
    ((new.afterCalls earlier).perform install).after.history part,
      record.KeepsKeys

namespace Tenure

variable {earlier part : List (Invocation DecapsKey SigningKey)}
variable {install : Invocation DecapsKey SigningKey}

theorem keys_kept
    (htenure : Tenure earlier install part) :
    (new.afterCalls (earlier ++ install :: part)).txKey =
        ((new.afterCalls earlier).perform install).after.txKey ∧
      (new.afterCalls (earlier ++ install :: part)).rxKey =
        ((new.afterCalls earlier).perform install).after.rxKey := by
  rw [afterCalls_append, afterCalls_cons]
  have hkept := htenure.kept
  generalize ((new.afterCalls earlier).perform install).after = start at *
  clear htenure
  induction part generalizing start with
  | nil => exact ⟨rfl, rfl⟩
  | cons invocation rest ih =>
      rcases start.perform_tenure invocation (hkept _ List.mem_cons_self) with
        ⟨_, htx, hrx, _⟩
      rw [afterCalls_cons, ← htx, ← hrx]
      exact ih _ fun record hrecord =>
        hkept record (List.mem_cons_of_mem _ hrecord)

theorem txKey_ne_none
    (htenure : Tenure earlier install part) :
    (new.afterCalls (earlier ++ install :: part)).txKey ≠ none := by
  rcases perform_installs _ install htenure.installs with
    ⟨txKey, rxKey, pendingAuth, hinstalled⟩
  rw [htenure.keys_kept.1, hinstalled]
  exact Option.some_ne_none txKey

theorem snoc
    (htenure : Tenure earlier install part)
    {invocation : Invocation DecapsKey SigningKey}
    (hkeeps : ((new.afterCalls (earlier ++ install :: part)).perform
      invocation).KeepsKeys) :
    Tenure earlier install (part ++ [invocation]) := by
  refine ⟨htenure.installs, ?_⟩
  intro record hrecord
  rw [history_append, List.mem_append] at hrecord
  rcases hrecord with hpart | hlast
  · exact htenure.kept record hpart
  · rw [afterCalls_append, afterCalls_cons] at hkeeps
    rw [List.mem_singleton.mp hlast]
    exact hkeeps

end Tenure

/-- A call which installs nothing leaves an established session only where it
found one, with the same keys. -/
theorem perform_established
    (manager : SessionManager DecapsKey)
    (invocation : Invocation DecapsKey SigningKey)
    (hinstalls : ¬ (manager.perform invocation).Installs)
    (hestablished :
      (manager.perform invocation).after.isEstablished = true) :
    manager.isEstablished = true ∧
      (manager.perform invocation).after.txKey = manager.txKey := by
  have htransition := manager.perform_transition invocation
  unfold Record.Installs at hinstalls
  generalize (manager.perform invocation).call = call at *
  generalize (manager.perform invocation).result = result at *
  generalize (manager.perform invocation).after = after at *
  cases htransition with
  | refused => exact ⟨hestablished, rfl⟩
  | failedClosed => cases hestablished
  | zeroized => cases hestablished
  | initiated => cases hestablished
  | installed _ _ _ _ _ hcall => exact absurd ⟨hcall, rfl⟩ hinstalls
  | sent => exact ⟨hestablished, rfl⟩
  | received _ _ nonce =>
      rcases manager.commitRxNonce_frame nonce with ⟨_, _, hframe⟩
      rw [hframe] at hestablished ⊢
      exact ⟨hestablished, rfl⟩
  | confirmed => exact ⟨hestablished, rfl⟩

/-- An established session is in the tenure of an installation of its life. -/
theorem exists_tenure
    (life : List (Invocation DecapsKey SigningKey))
    (hestablished : (new.afterCalls life).isEstablished = true) :
    ∃ earlier install part, life = earlier ++ install :: part ∧
      Tenure earlier install part := by
  induction life using List.reverseRecOn with
  | nil => cases hestablished
  | append_singleton life invocation ih =>
      rw [afterCalls_append] at hestablished
      by_cases hinstalls :
          ((new.afterCalls life).perform invocation).Installs
      · refine ⟨life, invocation, [], rfl, hinstalls, ?_⟩
        intro record hrecord
        cases hrecord
      · rcases perform_established _ invocation hinstalls hestablished with
          ⟨hbefore, hkey⟩
        rcases ih hbefore with ⟨earlier, install, part, rfl, htenure⟩
        refine ⟨earlier, install, part ++ [invocation], ?_, ?_⟩
        · rw [List.append_assoc, List.cons_append]
        · apply htenure.snoc
          refine ⟨?_, hinstalls⟩
          rw [hkey]
          exact htenure.txKey_ne_none

theorem established_before
    (manager : SessionManager DecapsKey)
    (part : List (Invocation DecapsKey SigningKey))
    (hnone : ∀ record ∈ manager.history part, ¬ record.Installs)
    (hestablished : (manager.afterCalls part).isEstablished = true) :
    manager.isEstablished = true := by
  induction part generalizing manager with
  | nil => exact hestablished
  | cons invocation rest ih =>
      have hafter := ih _ (fun record hrecord =>
        hnone record (List.mem_cons_of_mem _ hrecord)) hestablished
      exact (manager.perform_established invocation
        (hnone _ List.mem_cons_self) hafter).1

/-- Calls which install nothing and end in an established session have left
the keys in place. -/
theorem keepsKeys_of_established
    (manager : SessionManager DecapsKey)
    (part : List (Invocation DecapsKey SigningKey))
    (hkey : manager.txKey ≠ none)
    (hnone : ∀ record ∈ manager.history part, ¬ record.Installs)
    (hestablished : (manager.afterCalls part).isEstablished = true) :
    ∀ record ∈ manager.history part, record.KeepsKeys := by
  induction part generalizing manager with
  | nil =>
      intro record hrecord
      cases hrecord
  | cons invocation rest ih =>
      have hrest : ∀ record ∈
          (manager.perform invocation).after.history rest,
            ¬ record.Installs := fun record hrecord =>
        hnone record (List.mem_cons_of_mem _ hrecord)
      have hfirst := hnone _ List.mem_cons_self
      have hsame := (manager.perform_established invocation hfirst
        (established_before _ rest hrest hestablished)).2
      have hafter : (manager.perform invocation).after.txKey ≠ none := by
        rw [hsame]
        exact hkey
      intro record hrecord
      rcases List.mem_cons.mp hrecord with rfl | hlater
      · exact ⟨hafter, hfirst⟩
      · exact ih _ hafter hrest hestablished record hlater

/-! ## A pending authentication is cleared by its confirmation only -/

theorem perform_pendingAuth
    (manager : SessionManager DecapsKey)
    (invocation : Invocation DecapsKey SigningKey)
    (hkeeps : (manager.perform invocation).KeepsKeys)
    {pending : PendingAuthentication}
    (hpending : manager.pendingAuth = some pending) :
    (manager.perform invocation).after.pendingAuth = some pending ∨
      (manager.perform invocation).result = .ok .done ∧
        invocation.Confirms pending := by
  rcases invocation with ⟨prims, call⟩
  by_cases hconfirm : ∃ args, call = .confirmPeer args
  · rcases hconfirm with ⟨args, rfl⟩
    rcases confirmPeer_cases prims manager args with
      ⟨failure, hcase | hcase⟩ | ⟨_, hcase⟩
    · left
      simpa only [perform, exec, hcase] using hpending
    · exact absurd (by simp only [perform, exec, hcase]; rfl) hkeeps.1
    · right
      rcases confirmPeer_ok hcase with
        ⟨found, hfound, hidentity, hverify, htag, _⟩
      obtain rfl : pending = found :=
        Option.some.inj (hpending.symm.trans hfound)
      refine ⟨?_, args, rfl, hidentity, hverify, htag⟩
      simp only [perform, exec, hcase]
  · left
    rcases hkeeps with ⟨hkey, hinstalls⟩
    have hcall : (manager.perform ⟨prims, call⟩).call = call := rfl
    have htransition := manager.perform_transition ⟨prims, call⟩
    unfold Record.Installs at hinstalls
    generalize (manager.perform ⟨prims, call⟩).call = performed at *
    generalize (manager.perform ⟨prims, call⟩).result = result at *
    generalize (manager.perform ⟨prims, call⟩).after = after at *
    subst hcall
    cases htransition with
    | refused => exact hpending
    | failedClosed => exact absurd rfl hkey
    | zeroized => exact absurd rfl hkey
    | initiated => exact absurd rfl hkey
    | installed _ _ _ _ _ hcall => exact absurd ⟨hcall, rfl⟩ hinstalls
    | sent => exact hpending
    | received _ _ nonce =>
        rw [manager.commitRxNonce_pendingAuth nonce]
        exact hpending
    | confirmed args => exact absurd ⟨args, rfl⟩ hconfirm

/-- While the keys stay, a pending authentication stays too unless one of the
calls confirmed it. -/
theorem afterCalls_pendingAuth
    (manager : SessionManager DecapsKey)
    (part : List (Invocation DecapsKey SigningKey))
    (hkept : ∀ record ∈ manager.history part, record.KeepsKeys)
    {pending : PendingAuthentication}
    (hpending : manager.pendingAuth = some pending) :
    (manager.afterCalls part).pendingAuth = some pending ∨
      ∃ before confirm rest, part = before ++ confirm :: rest ∧
        ((manager.afterCalls before).perform confirm).result = .ok .done ∧
        confirm.Confirms pending := by
  induction part generalizing manager with
  | nil => exact Or.inl hpending
  | cons invocation rest ih =>
      rcases manager.perform_pendingAuth invocation
          (hkept _ List.mem_cons_self) hpending with hsame | hconfirmed
      · rcases ih _ (fun record hrecord =>
            hkept record (List.mem_cons_of_mem _ hrecord)) hsame with
          hstill | ⟨before, confirm, later, rfl, hresult, hconfirms⟩
        · exact Or.inl hstill
        · exact Or.inr
            ⟨invocation :: before, confirm, later, rfl, hresult, hconfirms⟩
      · exact Or.inr ⟨[], invocation, rest, rfl, hconfirmed⟩

/-- The pending authentication which `encapsulate_authenticated` installs pins
the fingerprint of the peer it was called for. -/
theorem perform_encapsulateAuthenticated
    {manager : SessionManager DecapsKey}
    {install : Invocation DecapsKey SigningKey}
    {args : EncapsulateAuthenticatedArgs SigningKey}
    (hcall : install.call = .encapsulateAuthenticated args)
    (hok : (manager.perform install).result.isOk = true) :
    ∃ pending, (manager.perform install).after.pendingAuth = some pending ∧
      pending.peerIdentity =
        identityFingerprint install.prims args.peerVerifyingKey := by
  rcases install with ⟨prims, call⟩
  subst hcall
  rcases hcase : manager.encapsulateAuthenticated prims args with
    ⟨result, next⟩
  simp only [perform, exec, hcase] at hok ⊢
  cases result with
  | error failure => cases hok
  | ok output =>
      rcases encapsulateAuthenticated_ok hcase with
        ⟨_, _, prk, _, _, _, _, _, _, _, _, hnext⟩
      dsimp only
      rw [hnext]
      exact ⟨_, rfl, rfl⟩

/-! ## Main result -/

/-- The part of a life between an installation and a packet which entitles the
packet to its keys. -/
structure Authorizes
    (earlier : List (Invocation DecapsKey SigningKey))
    (install : Invocation DecapsKey SigningKey)
    (part : List (Invocation DecapsKey SigningKey)) : Prop
    extends Tenure earlier install part where
  confirmed : ∀ args, install.call = .encapsulateAuthenticated args →
    ∃ pending before confirm rest,
      part = before ++ confirm :: rest ∧
      ((new.afterCalls earlier).perform install).after.pendingAuth =
        some pending ∧
      pending.peerIdentity =
        identityFingerprint install.prims args.peerVerifyingKey ∧
      ((((new.afterCalls earlier).perform install).after.afterCalls
        before).perform confirm).result = .ok .done ∧
      confirm.Confirms pending

theorem Tenure.authorizes
    {earlier part : List (Invocation DecapsKey SigningKey)}
    {install : Invocation DecapsKey SigningKey}
    (htenure : Tenure earlier install part)
    (hpending :
      (new.afterCalls (earlier ++ install :: part)).pendingAuth = none) :
    Authorizes earlier install part := by
  refine ⟨htenure, ?_⟩
  intro args hcall
  rcases perform_encapsulateAuthenticated hcall htenure.installs.2 with
    ⟨pending, hinstalled, hidentity⟩
  rcases afterCalls_pendingAuth _ part htenure.kept hinstalled with
    hstill | ⟨before, confirm, rest, hpart, hresult, hconfirms⟩
  · rw [afterCalls_append, afterCalls_cons, hstill] at hpending
    cases hpending
  · exact ⟨pending, before, confirm, rest, hpart, hinstalled, hidentity,
      hresult, hconfirms⟩

/-- Every packet processed in a life is covered by the installation of the keys
it uses, and where `encapsulate_authenticated` installed them also by a
confirmation of the pinned peer.  No packet is processed between such an
installation and that confirmation. -/
theorem packets_authorized
    (life : List (Invocation DecapsKey SigningKey))
    (packet : Invocation DecapsKey SigningKey)
    (hpacket : packet.call.isPacket = true)
    (hok : ((new.afterCalls life).perform packet).result.isOk = true) :
    (∃ earlier install part, life = earlier ++ install :: part ∧
      Authorizes earlier install part ∧
      ((new.afterCalls life).perform packet).UsesKeys packet.prims
        ((new.afterCalls earlier).perform install).after) ∧
    ∀ earlier install part args, life = earlier ++ install :: part →
      install.call = .encapsulateAuthenticated args →
      ((new.afterCalls earlier).perform install).result.isOk = true →
      (∀ record ∈
        ((new.afterCalls earlier).perform install).after.history part,
          ¬ record.Installs) →
      Authorizes earlier install part := by
  rcases perform_packet hpacket hok with ⟨⟨hestablished, hpending⟩, huses⟩
  constructor
  · rcases exists_tenure life hestablished with
      ⟨earlier, install, part, rfl, htenure⟩
    refine ⟨earlier, install, part, rfl, htenure.authorizes hpending, ?_⟩
    exact huses.of_keys_eq htenure.keys_kept.1 htenure.keys_kept.2
  · intro earlier install part args hlife hcall hinstall hnone
    subst hlife
    have hinstalls : ((new.afterCalls earlier).perform install).Installs := by
      refine ⟨?_, hinstall⟩
      change install.call.installsKeys = true
      rw [hcall]
      rfl
    have htenure : Tenure earlier install part := by
      refine ⟨hinstalls, keepsKeys_of_established _ part ?_ hnone ?_⟩
      · rcases perform_installs _ install hinstalls with
          ⟨txKey, rxKey, pendingAuth, hinstalled⟩
        rw [hinstalled]
        exact Option.some_ne_none txKey
      · rw [afterCalls_append, afterCalls_cons] at hestablished
        exact hestablished
    exact htenure.authorizes hpending

theorem packets_authorized_after_confirmation :
    let encapsulation : Invocation UInt8 UInt8 :=
      ⟨Reference.primitives,
        .encapsulateAuthenticated (Reference.encapsulateArgs [9])⟩
    let confirmation : Invocation UInt8 UInt8 :=
      ⟨Reference.primitives, .confirmPeer (Reference.confirmArgs [9])⟩
    let packet : Invocation UInt8 UInt8 :=
      ⟨Reference.primitives, .encryptPacket ⟨[1], by decide⟩ [2, 3] [0, 0]
        (Block.fill 12 0) (Block.fill 48 0)⟩
    ((new.afterCalls [encapsulation, confirmation]).perform
        packet).result.isOk = true ∧
      Authorizes [] encapsulation [confirmation] := by
  intro encapsulation confirmation packet
  have hinstalled : new.perform encapsulation =
      ⟨new, encapsulation.call,
        .ok (.authEncapsulated (Reference.encapsulateOutput [9])),
        Reference.encapsulatorAfter [9]⟩ :=
    perform_eq (exec_encapsulateAuthenticated (Reference.encapsulate_eq [9]))
  have hconfirmed : (Reference.encapsulatorAfter [9]).perform confirmation =
      ⟨Reference.encapsulatorAfter [9], confirmation.call, .ok .done,
        (Reference.encapsulatorAfter [9]).wipePendingAuthentication⟩ :=
    perform_eq (exec_confirmPeer (Reference.confirm_eq [9]))
  have hstate : new.afterCalls [encapsulation, confirmation] =
      (Reference.encapsulatorAfter [9]).wipePendingAuthentication := by
    rw [afterCalls_cons, hinstalled, afterCalls_cons, hconfirmed,
      afterCalls_nil]
  have hok : ((new.afterCalls [encapsulation, confirmation]).perform
      packet).result.isOk = true := by
    rw [hstate]
    decide +kernel
  refine ⟨hok, ?_⟩
  refine (packets_authorized [encapsulation, confirmation] packet rfl hok).2
    [] encapsulation [confirmation] (Reference.encapsulateArgs [9]) rfl rfl
    ?_ ?_
  · rw [afterCalls_nil, hinstalled]
    rfl
  · intro record hrecord hinstalls
    simp only [history, List.mem_singleton] at hrecord
    subst hrecord
    cases hinstalls.1

end SessionManager

end ShawnCore
