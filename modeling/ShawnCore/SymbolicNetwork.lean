import ShawnCore.SymbolicHandshake

/-!
# Handshakes over a network of the attacker

Any number of key-generating and encapsulating sessions run over a network
which the attacker controls: every value a party receives is one the attacker
can derive, and every value a party sends is one it learns.  Long-term signing
keys and ephemeral secrets may leak at any time.  A sound network is one whose
knowledge has only the shapes of sent terms, and in which every accepted key
depends on the fresh secrets of two honest sessions.
-/

namespace ShawnCore
namespace Symbolic

open Deduction (Derivable Guarded)

/-! ## The network -/

inductive KeygenState
  | unused
  | pending
  | closed

inductive EncapsulatorState
  | unused
  | pending (call : Encapsulation)
  | closed

/-- A call of `finalize_authenticated` or `confirm_peer` which returned `Ok`,
with the secrets that had leaked before it. -/
structure Acceptance where
  own : ℕ
  peer : ℕ
  sessionKey : Term
  leakedBefore : Set Secret

/-- The lists of calls are ghost state. -/
structure Network where
  knowledge : Set Term
  leaked : Set Secret
  keygen : ℕ → KeygenState
  encapsulator : ℕ → EncapsulatorState
  encapsulations : List Encapsulation
  finalizations : List Finalization
  acceptances : List Acceptance

namespace Network

/-- The attacker knows all verifying keys and its own secrets. -/
def initial : Network where
  knowledge := {term | (∃ identity, term = verifyingKey identity) ∨
    ∃ index, term = .atom (.attacker index)}
  leaked := {secret | ∃ index, secret = .attacker index}
  keygen _ := .unused
  encapsulator _ := .unused
  encapsulations := []
  finalizations := []
  acceptances := []

def learn (network : Network) (terms : List Term) : Network :=
  { network with knowledge := network.knowledge ∪ {term | term ∈ terms} }

def Derives (network : Network) (terms : List Term) : Prop :=
  ∀ term ∈ terms, Derivable Rule network.knowledge term

def setKeygen (network : Network) (session : ℕ) (state : KeygenState) :
    Network :=
  { network with keygen := Function.update network.keygen session state }

def setEncapsulator
    (network : Network) (session : ℕ) (state : EncapsulatorState) : Network :=
  { network with
    encapsulator := Function.update network.encapsulator session state }

def accept (network : Network) (own peer : ℕ) (sessionKey : Term) : Network :=
  { network with
    acceptances := network.acceptances ++
      [⟨own, peer, sessionKey, network.leaked⟩] }

end Network

/-- `initiate_handshake` sends the two public keys of a fresh session. -/
def initiateMessages (session : ℕ) : List Term :=
  [.ek (.atom (.decapsulationKey session)),
    .pub (.atom (.keygenX25519 session))]

inductive Step : Network → Network → Prop
  | initiate {network : Network} (session : ℕ)
      (hunused : network.keygen session = .unused) :
      Step network
        ((network.setKeygen session .pending).learn (initiateMessages session))
  | encapsulate {network : Network} (call : Encapsulation)
      (hunused : network.encapsulator call.session = .unused)
      (hreceived : network.Derives call.received) :
      Step network
        ({ network.setEncapsulator call.session (.pending call) with
            encapsulations := network.encapsulations ++ [call] }.learn
          call.messages)
  | finalize {network : Network} (call : Finalization)
      (hpending : network.keygen call.session = .pending)
      (hreceived : network.Derives call.received)
      (hresult : call.result = .ok ()) :
      Step network
        ((({ network.setKeygen call.session .closed with
              finalizations := network.finalizations ++ [call] }.accept
            call.own call.peer call.sessionKey)).learn call.messages)
  | finalizeFailed {network : Network} (call : Finalization)
      (hpending : network.keygen call.session = .pending)
      (hreceived : network.Derives call.received)
      (hresult : call.result = .error .keyConfirmationFailed) :
      Step network (network.setKeygen call.session .closed)
  | confirm {network : Network} (call : Confirmation) (pending : Encapsulation)
      (hpending : network.encapsulator pending.session = .pending pending)
      (hreceived : network.Derives call.received)
      (hresult : call.result pending = .ok ()) :
      Step network
        ((network.setEncapsulator pending.session .closed).accept
          pending.own pending.peer pending.sessionKey)
  | confirmFailed {network : Network} (call : Confirmation)
      (pending : Encapsulation)
      (hpending : network.encapsulator pending.session = .pending pending)
      (hreceived : network.Derives call.received)
      (hresult : call.result pending = .error .keyConfirmationFailed) :
      Step network (network.setEncapsulator pending.session .closed)
  | zeroizeKeygen {network : Network} (session : ℕ) :
      Step network (network.setKeygen session .closed)
  | zeroizeEncapsulator {network : Network} (session : ℕ) :
      Step network (network.setEncapsulator session .closed)
  | leak {network : Network} (secret : Secret) :
      Step network
        ({ network with leaked := insert secret network.leaked }.learn
          [.atom secret])

/-! ## What the attacker can know -/

/-- The shapes of the terms which parties send or secrets which leak. -/
def Term.onWire : Term → Bool
  | .atom _ => true
  | .ek _ => true
  | .pub _ => true
  | .pk _ => true
  | .ct _ _ => true
  | .mac _ _ _ => true
  | .sig _ _ _ => true
  | _ => false

/-- The session key of an exchange between two honest sessions. -/
def honestSessionKey
    (keygen encapsulator : ℕ) (salt inner : Term) : Term :=
  .okm
    (.prk salt
      (.ss (.ek (.atom (.decapsulationKey keygen)))
        (.atom (.encapsulation encapsulator)))
      (.dh s(.keygenX25519 keygen, .encapsulatorX25519 encapsulator)))
    inner

/-- What holds of every reachable network. -/
structure Sound (network : Network) : Prop where
  onWire : ∀ term ∈ network.knowledge, term.onWire = true
  atoms : ∀ secret, .atom secret ∈ network.knowledge → secret ∈ network.leaked
  encapsulatorSigned : ∀ identity digest,
    signature identity .encapsulating digest ∈ network.knowledge →
      ∃ call ∈ network.encapsulations,
        call.own = identity ∧ call.digest = digest
  keygenSigned : ∀ identity digest,
    signature identity .keygen digest ∈ network.knowledge →
      ∃ call ∈ network.finalizations,
        call.own = identity ∧ call.digest = digest
  accepted : ∀ acceptance ∈ network.acceptances,
    .signingKey acceptance.peer ∉ acceptance.leakedBefore →
      ∃ keygen encapsulator salt inner,
        acceptance.sessionKey =
          honestSessionKey keygen encapsulator salt inner

theorem initial_sound : Sound Network.initial := by
  constructor
  · rintro term (⟨identity, rfl⟩ | ⟨index, rfl⟩)
    · rfl
    · rfl
  · rintro secret (⟨identity, hkey⟩ | ⟨index, hatom⟩)
    · cases hkey
    · cases hatom
      exact ⟨index, rfl⟩
  · rintro identity digest (⟨other, hkey⟩ | ⟨index, hatom⟩)
    · cases hkey
    · cases hatom
  · rintro identity digest (⟨other, hkey⟩ | ⟨index, hatom⟩)
    · cases hkey
    · cases hatom
  · intro acceptance hacceptance
    cases hacceptance

/-! ## Forging needs the signing key -/

theorem atom_of_derivable
    {knowledge : Set Term} {secret : Secret}
    (hatom : Derivable Rule knowledge (.atom secret)) :
    .atom secret ∈ knowledge := by
  cases hatom with
  | known hknown => exact hknown
  | apply hrule _ => cases hrule

theorem signature_of_derivable
    {knowledge : Set Term} {identity : ℕ} {side : Side} {digest : Term}
    (hsig : Derivable Rule knowledge (signature identity side digest)) :
    signature identity side digest ∈ knowledge ∨
      .atom (.signingKey identity) ∈ knowledge := by
  cases hsig with
  | known hknown => exact Or.inl hknown
  | apply hrule hpremises =>
      cases hrule
      exact Or.inr (atom_of_derivable (hpremises _ List.mem_cons_self))

namespace Sound

variable {network : Network}

/-- A signature of an identity whose key has not leaked was made by its
holder. -/
theorem signature_known
    (hsound : Sound network) {identity : ℕ} {side : Side} {digest : Term}
    (hsig : Derivable Rule network.knowledge (signature identity side digest))
    (hkey : .signingKey identity ∉ network.leaked) :
    signature identity side digest ∈ network.knowledge := by
  cases signature_of_derivable hsig with
  | inl hknown => exact hknown
  | inr hatom => exact absurd (hsound.atoms _ hatom) hkey

/-! ### Changes which tell the attacker nothing -/

theorem extend
    {next : Network} (hsound : Sound network)
    (hknowledge : next.knowledge = network.knowledge)
    (hleaked : network.leaked ⊆ next.leaked)
    (hencapsulations : network.encapsulations ⊆ next.encapsulations)
    (hfinalizations : network.finalizations ⊆ next.finalizations)
    (hacceptances : ∀ acceptance ∈ next.acceptances,
      acceptance ∈ network.acceptances ∨
        (.signingKey acceptance.peer ∉ acceptance.leakedBefore →
          ∃ keygen encapsulator salt inner, acceptance.sessionKey =
            honestSessionKey keygen encapsulator salt inner)) :
    Sound next := by
  constructor
  · rw [hknowledge]
    exact hsound.onWire
  · intro secret hatom
    rw [hknowledge] at hatom
    exact hleaked (hsound.atoms secret hatom)
  · intro identity digest hsig
    rw [hknowledge] at hsig
    obtain ⟨call, hcall, hmade⟩ := hsound.encapsulatorSigned _ _ hsig
    exact ⟨call, hencapsulations hcall, hmade⟩
  · intro identity digest hsig
    rw [hknowledge] at hsig
    obtain ⟨call, hcall, hmade⟩ := hsound.keygenSigned _ _ hsig
    exact ⟨call, hfinalizations hcall, hmade⟩
  · intro acceptance hacceptance
    cases hacceptances acceptance hacceptance with
    | inl hold => exact hsound.accepted acceptance hold
    | inr hnew => exact hnew

theorem setKeygen (hsound : Sound network) (session : ℕ) (state : KeygenState) :
    Sound (network.setKeygen session state) :=
  hsound.extend rfl (fun _ h => h) (fun _ h => h) (fun _ h => h)
    (fun _ h => Or.inl h)

theorem setEncapsulator
    (hsound : Sound network) (session : ℕ) (state : EncapsulatorState) :
    Sound (network.setEncapsulator session state) :=
  hsound.extend rfl (fun _ h => h) (fun _ h => h) (fun _ h => h)
    (fun _ h => Or.inl h)

theorem accept
    (hsound : Sound network) (own peer : ℕ) {sessionKey : Term}
    (hkey : .signingKey peer ∉ network.leaked →
      ∃ keygen encapsulator salt inner, sessionKey =
        honestSessionKey keygen encapsulator salt inner) :
    Sound (network.accept own peer sessionKey) := by
  refine hsound.extend rfl (fun _ h => h) (fun _ h => h) (fun _ h => h) ?_
  intro acceptance hacceptance
  cases List.mem_append.mp hacceptance with
  | inl hold => exact Or.inl hold
  | inr hnew =>
      rw [List.mem_singleton.mp hnew]
      exact Or.inr hkey

/-! ### What the attacker learns -/

theorem learn
    {terms : List Term} (hsound : Sound network)
    (hwire : ∀ term ∈ terms, term.onWire = true)
    (hatoms : ∀ secret, .atom secret ∈ terms → secret ∈ network.leaked)
    (hencapsulator : ∀ identity digest,
      signature identity .encapsulating digest ∈ terms →
        ∃ call ∈ network.encapsulations,
          call.own = identity ∧ call.digest = digest)
    (hkeygen : ∀ identity digest,
      signature identity .keygen digest ∈ terms →
        ∃ call ∈ network.finalizations,
          call.own = identity ∧ call.digest = digest) :
    Sound (network.learn terms) := by
  constructor
  · rintro term (hold | hnew)
    · exact hsound.onWire term hold
    · exact hwire term hnew
  · rintro secret (hold | hnew)
    · exact hsound.atoms secret hold
    · exact hatoms secret hnew
  · rintro identity digest (hold | hnew)
    · exact hsound.encapsulatorSigned identity digest hold
    · exact hencapsulator identity digest hnew
  · rintro identity digest (hold | hnew)
    · exact hsound.keygenSigned identity digest hold
    · exact hkeygen identity digest hnew
  · exact hsound.accepted

theorem learn_initiate (hsound : Sound network) (session : ℕ) :
    Sound (network.learn (initiateMessages session)) := by
  apply hsound.learn
  · simp [initiateMessages, Term.onWire]
  · simp [initiateMessages]
  · simp [initiateMessages, signature]
  · simp [initiateMessages, signature]

theorem learn_encapsulate
    (hsound : Sound network) {call : Encapsulation}
    (hcall : call ∈ network.encapsulations) :
    Sound (network.learn call.messages) := by
  apply hsound.learn
  · simp [Encapsulation.messages, Encapsulation.ct, Encapsulation.ownX25519Pk,
      Encapsulation.tag, Exchange.encapsulatorTag, signature, Term.onWire]
  · simp [Encapsulation.messages, Encapsulation.ct, Encapsulation.ownX25519Pk,
      Encapsulation.tag, Exchange.encapsulatorTag, signature]
  · intro identity digest hsig
    simp only [Encapsulation.messages, Encapsulation.ct,
      Encapsulation.ownX25519Pk, Encapsulation.tag, Exchange.encapsulatorTag,
      signature, List.mem_cons, reduceCtorEq, List.not_mem_nil, or_false,
      false_or, Term.sig.injEq, Term.atom.injEq, Secret.signingKey.injEq,
      true_and] at hsig
    exact ⟨call, hcall, hsig.1.symm, hsig.2.symm⟩
  · simp [Encapsulation.messages, Encapsulation.ct, Encapsulation.ownX25519Pk,
      Encapsulation.tag, Exchange.encapsulatorTag, signature]

theorem learn_finalize
    (hsound : Sound network) {call : Finalization}
    (hcall : call ∈ network.finalizations) :
    Sound (network.learn call.messages) := by
  apply hsound.learn
  · simp [Finalization.messages, Finalization.tag, Exchange.keygenTag,
      signature, Term.onWire]
  · simp [Finalization.messages, Finalization.tag, Exchange.keygenTag,
      signature]
  · simp [Finalization.messages, Finalization.tag, Exchange.keygenTag,
      signature]
  · intro identity digest hsig
    simp only [Finalization.messages, Finalization.tag, Exchange.keygenTag,
      signature, List.mem_cons, reduceCtorEq, List.not_mem_nil, or_false,
      Term.sig.injEq, Term.atom.injEq, Secret.signingKey.injEq,
      true_and] at hsig
    exact ⟨call, hcall, hsig.1.symm, hsig.2.symm⟩

theorem leak (hsound : Sound network) (secret : Secret) :
    Sound ({ network with leaked := insert secret network.leaked }.learn
      [.atom secret]) := by
  have hleaked : Sound { network with
      leaked := insert secret network.leaked } :=
    hsound.extend rfl (Set.subset_insert _ _) (fun _ h => h) (fun _ h => h)
      (fun _ h => Or.inl h)
  apply hleaked.learn
  · simp [Term.onWire]
  · intro other hatom
    simp only [List.mem_singleton, Term.atom.injEq] at hatom
    exact Or.inl hatom
  · simp [signature]
  · simp [signature]

end Sound

/-! ## Accepted keys belong to two honest sessions -/

theorem Finalization.result_eq_ok
    {call : Finalization} (hresult : call.result = .ok ()) :
    call.peerSignature = signature call.peer .encapsulating call.peerDigest ∧
      call.exchange.encapsulatorTag call.prk = call.peerConfirmation := by
  unfold Finalization.result at hresult
  split at hresult
  · cases hresult
  · rename_i hsig
    split at hresult
    · cases hresult
    · rename_i htag
      exact ⟨not_not.mp hsig, not_not.mp htag⟩

theorem Confirmation.result_eq_ok
    {call : Confirmation} {pending : Encapsulation}
    (hresult : call.result pending = .ok ()) :
    call.peer = pending.peer ∧
      call.peerSignature = signature call.peer .keygen
        (.keygenDigest pending.digest call.peerConfirmation) := by
  unfold Confirmation.result at hresult
  split at hresult
  · cases hresult
  · rename_i hpeer
    split at hresult
    · cases hresult
    · rename_i hsig
      have hidentity := not_not.mp hpeer
      simp only [verifyingKey, Term.fingerprint.injEq, Term.pk.injEq,
        Term.atom.injEq, Secret.signingKey.injEq] at hidentity
      exact ⟨hidentity, not_not.mp hsig⟩

/-- The key-generating side derives the key of its own session with the
encapsulation whose digest it has verified. -/
theorem Finalization.sessionKey_eq
    {call : Finalization} {peer : Encapsulation}
    (hdigest : peer.digest = call.peerDigest) :
    call.sessionKey = honestSessionKey call.session peer.session call.salt
      call.exchange.inner := by
  have hexchange := (Exchange.digest_inj hdigest).1
  have hek := congrArg Exchange.mlKemPk hexchange
  have hct := congrArg Exchange.ct hexchange
  have hxe := congrArg Exchange.encapsulatorX25519Pk hexchange
  simp only [Encapsulation.exchange, Finalization.exchange, Encapsulation.ct,
    Encapsulation.ownX25519Pk] at hek hct hxe
  rw [hek] at hct
  simp only [Finalization.sessionKey, Exchange.sessionKey, Finalization.prk,
    honestSessionKey, ← hct, ← hxe, decapsulate, diffieHellman, if_true]

/-- The encapsulating side derives the key of its own session with the
key-generating session which has answered its digest. -/
theorem Encapsulation.sessionKey_eq
    {call : Encapsulation} {peer : Finalization}
    (hdigest : peer.peerDigest = call.digest) :
    call.sessionKey = honestSessionKey peer.session call.session call.salt
      call.exchange.inner := by
  have hexchange := (Exchange.digest_inj hdigest).1
  have hek := congrArg Exchange.mlKemPk hexchange
  have hxk := congrArg Exchange.x25519Pk hexchange
  simp only [Encapsulation.exchange, Finalization.exchange] at hek hxk
  have hswap : s(Secret.encapsulatorX25519 call.session,
      Secret.keygenX25519 peer.session) =
        s(.keygenX25519 peer.session, .encapsulatorX25519 call.session) :=
    Sym2.eq_swap
  simp only [Encapsulation.sessionKey, Exchange.sessionKey, Encapsulation.prk,
    honestSessionKey, ← hek, ← hxk, diffieHellman, hswap]

end Symbolic
end ShawnCore
