import ShawnCore.SymbolicNetwork

/-!
# Hybrid and forward secrecy

Every step keeps the network sound, and in a sound network the key of two honest
sessions is guarded by the secrets of each of the two key exchanges.
-/

namespace ShawnCore
namespace Symbolic

open Deduction (Derivable Guarded)

/-! ## Every step keeps the network sound -/

theorem Step.sound
    {network next : Network} (hstep : Step network next)
    (hsound : Sound network) :
    Sound next := by
  cases hstep with
  | initiate session hunused =>
      exact (hsound.setKeygen session .pending).learn_initiate session
  | encapsulate call hunused hreceived =>
      have hrecorded : Sound
          { network.setEncapsulator call.session (.pending call) with
            encapsulations := network.encapsulations ++ [call] } :=
        hsound.extend rfl (fun _ h => h) (List.subset_append_left _ _)
          (fun _ h => h) (fun _ h => Or.inl h)
      exact hrecorded.learn_encapsulate (by simp)
  | finalize call hpending hreceived hresult =>
      have hrecorded : Sound
          { network.setKeygen call.session .closed with
            finalizations := network.finalizations ++ [call] } :=
        hsound.extend rfl (fun _ h => h) (fun _ h => h)
          (List.subset_append_left _ _) (fun _ h => Or.inl h)
      have haccepted := hrecorded.accept call.own call.peer
        (show _ → ∃ keygen encapsulator salt inner, call.sessionKey =
            honestSessionKey keygen encapsulator salt inner by
          intro hkey
          have hsig := hreceived call.peerSignature
            (by simp [Finalization.received])
          rw [(Finalization.result_eq_ok hresult).1] at hsig
          have hknown := hsound.signature_known hsig hkey
          obtain ⟨peer, _, _, hdigest⟩ :=
            hsound.encapsulatorSigned _ _ hknown
          exact ⟨_, _, _, _, Finalization.sessionKey_eq hdigest⟩)
      exact haccepted.learn_finalize (by simp [Network.accept])
  | finalizeFailed call hpending hreceived hresult =>
      exact hsound.setKeygen call.session .closed
  | confirm call pending hpending hreceived hresult =>
      have hclosed := hsound.setEncapsulator pending.session .closed
      apply hclosed.accept
      intro hkey
      obtain ⟨hpeer, hsigned⟩ := Confirmation.result_eq_ok hresult
      have hsig := hreceived call.peerSignature
        (by simp [Confirmation.received])
      rw [hsigned, hpeer] at hsig
      have hknown := hsound.signature_known hsig hkey
      obtain ⟨peer, _, _, hdigest⟩ := hsound.keygenSigned _ _ hknown
      simp only [Finalization.digest, Term.keygenDigest.injEq] at hdigest
      exact ⟨_, _, _, _, Encapsulation.sessionKey_eq hdigest.1⟩
  | confirmFailed call pending hpending hreceived hresult =>
      exact hsound.setEncapsulator pending.session .closed
  | zeroizeKeygen session => exact hsound.setKeygen session .closed
  | zeroizeEncapsulator session => exact hsound.setEncapsulator session .closed
  | leak secret => exact hsound.leak secret

theorem Step.acceptances_subset
    {network next : Network} (hstep : Step network next) :
    network.acceptances ⊆ next.acceptances := by
  cases hstep with
  | finalize call hpending hreceived hresult =>
      exact List.subset_append_left _ _
  | confirm call pending hpending hreceived hresult =>
      exact List.subset_append_left _ _
  | _ => exact fun _ h => h

def Reaches (network later : Network) : Prop :=
  Relation.ReflTransGen Step network later

theorem Reaches.sound
    {network later : Network} (hreaches : Reaches network later)
    (hsound : Sound network) :
    Sound later := by
  induction hreaches with
  | refl => exact hsound
  | tail _ hstep ih => exact hstep.sound ih

theorem Reaches.acceptances_subset
    {network later : Network} (hreaches : Reaches network later) :
    network.acceptances ⊆ later.acceptances := by
  induction hreaches with
  | refl => exact fun _ h => h
  | tail _ hstep ih => exact fun _ h => hstep.acceptances_subset (ih h)

/-! ## The guards of a session key -/

section Guards

variable (keygen encapsulator : ℕ) (salt inner : Term)

def honestSs : Term :=
  .ss (.ek (.atom (.decapsulationKey keygen)))
    (.atom (.encapsulation encapsulator))

def honestDh : Term :=
  .dh s(.keygenX25519 keygen, .encapsulatorX25519 encapsulator)

/-- Without the secrets of the ML-KEM exchange. -/
def mlKemGuard : Set Term :=
  {honestSessionKey keygen encapsulator salt inner,
    .prk salt (honestSs keygen encapsulator) (honestDh keygen encapsulator),
    honestSs keygen encapsulator, .atom (.decapsulationKey keygen),
    .atom (.encapsulation encapsulator)}

/-- Without the secrets of the X25519 exchange. -/
def x25519Guard : Set Term :=
  {honestSessionKey keygen encapsulator salt inner,
    .prk salt (honestSs keygen encapsulator) (honestDh keygen encapsulator),
    honestDh keygen encapsulator, .atom (.keygenX25519 keygen),
    .atom (.encapsulatorX25519 encapsulator)}

theorem guarded_mlKemGuard :
    Guarded Rule (mlKemGuard keygen encapsulator salt inner) := by
  rintro premises conclusion hrule (rfl | rfl | rfl | rfl | rfl)
  · cases hrule
    exact ⟨_, List.mem_cons_self, by simp [mlKemGuard, honestSs, honestDh]⟩
  · cases hrule
    exact ⟨honestSs keygen encapsulator, by simp, by simp [mlKemGuard]⟩
  · cases hrule with
    | encapsulate =>
        exact ⟨.atom (.encapsulation encapsulator), by simp,
          by simp [mlKemGuard]⟩
    | decapsulate =>
        exact ⟨.atom (.decapsulationKey keygen), by simp,
          by simp [mlKemGuard]⟩
  · cases hrule
  · cases hrule

theorem premises_of_dh
    {premises : List Term} {secrets : Sym2 Secret}
    (hrule : Rule premises (.dh secrets)) :
    ∃ mine theirs, secrets = s(mine, theirs) ∧ .atom mine ∈ premises := by
  generalize hconclusion : Term.dh secrets = conclusion at hrule
  cases hrule with
  | dh mine theirs =>
      cases hconclusion
      exact ⟨mine, theirs, rfl, by simp⟩
  | _ => cases hconclusion

theorem guarded_x25519Guard :
    Guarded Rule (x25519Guard keygen encapsulator salt inner) := by
  rintro premises conclusion hrule (rfl | rfl | rfl | rfl | rfl)
  · cases hrule
    exact ⟨_, List.mem_cons_self, by simp [x25519Guard, honestSs, honestDh]⟩
  · cases hrule
    exact ⟨honestDh keygen encapsulator, by simp, by simp [x25519Guard]⟩
  · obtain ⟨mine, theirs, hsecrets, hmine⟩ := premises_of_dh hrule
    refine ⟨.atom mine, hmine, ?_⟩
    have hside : mine = .keygenX25519 keygen ∨
        mine = .encapsulatorX25519 encapsulator := by
      have hmem : mine ∈ s(Secret.keygenX25519 keygen,
          Secret.encapsulatorX25519 encapsulator) := by
        rw [hsecrets]
        exact Sym2.mem_mk_left mine theirs
      exact Sym2.mem_iff.mp hmem
    cases hside with
    | inl hkeygen => simp [x25519Guard, hkeygen]
    | inr hencapsulator => simp [x25519Guard, hencapsulator]
  · cases hrule
  · cases hrule

end Guards

/-! ## Secrecy -/

/-- No secret of the ML-KEM exchanges has leaked. -/
def MlKemIntact (network : Network) : Prop :=
  ∀ session, .decapsulationKey session ∉ network.leaked ∧
    .encapsulation session ∉ network.leaked

/-- No secret of the X25519 exchanges has leaked. -/
def X25519Intact (network : Network) : Prop :=
  ∀ session, .keygenX25519 session ∉ network.leaked ∧
    .encapsulatorX25519 session ∉ network.leaked

theorem Sound.not_derivable
    {network : Network} (hsound : Sound network)
    (hintact : MlKemIntact network ∨ X25519Intact network)
    (keygen encapsulator : ℕ) (salt inner : Term) :
    ¬ Derivable Rule network.knowledge
      (honestSessionKey keygen encapsulator salt inner) := by
  intro hkey
  have hhidden : ∀ term : Term, term.onWire = false →
      term ∉ network.knowledge := by
    intro term hterm hknown
    rw [hsound.onWire term hknown] at hterm
    cases hterm
  have hsecret : ∀ secret, secret ∉ network.leaked →
      .atom secret ∉ network.knowledge := by
    intro secret hleaked hknown
    exact hleaked (hsound.atoms secret hknown)
  cases hintact with
  | inl hmlKem =>
      refine hkey.not_mem_of_guarded
        (guarded_mlKemGuard keygen encapsulator salt inner) ?_
        (Set.mem_insert _ _)
      rintro term hknown (rfl | rfl | rfl | rfl | rfl)
      · exact hhidden _ rfl hknown
      · exact hhidden _ rfl hknown
      · exact hhidden _ rfl hknown
      · exact hsecret _ (hmlKem keygen).1 hknown
      · exact hsecret _ (hmlKem encapsulator).2 hknown
  | inr hx25519 =>
      refine hkey.not_mem_of_guarded
        (guarded_x25519Guard keygen encapsulator salt inner) ?_
        (Set.mem_insert _ _)
      rintro term hknown (rfl | rfl | rfl | rfl | rfl)
      · exact hhidden _ rfl hknown
      · exact hhidden _ rfl hknown
      · exact hhidden _ rfl hknown
      · exact hsecret _ (hx25519 keygen).1 hknown
      · exact hsecret _ (hx25519 encapsulator).2 hknown

/-! ## Honest handshakes -/

/-- The finalization which receives the message of an encapsulation. -/
def Encapsulation.relayed (call : Encapsulation) (keygen : ℕ) :
    Finalization where
  session := keygen
  own := call.peer
  peer := call.own
  peerX25519Pk := call.ownX25519Pk
  ct := call.ct
  peerSignature := signature call.own .encapsulating call.digest
  peerConfirmation := call.tag
  salt := call.salt
  appInfo := call.appInfo

/-- The encapsulating side has received the key shares of a session. -/
def Encapsulation.Addresses (call : Encapsulation) (keygen : ℕ) : Prop :=
  call.received = initiateMessages keygen

namespace Encapsulation.Addresses

variable {call : Encapsulation} {keygen : ℕ}

theorem relayed_exchange (haddresses : call.Addresses keygen) :
    (call.relayed keygen).exchange = call.exchange := by
  simp only [Addresses, received, initiateMessages, List.cons.injEq,
    and_true] at haddresses
  simp only [Finalization.exchange, exchange, relayed, haddresses.1,
    haddresses.2]

theorem relayed_prk (haddresses : call.Addresses keygen) :
    (call.relayed keygen).prk = call.prk := by
  simp only [Addresses, received, initiateMessages, List.cons.injEq,
    and_true] at haddresses
  simp only [Finalization.prk, prk, relayed, ct, ownX25519Pk, haddresses.1,
    haddresses.2, decapsulate, diffieHellman, if_true]
  rw [Sym2.eq_swap]

/-- A relayed message is accepted, with the key of the encapsulating side. -/
theorem relayed_result (haddresses : call.Addresses keygen) :
    (call.relayed keygen).result = .ok () := by
  have hdigest : (call.relayed keygen).peerDigest = call.digest := by
    rw [Finalization.peerDigest, haddresses.relayed_exchange]
    rfl
  have htag : (call.relayed keygen).exchange.encapsulatorTag
      (call.relayed keygen).prk = call.tag := by
    rw [haddresses.relayed_exchange, haddresses.relayed_prk]
    rfl
  rw [Finalization.result, hdigest, htag]
  simp [relayed]

theorem relayed_sessionKey (haddresses : call.Addresses keygen) :
    (call.relayed keygen).sessionKey = call.sessionKey := by
  rw [Finalization.sessionKey, haddresses.relayed_exchange,
    haddresses.relayed_prk]
  rfl

end Encapsulation.Addresses

theorem Network.derives_learn (network : Network) (terms : List Term) :
    (network.learn terms).Derives terms := by
  intro term hterm
  exact .known (Or.inr hterm)

/-- Two unused sessions can complete a handshake, whatever has happened. -/
theorem relayed_reachable
    (network : Network) {call : Encapsulation} {keygen : ℕ}
    (haddresses : call.Addresses keygen)
    (hkeygen : network.keygen keygen = .unused)
    (hencapsulator : network.encapsulator call.session = .unused) :
    ∃ later, Reaches network later ∧ later.leaked = network.leaked ∧
      ⟨call.peer, call.own, call.sessionKey, network.leaked⟩ ∈
        later.acceptances := by
  have hreceived : ∀ term ∈ (call.relayed keygen).received,
      term ∈ call.messages := by
    simp [Finalization.received, Encapsulation.relayed, Encapsulation.messages]
  refine ⟨_, .head (.initiate keygen hkeygen)
    (.head (.encapsulate call hencapsulator ?_)
      (.single (.finalize (call.relayed keygen) ?_ ?_
        haddresses.relayed_result))), rfl, ?_⟩
  · rw [haddresses]
    exact Network.derives_learn _ _
  · exact Function.update_self _ _ _
  · intro term hterm
    exact Network.derives_learn _ _ term (hreceived term hterm)
  · rw [haddresses.relayed_sessionKey]
    exact List.mem_append_right _ (List.mem_singleton_self _)

theorem leaks_reachable (secrets : List Secret) (network : Network) :
    ∃ later, Reaches network later ∧
      later.leaked = network.leaked ∪ {secret | secret ∈ secrets} := by
  induction secrets generalizing network with
  | nil => exact ⟨network, .refl, by simp⟩
  | cons secret secrets ih =>
      obtain ⟨later, hlater, hleaked⟩ := ih
        ({ network with leaked := insert secret network.leaked }.learn
          [.atom secret])
      refine ⟨later, .head (.leak secret) hlater, ?_⟩
      rw [hleaked]
      ext other
      simp only [Network.learn, Set.mem_union, Set.mem_insert_iff,
        Set.mem_ofPred_eq, List.mem_cons]
      tauto

/-! ## Secrecy -/

/-- The session key of every acceptance with a peer whose signing key had not
leaked stays underivable, whatever happens later, unless secrets of both key
exchanges leak. -/
theorem accepted_key_secret
    {network later : Network} {acceptance : Acceptance}
    (hreachable : Reaches .initial network)
    (haccepted : acceptance ∈ network.acceptances)
    (hpeer : .signingKey acceptance.peer ∉ acceptance.leakedBefore)
    (hlater : Reaches network later)
    (hintact : MlKemIntact later ∨ X25519Intact later) :
    ¬ Derivable Rule later.knowledge acceptance.sessionKey := by
  have hsound := hlater.sound (hreachable.sound initial_sound)
  obtain ⟨keygen, encapsulator, salt, inner, hkey⟩ :=
    hsound.accepted acceptance (hlater.acceptances_subset haccepted) hpeer
  rw [hkey]
  exact hsound.not_derivable hintact keygen encapsulator salt inner

/-! ### A session whose other secrets leak -/

def relayedEncapsulation : Encapsulation where
  session := 0
  own := 1
  peer := 0
  mlKemPk := .ek (.atom (.decapsulationKey 0))
  x25519Pk := .pub (.atom (.keygenX25519 0))
  salt := .atom (.salt 0)
  appInfo := .bytes []

theorem accepted_key_secret_after_leaks :
    ∃ network later acceptance, Reaches .initial network ∧
      acceptance ∈ network.acceptances ∧
      .signingKey acceptance.peer ∉ acceptance.leakedBefore ∧
      Reaches network later ∧
      (∀ secret ∈ [.signingKey 0, .signingKey 1, .salt 0, .keygenX25519 0,
        .encapsulatorX25519 0], secret ∈ later.leaked) ∧
      MlKemIntact later ∧
      ¬ Derivable Rule later.knowledge acceptance.sessionKey := by
  have haddresses : relayedEncapsulation.Addresses 0 := rfl
  obtain ⟨network, hreachable, hinitial, haccepted⟩ :=
    relayed_reachable .initial haddresses rfl rfl
  obtain ⟨later, hlater, hleaked⟩ := leaks_reachable
    [.signingKey 0, .signingKey 1, .salt 0, .keygenX25519 0,
      .encapsulatorX25519 0] network
  rw [hinitial] at hleaked
  have hpeer : Secret.signingKey 1 ∉ Network.initial.leaked := by
    simp [Network.initial]
  have hintact : MlKemIntact later := by
    intro session
    simp [hleaked, Network.initial]
  refine ⟨network, later, _, hreachable, haccepted, hpeer, hlater, ?_, hintact,
    accepted_key_secret hreachable haccepted hpeer hlater (.inl hintact)⟩
  intro secret hsecret
  rw [hleaked]
  exact Or.inr hsecret

end Symbolic
end ShawnCore
