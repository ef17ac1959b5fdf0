import Mathlib.Data.Sym.Sym2
import ShawnCore.Deduction
import ShawnCore.HandshakeEncoding

/-!
# The authenticated handshake over terms

The term algebra and the derivation rules of `validation/formal/
handshake_model.py`, and the four operations of the handshake as they act on
terms.  Secrets are atoms, one for each session or identity; hashes, tags,
signatures and keys are free constructors, so equal terms are computed from
equal parts.
-/

namespace ShawnCore
namespace Symbolic

open ByteBlocks

/-- The secrets, with the session or the identity they were drawn for. -/
inductive Secret
  | decapsulationKey (session : ℕ)
  | keygenX25519 (session : ℕ)
  | encapsulation (session : ℕ)
  | encapsulatorX25519 (session : ℕ)
  | signingKey (identity : ℕ)
  | salt (index : ℕ)
  | attacker (index : ℕ)
deriving DecidableEq

inductive Side
  | encapsulating
  | keygen
deriving DecidableEq

inductive Term
  | bytes (value : Bytes)
  | atom (secret : Secret)
  | ek (dk : Term)
  | pub (secret : Term)
  | pk (sk : Term)
  | ct (ek r : Term)
  | ss (ek r : Term)
  /-- The secret of a rejected ciphertext. -/
  | ssrej (dk ct : Term)
  | dh (secrets : Sym2 Secret)
  /-- The exchange with a value that is nobody's public key. -/
  | dhx (secret received : Term)
  | fingerprint (vk : Term)
  | binding (ek xk keygen encapsulator appInfo : Term)
  | inner (ct xe binding : Term)
  | transcript (binding ct xe : Term)
  | encapsulatorDigest (transcript tag : Term)
  | keygenDigest (digest tag : Term)
  | prk (salt ss dh : Term)
  | confirmKey (side : Side) (prk inner : Term)
  | okm (prk inner : Term)
  | mac (key : Term) (side : Side) (digest : Term)
  | sig (sk : Term) (side : Side) (digest : Term)
deriving DecidableEq

/-- `derivable`: a term is built from its parts, a shared secret from the secret
of either side. -/
inductive Rule : List Term → Term → Prop
  | bytes (value : Bytes) : Rule [] (.bytes value)
  | ek (dk : Term) : Rule [dk] (.ek dk)
  | pub (secret : Term) : Rule [secret] (.pub secret)
  | pk (sk : Term) : Rule [sk] (.pk sk)
  | ct (ek r : Term) : Rule [ek, r] (.ct ek r)
  | encapsulate (ek r : Term) : Rule [ek, r] (.ss ek r)
  | decapsulate (dk r : Term) : Rule [dk] (.ss (.ek dk) r)
  | ssrej (dk ct : Term) : Rule [dk, ct] (.ssrej dk ct)
  | dh (mine theirs : Secret) :
      Rule [.atom mine, .pub (.atom theirs)] (.dh s(mine, theirs))
  | dhx (secret received : Term) : Rule [secret, received] (.dhx secret received)
  | fingerprint (vk : Term) : Rule [vk] (.fingerprint vk)
  | binding (ek xk keygen encapsulator appInfo : Term) :
      Rule [ek, xk, keygen, encapsulator, appInfo]
        (.binding ek xk keygen encapsulator appInfo)
  | inner (ct xe binding : Term) : Rule [ct, xe, binding] (.inner ct xe binding)
  | transcript (binding ct xe : Term) :
      Rule [binding, ct, xe] (.transcript binding ct xe)
  | encapsulatorDigest (transcript tag : Term) :
      Rule [transcript, tag] (.encapsulatorDigest transcript tag)
  | keygenDigest (digest tag : Term) :
      Rule [digest, tag] (.keygenDigest digest tag)
  | prk (salt ss dh : Term) : Rule [salt, ss, dh] (.prk salt ss dh)
  | confirmKey (side : Side) (prk inner : Term) :
      Rule [prk, inner] (.confirmKey side prk inner)
  | okm (prk inner : Term) : Rule [prk, inner] (.okm prk inner)
  | mac (key : Term) (side : Side) (digest : Term) :
      Rule [key, digest] (.mac key side digest)
  | sig (sk : Term) (side : Side) (digest : Term) :
      Rule [sk, digest] (.sig sk side digest)

/-! ## The primitives of an honest party -/

def verifyingKey (identity : ℕ) : Term :=
  .pk (.atom (.signingKey identity))

def signature (identity : ℕ) (side : Side) (digest : Term) : Term :=
  .sig (.atom (.signingKey identity)) side digest

def diffieHellman (secret : Secret) : Term → Term
  | .pub (.atom other) => .dh s(secret, other)
  | received => .dhx (.atom secret) received

def decapsulate (dk : Secret) : Term → Term
  | .ct (.ek (.atom owner)) r =>
      if owner = dk then .ss (.ek (.atom dk)) r
      else .ssrej (.atom dk) (.ct (.ek (.atom owner)) r)
  | ct => .ssrej (.atom dk) ct

/-! ## What both sides compute -/

structure Exchange where
  mlKemPk : Term
  x25519Pk : Term
  keygenKey : Term
  encapsulatorKey : Term
  appInfo : Term
  ct : Term
  encapsulatorX25519Pk : Term
deriving DecidableEq

namespace Exchange

def binding (exchange : Exchange) : Term :=
  .binding exchange.mlKemPk exchange.x25519Pk (.fingerprint exchange.keygenKey)
    (.fingerprint exchange.encapsulatorKey) exchange.appInfo

def transcript (exchange : Exchange) : Term :=
  .transcript exchange.binding exchange.ct exchange.encapsulatorX25519Pk

def inner (exchange : Exchange) : Term :=
  .inner exchange.ct exchange.encapsulatorX25519Pk exchange.binding

def sessionKey (exchange : Exchange) (prk : Term) : Term :=
  .okm prk exchange.inner

def encapsulatorTag (exchange : Exchange) (prk : Term) : Term :=
  .mac (.confirmKey .encapsulating prk exchange.inner) .encapsulating
    exchange.transcript

def digest (exchange : Exchange) (tag : Term) : Term :=
  .encapsulatorDigest exchange.transcript tag

def keygenTag (exchange : Exchange) (prk tag : Term) : Term :=
  .mac (.confirmKey .keygen prk exchange.inner) .keygen (exchange.digest tag)

/-- A digest determines the exchange and the tag it was computed from. -/
theorem digest_inj
    {left right : Exchange} {leftTag rightTag : Term}
    (hdigest : left.digest leftTag = right.digest rightTag) :
    left = right ∧ leftTag = rightTag := by
  simp only [digest, transcript, binding, Term.encapsulatorDigest.injEq,
    Term.transcript.injEq, Term.binding.injEq, Term.fingerprint.injEq]
    at hdigest
  obtain ⟨⟨⟨hek, hxk, hkeygen, hencapsulator, happ⟩, hct, hxe⟩, htag⟩ := hdigest
  refine ⟨?_, htag⟩
  cases left
  cases right
  simp_all only

end Exchange

/-! ## The operations -/

/-- A call of `encapsulate_authenticated` by the holder of an identity. -/
structure Encapsulation where
  session : ℕ
  own : ℕ
  peer : ℕ
  mlKemPk : Term
  x25519Pk : Term
  salt : Term
  appInfo : Term

namespace Encapsulation

def ct (call : Encapsulation) : Term :=
  .ct call.mlKemPk (.atom (.encapsulation call.session))

def ownX25519Pk (call : Encapsulation) : Term :=
  .pub (.atom (.encapsulatorX25519 call.session))

def exchange (call : Encapsulation) : Exchange where
  mlKemPk := call.mlKemPk
  x25519Pk := call.x25519Pk
  keygenKey := verifyingKey call.peer
  encapsulatorKey := verifyingKey call.own
  appInfo := call.appInfo
  ct := call.ct
  encapsulatorX25519Pk := call.ownX25519Pk

def prk (call : Encapsulation) : Term :=
  .prk call.salt (.ss call.mlKemPk (.atom (.encapsulation call.session)))
    (diffieHellman (.encapsulatorX25519 call.session) call.x25519Pk)

def tag (call : Encapsulation) : Term :=
  call.exchange.encapsulatorTag call.prk

def digest (call : Encapsulation) : Term :=
  call.exchange.digest call.tag

def sessionKey (call : Encapsulation) : Term :=
  call.exchange.sessionKey call.prk

/-- What the caller has received from the network. -/
def received (call : Encapsulation) : List Term :=
  [call.mlKemPk, call.x25519Pk]

/-- The message sent to the key-generating side. -/
def messages (call : Encapsulation) : List Term :=
  [call.ct, call.ownX25519Pk, signature call.own .encapsulating call.digest,
    call.tag]

end Encapsulation

/-- A call of `finalize_authenticated` by the holder of an identity. -/
structure Finalization where
  session : ℕ
  own : ℕ
  peer : ℕ
  peerX25519Pk : Term
  ct : Term
  peerSignature : Term
  peerConfirmation : Term
  salt : Term
  appInfo : Term

namespace Finalization

def exchange (call : Finalization) : Exchange where
  mlKemPk := .ek (.atom (.decapsulationKey call.session))
  x25519Pk := .pub (.atom (.keygenX25519 call.session))
  keygenKey := verifyingKey call.own
  encapsulatorKey := verifyingKey call.peer
  appInfo := call.appInfo
  ct := call.ct
  encapsulatorX25519Pk := call.peerX25519Pk

def prk (call : Finalization) : Term :=
  .prk call.salt (decapsulate (.decapsulationKey call.session) call.ct)
    (diffieHellman (.keygenX25519 call.session) call.peerX25519Pk)

def peerDigest (call : Finalization) : Term :=
  call.exchange.digest call.peerConfirmation

def tag (call : Finalization) : Term :=
  call.exchange.keygenTag call.prk call.peerConfirmation

def digest (call : Finalization) : Term :=
  .keygenDigest call.peerDigest call.tag

def sessionKey (call : Finalization) : Term :=
  call.exchange.sessionKey call.prk

/-- The reply to the encapsulating side. -/
def messages (call : Finalization) : List Term :=
  [signature call.own .keygen call.digest, call.tag]

def received (call : Finalization) : List Term :=
  [call.peerX25519Pk, call.ct, call.peerSignature, call.peerConfirmation]

def result (call : Finalization) : Except CryptoError Unit :=
  if call.peerSignature ≠
      signature call.peer .encapsulating call.peerDigest then
    .error .verificationFailed
  else if call.exchange.encapsulatorTag call.prk ≠ call.peerConfirmation then
    .error .keyConfirmationFailed
  else
    .ok ()

end Finalization

/-- A call of `confirm_peer` on the session of an encapsulation. -/
structure Confirmation where
  peer : ℕ
  peerSignature : Term
  peerConfirmation : Term

namespace Confirmation

def received (call : Confirmation) : List Term :=
  [call.peerSignature, call.peerConfirmation]

def result (call : Confirmation) (pending : Encapsulation) :
    Except CryptoError Unit :=
  if Term.fingerprint (verifyingKey call.peer) ≠
      .fingerprint (verifyingKey pending.peer) then
    .error .verificationFailed
  else if call.peerSignature ≠ signature call.peer .keygen
      (.keygenDigest pending.digest call.peerConfirmation) then
    .error .verificationFailed
  else if Term.mac (.confirmKey .keygen pending.prk pending.exchange.inner)
      .keygen pending.digest ≠ call.peerConfirmation then
    .error .keyConfirmationFailed
  else
    .ok ()

end Confirmation

end Symbolic
end ShawnCore
