import ShawnCore.AuthorizedTraffic
import ShawnCore.HostConfinement
import ShawnCore.ReferenceFormats

/-!
# Managers behind the C interface

The host keeps session managers in its own memory and calls the exported
functions in any order, storing to its memory in between.  Each manager lives
from `init` to `destroy`.  As long as the host keeps the storage of its living
managers out of its other buffers, the bytes of every living manager are those
of the manager which has performed exactly the calls made on it, and every code
and output is the one of that manager, for calls which pass the argument checks.
-/

namespace ShawnCore
namespace Ffi

open ByteBlocks
open ByteMemory
open Execution

variable {DecapsKey SigningKey : Type}

section Requests

variable (formats : Formats DecapsKey SigningKey)
variable (prims : InterfacePrimitives DecapsKey SigningKey)

/-- The storage of the manager which a call works on. -/
def HostCall.manager? : HostCall → Option UInt64
  | .sessionManagerInit manager => some manager
  | .sessionManagerDestroy manager => some manager
  | .sessionManagerInitiateHandshake manager .. => some manager
  | .sessionManagerFinalizeHandshake manager .. => some manager
  | .sessionManagerEncapsulateForPeer manager .. => some manager
  | .sessionManagerEncapsulateAuthenticatedV2 manager .. => some manager
  | .sessionManagerFinalizeAuthenticatedV2 manager .. => some manager
  | .sessionManagerConfirmPeerV2 manager .. => some manager
  | .sessionManagerZeroize manager => some manager
  | .sessionManagerEncryptPacket manager .. => some manager
  | .sessionManagerDecryptPacket manager .. => some manager
  | _ => none

/-- What a call asks of the manager it works on: the arguments are what the
memory holds behind the pointers. -/
def HostCall.request (memory : Memory) : HostCall → Option (Call SigningKey)
  | .sessionManagerInitiateHandshake _ entropy _ _ =>
      some (.initiateHandshake (readBlock memory entropy 96))
  | .sessionManagerFinalizeHandshake _ peerX25519Pk mlKemCt salt saltLen info
      infoLen =>
      some (.finalizeHandshake (formats.x25519Public.load memory peerX25519Pk)
        (formats.ciphertext1024.load memory mlKemCt)
        (read memory salt saltLen.toNat) (read memory info infoLen.toNat))
  | .sessionManagerEncapsulateForPeer _ peerMlKemPk peerX25519Pk entropy salt
      saltLen info infoLen _ _ =>
      some (.encapsulateForPeer (formats.publicKey1024.load memory peerMlKemPk)
        (formats.x25519Public.load memory peerX25519Pk)
        (readBlock memory entropy 64) (read memory salt saltLen.toNat)
        (read memory info infoLen.toNat))
  | .sessionManagerEncapsulateAuthenticatedV2 _ ownSigningKey peerVerifyingKey
      peerMlKemPk peerX25519Pk entropy salt saltLen appInfo appInfoLen _ _ _
      _ =>
      some (.encapsulateAuthenticated
        { ownSigningKey := formats.signingKey87.load memory ownSigningKey
          peerVerifyingKey := formats.publicKey87.load memory peerVerifyingKey
          peerMlKemPk := formats.publicKey1024.load memory peerMlKemPk
          peerX25519Pk := formats.x25519Public.load memory peerX25519Pk
          entropy := readBlock memory entropy 64
          salt := read memory salt saltLen.toNat
          appInfo := read memory appInfo appInfoLen.toNat })
  | .sessionManagerFinalizeAuthenticatedV2 _ ownSigningKey peerVerifyingKey
      peerX25519Pk mlKemCt peerSignature peerConfirmation salt saltLen appInfo
      appInfoLen _ _ =>
      some (.finalizeAuthenticated
        { ownSigningKey := formats.signingKey87.load memory ownSigningKey
          peerVerifyingKey := formats.publicKey87.load memory peerVerifyingKey
          peerX25519Pk := formats.x25519Public.load memory peerX25519Pk
          mlKemCt := formats.ciphertext1024.load memory mlKemCt
          peerSignature := formats.signature87.load memory peerSignature
          peerConfirmation := readBlock memory peerConfirmation 48
          salt := read memory salt saltLen.toNat
          appInfo := read memory appInfo appInfoLen.toNat })
  | .sessionManagerConfirmPeerV2 _ peerVerifyingKey peerSignature
      peerConfirmation =>
      some (.confirmPeer
        { peerVerifyingKey := formats.publicKey87.load memory peerVerifyingKey
          peerSignature := formats.signature87.load memory peerSignature
          peerConfirmation := readBlock memory peerConfirmation 48 })
  | .sessionManagerZeroize _ => some .zeroizeSession
  | .sessionManagerEncryptPacket _ aad aadLen plaintext ciphertext dataLen
      outNonce outTag =>
      some (.encryptPacket (readSlice memory aad aadLen)
        (read memory plaintext dataLen.toNat)
        (read memory ciphertext dataLen.toNat) (readBlock memory outNonce 12)
        (readBlock memory outTag 48))
  | .sessionManagerDecryptPacket _ aad aadLen ciphertext dataLen nonce tag
      plaintext =>
      some (.decryptPacket (readSlice memory aad aadLen)
        (read memory ciphertext dataLen.toNat) (readBlock memory nonce 12)
        (readBlock memory tag 48) (read memory plaintext dataLen.toNat))
  | _ => none

/-- What the out parameters of a call on a manager hold. -/
def HostCall.outputAt (memory : Memory) : HostCall → Output
  | .sessionManagerInitiateHandshake _ _ outMlKemPk outX25519Pk =>
      .firstMessage (formats.publicKey1024.load memory outMlKemPk)
        (formats.x25519Public.load memory outX25519Pk)
  | .sessionManagerEncapsulateForPeer _ _ _ _ _ _ _ _ outCt outMyX25519Pk =>
      .encapsulated (formats.ciphertext1024.load memory outCt)
        (formats.x25519Public.load memory outMyX25519Pk)
  | .sessionManagerEncapsulateAuthenticatedV2 _ _ _ _ _ _ _ _ _ _ outCt
      outMyX25519Pk outSignature outConfirmation =>
      .authEncapsulated
        { ct := formats.ciphertext1024.load memory outCt
          pk := formats.x25519Public.load memory outMyX25519Pk
          signature := formats.signature87.load memory outSignature
          confirmation := readBlock memory outConfirmation 48 }
  | .sessionManagerFinalizeAuthenticatedV2 _ _ _ _ _ _ _ _ _ _ _ outSignature
      outConfirmation =>
      .proof
        { signature := formats.signature87.load memory outSignature
          confirmation := readBlock memory outConfirmation 48 }
  | .sessionManagerEncryptPacket _ _ _ _ ciphertext dataLen outNonce outTag =>
      .packet (read memory ciphertext dataLen.toNat)
        (readBlock memory outNonce 12) (readBlock memory outTag 48)
  | .sessionManagerDecryptPacket _ _ _ _ dataLen _ _ plaintext =>
      .plaintext (read memory plaintext dataLen.toNat)
  | _ => .done

/-! ## One call on a manager -/

theorem readBlock_performAll_of_mem
    {memory : Memory} {writes : List Write} {address : UInt64} {n : ℕ}
    {block : Block n} (hpairwise : writes.Pairwise Write.ApartFrom)
    (hwrite : (⟨address, block.bytes⟩ : Write) ∈ writes)
    (hfits : n ≤ 2 ^ 64) :
    readBlock (performAll memory writes) address n = block := by
  apply Block.ext
  exact read_performAll_of_mem hpairwise hwrite block.length_eq hfits

/-- What a call which passed the checks has to return and to write, given what
the manager answered. -/
structure Answers
    (call : HostCall) (manager : UInt64)
    (outcome : Except CryptoError Output × SessionManager DecapsKey)
    (memory : Memory) (reply : Reply) : Prop where
  code_eq : reply.code = codeOf outcome.1
  stored : formats.sessionManager.write manager outcome.2 ∈ reply.writes
  output_eq : reply.writes.Pairwise Write.ApartFrom →
    ∀ output, outcome.1 = .ok output →
      call.outputAt formats (performAll memory reply.writes) = output

variable {formats prims}

theorem forward_answers
    {α : Type} {call : HostCall} {manager : UInt64} {memory : Memory}
    {result : Except CryptoError α × SessionManager DecapsKey}
    {outputs : α → List Write} {outcome} (wrap : α → Output)
    (houtcome : outcome = (result.1.map wrap, result.2))
    (houtput : ∀ value writes, writes.Pairwise Write.ApartFrom →
      (∀ write ∈ outputs value, write ∈ writes) →
        call.outputAt formats (performAll memory writes) = wrap value) :
    Answers formats call manager outcome memory
      (forward formats manager result outputs) := by
  obtain ⟨answer, next⟩ := result
  subst houtcome
  refine ⟨?_, List.mem_cons_self, ?_⟩
  · cases answer with
    | ok value => rfl
    | error failure => rfl
  · intro hpairwise output hok
    cases answer with
    | error failure => cases hok
    | ok value =>
        cases hok
        exact houtput value _ hpairwise
          fun write hwrite => List.mem_cons_of_mem _ hwrite

/-- The packet functions write through their buffers in any case. -/
theorem packet_answers
    {call : HostCall} {manager : UInt64} {memory : Memory}
    {result : Except CryptoError Unit} {next : SessionManager DecapsKey}
    {buffers : List Write} {outcome} (output : Output)
    (houtcome : outcome = (result.map fun _ => output, next))
    (houtput : ∀ writes, writes.Pairwise Write.ApartFrom →
      (∀ write ∈ buffers, write ∈ writes) →
        call.outputAt formats (performAll memory writes) = output) :
    Answers formats call manager outcome memory
      ⟨codeOf result, formats.sessionManager.write manager next :: buffers⟩ := by
  subst houtcome
  refine ⟨?_, List.mem_cons_self, ?_⟩
  · cases result with
    | ok _ => rfl
    | error _ => rfl
  · intro hpairwise produced hok
    cases result with
    | error failure => cases hok
    | ok _ =>
        cases hok
        exact houtput _ hpairwise
          fun write hwrite => List.mem_cons_of_mem _ hwrite

variable (prims) in
/-- A call on a manager does what its manager does. -/
theorem body_answers
    {call : HostCall} {manager : UInt64}
    (hmanager : call.manager? = some manager)
    {memory : Memory} {request : Call SigningKey}
    (hrequest : call.request formats memory = some request) :
    Answers formats call manager
      ((formats.sessionManager.load memory manager).exec prims.toPrimitives
        request) memory
      ((call.entryPoint formats prims).body memory) := by
  cases call
  -- Only the calls which ask something of a manager remain.
  all_goals try cases hrequest
  all_goals cases hmanager
  case sessionManagerInitiateHandshake =>
      apply forward_answers fun value => Output.firstMessage value.1 value.2
      · simp only [SessionManager.exec]
        split <;> simp_all [Except.map]
      · intro value writes hpairwise hwrites
        simp only [List.forall_mem_cons] at hwrites
        obtain ⟨hmlKem, hx25519, -⟩ := hwrites
        simp only [HostCall.outputAt,
          Format.load_performAll_of_mem _ hpairwise hmlKem,
          Format.load_performAll_of_mem _ hpairwise hx25519]
  case sessionManagerFinalizeHandshake =>
      apply forward_answers fun _ => Output.done
      · simp only [SessionManager.exec]
        split <;> simp_all [Except.map]
      · intros
        rfl
  case sessionManagerEncapsulateForPeer =>
      apply forward_answers fun value => Output.encapsulated value.1 value.2
      · simp only [SessionManager.exec]
        split <;> simp_all [Except.map]
      · intro value writes hpairwise hwrites
        simp only [List.forall_mem_cons] at hwrites
        obtain ⟨hct, hpk, -⟩ := hwrites
        simp only [HostCall.outputAt,
          Format.load_performAll_of_mem _ hpairwise hct,
          Format.load_performAll_of_mem _ hpairwise hpk]
  case sessionManagerEncapsulateAuthenticatedV2 =>
      apply forward_answers Output.authEncapsulated
      · simp only [SessionManager.exec]
        split <;> simp_all [Except.map]
      · intro value writes hpairwise hwrites
        simp only [List.forall_mem_cons] at hwrites
        obtain ⟨hct, hpk, hsignature, hconfirmation, -⟩ := hwrites
        simp only [HostCall.outputAt,
          Format.load_performAll_of_mem _ hpairwise hct,
          Format.load_performAll_of_mem _ hpairwise hpk,
          Format.load_performAll_of_mem _ hpairwise hsignature,
          readBlock_performAll_of_mem hpairwise hconfirmation (by decide)]
  case sessionManagerFinalizeAuthenticatedV2 =>
      apply forward_answers Output.proof
      · simp only [SessionManager.exec]
        split <;> simp_all [Except.map]
      · intro value writes hpairwise hwrites
        simp only [List.forall_mem_cons] at hwrites
        obtain ⟨hsignature, hconfirmation, -⟩ := hwrites
        simp only [HostCall.outputAt,
          Format.load_performAll_of_mem _ hpairwise hsignature,
          readBlock_performAll_of_mem hpairwise hconfirmation (by decide)]
  case sessionManagerConfirmPeerV2 =>
      apply forward_answers fun _ => Output.done
      · simp only [SessionManager.exec]
        split <;> simp_all [Except.map]
      · intros
        rfl
  case sessionManagerZeroize =>
      refine ⟨rfl, List.mem_cons_self, ?_⟩
      intro _ output hok
      cases hok
      rfl
  case sessionManagerEncryptPacket aad aadLen plaintext ciphertext dataLen
      outNonce outTag =>
      let outcome :=
        (formats.sessionManager.load memory manager).encryptPacket
          prims.toPrimitives (readSlice memory aad aadLen)
          (read memory plaintext dataLen.toNat)
          (read memory ciphertext dataLen.toNat) (readBlock memory outNonce 12)
          (readBlock memory outTag 48)
      apply packet_answers
        (.packet outcome.ciphertext outcome.nonce outcome.tag)
      · simp only [SessionManager.exec]
        split <;> simp_all [Except.map, outcome]
      · intro writes hpairwise hwrites
        simp only [List.forall_mem_cons] at hwrites
        obtain ⟨hciphertext, hnonce, htag, -⟩ := hwrites
        rw [HostCall.outputAt,
          readBlock_performAll_of_mem hpairwise hnonce (by decide),
          readBlock_performAll_of_mem hpairwise htag (by decide),
          read_performAll_of_mem hpairwise hciphertext]
        · simp [length_encryptPacket prims.chacha20_length]
        · exact UInt64.toNat_lt _ |>.le
  case sessionManagerDecryptPacket aad aadLen ciphertext dataLen nonce tag
      plaintext =>
      let outcome :=
        (formats.sessionManager.load memory manager).decryptPacket
          prims.toPrimitives (readSlice memory aad aadLen)
          (read memory ciphertext dataLen.toNat) (readBlock memory nonce 12)
          (readBlock memory tag 48) (read memory plaintext dataLen.toNat)
      apply packet_answers (.plaintext outcome.plaintext)
      · simp only [SessionManager.exec]
        split <;> simp_all [Except.map, outcome]
      · intro writes hpairwise hwrites
        rw [HostCall.outputAt,
          read_performAll_of_mem hpairwise (hwrites _ List.mem_cons_self)]
        · simp [length_decryptPacket prims.chacha20_length]
        · exact UInt64.toNat_lt _ |>.le

theorem answers_of_accepted
    {call : HostCall} (haccepted : call.Accepted formats prims)
    {manager : UInt64} (hmanager : call.manager? = some manager)
    {memory : Memory} {request : Call SigningKey}
    (hrequest : call.request formats memory = some request) :
    let outcome := (formats.sessionManager.load memory manager).exec
      prims.toPrimitives request
    (call.invoke formats prims memory).code = codeOf outcome.1 ∧
      (∀ output, outcome.1 = .ok output →
        call.outputAt formats (call.after formats prims memory) = output) ∧
      formats.sessionManager.load (call.after formats prims memory) manager =
        outcome.2 := by
  have hpairwise := body_writes_pairwise haccepted memory
  obtain ⟨hcode, hstored, houtput⟩ :=
    body_answers prims hmanager hrequest
  rw [HostCall.after, invoke_of_accepted haccepted]
  exact ⟨hcode, houtput hpairwise,
    formats.sessionManager.load_performAll_of_mem hpairwise hstored⟩

theorem load_after_init
    {call : HostCall} {manager : UInt64}
    (hcall : call = .sessionManagerInit manager)
    (haccepted : call.Accepted formats prims) (memory : Memory) :
    formats.sessionManager.load (call.after formats prims memory) manager =
      .new := by
  have hpairwise := body_writes_pairwise haccepted memory
  rw [HostCall.after, invoke_of_accepted haccepted]
  apply formats.sessionManager.load_performAll_of_mem hpairwise
  rw [hcall]
  exact List.mem_cons_self

/-- The call leaves the storage of a manager alone. -/
def HostCall.KeepsOff (formats : Formats DecapsKey SigningKey)
    (call : HostCall) (manager : UInt64) : Prop :=
  ∀ argument ∈ call.arguments formats, argument.access.isWritten = true →
    Apart manager formats.sessionManager.size.toNat argument.address
      argument.length.toNat

theorem load_after_of_keepsOff
    {call : HostCall} (haccepted : call.Accepted formats prims)
    {manager : UInt64} (hkeeps : call.KeepsOff formats manager)
    (memory : Memory) :
    formats.sessionManager.load (call.after formats prims memory) manager =
      formats.sessionManager.load memory manager := by
  apply Format.load_congr
  rw [HostCall.after, invoke_of_accepted haccepted]
  apply read_performAll_of_apart
  intro write hwrite
  obtain ⟨argument, hargument, hwritten, hstart, hlength⟩ :=
    exists_argument_of_write haccepted hwrite
  rw [← hstart, ← hlength]
  exact hkeeps argument hargument (isWritten_of_writtenBy hwritten)

end Requests

/-! ## Hosts -/

/-- The memory of a host and, for every living manager, the calls which it has
got since `init`. -/
structure Host (DecapsKey SigningKey : Type) where
  memory : Memory
  lives : UInt64 → Option (List (Invocation DecapsKey SigningKey))

/-- A host calls a function, which the primitives answer in their own way each
time, or stores to its memory. -/
inductive HostAction (DecapsKey SigningKey : Type)
  | call (prims : InterfacePrimitives DecapsKey SigningKey) (call : HostCall)
  | store (write : Write)

namespace Host

variable (formats : Formats DecapsKey SigningKey)

def start (memory : Memory) : Host DecapsKey SigningKey :=
  ⟨memory, fun _ => none⟩

def livesAfter (host : Host DecapsKey SigningKey)
    (prims : InterfacePrimitives DecapsKey SigningKey) (call : HostCall) :
    UInt64 → Option (List (Invocation DecapsKey SigningKey)) :=
  match call with
  | .sessionManagerInit manager =>
      Function.update host.lives manager (some [])
  | .sessionManagerDestroy manager =>
      Function.update host.lives manager none
  | other =>
      match other.manager?, other.request formats host.memory with
      | some manager, some request =>
          Function.update host.lives manager
            ((host.lives manager).map
              (· ++ [⟨prims.toPrimitives, request⟩]))
      | _, _ => host.lives

def afterCall (host : Host DecapsKey SigningKey)
    (prims : InterfacePrimitives DecapsKey SigningKey) (call : HostCall) :
    Host DecapsKey SigningKey where
  memory := call.after formats prims host.memory
  lives :=
    if call.Accepted formats prims then
      host.livesAfter formats prims call
    else
      host.lives

def step (host : Host DecapsKey SigningKey) :
    HostAction DecapsKey SigningKey → Option (Host DecapsKey SigningKey)
  | .call prims call => some (host.afterCall formats prims call)
  | .store write => some { host with memory := write.perform host.memory }

/-- The host hands out the storage of a living manager for this manager only,
and does not store to it. -/
def Respects (host : Host DecapsKey SigningKey)
    (action : HostAction DecapsKey SigningKey) : Prop :=
  ∀ manager life, host.lives manager = some life →
    match action with
    | .call prims call =>
        call.Accepted formats prims → call.manager? ≠ some manager →
          call.KeepsOff formats manager
    | .store write =>
        Apart manager formats.sessionManager.size.toNat write.start
          write.bytes.length

/-- The bytes of every living manager are those of the manager which has
performed its calls. -/
def Tracks (host : Host DecapsKey SigningKey) : Prop :=
  ∀ manager life, host.lives manager = some life →
    formats.sessionManager.load host.memory manager =
      SessionManager.new.afterCalls life

variable {formats}

/-- What an accepted call does to the lives. -/
theorem livesAfter_cases
    (host : Host DecapsKey SigningKey)
    (prims : InterfacePrimitives DecapsKey SigningKey) (call : HostCall) :
    (∀ manager, call.manager? ≠ some manager →
      host.livesAfter formats prims call manager = host.lives manager) ∧
    ∀ manager, call.manager? = some manager →
      (call = .sessionManagerInit manager ∧
        host.livesAfter formats prims call manager = some []) ∨
      (call = .sessionManagerDestroy manager ∧
        host.livesAfter formats prims call manager = none) ∨
      ∃ request, call.request formats host.memory = some request ∧
        host.livesAfter formats prims call manager =
          (host.lives manager).map (· ++ [⟨prims.toPrimitives, request⟩]) := by
  constructor
  · intro manager hother
    cases call
    all_goals
      simp only [livesAfter, HostCall.manager?, HostCall.request, ne_eq,
        Option.some.injEq] at hother ⊢
    all_goals
      rw [Function.update_of_ne (Ne.symm hother)]
  · intro manager hsame
    cases call
    all_goals cases hsame
    all_goals
      simp [livesAfter, HostCall.manager?, HostCall.request]

theorem step_tracks
    {host next : Host DecapsKey SigningKey}
    {action : HostAction DecapsKey SigningKey}
    (htracks : host.Tracks formats) (hrespects : host.Respects formats action)
    (hstep : host.step formats action = some next) :
    next.Tracks formats := by
  intro manager life hlife
  cases action with
  | store write =>
      cases hstep
      rw [← htracks manager life hlife]
      apply Format.load_congr
      change read (performAll host.memory [write]) _ _ = _
      apply read_performAll_of_apart
      simpa using hrespects manager life hlife
  | call prims call =>
      cases hstep
      dsimp only [afterCall] at hlife ⊢
      by_cases haccepted : call.Accepted formats prims
      · rw [if_pos haccepted] at hlife
        obtain ⟨hothers, hown⟩ := host.livesAfter_cases prims call
        by_cases hmanager : call.manager? = some manager
        · rcases hown manager hmanager with ⟨hcall, hfresh⟩ | ⟨_, hended⟩ |
            ⟨request, hrequest, hlonger⟩
          · rw [hfresh] at hlife
            cases hlife
            exact load_after_init hcall haccepted host.memory
          · rw [hended] at hlife
            cases hlife
          · rw [hlonger, Option.map_eq_some_iff] at hlife
            obtain ⟨earlier, hearlier, rfl⟩ := hlife
            obtain ⟨_, _, hload⟩ :=
              answers_of_accepted haccepted hmanager hrequest
            rw [hload, htracks manager earlier hearlier,
              SessionManager.afterCalls_append]
            rfl
        · rw [hothers manager hmanager] at hlife
          rw [load_after_of_keepsOff haccepted
            (hrespects manager life hlife haccepted hmanager)]
          exact htracks manager life hlife
      · rw [if_neg haccepted] at hlife
        obtain ⟨code, hinvoke, _⟩ :=
          invoke_of_rejected formats prims haccepted host.memory
        rw [HostCall.after, hinvoke]
        exact htracks manager life hlife

theorem start_tracks (memory : Memory) :
    (start memory : Host DecapsKey SigningKey).Tracks formats := by
  intro manager life hlife
  cases hlife

/-- In every run of a host which respects the storage of its living managers,
a call on a living manager which passes the argument checks returns the code and
the outputs of the manager which was made by `init` and has performed the calls
since then, and stores this manager after the call. -/
theorem calls_refine_managers
    {memory : Memory} {actions : List (HostAction DecapsKey SigningKey)}
    (hwithin : RunWithin (step formats) (Respects formats) (start memory)
      actions)
    {transition : Transition (Host DecapsKey SigningKey)
      (HostAction DecapsKey SigningKey)}
    (htransition : transition ∈
      transitions (step formats) (start memory) actions)
    {prims : InterfacePrimitives DecapsKey SigningKey} {call : HostCall}
    (haction : transition.action = .call prims call)
    (haccepted : call.Accepted formats prims) {manager : UInt64}
    (hmanager : call.manager? = some manager) {request : Call SigningKey}
    (hrequest : call.request formats transition.before.memory = some request)
    {life : List (Invocation DecapsKey SigningKey)}
    (hlife : transition.before.lives manager = some life) :
    let outcome :=
      (SessionManager.new.afterCalls life).exec prims.toPrimitives request
    (call.invoke formats prims transition.before.memory).code =
        codeOf outcome.1 ∧
      (∀ output, outcome.1 = .ok output →
        call.outputAt formats transition.after.memory = output) ∧
      formats.sessionManager.load transition.after.memory manager =
        outcome.2 ∧
      transition.after.lives manager =
        some (life ++ [⟨prims.toPrimitives, request⟩]) := by
  have hbefore : transition.before.Tracks formats :=
    (transitions_invariant_within (fun _ _ _ => step_tracks)
      (start_tracks memory) hwithin htransition).1
  have hstep := step_of_mem_transitions htransition
  obtain ⟨before, action, after⟩ := transition
  subst haction
  dsimp only [step] at hstep
  cases hstep
  have hanswers := answers_of_accepted haccepted hmanager hrequest
  rw [hbefore manager life hlife] at hanswers
  obtain ⟨hcode, houtput, hload⟩ := hanswers
  refine ⟨hcode, houtput, hload, ?_⟩
  dsimp only [afterCall]
  rw [if_pos haccepted]
  rcases (before.livesAfter_cases prims call).2 manager hmanager with
    ⟨rfl, _⟩ | ⟨rfl, _⟩ | ⟨same, hsame, hlonger⟩
  · cases hrequest
  · cases hrequest
  · rw [hrequest] at hsame
    cases hsame
    rw [hlonger, hlife]
    rfl

/-- A host with one manager at address 4096. -/
def referenceHost (memory : Memory) : Host UInt8 UInt8 :=
  (start memory).afterCall Reference.formats Reference.interfacePrimitives
    (.sessionManagerInit 4096)

def referenceInitiate : HostCall :=
  .sessionManagerInitiateHandshake 4096 8192 12288 16384

theorem referenceHost_lives (memory : Memory) (manager : UInt64) :
    (referenceHost memory).lives manager =
      if manager = 4096 then some [] else none := by
  have haccepted : (HostCall.sessionManagerInit 4096).Accepted
      Reference.formats Reference.interfacePrimitives := by decide
  simp only [referenceHost, afterCall, if_pos haccepted, livesAfter, start]
  exact Function.update_apply _ _ _ _

theorem referenceHost_respects (memory : Memory) :
    RunWithin (step Reference.formats) (Respects Reference.formats)
      (start memory)
      [.call Reference.interfacePrimitives (.sessionManagerInit 4096),
        .call Reference.interfacePrimitives referenceInitiate] := by
  refine ⟨?_, ?_, trivial⟩
  · intro manager life hlife
    cases hlife
  · intro manager life hlife _ hother
    change (referenceHost memory).lives manager = some life at hlife
    rw [referenceHost_lives] at hlife
    split at hlife
    next hsame => exact absurd (congrArg some hsame.symm) hother
    next => cases hlife

theorem calls_refine_managers_initiate :
    let host := referenceHost fun _ => 1
    let request := Call.initiateHandshake (readBlock host.memory 8192 96)
    let outcome :=
      SessionManager.new.exec Reference.interfacePrimitives.toPrimitives
        request
    (referenceInitiate.invoke Reference.formats Reference.interfacePrimitives
        host.memory).code = codeOf outcome.1 ∧
      (host.afterCall Reference.formats Reference.interfacePrimitives
        referenceInitiate).lives 4096 =
          some [⟨Reference.interfacePrimitives.toPrimitives, request⟩] := by
  intro host request outcome
  have hrefines := calls_refine_managers
    (referenceHost_respects fun _ => 1)
    (List.mem_cons_of_mem _ List.mem_cons_self) rfl
    (by decide : referenceInitiate.Accepted Reference.formats
      Reference.interfacePrimitives)
    rfl rfl (referenceHost_lives _ 4096)
  exact ⟨hrefines.1, hrefines.2.2.2⟩

end Host

end Ffi
end ShawnCore
