import ShawnCore.DmaTokens

/-!
# Calls of `free`

A call of `free` is followed through a run, from its start to its return, among
the moves of all other threads.  It succeeds exactly if its token is the token
of the live allocation at the moment of its compare-exchange, and it has not
written anything when it fails.
-/

namespace ShawnCore
namespace DmaPool

variable {τ : Type} [DecidableEq τ] {layout : Layout} {base : ℕ}
  {pool next : Pool τ} {thread : τ} {spurious : Bool}

/-! ## Program counters of other threads -/

theorem allocLoop_pc (pool : Pool τ) (thread : τ) (start : ℕ) :
    ∃ after, (pool.allocLoop thread start).pc =
      Function.update pool.pc thread after := by
  unfold Pool.allocLoop
  split
  next => exact ⟨_, rfl⟩
  next => exact ⟨_, rfl⟩

theorem step_thread_pc
    (hstep : step layout pool (.step thread spurious) = some next) :
    ∃ after, next.pc = Function.update pool.pc thread after := by
  rcases step_thread_cases hstep with hinit | hallocate | hfree
  · generalize pool.pc thread = pc at hinit
    cases hinit <;> exact ⟨_, rfl⟩
  · generalize pool.pc thread = pc at hallocate
    cases hallocate with
    | headRead start => exact allocLoop_pc pool thread start
    | retried start observed nextIndex => exact allocLoop_pc pool thread start
    | _ => exact ⟨_, rfl⟩
  · generalize pool.pc thread = pc at hfree
    cases hfree with
    | wiped slot start offset phase =>
        obtain ⟨bytes, after, hwipe, -⟩ :=
          stepWipe_eq layout pool thread slot start offset phase
        rw [hwipe]
        exact ⟨after, rfl⟩
    | _ => exact ⟨_, rfl⟩

/-- A thread in the middle of a call is moved by its own steps only. -/
theorem step_pc_of_other
    {action : Action τ} (hbusy : pool.pc thread ≠ .idle)
    (hother : ∀ spurious, action ≠ .step thread spurious)
    (hstep : step layout pool action = some next) :
    next.pc thread = pool.pc thread := by
  cases action with
  | call other operation =>
      obtain ⟨hidle, rfl⟩ := step_call hstep
      have hne : thread ≠ other := by
        rintro rfl
        exact hbusy hidle
      cases operation with
      | init start sizeInBytes =>
          simp only [startCall]
          split <;> exact Function.update_of_ne hne _ _
      | allocate => exact Function.update_of_ne hne _ _
      | free slot generation => exact Function.update_of_ne hne _ _
  | step other spurious =>
      have hne : thread ≠ other := by
        rintro rfl
        exact hother spurious rfl
      obtain ⟨after, hafter⟩ := step_thread_pc hstep
      rw [hafter, Function.update_of_ne hne]
  | hostWrite address value =>
      cases hstep
      rfl

/-! ## The steps of `free` -/

/-- Nothing of the pool was written. -/
structure Untouched (pool next : Pool τ) : Prop where
  bytes_eq : next.bytes = pool.bytes
  ownership_eq : next.ownership = pool.ownership
  next_eq : next.next = pool.next
  head_eq : next.head = pool.head

/-- The call has released its slot and will succeed. -/
def Pc.freeing : Pc → Bool
  | .freeMemory _ => true
  | .freeWipe .. => true
  | .freeFlush _ => true
  | .freeHead _ => true
  | .freeNext .. => true
  | .freeSwap .. => true
  | _ => false

def Pc.inFree : Pc → Bool
  | .freeCheck .. => true
  | .freeRelease .. => true
  | pc => pc.freeing

theorem Pc.inFree_of_freeing
    {pc : Pc} (hfreeing : pc.freeing = true) : pc.inFree = true := by
  cases pc <;> first | rfl | cases hfreeing

theorem step_freeStep
    (hstep : step layout pool (.step thread spurious) = some next)
    (hinside : (pool.pc thread).inFree = true) :
    FreeStep layout pool thread (pool.pc thread) next := by
  rcases step_thread_cases hstep with hinit | hallocate | hfree
  · generalize pool.pc thread = pc at hinit hinside
    cases hinit <;> cases hinside
  · generalize pool.pc thread = pc at hallocate hinside
    cases hallocate <;> cases hinside
  · exact hfree

theorem step_freeCheck
    {slot : ℕ} {generation : UInt64}
    (hpc : pool.pc thread = .freeCheck slot generation)
    (hstep : step layout pool (.step thread spurious) = some next) :
    Untouched pool next ∧
      (next.pc thread = .freeRelease slot generation ∧
          next.transcript = pool.transcript ∨
        next.pc thread = .idle ∧ ∃ error, next.transcript =
          pool.transcript ++ [.returned thread (.failed error)]) := by
  have hfree := step_freeStep hstep (by rw [hpc]; rfl)
  rw [hpc] at hfree
  cases hfree with
  | refused _ _ error =>
      exact ⟨⟨rfl, rfl, rfl, rfl⟩,
        Or.inr ⟨Function.update_self _ _ _, error, rfl⟩⟩
  | checked _ _ hslot hgeneration =>
      exact ⟨⟨rfl, rfl, rfl, rfl⟩, Or.inl ⟨Function.update_self _ _ _, rfl⟩⟩

/-- The compare-exchange succeeds exactly on the token of the live
allocation. -/
theorem step_freeRelease
    {slot : ℕ} {generation : UInt64} {free : List ℕ} {place : ℕ → Place τ}
    (hinv : PoolInvariant layout base pool free place)
    (hpc : pool.pc thread = .freeRelease slot generation)
    (hstep : step layout pool (.step thread spurious) = some next) :
    liveToken slot pool.transcript = some generation ∧
        (next.pc thread).freeing = true ∧
        next.transcript =
          pool.transcript ++ [.released thread slot generation] ∨
      liveToken slot pool.transcript ≠ some generation ∧
        Untouched pool next ∧ next.pc thread = .idle ∧
        next.transcript =
          pool.transcript ++ [.returned thread (.failed .doubleFree)] := by
  have hok := hinv.threads thread
  rw [hpc] at hok
  obtain ⟨hslot, hgeneration⟩ := hok
  have hfree := step_freeStep hstep (by rw [hpc]; rfl)
  rw [hpc] at hfree
  cases hfree with
  | lost _ _ howner =>
      refine Or.inr
        ⟨?_, ⟨rfl, rfl, rfl, rfl⟩, Function.update_self _ _ _, rfl⟩
      intro hlive
      have howned := hinv.owned slot hslot
      rw [((hinv.live slot generation).mp hlive).2] at howned
      exact howner howned.1
  | released _ _ howner =>
      refine Or.inl ⟨?_, ?_, rfl⟩
      · rw [hinv.live]
        exact ⟨hslot, hinv.place_eq_live hslot hgeneration howner⟩
      · simp [Pc.freeing]

theorem step_freeing
    (hpc : (pool.pc thread).freeing = true)
    (hstep : step layout pool (.step thread spurious) = some next) :
    (next.pc thread).freeing = true ∧ next.transcript = pool.transcript ∨
      next.pc thread = .idle ∧
        next.transcript = pool.transcript ++ [.returned thread .freed] := by
  have hfree := step_freeStep hstep (Pc.inFree_of_freeing hpc)
  generalize pool.pc thread = pc at hfree hpc
  cases hfree with
  | refused slot generation error => cases hpc
  | checked slot generation hslot hgeneration => cases hpc
  | lost slot generation howner => cases hpc
  | released slot generation howner => cases hpc
  | memoryRead slot => exact Or.inl ⟨by simp [Pc.freeing], rfl⟩
  | wiped slot start offset phase =>
      obtain ⟨bytes, after, hwipe, hafter⟩ :=
        stepWipe_eq layout pool thread slot start offset phase
      rw [hwipe]
      rcases hafter with ⟨offset, phase, rfl⟩ | rfl
      · exact Or.inl ⟨by simp [Pc.freeing], rfl⟩
      · exact Or.inl ⟨by simp [Pc.freeing], rfl⟩
  | flushed | stalled => exact Or.inl ⟨by simp [Pc.freeing], rfl⟩
  | headRead slot => exact Or.inl ⟨by simp [Pool.freeLoop, Pc.freeing], rfl⟩
  | linked slot observed => exact Or.inl ⟨by simp [Pc.freeing], rfl⟩
  | retried slot observed =>
      exact Or.inl ⟨by simp [Pool.freeLoop, Pc.freeing], rfl⟩
  | swapped slot observed hhead =>
      exact Or.inr ⟨Function.update_self _ _ _, rfl⟩

/-! ## Whole calls -/

abbrev Move (τ : Type) := Execution.Transition (Pool τ) (Action τ)

omit [DecidableEq τ] in
def Move.By (thread : τ) (move : Move τ) : Prop :=
  ∃ spurious, move.action = .step thread spurious

/-- The compare-exchange of a call which meets the live allocation of its
token. -/
def Releases
    (thread : τ) (slot : ℕ) (generation : UInt64) (move : Move τ) : Prop :=
  Move.By thread move ∧ move.before.pc thread = .freeRelease slot generation ∧
    liveToken slot move.before.transcript = some generation

/-- The moves of a run from the start of a call of `free` to its return. -/
structure FreeCall
    (thread : τ) (slot : ℕ) (generation : UInt64)
    (first : Move τ) (middle : List (Move τ)) (last : Move τ)
    (outcome : Outcome) : Prop where
  called : first.action = .call thread (.free slot generation)
  busy : ∀ move ∈ middle, move.after.pc thread ≠ .idle
  ends : Move.By thread last
  returned : last.after.transcript =
    last.before.transcript ++ [.returned thread outcome]

/-- How far a call has come with these moves. -/
def Progress
    (thread : τ) (slot : ℕ) (generation : UInt64) (moves : List (Move τ))
    (pool : Pool τ) : Prop :=
  (pool.pc thread = .freeCheck slot generation ∨
      pool.pc thread = .freeRelease slot generation) ∧
      (∀ move ∈ moves, Move.By thread move →
        Untouched move.before move.after ∧
          ¬ Releases thread slot generation move) ∨
    (pool.pc thread).freeing = true ∧
      ∃ move ∈ moves, Releases thread slot generation move

section Calls

variable {slot : ℕ} {generation : UInt64} {moves : List (Move τ)}

omit [DecidableEq τ] in
theorem Progress.busy
    (hprogress : Progress thread slot generation moves pool) :
    pool.pc thread ≠ .idle := by
  rintro hidle
  rcases hprogress with ⟨hcheck | hrelease, -⟩ | ⟨hfreeing, -⟩
  · rw [hidle] at hcheck
    cases hcheck
  · rw [hidle] at hrelease
    cases hrelease
  · rw [hidle] at hfreeing
    cases hfreeing

omit [DecidableEq τ] in
theorem Releases.pc_ne
    {move : Move τ} (hpc : move.before.pc thread = .freeCheck slot generation) :
    ¬ Releases thread slot generation move := by
  rintro ⟨-, hrelease, -⟩
  rw [hpc] at hrelease
  cases hrelease

theorem Progress.step
    {action : Action τ} (hplaced : Placed layout base pool)
    (hprogress : Progress thread slot generation moves pool)
    (hstep : step layout pool action = some next)
    (hbusy : next.pc thread ≠ .idle) :
    Progress thread slot generation (moves ++ [⟨pool, action, next⟩]) next := by
  by_cases hby : Move.By thread ⟨pool, action, next⟩
  · obtain ⟨spurious, haction⟩ := hby
    cases haction
    obtain ⟨free, place, hinv⟩ := hplaced
    rcases hprogress with ⟨hcheck | hrelease, hpast⟩ | ⟨hfreeing, hpast⟩
    · obtain ⟨huntouched, hnext | hfailed⟩ := step_freeCheck hcheck hstep
      · refine Or.inl ⟨Or.inr hnext.1, ?_⟩
        intro move hmove hmoveBy
        rcases List.mem_append.mp hmove with hearlier | hlast
        · exact hpast move hearlier hmoveBy
        · rw [List.mem_singleton.mp hlast]
          exact ⟨huntouched, Releases.pc_ne hcheck⟩
      · exact absurd hfailed.1 hbusy
    · rcases step_freeRelease hinv hrelease hstep with hlive | hstale
      · refine Or.inr ⟨hlive.2.1, ⟨pool, .step thread spurious, next⟩,
          by simp, ⟨spurious, rfl⟩, hrelease, hlive.1⟩
      · exact absurd hstale.2.2.1 hbusy
    · rcases step_freeing hfreeing hstep with hgoes | hreturns
      · obtain ⟨move, hmove, hreleases⟩ := hpast
        exact Or.inr
          ⟨hgoes.1, move, List.mem_append_left _ hmove, hreleases⟩
      · exact absurd hreturns.1 hbusy
  · have hpc := step_pc_of_other hprogress.busy
      (fun spurious haction => hby ⟨spurious, haction⟩) hstep
    rcases hprogress with ⟨hcheck, hpast⟩ | ⟨hfreeing, move, hmove, hreleases⟩
    · refine Or.inl ⟨?_, ?_⟩
      · rw [hpc]
        exact hcheck
      · intro move hmove hmoveBy
        rcases List.mem_append.mp hmove with hearlier | hlast
        · exact hpast move hearlier hmoveBy
        · rw [List.mem_singleton.mp hlast] at hmoveBy
          exact absurd hmoveBy hby
    · refine Or.inr ⟨?_, move, List.mem_append_left _ hmove, hreleases⟩
      rw [hpc]
      exact hfreeing

/-- The moves up to the last one of a call are progress. -/
theorem Progress.run
    {middle rest : List (Move τ)} {schedule : List (Action τ)}
    (hprogress : Progress thread slot generation moves pool)
    (hrun : Execution.transitions (DmaPool.step layout) pool schedule =
      middle ++ rest)
    (hplaced : ∀ move ∈ middle, Placed layout base move.before)
    (hbusy : ∀ move ∈ middle, move.after.pc thread ≠ .idle) :
    ∃ later remaining,
      Execution.transitions (DmaPool.step layout) later remaining = rest ∧
        Progress thread slot generation (moves ++ middle) later := by
  induction middle generalizing pool schedule moves with
  | nil => exact ⟨pool, schedule, hrun, by simpa using hprogress⟩
  | cons move middle ih =>
      obtain ⟨hbefore, hstep, remaining, hremaining⟩ :=
        Execution.transitions_eq_cons hrun
      have hmove : (⟨pool, move.action, move.after⟩ : Move τ) = move := by
        rw [← hbefore]
      have hnext := hprogress.step
        (hbefore ▸ hplaced move List.mem_cons_self) hstep
        (hbusy move List.mem_cons_self)
      rw [hmove] at hnext
      have hwhole := ih hnext hremaining
        (fun other hother => hplaced other (List.mem_cons_of_mem _ hother))
        (fun other hother => hbusy other (List.mem_cons_of_mem _ hother))
      simpa using hwhole

/-- What the last move of a call says about the call. -/
theorem Progress.ends
    {outcome : Outcome} (hplaced : Placed layout base pool)
    (hprogress : Progress thread slot generation moves pool)
    (hstep : DmaPool.step layout pool (.step thread spurious) = some next)
    (hreturned : next.transcript =
      pool.transcript ++ [.returned thread outcome]) :
    outcome = .freed ∧
        (∃ move ∈ moves, Releases thread slot generation move) ∨
      (∃ error, outcome = .failed error) ∧
        ∀ move ∈ moves ++ [⟨pool, .step thread spurious, next⟩],
          Move.By thread move → Untouched move.before move.after ∧
            ¬ Releases thread slot generation move := by
  have hgrown : next.transcript ≠ pool.transcript := by
    intro hsame
    rw [hsame] at hreturned
    simpa using congrArg List.length hreturned
  have hlast : ∀ event : Event τ,
      next.transcript = pool.transcript ++ [event] →
        event = .returned thread outcome := by
    intro event hevent
    rw [hevent] at hreturned
    simpa using hreturned
  have hfailed : ∀ error, Event.returned thread (.failed error) =
      .returned thread outcome → ∃ error, outcome = .failed error := by
    intro error hsame
    cases hsame
    exact ⟨error, rfl⟩
  rcases hprogress with ⟨hcheck | hrelease, hpast⟩ | ⟨hfreeing, hpast⟩
  · obtain ⟨huntouched, hnext | ⟨-, error, herror⟩⟩ :=
      step_freeCheck hcheck hstep
    · exact absurd hnext.2 hgrown
    · refine Or.inr ⟨hfailed error (hlast _ herror), ?_⟩
      intro move hmove hmoveBy
      rcases List.mem_append.mp hmove with hearlier | hnow
      · exact hpast move hearlier hmoveBy
      · rw [List.mem_singleton.mp hnow]
        exact ⟨huntouched, Releases.pc_ne hcheck⟩
  · obtain ⟨free, place, hinv⟩ := hplaced
    rcases step_freeRelease hinv hrelease hstep with
      ⟨-, -, hreleased⟩ | ⟨hstale, huntouched, -, herror⟩
    · cases hlast _ hreleased
    · refine Or.inr ⟨hfailed _ (hlast _ herror), ?_⟩
      intro move hmove hmoveBy
      rcases List.mem_append.mp hmove with hearlier | hnow
      · exact hpast move hearlier hmoveBy
      · rw [List.mem_singleton.mp hnow]
        exact ⟨huntouched, fun hreleases => hstale hreleases.2.2⟩
  · rcases step_freeing hfreeing hstep with hgoes | ⟨-, hfreed⟩
    · exact absurd hgoes.2 hgrown
    · have houtcome := hlast _ hfreed
      cases houtcome
      exact Or.inl ⟨rfl, hpast⟩

end Calls

/-- A call of `free` with these moves succeeds exactly if it releases the live
allocation of its token, and writes nothing if it fails. -/
structure FreeReport
    (thread : τ) (slot : ℕ) (generation : UInt64) (moves : List (Move τ))
    (outcome : Outcome) : Prop where
  freed_iff : outcome = .freed ↔
    ∃ move ∈ moves, Releases thread slot generation move
  failed : outcome ≠ .freed → ∃ error, outcome = .failed error
  untouched : outcome ≠ .freed → ∀ move ∈ moves, Move.By thread move →
    Untouched move.before move.after

theorem FreeCall.report
    {slot : ℕ} {generation : UInt64} {first last : Move τ}
    {middle later : List (Move τ)} {outcome : Outcome}
    {start : Pool τ} {schedule : List (Action τ)}
    (hcall : FreeCall thread slot generation first middle last outcome)
    (hrun : Execution.transitions (step layout) start schedule =
      first :: (middle ++ last :: later))
    (hplaced : ∀ move ∈ middle ++ [last], Placed layout base move.before) :
    FreeReport thread slot generation (first :: (middle ++ [last]))
      outcome := by
  obtain ⟨-, hfirst, rest, hrest⟩ := Execution.transitions_eq_cons hrun
  have hnotBy : ¬ Move.By thread first := by
    rintro ⟨spurious, haction⟩
    rw [hcall.called] at haction
    cases haction
  have hstarted : first.after.pc thread = .freeCheck slot generation := by
    rw [hcall.called] at hfirst
    rw [(step_call hfirst).2]
    exact Function.update_self _ _ _
  have hprogress : Progress thread slot generation [first] first.after := by
    refine Or.inl ⟨Or.inl hstarted, ?_⟩
    intro move hmove hmoveBy
    rw [List.mem_singleton.mp hmove] at hmoveBy
    exact absurd hmoveBy hnotBy
  obtain ⟨before, remaining, hlast, hreached⟩ := hprogress.run hrest
    (fun move hmove => hplaced move (List.mem_append_left _ hmove)) hcall.busy
  obtain ⟨hbefore, hstep, -⟩ := Execution.transitions_eq_cons hlast
  obtain ⟨spurious, haction⟩ := hcall.ends
  subst hbefore
  rw [haction] at hstep
  have hends := hreached.ends (hplaced last (by simp)) hstep hcall.returned
  have hwhole : [first] ++ middle ++
      [(⟨last.before, .step thread spurious, last.after⟩ : Move τ)] =
        first :: (middle ++ [last]) := by
    rw [← haction]
    simp
  rw [hwhole] at hends
  rcases hends with ⟨hfreed, move, hmove, hreleases⟩ | ⟨hfailed, hpast⟩
  · constructor
    · simp only [hfreed, true_iff]
      refine ⟨move, ?_, hreleases⟩
      rw [← hwhole]
      exact List.mem_append_left _ hmove
    · intro hne
      exact absurd hfreed hne
    · intro hne
      exact absurd hfreed hne
  · have hnot : outcome ≠ .freed := by
      obtain ⟨error, herror⟩ := hfailed
      rw [herror]
      intro hsame
      cases hsame
    constructor
    · simp only [hnot, false_iff]
      rintro ⟨move, hmove, hreleases⟩
      exact (hpast move hmove hreleases.1).2 hreleases
    · intro _
      exact hfailed
    · intro _ move hmove hmoveBy
      exact (hpast move hmove hmoveBy).1

/-! ## The law of tokens -/

/-- What tokens are good for in a run which has led to the final pool. -/
structure TokenLaw
    (layout : Layout) (start : Pool τ) (schedule : List (Action τ))
    (final : Pool τ) : Prop where
  issued_once : (issued final.transcript).Nodup
  freed_once : (released final.transcript).Nodup
  freed_issued : ∀ pair ∈ released final.transcript,
    pair ∈ issued final.transcript
  alternating : Alternating final.transcript
  free_calls :
    ∀ thread slot generation earlier first middle last later outcome,
      Execution.transitions (step layout) start schedule =
          earlier ++ first :: (middle ++ last :: later) →
        FreeCall thread slot generation first middle last outcome →
          FreeReport thread slot generation (first :: (middle ++ [last]))
            outcome

/-- After a completed `init`, in every interleaving of calls with arbitrary
arguments, while no generation has wrapped around. -/
theorem tokens_free_once
    {bytes : ℕ → UInt8} {sizeInBytes : ℕ} {start final : Pool τ}
    {schedule : List (Action τ)}
    (hvalid : layout.validate base sizeInBytes = .ok ())
    (hinit : Execution.run (step layout) (Pool.new bytes)
      (initCall layout thread base sizeInBytes) = some start)
    (hwithin : Execution.RunWithin (step layout) FreshSwap start schedule)
    (hrun : Execution.run (step layout) start schedule = some final)
    (hfew : ∀ slot, allocations slot final.transcript < 2 ^ 63) :
    TokenLaw layout start schedule final := by
  rw [init_completes hvalid] at hinit
  cases hinit
  have hstart : Generations (Pool.initialized layout thread base bytes) := by
    constructor
    · rfl
    · intro slot
      rfl
    · intro slot
      change (0 : UInt64) &&& ownershipGenerationMask = tokenOf 0
      exact UInt64.zero_and
  have hplaced : ∀ (pool : Pool τ) action next, Placed layout base pool →
      FreshSwap pool action → step layout pool action = some next →
        Placed layout base next :=
    fun _ _ _ hgood hfresh hstep => step_placed hgood hfresh hstep
  have hboth : ∀ (pool : Pool τ) action next,
      Placed layout base pool ∧ Generations pool → FreshSwap pool action →
        step layout pool action = some next →
          Placed layout base next ∧ Generations next := by
    rintro pool action next ⟨⟨free, place, hinv⟩, hgenerations⟩ hfresh hstep
    exact ⟨step_placed hinv.placed hfresh hstep,
      (step_effect hinv hstep).generations hgenerations⟩
  obtain ⟨⟨free, place, hinv⟩, hgenerations⟩ :=
    Execution.run_invariant_within hboth
      ⟨(initialized_invariant bytes).placed, hstart⟩ hwithin hrun
  have hissued := hgenerations.issued_nodup hfew
  obtain ⟨hreleased, hsubset⟩ :=
    hgenerations.released_nodup hinv.alternating hissued
  refine ⟨hissued, hreleased, hsubset, hinv.alternating, ?_⟩
  intro caller slot generation earlier first middle last later outcome hmoves
    hcall
  obtain ⟨before, remaining, hremaining⟩ :=
    Execution.transitions_eq_append hmoves
  apply hcall.report hremaining
  intro move hmove
  refine (Execution.transitions_invariant_within hplaced
    (initialized_invariant bytes).placed hwithin ?_).1
  rw [hmoves]
  simp only [List.mem_append, List.mem_cons, List.not_mem_nil, or_false]
    at hmove ⊢
  tauto

/-! ### A token used twice -/

/-- Thread 1 allocates the only slot and frees it, thread 2 allocates it anew,
and thread 1 tries its old token again. -/
def reuse : List (Action ℕ) :=
  List.flatten
    [.call 1 .allocate :: steps 1 7, .call 1 (.free 0 1) :: steps 1 18,
      .call 2 .allocate :: steps 2 7, .call 1 (.free 0 1) :: steps 1 2]

theorem reuse_within :
    Execution.RunWithin (step singleSlot) FreshSwap
      (Pool.initialized singleSlot 0 4096 fun _ => 0) reuse := by
  decide

theorem reuse_transcript :
    (Execution.run (step singleSlot)
        (Pool.initialized singleSlot 0 4096 fun _ => 0) reuse).map
        Pool.transcript =
      some [.returned 0 .initialized, .claimed 1 0 1,
        .returned 1 (.allocated 0 1 4096), .released 1 0 1,
        .returned 1 .freed, .claimed 2 0 2,
        .returned 2 (.allocated 0 2 4096),
        .returned 1 (.failed .doubleFree)] := by
  decide +kernel

theorem tokens_free_once_when_reused :
    ∃ final, Execution.run (step singleSlot)
        (Pool.initialized singleSlot 0 4096 fun _ => 0) reuse = some final ∧
      issued final.transcript = [(0, 1), (0, 2)] ∧
      released final.transcript = [(0, 1)] ∧
      TokenLaw singleSlot (Pool.initialized singleSlot 0 4096 fun _ => 0) reuse
        final := by
  obtain ⟨final, hrun, htranscript⟩ :=
    Option.map_eq_some_iff.mp reuse_transcript
  have hissued : issued final.transcript = [(0, 1), (0, 2)] := by
    rw [htranscript]
    rfl
  have hfew : ∀ slot, allocations slot final.transcript < 2 ^ 63 := by
    intro slot
    have hle : allocations slot final.transcript ≤ 2 := by
      rw [allocations, hissued, tokensOf, List.length_map]
      exact List.length_filter_le _ _
    omega
  have hvalid : singleSlot.validate 4096 64 = .ok () := by
    decide
  refine ⟨final, hrun, hissued, ?_, tokens_free_once hvalid
    (init_completes hvalid) reuse_within hrun hfew⟩
  rw [htranscript]
  rfl

end DmaPool
end ShawnCore
