import Mathlib.Tactic

/-!
# Ratcheted output streams

A generator which outputs one block of its state and then replaces the state,
over and over, produces one stream of blocks.  Reading some number of items
uses as many whole blocks as it needs and leaves the generator behind the last
of them.
-/

namespace RatchetStream

variable {σ α : Type*} (output : σ → List α) (next : σ → σ)

/-- The first blocks of the stream from a state. -/
def stream (state : σ) (blocks : ℕ) : List α :=
  (List.range blocks).flatMap fun index => output (next^[index] state)

@[simp] theorem stream_zero (state : σ) : stream output next state 0 = [] :=
  rfl

theorem stream_succ (state : σ) (blocks : ℕ) :
    stream output next state (blocks + 1) =
      output state ++ stream output next (next state) blocks := by
  rw [stream, List.range_succ_eq_map, List.flatMap_cons, List.flatMap_map]
  rfl

theorem stream_add (state : σ) (first second : ℕ) :
    stream output next state (first + second) =
      stream output next state first ++
        stream output next (next^[first] state) second := by
  induction first generalizing state with
  | zero => simp
  | succ first ih =>
      rw [Nat.add_right_comm, stream_succ, ih, stream_succ, List.append_assoc,
        Function.iterate_succ_apply]

/-- The number of blocks of the given size that a number of items needs. -/
def blocksFor (size count : ℕ) : ℕ :=
  (count + size - 1) / size

variable {output next} {size : ℕ}

theorem length_stream
    (hsize : ∀ state, (output state).length = size) (state : σ) (blocks : ℕ) :
    (stream output next state blocks).length = blocks * size := by
  induction blocks generalizing state with
  | zero => simp
  | succ blocks ih =>
      rw [stream_succ, List.length_append, hsize, ih, Nat.succ_mul,
        Nat.add_comm]

theorem blocksFor_zero (hpos : 0 < size) : blocksFor size 0 = 0 := by
  rw [blocksFor, Nat.zero_add]
  exact Nat.div_eq_of_lt (Nat.sub_lt hpos Nat.one_pos)

theorem le_blocksFor_mul (hpos : 0 < size) (count : ℕ) :
    count ≤ blocksFor size count * size := by
  have hdiv := Nat.div_add_mod (count + size - 1) size
  have hmod := Nat.mod_lt (count + size - 1) hpos
  rw [blocksFor, Nat.mul_comm]
  omega

theorem blocksFor_mul (hpos : 0 < size) (count : ℕ) :
    blocksFor size (size * count) = count := by
  have hsplit : size * count + size - 1 = size - 1 + size * count := by omega
  rw [blocksFor, hsplit, Nat.add_mul_div_left _ _ hpos,
    Nat.div_eq_of_lt (Nat.sub_lt hpos Nat.one_pos), Nat.zero_add]

/-- One block, and what is left after it. -/
theorem blocksFor_eq_succ (hpos : 0 < size) {count : ℕ} (hcount : 0 < count) :
    blocksFor size count = blocksFor size (count - size) + 1 := by
  by_cases hle : size ≤ count
  · have hsplit : count + size - 1 = count - size + size - 1 + size := by omega
    rw [blocksFor, hsplit, Nat.add_div_right _ hpos]
    rfl
  · have hzero : count - size = 0 := by omega
    have hsplit : count + size - 1 = count - 1 + size := by omega
    have hrest : (count - 1) / size = 0 := Nat.div_eq_of_lt (by omega)
    rw [hzero, blocksFor_zero hpos, blocksFor, hsplit,
      Nat.add_div_right _ hpos, hrest]

theorem blocksFor_add (hpos : 0 < size) {first : ℕ} (hdvd : size ∣ first)
    (second : ℕ) :
    blocksFor size (first + second) =
      blocksFor size first + blocksFor size second := by
  obtain ⟨count, rfl⟩ := hdvd
  have hsplit : size * count + second + size - 1 =
      second + size - 1 + size * count := by omega
  rw [blocksFor_mul hpos, blocksFor, hsplit, Nat.add_mul_div_left _ _ hpos,
    Nat.add_comm]
  rfl

/-- Reading whole blocks and then more is reading all at once. -/
theorem take_stream_add
    (hsize : ∀ state, (output state).length = size) (hpos : 0 < size)
    (state : σ) {first : ℕ} (hdvd : size ∣ first) (second : ℕ) :
    (stream output next state (blocksFor size (first + second))).take
        (first + second) =
      (stream output next state (blocksFor size first)).take first ++
        (stream output next (next^[blocksFor size first] state)
          (blocksFor size second)).take second := by
  have hlength : (stream output next state (blocksFor size first)).length =
      first := by
    rw [length_stream hsize]
    obtain ⟨count, rfl⟩ := hdvd
    rw [blocksFor_mul hpos, Nat.mul_comm]
  rw [blocksFor_add hpos hdvd, stream_add, List.take_append, hlength,
    Nat.add_sub_cancel_left, List.take_of_length_le (by omega),
    List.take_of_length_le hlength.le]

end RatchetStream
