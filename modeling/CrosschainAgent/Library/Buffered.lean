import Mathlib.Data.List.Basic

/-!
# A fold over blocks, fed piece by piece

A function is folded over the blocks of a fixed size of a sequence, which comes in pieces of any length. What
does not fill a block waits in a buffer of the size of a block. However the sequence is cut into pieces, the
state is that of the whole blocks so far, and the buffer starts with the rest.
-/

namespace Buffered

variable {α S : Type} (size : ℕ) (process : S → List α → S)

/-- A number of blocks is processed; what is left of the sequence stands beside the state. -/
def loop : ℕ → S → List α → S × List α
  | 0, state, xs => (state, xs)
  | count + 1, state, xs => loop count (process state (xs.take size)) (xs.drop size)

/-- The whole blocks of a sequence are processed. -/
def absorb (state : S) (xs : List α) : S × List α := loop size process (xs.length / size) state xs

/-- `elements` written over a buffer from a place on. -/
def memcpy (buffer : List α) (place : ℕ) (elements : List α) : List α :=
  buffer.take place ++ elements ++ buffer.drop (place + elements.length)

/-- A piece comes in while the buffer holds `left` elements: a block that it fills up is processed, then the
whole blocks of the piece, and the rest is written to the buffer. -/
def update (state : S) (buffer : List α) (left : ℕ) (input : List α) : S × List α :=
  if left ≠ 0 ∧ input.length ≥ size - left then
    let buffer := memcpy buffer left (input.take (size - left))
    let (state, rest) := absorb size process (process state buffer) (input.drop (size - left))
    (state, memcpy buffer 0 rest)
  else
    let (state, rest) := absorb size process state input
    (state, memcpy buffer left rest)

section Memcpy

variable {buffer elements : List α} {place : ℕ}

/-- A copy that fits keeps the length of the buffer. -/
theorem length_memcpy (h : place + elements.length ≤ buffer.length) :
    (memcpy buffer place elements).length = buffer.length := by
  simp only [memcpy, List.length_append, List.length_take, List.length_drop]
  omega

/-- What was in front of the place, and what was written. -/
theorem take_memcpy (h : place ≤ buffer.length) :
    (memcpy buffer place elements).take (place + elements.length) = buffer.take place ++ elements := by
  rw [memcpy, List.take_left']
  rw [List.length_append, List.length_take]
  omega

end Memcpy

variable {size process}

/-- Less than a block is left as it is. -/
theorem absorb_of_lt {xs : List α} (h : xs.length < size) (state : S) :
    absorb size process state xs = (state, xs) := by
  rw [absorb, Nat.div_eq_of_lt h, loop]

/-- The first block is processed first. -/
theorem absorb_of_le (hsize : 0 < size) {xs : List α} (h : size ≤ xs.length) (state : S) :
    absorb size process state xs = absorb size process (process state (xs.take size)) (xs.drop size) := by
  have hcount : xs.length / size = (xs.length - size) / size + 1 := by
    rw [← Nat.add_div_right _ hsize, Nat.sub_add_cancel h]
  rw [absorb, hcount, loop, absorb, List.length_drop]

/-- A block with something behind it is processed. -/
theorem absorb_block_append (hsize : 0 < size) {block : List α} (h : block.length = size) (state : S)
    (xs : List α) : absorb size process state (block ++ xs) = absorb size process (process state block) xs := by
  rw [absorb_of_le hsize (by rw [List.length_append]; omega), List.take_left' h, List.drop_left' h]

/-- What is left is as long as the remainder. -/
theorem length_absorb (hsize : 0 < size) (state : S) (xs : List α) :
    (absorb size process state xs).2.length = xs.length % size := by
  induction hlength : xs.length using Nat.strongRecOn generalizing state xs with
  | ind length ih =>
    by_cases h : size ≤ xs.length
    · rw [absorb_of_le hsize h, ih _ _ _ _ List.length_drop, hlength, ← Nat.mod_eq_sub_mod (hlength ▸ h)]
      omega
    · rw [absorb_of_lt (by omega), hlength, Nat.mod_eq_of_lt (by omega)]

/-- To go on with a sequence is to go on with what was left of it. -/
theorem absorb_append (hsize : 0 < size) (state : S) (xs ys : List α) :
    absorb size process state (xs ++ ys) =
      absorb size process (absorb size process state xs).1 ((absorb size process state xs).2 ++ ys) := by
  induction hlength : xs.length using Nat.strongRecOn generalizing state xs with
  | ind length ih =>
    by_cases h : size ≤ xs.length
    · have hrest := ih _ (by omega) (process state (xs.take size)) (xs.drop size) List.length_drop
      conv_lhs => rw [← List.take_append_drop size xs, List.append_assoc]
      rw [absorb_block_append hsize (List.length_take_of_le h), hrest, ← absorb_of_le hsize h]
    · rw [absorb_of_lt (by omega : xs.length < size)]

/-- The state is that of the whole blocks of what was seen, and the buffer starts with the rest. -/
structure Holds (size : ℕ) (process : S → List α → S) (start : S) (seen : List α) (state : S)
    (buffer : List α) : Prop where
  state : state = (absorb size process start seen).1
  length : buffer.length = size
  buffer : buffer.take (seen.length % size) = (absorb size process start seen).2

/-- Before anything is seen, any buffer will do. -/
theorem holds_start (hsize : 0 < size) (start : S) {buffer : List α} (hbuffer : buffer.length = size) :
    Holds size process start [] start buffer where
  state := by rw [absorb_of_lt (by simpa using hsize)]
  length := hbuffer
  buffer := by rw [absorb_of_lt (by simpa using hsize), List.length_nil, Nat.zero_mod, List.take_zero]

section Pieces

variable {start state : S} {seen buffer input : List α}

/-- What is left of a sequence is shorter than a block. -/
theorem length_absorb_lt (hsize : 0 < size) (state : S) (xs : List α) :
    (absorb size process state xs).2.length < size := by
  rw [length_absorb hsize]
  exact Nat.mod_lt _ hsize

/-- What was left, as the buffer holds it, goes in front of a piece. -/
theorem Holds.absorb_append (hsize : 0 < size) (h : Holds size process start seen state buffer) (input : List α) :
    absorb size process start (seen ++ input) =
      absorb size process state (buffer.take (seen.length % size) ++ input) := by
  rw [Buffered.absorb_append hsize, h.state, h.buffer]

/-- A buffer with what is left at its beginning holds what was seen. -/
theorem holds_of_memcpy (hsize : 0 < size) {place : ℕ} {rest : List α}
    (hbuffer : buffer.length = size) (hplace : place + rest.length ≤ size)
    (hrest : (absorb size process start seen).2 = buffer.take place ++ rest) :
    Holds size process start seen (absorb size process start seen).1 (memcpy buffer place rest) where
  state := rfl
  length := (length_memcpy (by omega)).trans hbuffer
  buffer := by
    have hlength : seen.length % size = place + rest.length := by
      rw [← length_absorb hsize start seen, hrest, List.length_append, List.length_take]
      omega
    rw [hlength, take_memcpy (by omega), hrest]

/-- The buffer keeps its length. -/
theorem length_update (hsize : 0 < size) {left : ℕ} (hleft : left < size) (hbuffer : buffer.length = size)
    (state : S) (input : List α) : (update size process state buffer left input).2.length = size := by
  have hshort : ∀ (state : S) (xs : List α), (absorb size process state xs).2.length < size :=
    length_absorb_lt hsize
  rw [update]
  split
  next hfill =>
    have hblock : (memcpy buffer left (input.take (size - left))).length = size := by
      rw [length_memcpy, hbuffer]
      rw [List.length_take, hbuffer]
      omega
    dsimp only
    rw [length_memcpy, hblock]
    have := hshort (process state (memcpy buffer left (input.take (size - left)))) (input.drop (size - left))
    omega
  next hfill =>
    have hrest : left + (absorb size process state input).2.length ≤ size := by
      by_cases hempty : left = 0
      · have := hshort state input
        omega
      · rw [absorb_of_lt (by omega)]
        dsimp only
        omega
    dsimp only
    rw [length_memcpy (by omega), hbuffer]

/-- A piece that fills a block up. -/
theorem Holds.update_of_fill (hsize : 0 < size) (h : Holds size process start seen state buffer)
    (hfill : input.length ≥ size - seen.length % size) :
    absorb size process start (seen ++ input) =
      absorb size process
        (process state (memcpy buffer (seen.length % size) (input.take (size - seen.length % size))))
        (input.drop (size - seen.length % size)) := by
  have hleft := Nat.mod_lt seen.length hsize
  have htake : (input.take (size - seen.length % size)).length = size - seen.length % size :=
    List.length_take_of_le hfill
  have hblock : memcpy buffer (seen.length % size) (input.take (size - seen.length % size)) =
      buffer.take (seen.length % size) ++ input.take (size - seen.length % size) := by
    rw [memcpy, List.drop_of_length_le (by rw [htake, h.length]; omega), List.append_nil]
  have hlength : (buffer.take (seen.length % size) ++ input.take (size - seen.length % size)).length = size := by
    rw [List.length_append, List.length_take, htake, h.length]
    omega
  rw [h.absorb_append hsize, hblock, ← absorb_block_append hsize hlength, List.append_assoc,
    List.take_append_drop]

/-- A piece that comes in is added to what was seen. -/
theorem Holds.update (hsize : 0 < size) (h : Holds size process start seen state buffer) (input : List α) :
    Holds size process start (seen ++ input)
      (Buffered.update size process state buffer (seen.length % size) input).1
      (Buffered.update size process state buffer (seen.length % size) input).2 := by
  have hleft := Nat.mod_lt seen.length hsize
  have hrest : (absorb size process start (seen ++ input)).2.length < size := length_absorb_lt hsize _ _
  rw [Buffered.update]
  split
  next hfill =>
    have hlength : (memcpy buffer (seen.length % size) (input.take (size - seen.length % size))).length = size := by
      rw [length_memcpy, h.length]
      rw [List.length_take, h.length]
      omega
    dsimp only
    rw [← h.update_of_fill hsize hfill.2]
    exact holds_of_memcpy hsize hlength (by omega) (by simp)
  next hfill =>
    have habsorb := h.absorb_append hsize input
    dsimp only
    by_cases hempty : seen.length % size = 0
    · rw [hempty, List.take_zero, List.nil_append] at habsorb
      rw [← habsorb, hempty]
      exact holds_of_memcpy hsize h.length (by omega) (by simp)
    · -- no block is filled, and the piece goes behind what was left
      have hshort : (buffer.take (seen.length % size) ++ input).length < size := by
        rw [List.length_append, List.length_take, h.length]
        omega
      rw [absorb_of_lt hshort] at habsorb
      rw [absorb_of_lt (by omega)]
      have hholds := holds_of_memcpy hsize h.length (by omega) (congrArg Prod.snd habsorb)
      rwa [habsorb] at hholds

end Pieces

end Buffered
