import Mathlib.Data.Nat.Digits.Lemmas
import Mathlib.Tactic.LinearCombination

/-!
# Numerals in a buffer of fixed size

A numeral is a list of digits, the most significant first. A buffer of digits is changed in place, from its
last digit to its first: it is multiplied, and what is added runs through it as a carry, of which the part
that is left at the front is lost. A conversion from one base to another reads a numeral digit by digit into
a buffer of zeros. Where the buffer has room for the value no carry is lost, and without its leading zeros
it is then the numeral of that value.
-/

namespace Positional

/-- The number that digits stand for. -/
def value (base : ℕ) (digits : List ℕ) : ℕ := Nat.ofDigits base digits.reverse

/-- No digits have the value zero. -/
@[simp]
theorem value_nil (base : ℕ) : value base [] = 0 := rfl

/-- The first digit counts for the highest power. -/
@[simp]
theorem value_cons (base digit : ℕ) (digits : List ℕ) :
    value base (digit :: digits) = digit * base ^ digits.length + value base digits := by
  rw [value, List.reverse_cons, Nat.ofDigits_append, Nat.ofDigits_singleton, List.length_reverse, value]
  ring

/-- One more digit at the end multiplies by the base. -/
@[simp]
theorem value_concat (base digit : ℕ) (digits : List ℕ) :
    value base (digits ++ [digit]) = value base digits * base + digit := by
  rw [value, List.reverse_append, List.reverse_singleton, List.singleton_append, Nat.ofDigits_cons, value]
  ring

/-- Zeros have the value zero. -/
@[simp]
theorem value_replicate_zero (base count : ℕ) : value base (List.replicate count 0) = 0 := by
  rw [value, List.reverse_replicate, Nat.ofDigits_replicate_zero]

/-- Zeros in front do not change a numeral. -/
@[simp]
theorem value_zeros_append (base count : ℕ) (digits : List ℕ) :
    value base (List.replicate count 0 ++ digits) = value base digits := by
  rw [value, List.reverse_append, List.reverse_replicate, Nat.ofDigits_append_replicate_zero, value]

/-- More digits stand for more. -/
theorem value_le_append {base : ℕ} (hbase : 0 < base) (digits more : List ℕ) :
    value base digits ≤ value base (digits ++ more) := by
  induction more using List.reverseRecOn with
  | nil => rw [List.append_nil]
  | append_singleton more digit ih =>
    have hgrow := Nat.le_mul_of_pos_right (value base (digits ++ more)) hbase
    rw [← List.append_assoc, value_concat]
    omega

/-- Only zeros stand for zero. -/
theorem value_eq_zero {base : ℕ} (hbase : 0 < base) {digits : List ℕ} :
    value base digits = 0 ↔ ∀ d ∈ digits, d = 0 := by
  induction digits using List.reverseRecOn with
  | nil => simp
  | append_singleton digits digit ih =>
    have hmul : value base digits * base = 0 ↔ value base digits = 0 := by
      rw [Nat.mul_eq_zero, or_iff_left (by omega)]
    simp only [value_concat, Nat.add_eq_zero_iff, hmul, ih, List.forall_mem_append, List.forall_mem_singleton]

/-- Digits below the base stand for less than the power of their number. -/
theorem value_lt {base : ℕ} (hbase : 1 < base) {digits : List ℕ} (hdigits : ∀ d ∈ digits, d < base) :
    value base digits < base ^ digits.length := by
  have hlt := Nat.ofDigits_lt_base_pow_length hbase
    fun d (hd : d ∈ digits.reverse) => hdigits d (List.mem_reverse.mp hd)
  rwa [List.length_reverse] at hlt

/-- Digits below the base, without the zeros in front, are those of their value. -/
theorem dropWhile_eq_digits {base : ℕ} (hbase : 1 < base) {digits : List ℕ}
    (hdigits : ∀ d ∈ digits, d < base) :
    digits.dropWhile (· = 0) = (Nat.digits base (value base digits)).reverse := by
  induction digits with
  | nil => simp
  | cons digit digits ih =>
    by_cases hzero : digit = 0
    · rw [List.dropWhile_cons_of_pos (by simpa using hzero), value_cons, hzero, zero_mul, zero_add]
      exact ih fun d hd => hdigits d (List.mem_cons_of_mem _ hd)
    · rw [List.dropWhile_cons_of_neg (by simpa using hzero), value,
        Nat.digits_ofDigits base hbase _ (fun d hd => hdigits d (List.mem_reverse.mp hd)),
        List.reverse_reverse]
      intro hnil
      simpa using hzero

/-- Without its last digits a numeral is that of the quotient. -/
theorem digits_drop {base : ℕ} (hbase : 1 < base) (count n : ℕ) :
    (Nat.digits base n).drop count = Nat.digits base (n / base ^ count) := by
  induction count generalizing n with
  | zero => simp
  | succ count ih =>
    by_cases hzero : n = 0
    · simp [hzero]
    · rw [Nat.digits_def' hbase (by omega), List.drop_succ_cons, ih, Nat.div_div_eq_div_mul, pow_succ']

/-- The numeral of a quotient stands in front of the numeral. -/
theorem digits_div_prefix {base : ℕ} (hbase : 1 < base) (count n : ℕ) :
    (Nat.digits base (n / base ^ count)).reverse <+: (Nat.digits base n).reverse := by
  rw [List.reverse_prefix, ← digits_drop hbase]
  exact List.drop_suffix count _

/-- One pass over a buffer, from its last digit to its first: it is multiplied, and the carry is added. -/
def mulAdd (base factor : ℕ) : List ℕ → ℕ → List ℕ × ℕ
  | [], carry => ([], carry)
  | digit :: rest, carry =>
    let (rest, carry) := mulAdd base factor rest carry
    ((digit * factor + carry) % base :: rest, (digit * factor + carry) / base)

variable {base factor : ℕ}

/-- One step keeps the length of the buffer. -/
@[simp]
theorem length_mulAdd (buffer : List ℕ) (carry : ℕ) :
    (mulAdd base factor buffer carry).1.length = buffer.length := by
  induction buffer with
  | nil => rfl
  | cons digit rest ih => simp [mulAdd, ih]

/-- What a pass leaves in the buffer is below the base. -/
theorem mulAdd_lt (hbase : 0 < base) (buffer : List ℕ) (carry : ℕ) :
    ∀ d ∈ (mulAdd base factor buffer carry).1, d < base := by
  induction buffer with
  | nil => simp [mulAdd]
  | cons digit rest ih =>
    intro d hd
    rw [mulAdd, List.mem_cons] at hd
    cases hd with
    | inl heq => exact heq ▸ Nat.mod_lt _ hbase
    | inr hmem => exact ih d hmem

/-- A pass multiplies and adds, with what is lost in front. -/
theorem mulAdd_value (buffer : List ℕ) (carry : ℕ) :
    (mulAdd base factor buffer carry).2 * base ^ buffer.length +
        value base (mulAdd base factor buffer carry).1 =
      value base buffer * factor + carry := by
  induction buffer with
  | nil => simp [mulAdd]
  | cons digit rest ih =>
    have hdiv := Nat.div_add_mod (digit * factor + (mulAdd base factor rest carry).2) base
    simp only [mulAdd, value_cons, length_mulAdd, List.length_cons]
    rw [pow_succ]
    linear_combination base ^ rest.length * hdiv + ih

/-- Where the product fits, nothing is lost. -/
theorem mulAdd_carry {buffer : List ℕ} {carry : ℕ}
    (hfits : value base buffer * factor + carry < base ^ buffer.length) :
    (mulAdd base factor buffer carry).2 = 0 := by
  have hvalue := @mulAdd_value base factor buffer carry
  by_contra hne
  have := Nat.le_mul_of_pos_left (base ^ buffer.length) (Nat.pos_of_ne_zero hne)
  omega

/-- Digits are read into a buffer, one pass for each; what a pass leaves as its carry is dropped. -/
def convert (base factor : ℕ) (buffer digits : List ℕ) : List ℕ :=
  digits.foldl (fun buffer digit => (mulAdd base factor buffer digit).1) buffer

/-- The last digit is worked in last. -/
@[simp]
theorem convert_concat (buffer digits : List ℕ) (digit : ℕ) :
    convert base factor buffer (digits ++ [digit]) =
      (mulAdd base factor (convert base factor buffer digits) digit).1 := by
  rw [convert, List.foldl_append, List.foldl_cons, List.foldl_nil, convert]

/-- The conversion keeps the length of the buffer. -/
@[simp]
theorem length_convert (buffer digits : List ℕ) :
    (convert base factor buffer digits).length = buffer.length := by
  induction digits using List.reverseRecOn with
  | nil => rfl
  | append_singleton digits digit ih => rw [convert_concat, length_mulAdd, ih]

/-- A buffer below the base stays below it. -/
theorem convert_lt (hbase : 0 < base) {buffer : List ℕ} (hbuffer : ∀ d ∈ buffer, d < base)
    (digits : List ℕ) : ∀ d ∈ convert base factor buffer digits, d < base := by
  induction digits using List.reverseRecOn with
  | nil => exact hbuffer
  | append_singleton digits digit _ =>
    rw [convert_concat]
    exact mulAdd_lt hbase _ _

/-- No pass of a conversion loses a carry. -/
def Keeps (base factor : ℕ) (buffer digits : List ℕ) : Prop :=
  ∀ done digit rest, digits = done ++ digit :: rest →
    (mulAdd base factor (convert base factor buffer done) digit).2 = 0

/-- The passes for the digits that things stand for. -/
theorem keeps_map_iff {α : Type} {f : α → ℕ} {buffer : List ℕ} {xs : List α} :
    Keeps base factor buffer (xs.map f) ↔ ∀ done x rest, xs = done ++ x :: rest →
      (mulAdd base factor (convert base factor buffer (done.map f)) (f x)).2 = 0 := by
  constructor
  · intro h done x rest hxs
    exact h (done.map f) (f x) (rest.map f) (by rw [hxs, List.map_append, List.map_cons])
  · intro h done digit rest hdigits
    obtain ⟨before, after, rfl, rfl, hafter⟩ := List.map_eq_append_iff.mp hdigits
    obtain ⟨x, rest', rfl, rfl, rfl⟩ := List.map_eq_cons_iff.mp hafter
    exact h before x rest' rfl

/-- What holds of a numeral holds of it without its last digit. -/
theorem Keeps.init {buffer digits : List ℕ} {digit : ℕ}
    (h : Keeps base factor buffer (digits ++ [digit])) : Keeps base factor buffer digits := by
  intro done d rest hdigits
  exact h done d (rest ++ [digit]) (by rw [hdigits, List.append_assoc, List.cons_append])

/-- Where no carry is lost the buffer holds the value in the end. -/
theorem Keeps.value_eq {size : ℕ} {digits : List ℕ}
    (h : Keeps base factor (List.replicate size 0) digits) :
    value base (convert base factor (List.replicate size 0) digits) = value factor digits := by
  induction digits using List.reverseRecOn with
  | nil => exact value_replicate_zero base size
  | append_singleton digits digit ih =>
    have hpass := @mulAdd_value base factor (convert base factor (List.replicate size 0) digits) digit
    rw [h digits digit [] rfl, ih h.init] at hpass
    rw [convert_concat, value_concat]
    omega

/-- In every case it holds what is left of the value there. -/
theorem convert_mod (hbase : 1 < base) (size : ℕ) (digits : List ℕ) :
    value base (convert base factor (List.replicate size 0) digits) = value factor digits % base ^ size := by
  induction digits using List.reverseRecOn with
  | nil => simp [convert]
  | append_singleton digits digit ih =>
    have hpass := @mulAdd_value base factor (convert base factor (List.replicate size 0) digits) digit
    have hdigits := @mulAdd_lt base factor (by omega) (convert base factor (List.replicate size 0) digits) digit
    have hlt := value_lt hbase hdigits
    rw [length_mulAdd, length_convert, List.length_replicate] at hlt
    rw [length_convert, List.length_replicate, ih] at hpass
    rw [convert_concat, value_concat, ← Nat.mod_eq_of_lt hlt]
    calc value base (mulAdd base factor (convert base factor (List.replicate size 0) digits) digit).1 % base ^ size
        = (value factor digits % base ^ size * factor + digit) % base ^ size := by
          rw [← hpass, mul_comm, Nat.mul_add_mod]
      _ = (value factor digits * factor + digit) % base ^ size := by
          rw [Nat.add_mod, Nat.mod_mul_mod, ← Nat.add_mod]

/-- Without the zeros in front, the buffer is the numeral of what it holds. -/
theorem convert_dropWhile (hbase : 1 < base) (size : ℕ) (digits : List ℕ) :
    (convert base factor (List.replicate size 0) digits).dropWhile (· = 0) =
      (Nat.digits base (value base (convert base factor (List.replicate size 0) digits))).reverse := by
  apply dropWhile_eq_digits hbase
  apply convert_lt (by omega)
  intro d hd
  rw [List.eq_of_mem_replicate hd]
  omega

section Fits

variable {size : ℕ} {digits : List ℕ}

/-- A buffer with room for the value holds it in the end. -/
theorem convert_value (hbase : 1 < base) (hfits : value factor digits < base ^ size) :
    value base (convert base factor (List.replicate size 0) digits) = value factor digits := by
  rw [convert_mod hbase, Nat.mod_eq_of_lt hfits]

/-- A buffer with room for the value loses no carry on the way to it. -/
theorem keeps_of_lt (hbase : 1 < base) (hfactor : 0 < factor) (hfits : value factor digits < base ^ size) :
    Keeps base factor (List.replicate size 0) digits := by
  intro done digit rest hdigits
  rw [hdigits, List.append_cons] at hfits
  have hstep := (value_le_append hfactor (done ++ [digit]) rest).trans_lt hfits
  have hvalue := convert_value hbase ((value_le_append hfactor done [digit]).trans_lt hstep)
  rw [value_concat] at hstep
  apply mulAdd_carry
  rwa [hvalue, length_convert, List.length_replicate]

end Fits

end Positional
