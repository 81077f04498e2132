/-
# Numbers of 53 binary digits

A whole number is short if 53 binary digits and zeros after them are enough to write it.  Any
other number is rounded (`nearest`): its digits from the 54th on are cut off, or one is added to
the 53 that stay, whichever changes less, and halfway the last one becomes even.  **The result**
is short, no short number is nearer (`short_nearest`, `nearest_closest`), and numbers up to
`2 ^ 53` stay as they are (`nearestInt_of_le`).
-/

import Mathlib.Algebra.Order.Group.Abs
import Mathlib.Data.Nat.Log
import Mathlib.Tactic.NormNum.Basic
import Mathlib.Tactic.Ring

namespace Interop
namespace Binary64

/-- How often `2 ^ k` goes into `n`, rounded to the nearest and halfway to the even one. -/
def quotient (k n : Nat) : Nat :=
  if 2 * (n % 2 ^ k) < 2 ^ k then n / 2 ^ k
  else if 2 * (n % 2 ^ k) = 2 ^ k then n / 2 ^ k + n / 2 ^ k % 2
  else n / 2 ^ k + 1

/-- The number of binary digits beyond the first 53. -/
def excess (n : Nat) : Nat :=
  n.log2 - 52

/-- The nearest number with 53 binary digits. -/
def nearest (n : Nat) : Nat :=
  quotient (excess n) n * 2 ^ excess n

/-- The nearest number of the same sign. -/
def nearestInt (a : Int) : Int :=
  a.sign * nearest a.natAbs

/-- Exactly 53 binary digits. -/
structure Full (m : Nat) : Prop where
  ge : 2 ^ 52 ≤ m
  lt : m < 2 ^ 53

/-- At most 53 binary digits, apart from zeros at the end. -/
def Short (v : Nat) : Prop :=
  ∃ m j, m < 2 ^ 53 ∧ v = m * 2 ^ j

variable {k j m n v : Nat}

/-! ### Counting digits -/

/-- A power of two adds its exponent to the binary length. -/
theorem log2_mul_pow (hn : n ≠ 0) (j : Nat) : (n * 2 ^ j).log2 = n.log2 + j := by
  have hpos : 0 < 2 ^ j := Nat.two_pow_pos j
  rw [Nat.log2_eq_iff (Nat.mul_ne_zero hn hpos.ne'), pow_add, add_right_comm, pow_add]
  exact ⟨Nat.mul_le_mul_right _ (Nat.log2_self_le hn),
    (Nat.mul_lt_mul_right hpos).2 Nat.lt_log2_self⟩

/-- A mantissa is full when its highest bit is the fifty-third. -/
theorem full_iff (hm : m ≠ 0) : Full m ↔ m.log2 = 52 := by
  rw [Nat.log2_eq_iff hm]
  exact ⟨fun h => ⟨h.ge, h.lt⟩, fun h => ⟨h.1, h.2⟩⟩

/-- Below `2 ^ 53` no digit is in excess. -/
theorem excess_of_lt (h : n < 2 ^ 53) : excess n = 0 := by
  rcases eq_or_ne n 0 with rfl | hn
  · rfl
  · have := (Nat.log2_lt hn).2 h
    rw [excess]
    omega

/-- The digits in excess are those after the fifty-third. -/
theorem log2_of_le (h : 2 ^ 52 ≤ n) : n.log2 = 52 + excess n := by
  have := (Nat.le_log2 (by omega)).2 h
  rw [excess]
  omega

/-- The first 53 digits. -/
theorem full_div (h : 2 ^ 52 ≤ n) : Full (n / 2 ^ excess n) := by
  have hpos : 0 < 2 ^ excess n := Nat.two_pow_pos _
  constructor
  · rw [Nat.le_div_iff_mul_le hpos, ← pow_add, ← log2_of_le h]
    exact Nat.log2_self_le (by omega)
  · have hlog := log2_of_le h
    rw [Nat.div_lt_iff_lt_mul hpos, ← pow_add, show 53 + excess n = n.log2 + 1 by omega]
    exact Nat.lt_log2_self

/-! ### Rounding -/

/-- Without digits in excess there is nothing to round. -/
theorem quotient_zero (n : Nat) : quotient 0 n = n := by
  simp [quotient, Nat.mod_one]

/-- Zeros at the end are cut off before anything is rounded. -/
theorem quotient_mul_pow (k j n : Nat) : quotient (k + j) (n * 2 ^ j) = quotient k n := by
  have hpos : 0 < 2 ^ j := Nat.two_pow_pos j
  have hdiv : n * 2 ^ j / 2 ^ (k + j) = n / 2 ^ k := by
    rw [pow_add, Nat.mul_div_mul_right _ _ hpos]
  have hmod : n * 2 ^ j % 2 ^ (k + j) = n % 2 ^ k * 2 ^ j := by
    rw [pow_add, Nat.mul_mod_mul_right]
  have hlt : 2 * (n % 2 ^ k * 2 ^ j) < 2 ^ (k + j) ↔ 2 * (n % 2 ^ k) < 2 ^ k := by
    rw [pow_add, ← mul_assoc, Nat.mul_lt_mul_right hpos]
  have heq : 2 * (n % 2 ^ k * 2 ^ j) = 2 ^ (k + j) ↔ 2 * (n % 2 ^ k) = 2 ^ k := by
    rw [pow_add, ← mul_assoc, Nat.mul_left_inj hpos.ne']
  simp only [quotient, hdiv, hmod, hlt, heq]

/-- Rounding adds one at most. -/
theorem quotient_bounds (k n : Nat) :
    n / 2 ^ k ≤ quotient k n ∧ quotient k n ≤ n / 2 ^ k + 1 := by
  have hmod := Nat.mod_lt (n / 2 ^ k) Nat.two_pos
  unfold quotient
  split_ifs <;> omega

/-- The digits that stay are 53, or one more came out and all but the first are zeros. -/
theorem quotient_excess (h : 2 ^ 52 ≤ n) :
    Full (quotient (excess n) n) ∨ quotient (excess n) n = 2 ^ 53 := by
  obtain ⟨hge, hlt⟩ := full_div h
  obtain ⟨hlow, hhigh⟩ := quotient_bounds (excess n) n
  rcases (show quotient (excess n) n ≤ 2 ^ 53 by omega).lt_or_eq with h | h
  · exact .inl ⟨hge.trans hlow, h⟩
  · exact .inr h

/-- Rounding commutes with a power of two. -/
theorem nearest_mul_pow (h : 2 ^ 52 ≤ n) (j : Nat) : nearest (n * 2 ^ j) = nearest n * 2 ^ j := by
  have hexcess : excess (n * 2 ^ j) = excess n + j := by
    rw [excess, log2_mul_pow (by omega), log2_of_le h]
    omega
  rw [nearest, hexcess, quotient_mul_pow, pow_add, nearest, mul_assoc]

/-! ### The nearest number -/

/-- What is cut off, and what is missing from one unit more, bound how far off rounding is. -/
theorem quotient_dist (k n : Nat) :
    |(n : Int) - (quotient k n * 2 ^ k : Nat)| ≤ (n % 2 ^ k : Nat) ∧
      |(n : Int) - (quotient k n * 2 ^ k : Nat)| ≤ (2 ^ k : Nat) - (n % 2 ^ k : Nat) := by
  have hsplit : n / 2 ^ k * 2 ^ k + n % 2 ^ k = n := Nat.div_add_mod' n (2 ^ k)
  have hlt : n % 2 ^ k < 2 ^ k := Nat.mod_lt n (Nat.two_pow_pos k)
  have hnext : (n / 2 ^ k + 1) * 2 ^ k = n / 2 ^ k * 2 ^ k + 2 ^ k := Nat.succ_mul _ _
  rw [abs_le, abs_le]
  unfold quotient
  split_ifs with hbelow hhalf
  · omega
  · -- Halfway either neighbour is as far off as the other.
    rcases Nat.mod_two_eq_zero_or_one (n / 2 ^ k) with heven | hodd
    · rw [heven, add_zero]
      omega
    · rw [hodd, hnext]
      omega
  · rw [hnext]
    omega

/-- A short number lies at or below what is left of `n` when digits are cut off, or at least one
unit above. -/
theorem Short.aside (hv : Short v) (n : Nat) : v ≤ n / 2 ^ excess n * 2 ^ excess n ∨
    n / 2 ^ excess n * 2 ^ excess n + 2 ^ excess n ≤ v := by
  obtain ⟨m, j, hm, rfl⟩ := hv
  rcases le_or_gt (excess n) j with hle | hlt
  · -- Both are multiples of the unit.
    have hmultiple : m * 2 ^ j = m * 2 ^ (j - excess n) * 2 ^ excess n := by
      rw [mul_assoc, ← pow_add, Nat.sub_add_cancel hle]
    rw [hmultiple, ← Nat.succ_mul]
    rcases le_or_gt (m * 2 ^ (j - excess n)) (n / 2 ^ excess n) with h | h
    · exact .inl (Nat.mul_le_mul_right _ h)
    · exact .inr (Nat.mul_le_mul_right _ h)
  · -- The short number has fewer digits.
    have hn : 2 ^ 52 ≤ n := by
      by_contra hlow
      rw [excess_of_lt (by omega)] at hlt
      exact Nat.not_lt_zero j hlt
    left
    calc m * 2 ^ j ≤ 2 ^ 53 * 2 ^ j := Nat.mul_le_mul_right _ hm.le
      _ = 2 ^ 52 * 2 ^ (j + 1) := by rw [pow_succ 2 j]; ring
      _ ≤ n / 2 ^ excess n * 2 ^ excess n :=
        Nat.mul_le_mul (full_div hn).ge (Nat.pow_le_pow_right Nat.two_pos hlt)

/-- **No short number is nearer** than the nearest one. -/
theorem nearest_closest (hv : Short v) : |(n : Int) - nearest n| ≤ |(n : Int) - v| := by
  obtain ⟨hdown, hup⟩ := quotient_dist (excess n) n
  have hsplit : n / 2 ^ excess n * 2 ^ excess n + n % 2 ^ excess n = n :=
    Nat.div_add_mod' n (2 ^ excess n)
  rcases hv.aside n with hbelow | habove
  · refine hdown.trans (le_trans ?_ (le_abs_self _))
    omega
  · refine hup.trans (le_trans ?_ (neg_le_abs _))
    omega

/-- Numbers up to `2 ^ 53` are short. -/
theorem short_of_le (h : v ≤ 2 ^ 53) : Short v := by
  rcases h.lt_or_eq with hlt | rfl
  · exact ⟨v, 0, hlt, (mul_one v).symm⟩
  · exact ⟨1, 53, by decide, (one_mul _).symm⟩

/-- A short number is its own nearest. -/
theorem nearest_of_short (h : Short n) : nearest n = n := by
  have hzero := nearest_closest (n := n) h
  rw [sub_self, abs_zero, abs_nonpos_iff] at hzero
  omega

/-- The nearest number is short itself. -/
theorem short_nearest (n : Nat) : Short (nearest n) := by
  rcases le_or_gt n (2 ^ 53) with hle | hlt
  · rw [nearest_of_short (short_of_le hle)]
    exact short_of_le hle
  · have hdigits : quotient (excess n) n ≤ 2 ^ 53 :=
      (quotient_excess (by omega)).elim (fun h => h.lt.le) (fun h => h.le)
    obtain ⟨m, j, hm, heq⟩ := short_of_le hdigits
    exact ⟨m, j + excess n, hm, by rw [nearest, heq, mul_assoc, pow_add]⟩

/-- A whole number up to `2 ^ 53` is its own nearest. -/
theorem nearestInt_of_le {a : Int} (h : a.natAbs ≤ 2 ^ 53) : nearestInt a = a := by
  rw [nearestInt, nearest_of_short (short_of_le h), Int.sign_mul_natAbs]

/-- The first number that is not short, halfway between two that are. -/
example : nearestInt (-(2 ^ 53 + 1)) = -2 ^ 53 := by decide +kernel

end Binary64
end Interop
