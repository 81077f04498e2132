/-
# Canonical numerals

A numeral is canonical when it has the digits `0` to `9` and `a` to `z` only and no leading
zero, other than in the numeral of zero, which is `0`.  **Every number has exactly one canonical
numeral, and it is the one that is written** (`Numeral.canonical_iff`): digits are written from
the right, by division, so the proofs go by the last digit.
-/

import Interop.Numeral
import Mathlib.Data.List.Basic
import Mathlib.Data.List.Induction
import Mathlib.Tactic.SplitIfs

namespace Interop
namespace Numeral

/-- A digit in base 36. -/
def IsDigit (c : Char) : Prop :=
  ('0' ≤ c ∧ c ≤ '9') ∨ ('a' ≤ c ∧ c ≤ 'z')

/-- The canonical numeral of `n`. -/
structure Canonical (n : Nat) (t : String) : Prop where
  digits : ∀ c ∈ t.toList, IsDigit c
  /-- A leading zero is the whole numeral. -/
  leading : t.toList.head? = some '0' → t = "0"
  value : readBase36 t = some n

/-! ### Single digits -/

/-- The digits of the system are digits. -/
theorem isDigit_digit : ∀ d < 36, IsDigit (digit d) := by
  unfold IsDigit
  decide

/-- A digit has the value that it stands for. -/
theorem digitValue?_digit : ∀ d < 36, digitValue? (digit d) = some d := by
  decide

/-- The digit zero stands for nothing else. -/
theorem digit_eq_zero_iff : ∀ d < 36, digit d = '0' ↔ d = 0 := by
  decide

/-- A character with a value is the digit for it. -/
theorem digit_of_digitValue? {c : Char} {d : Nat} (h : digitValue? c = some d) :
    d < 36 ∧ digit d = c := by
  unfold digitValue? at h
  split_ifs at h with hnum halpha
  · obtain rfl := Option.some.inj h
    have hlow : '0'.toNat ≤ c.toNat := hnum.1
    have hhigh : c.toNat ≤ '9'.toNat := hnum.2
    rw [show '0'.toNat = 48 from rfl] at *
    rw [show '9'.toNat = 57 from rfl] at hhigh
    refine ⟨by omega, ?_⟩
    rw [digit, if_pos (by omega), show '0'.toNat = 48 from rfl, Nat.add_sub_cancel' hlow,
      Char.ofNat_toNat]
  · obtain rfl := Option.some.inj h
    have hlow : 'a'.toNat ≤ c.toNat := halpha.1
    have hhigh : c.toNat ≤ 'z'.toNat := halpha.2
    rw [show 'a'.toNat = 97 from rfl] at *
    rw [show 'z'.toNat = 122 from rfl] at hhigh
    refine ⟨by omega, ?_⟩
    rw [digit, if_neg (by omega), show 'a'.toNat = 97 from rfl, Nat.add_sub_cancel,
      Nat.add_sub_cancel' hlow, Char.ofNat_toNat]

/-! ### What is written -/

/-- A number below the base has one digit. -/
theorem digits_of_lt {n : Nat} (h : n < 36) : digits n = [digit n] := by
  rw [digits, if_pos h]

/-- A number from the base on has the digits of its quotient and one more. -/
theorem digits_of_le {n : Nat} (h : 36 ≤ n) : digits n = digits (n / 36) ++ [digit (n % 36)] := by
  rw [digits, if_neg (by omega)]

/-- A number is written with digits only. -/
theorem isDigit_of_mem (n : Nat) : ∀ c ∈ digits n, IsDigit c := by
  induction n using digits.induct with
  | case1 n hn =>
    rw [digits_of_lt hn]
    intro c hc
    obtain rfl := List.mem_singleton.1 hc
    exact isDigit_digit n hn
  | case2 n hn ih =>
    rw [digits_of_le (by omega)]
    intro c hc
    rcases List.mem_append.1 hc with hc | hc
    · exact ih c hc
    · obtain rfl := List.mem_singleton.1 hc
      exact isDigit_digit _ (Nat.mod_lt n (by omega))

/-- Every number has a digit. -/
theorem digits_ne_nil (n : Nat) : digits n ≠ [] := by
  rw [digits]
  split_ifs <;> simp

/-- The numeral of a number begins with a zero only if the number is zero. -/
theorem eq_zero_of_head? (n : Nat) (h : (digits n).head? = some '0') : n = 0 := by
  induction n using digits.induct with
  | case1 n hn =>
    rw [digits_of_lt hn] at h
    exact (digit_eq_zero_iff n hn).1 (Option.some.inj h)
  | case2 n hn ih =>
    rw [digits_of_le (by omega), List.head?_append_of_ne_nil _ (digits_ne_nil _)] at h
    have := ih h
    omega

/-! ### What is read -/

/-- Digits are read one after the other. -/
theorem readFrom_append (acc : Nat) (cs ds : List Char) :
    readFrom acc (cs ++ ds) = (readFrom acc cs).bind fun n => readFrom n ds := by
  induction cs generalizing acc with
  | nil => rfl
  | cons c cs ih =>
    rw [List.cons_append, readFrom, readFrom]
    rcases digitValue? c with _ | d
    · rfl
    · exact ih (36 * acc + d)

/-- One digit more is read as the last one. -/
theorem readFrom_digit (acc : Nat) {d : Nat} (h : d < 36) :
    readFrom acc [digit d] = some (36 * acc + d) := by
  simp only [readFrom, digitValue?_digit d h]

/-- What is written as the digits of a number is read as that number. -/
theorem readFrom_digits (n : Nat) : readFrom 0 (digits n) = some n := by
  induction n using digits.induct with
  | case1 n hn =>
    rw [digits_of_lt hn, readFrom_digit 0 hn, Nat.mul_zero, Nat.zero_add]
  | case2 n hn ih =>
    rw [digits_of_le (by omega), readFrom_append, ih, Option.bind_some,
      readFrom_digit _ (Nat.mod_lt n (by omega)), Nat.div_add_mod]

/-- A last digit is read after everything else. -/
theorem readFrom_concat {cs : List Char} {c : Char} {n : Nat}
    (h : readFrom 0 (cs ++ [c]) = some n) :
    ∃ q d, readFrom 0 cs = some q ∧ d < 36 ∧ c = digit d ∧ n = 36 * q + d := by
  rw [readFrom_append] at h
  obtain ⟨q, hq, hc⟩ := Option.bind_eq_some_iff.1 h
  simp only [readFrom] at hc
  rcases hd : digitValue? c with _ | d <;> rw [hd] at hc
  · exact absurd hc (by simp)
  · obtain ⟨hlt, hdigit⟩ := digit_of_digitValue? hd
    exact ⟨q, d, hq, hlt, hdigit.symm, (Option.some.inj hc).symm⟩

/-- A numeral without a leading zero is not read as zero. -/
theorem pos_of_head? {cs : List Char} {n : Nat} (hne : cs ≠ []) (hhead : cs.head? ≠ some '0')
    (h : readFrom 0 cs = some n) : 0 < n := by
  induction cs using List.reverseRec generalizing n with
  | nil => exact absurd rfl hne
  | append_singleton cs c ih =>
    obtain ⟨q, d, hq, hd, rfl, rfl⟩ := readFrom_concat h
    rcases eq_or_ne cs [] with rfl | hcs
    · have : d ≠ 0 := fun h0 => hhead (congrArg some ((digit_eq_zero_iff d hd).2 h0))
      omega
    · rw [List.head?_append_of_ne_nil _ hcs] at hhead
      have := ih hcs hhead hq
      omega

/-- A numeral without a leading zero has the digits of the number that is read. -/
theorem eq_digits {cs : List Char} {n : Nat} (hne : cs ≠ [])
    (hhead : cs.head? = some '0' → cs = ['0']) (h : readFrom 0 cs = some n) : cs = digits n := by
  induction cs using List.reverseRec generalizing n with
  | nil => exact absurd rfl hne
  | append_singleton cs c ih =>
    obtain ⟨q, d, hq, hd, rfl, rfl⟩ := readFrom_concat h
    rcases eq_or_ne cs [] with rfl | hcs
    · obtain rfl : 0 = q := Option.some.inj hq
      rw [Nat.mul_zero, Nat.zero_add, digits_of_lt hd, List.nil_append]
    · rw [List.head?_append_of_ne_nil _ hcs] at hhead
      have hnot : cs.head? ≠ some '0' := fun h0 => by
        have hlength := congrArg List.length (hhead h0)
        rw [List.length_append] at hlength
        have := List.length_pos_iff.2 hcs
        simp only [List.length_cons, List.length_nil] at hlength
        omega
      have hpos := pos_of_head? hcs hnot hq
      rw [digits_of_le (by omega), Nat.mul_add_div (by omega), Nat.div_eq_of_lt hd, Nat.add_zero,
        Nat.mul_add_mod, Nat.mod_eq_of_lt hd, ← ih hcs (fun h0 => absurd h0 hnot) hq]

/-! ### Numerals as texts -/

/-- A text that is not empty is read by its digits. -/
theorem readBase36_ofList {cs : List Char} (hne : cs ≠ []) :
    readBase36 (String.ofList cs) = readFrom 0 cs := by
  rw [readBase36, if_neg (by simpa using hne), String.toList_ofList]

/-- A number is written in its canonical form. -/
theorem canonical_base36 (n : Nat) : Canonical n (base36 n) where
  digits := by
    rw [base36, String.toList_ofList]
    exact isDigit_of_mem n
  leading h := by
    rw [base36, String.toList_ofList] at h
    rw [base36, eq_zero_of_head? n h, digits_of_lt (by omega)]
    rfl
  value := by rw [base36, readBase36_ofList (digits_ne_nil n), readFrom_digits]

/-- **Every number has one canonical numeral,** the one that is written for it. -/
theorem canonical_iff {n : Nat} {t : String} : Canonical n t ↔ t = base36 n := by
  refine ⟨fun h => ?_, fun h => h ▸ canonical_base36 n⟩
  have hne : t.toList ≠ [] := fun hnil => by
    have hvalue := h.value
    rw [readBase36, if_pos (by simpa using hnil)] at hvalue
    exact absurd hvalue (by simp)
  have hread : readFrom 0 t.toList = some n := by
    rw [← readBase36_ofList hne, String.ofList_toList]
    exact h.value
  rw [base36, ← eq_digits hne (fun h0 => congrArg String.toList (h.leading h0)) hread, String.ofList_toList]

/-- Different numbers have different numerals. -/
theorem Canonical.eq {n k : Nat} {t : String} (hn : Canonical n t) (hk : Canonical k t) : n = k :=
  Option.some.inj (hn.value.symm.trans hk.value)

/-- The least and the greatest digit, a power of the base, and the greatest number that a signed
word holds. -/
example : base36 0 = "0" ∧ base36 35 = "z" ∧ base36 1296 = "100" ∧
    base36 (2 ^ 63 - 1) = "1y2p0ij32e8e7" := by
  decide +kernel

end Numeral
end Interop
