/-
# Whole numbers as floats

Lean says what floats are by a model that rounds with a round bit and a sticky bit.  They tell
how what was cut off compares with one half (`Cut`), so the model rounds to the nearest number
(`round_nearest`); packing the digits loses nothing (`unpack_pack`).  **A float made from an
integer** therefore stands for the nearest one (`holds_ofInt`), and two such floats are equal
exactly when the numbers nearest to the two integers are the same (`ofInt_beq`).

A float is said to stand for a number (`Holds`) when its unpacked form is a zero or has all its
53 digits.  The very small floats, which have fewer, never come from whole numbers.
-/

import Interop.Proofs.Number.Nearest
import Mathlib

namespace Interop
namespace Binary64

open Float.Model (Format UnpackedFloat totalExponent)
open Float.Model.UnpackedFloat

/-! ### Cutting digits off -/

/-- The last `k` digits of `n` were cut off, and the two bits tell how they compare with one
half. -/
structure Cut (k n : Nat) (em : ExtendedMantissa) : Prop where
  mantissa_eq : em.mantissa = n / 2 ^ k
  round_iff : em.roundBit = true ↔ 2 ^ k ≤ 2 * (n % 2 ^ k)
  sticky_iff : em.stickyBit = true ↔ 2 * (n % 2 ^ k) ≠ 0 ∧ 2 * (n % 2 ^ k) ≠ 2 ^ k

namespace Cut

variable {k n : Nat} {em : ExtendedMantissa}

/-- One digit more is cut off. -/
theorem step (h : Cut k n em) : Cut (k + 1) n em.shiftRightOne := by
  have hmod : n % 2 ^ (k + 1) = n % 2 ^ k + 2 ^ k * (n / 2 ^ k % 2) := Nat.mod_pow_succ
  have hlt := Nat.mod_lt n (Nat.two_pow_pos k)
  have hbit : n / 2 ^ k % 2 = 0 ∨ n / 2 ^ k % 2 = 1 := Nat.mod_two_eq_zero_or_one _
  constructor
  case mantissa_eq =>
    show em.mantissa / 2 = _
    rw [h.mantissa_eq, Nat.div_div_eq_div_mul, pow_succ]
  case round_iff =>
    show (em.mantissa % 2 != 0) = true ↔ _
    rw [h.mantissa_eq, bne_iff_ne, hmod, pow_succ]
    rcases hbit with hbit | hbit <;> rw [hbit] <;> omega
  case sticky_iff =>
    show (em.roundBit || em.stickyBit) = true ↔ _
    rw [Bool.or_eq_true, h.round_iff, h.sticky_iff, hmod, pow_succ]
    rcases hbit with hbit | hbit <;> rw [hbit] <;> omega

/-- Digits are cut off one by one. -/
theorem shift (n k : Nat) : Cut k n (ExtendedMantissa.mk n false false >>> k) := by
  induction k with
  | zero =>
    refine ⟨(Nat.div_one n).symm, ?_, ?_⟩
    · show false = true ↔ _
      simp [Nat.mod_one]
    · show false = true ↔ _
      simp [Nat.mod_one]
  | succ k ih => exact ih.step

/-- The two bits are enough to round. -/
theorem roundedMantissa_eq (h : Cut k n em) : em.roundedMantissa = quotient k n := by
  obtain ⟨mantissa, round, sticky⟩ := em
  obtain rfl := h.mantissa_eq
  have hround := h.round_iff
  have hsticky := h.sticky_iff
  cases round with
  | false =>
    have hbelow : 2 * (n % 2 ^ k) < 2 ^ k := by simpa using hround
    rw [quotient, if_pos hbelow]
    cases sticky <;> rfl
  | true =>
    rw [quotient, if_neg (not_lt.2 (hround.1 rfl))]
    cases sticky with
    | false =>
      have hhalf : 2 * (n % 2 ^ k) = 2 ^ k := by
        by_contra hne
        have hpos := Nat.two_pow_pos k
        have habove := hround.1 rfl
        exact absurd (hsticky.2 ⟨by omega, hne⟩) (by simp)
      rw [if_pos hhalf]
      rfl
    | true =>
      rw [if_neg (hsticky.1 rfl).2]
      rfl

end Cut

/-! ### Numbers that unpacked floats stand for -/

/-- The factor that a sign stands for. -/
def factor : Sign → ℚ
  | .positive => 1
  | .negative => -1

/-- The number that an unpacked float stands for. -/
def value : UnpackedFloat → ℚ
  | .finite s m e _ => factor s * (m * 2 ^ e)
  | _ => 0

/-- A zero, or a number with all its digits whose exponent can be packed. -/
def Normal : UnpackedFloat → Prop
  | .zero _ => True
  | .finite _ m e _ => Full m ∧ -1074 ≤ e ∧ e ≤ 971
  | _ => False

/-- The opposite sign has the opposite factor. -/
theorem factor_neg (s : Sign) : factor (-s) = -factor s := by
  cases s
  · exact (neg_neg _).symm
  · rfl

/-! ### Rounding -/

variable {m n : Nat} {e : Int}

/-- The exponent that a number of 53 or more digits gets. -/
theorem targetExponent_eq (hm : 2 ^ 52 ≤ m) (he : -1074 ≤ e) :
    Format.binary64.targetExponent (totalExponent m e) = e + excess m := by
  show max ((m.log2 : Int) + 1 + e - 53) (-1074) = _
  rw [log2_of_le hm]
  omega

/-- A mantissa that is too long is cut to the digits that fit. -/
theorem shiftToTargetExponent_eq (hm : 2 ^ 52 ≤ m) (he : -1074 ≤ e) :
    shiftToTargetExponent .binary64 m e .exact =
      (ExtendedMantissa.mk m false false >>> excess m, e + excess m) := by
  rw [shiftToTargetExponent, targetExponent_eq hm he, shiftToExponent,
    show (e + excess m - e).toNat = excess m by omega]
  rfl

/-- The model rounds, and then it cuts off a digit if one more came out. -/
theorem roundWithAccuracy_eq (s : Sign) (hm : 2 ^ 52 ≤ m) (he : -1074 ≤ e) {q d : Nat}
    (hq : quotient (excess m) m = q) (hfull : 2 ^ 52 ≤ q) (hdigits : q / 2 ^ excess q = d)
    (hd : 0 < d) : roundWithAccuracy .binary64 s m e .exact =
      .finite s d (e + excess m + excess q) hd := by
  have hsecond := shiftToTargetExponent_eq hfull (e := e + excess m) (by omega)
  subst hdigits
  simp only [roundWithAccuracy, shiftToTargetExponent_eq hm he,
    (Cut.shift m (excess m)).roundedMantissa_eq, hq, hsecond, (Cut.shift _ _).mantissa_eq, hd.ne',
    dif_neg, not_false_eq_true]

/-- A number that has all its digits stays as it is. -/
theorem round_exact (s : Sign) (hm : Full m) (hpos : 0 < m) (he : -1074 ≤ e) :
    roundWithAccuracy .binary64 s m e .exact = .finite s m e hpos := by
  have hexcess := excess_of_lt hm.lt
  rw [roundWithAccuracy_eq s hm.ge he (q := m) (by rw [hexcess, quotient_zero]) hm.ge
    (by rw [hexcess, pow_zero, Nat.div_one]) hpos]
  simp only [hexcess, Nat.cast_zero, add_zero]

/-- **The model rounds to the nearest,** whatever the digits are worth. -/
theorem round_nearest (s : Sign) (hm : 2 ^ 52 ≤ m) (he : -1074 ≤ e) (hhigh : e + excess m ≤ 970) :
    Normal (roundWithAccuracy .binary64 s m e .exact) ∧
      value (roundWithAccuracy .binary64 s m e .exact) = factor s * (nearest m * 2 ^ e) := by
  have hvalue : (nearest m : ℚ) * 2 ^ e = quotient (excess m) m * 2 ^ (e + excess m) := by
    rw [zpow_add₀ two_ne_zero, zpow_natCast, nearest]
    push_cast
    ring
  rcases quotient_excess hm with hfull | hmore
  · have hexcess := excess_of_lt hfull.lt
    rw [roundWithAccuracy_eq s hm he rfl hfull.ge (by rw [hexcess, pow_zero, Nat.div_one])
      (by have := hfull.ge; omega), hvalue, hexcess, Nat.cast_zero, add_zero]
    exact ⟨⟨hfull, by omega, by omega⟩, rfl⟩
  · have hexcess : excess (2 ^ 53) = 1 := by rw [excess, Nat.log2_two_pow]
    rw [roundWithAccuracy_eq s hm he hmore (by decide) (d := 2 ^ 52) (by rw [hexcess]; rfl)
      (by decide), hvalue, hmore, hexcess]
    refine ⟨⟨⟨le_rfl, by decide⟩, by omega, by omega⟩, ?_⟩
    rw [value, Nat.cast_one, zpow_add_one₀ two_ne_zero]
    push_cast
    ring

/-! ### Packing -/

/-- The digit that is not stored comes back. -/
theorem toNat_one_append (hm : Full m) : (1#1 ++ BitVec.ofNat 52 m).toNat = m := by
  have hge := hm.ge
  have hlt := hm.lt
  have happend : (1#1 ++ BitVec.ofNat 52 m).toNat = 2 ^ 52 + (BitVec.ofNat 52 m).toNat := by
    rw [BitVec.toNat_append, ← Nat.shiftLeft_add_eq_or_of_lt (BitVec.ofNat 52 m).isLt]
    rfl
  rw [happend, BitVec.toNat_ofNat]
  omega

/-- A normal number is packed by its sign, exponent and mantissa. -/
theorem pack_finite {s : Sign} {hpos : 0 < m} (h : Normal (.finite s m e hpos)) :
    pack .binary64 (.finite s m e hpos) =
      packComponents .binary64 s (BitVec.ofNat 11 (e + 1075).toNat) (BitVec.ofNat 52 m) := by
  obtain ⟨hfull, -, hhigh⟩ := h
  have hlog : m.log2 + 1 = 53 := by rw [(full_iff hpos.ne').1 hfull]
  have hfinite : ¬ 2 ^ 11 ≤ (e + 1023 + 52).toNat + 1 := by omega
  show (if 2 ^ 11 ≤ (e + 1023 + 52).toNat + 1 then _ else if m.log2 + 1 = 53 then _ else _) = _
  rw [if_neg hfinite, if_pos hlog, add_assoc]
  rfl

/-- **Packing loses nothing.** -/
theorem unpack_pack {u : UnpackedFloat} (h : Normal u) : (Float.Model.pack u).unpack = u := by
  cases u with
  | infinity s => exact h.elim
  | notANumber => exact h.elim
  | zero s => exact unpack_packedZero
  | finite s m e hpos =>
    show unpack .binary64 (pack .binary64 (.finite s m e hpos)) = _
    rw [pack_finite h]
    obtain ⟨hfull, hlow, hhigh⟩ := h
    have hexponent : (BitVec.ofNat 11 (e + 1075).toNat).toNat = (e + 1075).toNat := by
      rw [BitVec.toNat_ofNat, Nat.mod_eq_of_lt (by omega)]
    -- The exponent is neither the one of small numbers nor the one of infinity.
    have hzero : BitVec.ofNat 11 (e + 1075).toNat ≠ 0#11 := by
      intro heq
      have : (e + 1075).toNat = 0 := hexponent.symm.trans (congrArg BitVec.toNat heq)
      omega
    have hones : BitVec.ofNat 11 (e + 1075).toNat ≠ -1#11 := by
      intro heq
      have : (e + 1075).toNat = 2047 := hexponent.symm.trans (congrArg BitVec.toNat heq)
      omega
    simp only [unpack, unpackMantissa_packComponents, unpackExponent_packComponents,
      unpackSign_packComponents, Sign.ofBitVec_toBitVec, if_neg hzero, if_neg hones,
      toNat_one_append hfull, hexponent]
    congr 1
    show ((e + 1075).toNat : Int) - (1023 + 52) = e
    omega

/-! ### Floats made from whole numbers -/

/-- The float stands for the number. -/
structure Holds (f : Float) (q : ℚ) : Prop where
  normal : Normal f.toModel.unpack
  value_eq : value f.toModel.unpack = q

variable {f g : Float} {q r : ℚ}

/-- A normal number that is packed holds its value. -/
theorem Holds.of_pack {u : UnpackedFloat} (h : Normal u) :
    Holds (Float.ofModel (Float.Model.pack u)) (value u) := by
  have hunpack : (Float.ofModel (Float.Model.pack u)).toModel.unpack = u := unpack_pack h
  exact ⟨hunpack.symm ▸ h, by rw [hunpack]⟩

/-- The negative of a float holds the negative of its value. -/
theorem Holds.neg (h : Holds f q) : Holds f.neg (-q) := by
  obtain ⟨hnormal, rfl⟩ := h
  have hneg : Normal f.toModel.unpack.neg ∧
      value f.toModel.unpack.neg = -value f.toModel.unpack := by
    cases hf : f.toModel.unpack with
    | finite s m e hpos =>
      rw [hf] at hnormal
      refine ⟨hnormal, ?_⟩
      rw [UnpackedFloat.neg, value, value, factor_neg, neg_mul]
    | zero s => exact ⟨trivial, neg_zero.symm⟩
    | _ => exact absurd hnormal (by simp [hf, Normal])
  rw [← hneg.2]
  exact .of_pack hneg.1

/-- One, as a float. -/
theorem unpack_one : (Float.ofBits 0x3FF0000000000000).toModel.unpack =
    .finite .positive (2 ^ 52) (-52) (by decide) := by
  rfl

/-- Multiplying by one gives more digits, which are rounded to what they were. -/
theorem holds_mul_one {hpos : 0 < m} (hf : f.toModel.unpack = .finite .positive m e hpos)
    (hm : Full m) (he : -1022 ≤ e) (he' : e ≤ 970) :
    Holds (f * Float.ofBits 0x3FF0000000000000) (m * 2 ^ e) := by
  have hnearest : nearest (m * 2 ^ 52) = m * 2 ^ 52 := by
    rw [nearest_mul_pow hm.ge, nearest_of_short (short_of_le hm.lt.le)]
  have hexcess : excess (m * 2 ^ 52) = 52 := by
    rw [excess, log2_mul_pow hpos.ne', (full_iff hpos.ne').1 hm]
  obtain ⟨hnormal, hvalue⟩ := round_nearest (m := m * 2 ^ 52) (e := e + -52) .positive
    (Nat.le_mul_of_pos_left _ hpos) (by omega) (by omega)
  have hmul : f * Float.ofBits 0x3FF0000000000000 = Float.ofModel (Float.Model.pack
      (roundWithAccuracy .binary64 .positive (m * 2 ^ 52) (e + -52) .exact)) := by
    show Float.ofModel (Float.Model.pack (mul .binary64 f.toModel.unpack
      (Float.ofBits 0x3FF0000000000000).toModel.unpack)) = _
    rw [hf, unpack_one]
    rfl
  have hsame : factor .positive * (nearest (m * 2 ^ 52) * 2 ^ (e + -52)) = (m : ℚ) * 2 ^ e := by
    rw [hnearest, factor, zpow_add₀ two_ne_zero]
    push_cast
    ring
  rw [hmul, ← hsame, ← hvalue]
  exact .of_pack hnormal

/-- A number below `2 ^ 53` is converted by way of a machine word. -/
theorem ofNat_small (h : n < 2 ^ 53) : Float.ofNat n =
    n.toUInt64.toFloat * Float.ofBits 0x3FF0000000000000 := by
  unfold Float.ofNat
  show Float.ofScientific n false 0 = _
  rw [Float.ofScientific, dif_pos ⟨h, Nat.zero_le _⟩]
  rfl

/-- A number from `2 ^ 53` on is rounded as a mantissa. -/
theorem ofNat_large (h : 2 ^ 53 ≤ n) : Float.ofNat n = Float.ofModel (Float.Model.pack
    (roundWithAccuracy .binary64 .positive (n * 2 ^ 53) (-53) .exact)) := by
  have hhigh : ¬ (0 : Int) < -((2 ^ 11 : Int) + n.log2) := by omega
  have hpower : n <<< 53 * 10 ^ (0 : Int).toNat = n * 2 ^ 53 := by
    rw [Nat.shiftLeft_eq, Int.toNat_zero, pow_zero, mul_one]
  unfold Float.ofNat
  show Float.ofScientific n false 0 = _
  rw [Float.ofScientific, dif_neg (by omega)]
  show Float.ofModel (Float.Model.pack (UnpackedFloat.ofScientific .binary64 n 0)) = _
  rw [UnpackedFloat.ofScientific, dif_neg (by omega), if_neg (by decide), if_neg hhigh,
    if_pos le_rfl]
  show Float.ofModel (Float.Model.pack (roundWithAccuracy .binary64 .positive
    (n <<< 53 * 10 ^ (0 : Int).toNat) (-53) .exact)) = _
  rw [hpower]

/-- A number of at most 53 digits is filled up with zeros. -/
theorem unpack_toFloat (hn : n ≠ 0) (h : n < 2 ^ 53) (hpos : 0 < n * 2 ^ (52 - n.log2))
    (hfull : Full (n * 2 ^ (52 - n.log2))) : n.toUInt64.toFloat.toModel.unpack =
      .finite .positive (n * 2 ^ (52 - n.log2)) (-((52 - n.log2 : Nat) : Int)) hpos := by
  have hlog : n.log2 < 53 := (Nat.log2_lt hn).2 h
  have htarget : Format.binary64.targetExponent (totalExponent n 0) = n.log2 - 52 := by
    show max ((n.log2 : Int) + 1 + 0 - 53) (-1074) = _
    omega
  have hnat : n.toUInt64.toNat = n := by
    rw [Nat.toUInt64_eq, UInt64.toNat_ofNat_of_lt' (by show n < 2 ^ 64; omega)]
  have hsign : compare (n : Int) 0 = .gt := by
    rw [Int.compare_eq_gt]
    omega
  have hconvert : UnpackedFloat.ofUInt64 .binary64 n.toUInt64 =
      .finite .positive (n * 2 ^ (52 - n.log2)) (-((52 - n.log2 : Nat) : Int)) hpos := by
    rw [UnpackedFloat.ofUInt64, hnat, UnpackedFloat.ofNat, UnpackedFloat.ofInt,
      UnpackedFloat.normalize, hsign]
    simp only [UnpackedFloat.round, Int.toNat_natCast, htarget, decreaseExponent]
    rw [show (0 - ((n.log2 : Int) - 52)).toNat = 52 - n.log2 by omega, Nat.shiftLeft_eq, zero_sub]
    exact round_exact .positive hfull hpos (by omega)
  show (Float.Model.pack (UnpackedFloat.ofUInt64 .binary64 n.toUInt64)).unpack = _
  rw [hconvert]
  exact unpack_pack ⟨hfull, by omega, by omega⟩

/-- **A float made from a number without a sign** stands for the nearest one. -/
theorem holds_ofNat (h : n < 2 ^ 64) : Holds (Float.ofNat n) (nearest n) := by
  rcases eq_or_ne n 0 with rfl | hn
  · have hzero : (Float.ofNat 0).toModel.unpack = .zero .positive := by
      rw [ofNat_small (by decide)]
      rfl
    exact ⟨hzero.symm ▸ trivial, by rw [hzero]; rfl⟩
  -- a machine word is exact up to here; longer numbers are rounded as a mantissa
  rcases lt_or_ge n (2 ^ 53) with hsmall | hlarge
  · have hlog : n.log2 < 53 := (Nat.log2_lt hn).2 hsmall
    have hpos : 0 < n * 2 ^ (52 - n.log2) := by positivity
    have hfull : Full (n * 2 ^ (52 - n.log2)) := by
      rw [full_iff hpos.ne', log2_mul_pow hn]
      omega
    have hsame : ((n * 2 ^ (52 - n.log2) : Nat) : ℚ) * 2 ^ (-((52 - n.log2 : Nat) : Int)) = n := by
      push_cast
      rw [mul_assoc, ← zpow_natCast, ← zpow_add₀ two_ne_zero, add_neg_cancel, zpow_zero, mul_one]
    rw [ofNat_small hsmall, nearest_of_short (short_of_le hsmall.le), ← hsame]
    exact holds_mul_one (unpack_toFloat hn hsmall hpos hfull) hfull (by omega) (by omega)
  · have hlog : n.log2 < 64 := (Nat.log2_lt hn).2 h
    have hexcess : excess (n * 2 ^ 53) ≤ 64 := by
      rw [excess, log2_mul_pow hn]
      omega
    obtain ⟨hnormal, hvalue⟩ := round_nearest (m := n * 2 ^ 53) (e := -53) .positive
      (by omega) (by decide) (by omega)
    have hsame : factor .positive * (nearest (n * 2 ^ 53) * 2 ^ (-53 : Int)) = (nearest n : ℚ) := by
      rw [nearest_mul_pow (by omega), factor]
      push_cast
      rw [mul_assoc]
      norm_num
    rw [ofNat_large hlarge, ← hsame, ← hvalue]
    exact .of_pack hnormal

/-- **A float made from an integer** stands for the nearest one. -/
theorem holds_ofInt {a : Int} (h : a.natAbs < 2 ^ 64) : Holds (Float.ofInt a) (nearestInt a) := by
  cases a with
  | ofNat n =>
    have hvalue : nearestInt (Int.ofNat n) = nearest n := by
      rcases eq_or_ne n 0 with rfl | hn
      · rfl
      · have hsign : (Int.ofNat n).sign = 1 :=
          Int.sign_eq_one_of_pos (Int.natCast_pos.2 (Nat.pos_of_ne_zero hn))
        rw [nearestInt, hsign, one_mul]
        rfl
    rw [hvalue]
    exact holds_ofNat h
  | negSucc n =>
    have hvalue : nearestInt (Int.negSucc n) = -(nearest (n + 1) : Int) := by
      rw [nearestInt, Int.sign_negSucc, Int.natAbs_negSucc, neg_one_mul]
    rw [hvalue, Int.cast_neg]
    exact (holds_ofNat h).neg

/-! ### Comparing -/

/-- The exponent of a number that has all its digits is the greatest for which they suffice. -/
theorem exponent_le {d : Int} (hm : Full m) (hn : Full n) (h : (m : ℚ) * 2 ^ e = n * 2 ^ d) :
    d ≤ e := by
  by_contra hlt
  have hm' : (m : ℚ) < 2 ^ 52 * 2 := by exact_mod_cast hm.lt
  have hn' : (2 : ℚ) ^ 52 ≤ n := by exact_mod_cast hn.ge
  have hstep : (2 : ℚ) ^ (e + 1) ≤ 2 ^ d := zpow_le_zpow_right₀ one_le_two (by omega)
  have hless : (m : ℚ) * 2 ^ e < n * 2 ^ d := calc
    (m : ℚ) * 2 ^ e < 2 ^ 52 * 2 * 2 ^ e := mul_lt_mul_of_pos_right hm' (by positivity)
    _ = 2 ^ 52 * 2 ^ (e + 1) := by rw [zpow_add_one₀ two_ne_zero]; ring
    _ ≤ n * 2 ^ d := mul_le_mul hn' hstep (by positivity) (by positivity)
  exact hless.ne h

/-- Two full mantissas give the same value only with the same exponent. -/
theorem digits_unique {d : Int} (hm : Full m) (hn : Full n) (h : (m : ℚ) * 2 ^ e = n * 2 ^ d) :
    m = n ∧ e = d := by
  obtain rfl : e = d := le_antisymm (exponent_le hn hm h.symm) (exponent_le hm hn h)
  exact ⟨by exact_mod_cast mul_right_cancel₀ (zpow_ne_zero e two_ne_zero) h, rfl⟩

/-- Positive factors are equal when the products with signs are. -/
theorem factor_mul_inj {s s' : Sign} {x y : ℚ} (hx : 0 < x) (hy : 0 < y)
    (h : factor s * x = factor s' * y) : s = s' ∧ x = y := by
  cases s <;> cases s' <;> simp only [factor, one_mul, neg_one_mul, neg_inj] at h
  case negative.negative => exact ⟨rfl, h⟩
  case positive.positive => exact ⟨rfl, h⟩
  all_goals exact absurd h (by linarith)

/-- The model compares forms, which is to compare the numbers. -/
theorem beq_iff_value {u v : UnpackedFloat} (hu : Normal u) (hv : Normal v) :
    u.beq v = true ↔ value u = value v := by
  rw [beq_iff_ne_notANumber_and_eq]
  have hpos : ∀ {m : Nat} {e : Int}, 0 < m → (0 : ℚ) < m * 2 ^ e := fun {m e} hm =>
    mul_pos (Nat.cast_pos.2 hm) (zpow_pos two_pos e)
  have hfactor : ∀ s, factor s ≠ 0 := fun s => by cases s <;> simp [factor]
  match u, v, hu, hv with
  | .zero s, .zero s', _, _ =>
    refine iff_of_true ?_ rfl
    cases s <;> cases s' <;> simp
  | .zero _, .finite s _ _ hn, _, _ =>
    exact iff_of_false (by simp) (mul_ne_zero (hfactor s) (hpos hn).ne').symm
  | .finite s _ _ hm, .zero _, _, _ =>
    exact iff_of_false (by simp) (mul_ne_zero (hfactor s) (hpos hm).ne')
  | .finite s m e hm, .finite s' n d hn, hu, hv =>
    constructor
    · rintro ⟨-, -, h | ⟨h, -⟩ | ⟨h, -⟩⟩
      · rw [h]
      · exact absurd h (by simp)
      · exact absurd h (by simp)
    · intro h
      obtain ⟨rfl, hsame⟩ := factor_mul_inj (hpos hm) (hpos hn) h
      obtain ⟨rfl, rfl⟩ := digits_unique hu.1 hv.1 hsame
      exact ⟨by simp, by simp, .inl rfl⟩

/-- **Floats are equal** when they stand for the same number. -/
theorem Holds.beq_iff (hf : Holds f q) (hg : Holds g r) : (f == g) = true ↔ q = r := by
  obtain ⟨hf, rfl⟩ := hf
  obtain ⟨hg, rfl⟩ := hg
  exact beq_iff_value hf hg

/-- **Integers of 64 bits** are equal as floats exactly when the numbers nearest to them are the
same. -/
theorem ofInt_beq (a b : Int64) : (Float.ofInt a.toInt == Float.ofInt b.toInt) =
    decide (nearestInt a.toInt = nearestInt b.toInt) := by
  have hbound : ∀ n : Int64, n.toInt.natAbs < 2 ^ 64 := fun n => by
    have := n.toInt_lt
    have := n.le_toInt
    omega
  rw [Bool.eq_iff_iff, (holds_ofInt (hbound a)).beq_iff (holds_ofInt (hbound b)), Int.cast_inj,
    decide_eq_true_iff]

end Binary64
end Interop
