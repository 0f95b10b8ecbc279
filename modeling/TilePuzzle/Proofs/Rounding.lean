import TilePuzzle.Proofs.Number

/-! How far rounding to a float moves a quotient, and in which order it leaves quotients. What comes of
rounding up afterwards: the fraction is lost if the float is the whole number below. -/
namespace TilePuzzle

section roundEven

theorem roundEven_le_iff {num : Int} {den : Nat} (bound : Int) (pos : 0 < den) :
    roundEven num den ≤ bound ↔
      2 * num < (2 * bound + 1) * den ∨ 2 * num = (2 * bound + 1) * den ∧ bound % 2 = 0 := by
  have positive : (0 : Int) < den := by omega
  have below : num.fdiv den * den ≤ num := by
    rw [Int.mul_comm]; exact Int.mul_fdiv_self_le positive
  have above : num < num.fdiv den * den + den := by
    have := Int.lt_fdiv_add_one_mul_self num positive
    rwa [Int.add_mul, Int.one_mul] at this
  have middle : (2 * bound + 1) * (den : Int) = 2 * (bound * den) + den := by ring
  simp only [roundEven]
  generalize num.fdiv den = floor at below above ⊢
  rw [middle]
  rcases Int.lt_trichotomy floor bound with less | rfl | more
  · have scaled := Int.mul_le_mul_of_nonneg_right (Int.add_one_le_of_lt less) positive.le
    rw [Int.add_mul, Int.one_mul] at scaled
    refine iff_of_true ?_ (.inl (by omega))
    split_ifs <;> omega
  · split_ifs <;> omega
  · have scaled := Int.mul_le_mul_of_nonneg_right (Int.add_one_le_of_lt more) positive.le
    rw [Int.add_mul, Int.one_mul] at scaled
    refine iff_of_false ?_ (by omega)
    split_ifs <;> omega

theorem roundEven_error (num : Int) {den : Nat} (pos : 0 < den) :
    |(roundEven num den : ℚ) - num / den| ≤ 1 / 2 := by
  obtain ⟨above, below, _⟩ := roundEven_nearest num pos
  have unit : (0 : ℚ) < den := Nat.cast_pos.mpr pos
  have above : (2 * num : ℚ) ≤ 2 * (roundEven num den * den) + den := by exact_mod_cast above
  have below : (2 * (roundEven num den * den) : ℚ) ≤ 2 * num + den := by exact_mod_cast below
  have apart : (roundEven num den : ℚ) - num / den = (roundEven num den * den - num) / den := by
    rw [sub_div, mul_div_cancel_right₀ _ unit.ne']
  rw [apart, abs_div, abs_of_pos unit, div_le_iff₀ unit, abs_le]
  constructor <;> linarith

theorem roundEven_mono {a b : Int} {den : Nat} (pos : 0 < den) (le : a ≤ b) :
    roundEven a den ≤ roundEven b den := by
  rw [roundEven_le_iff _ pos]
  rcases (roundEven_le_iff _ pos).mp (le_refl (roundEven b den)) with near | ⟨tie, even⟩
  · exact .inl (by omega)
  · by_cases less : a < b
    · exact .inl (by omega)
    · exact .inr ⟨by omega, even⟩

/-- What lies less than a half below a whole number is rounded to it. -/
theorem roundEven_eq {num k : Int} {den : Nat} (pos : 0 < den) (above : num ≤ k * den)
    (near : 2 * (k * den) < 2 * num + den) : roundEven num den = k := by
  refine le_antisymm (roundEven_le k pos above) (not_lt.mp fun less => ?_)
  have below := (roundEven_le_iff _ pos).mp (Int.le_sub_one_of_lt less)
  have middle : (2 * (k - 1) + 1) * (den : Int) = 2 * (k * den) - den := by ring
  rw [middle] at below
  omega

end roundEven

namespace Dyadic

def toRat (d : Dyadic) : ℚ := d.mantissa * 2 ^ d.exponent

theorem toRat_eq (d : Dyadic) : d.toRat = d.num / d.den := by
  have split : (2 : ℚ) ^ d.exponent = 2 ^ d.exponent.toNat / 2 ^ (-d.exponent).toNat := by
    rw [← zpow_natCast, ← zpow_natCast, ← zpow_sub₀ (by norm_num)]
    congr 1
    omega
  have powers (n : Nat) : ((twoTo n : Nat) : ℚ) = 2 ^ n := by rw [twoTo]; exact Nat.cast_pow 2 n
  rw [toRat, split, num, den, Int.cast_mul, Int.cast_natCast, powers, powers, mul_div_assoc]

theorem ceil_eq (d : Dyadic) : d.ceil = ⌈d.toRat⌉ := by
  have floor : d.neg.floor = ⌊-d.toRat⌋ := by
    have negated : d.neg.num = -d.num := by simp [num, neg]
    have same : d.neg.den = d.den := rfl
    rw [Dyadic.floor, negated, same, toRat_eq, Int.fdiv_eq_ediv_of_nonneg _ (Int.natCast_nonneg _), ← neg_div,
      ← Int.cast_neg, Rat.floor_intCast_div_natCast]
  rw [ceil, floor, Int.floor_neg, neg_neg]

theorem toRat_nonneg {d : Dyadic} (nonneg : 0 ≤ d.mantissa) : 0 ≤ d.toRat :=
  mul_nonneg (Int.cast_nonneg nonneg) (zpow_pos (by norm_num) _).le

theorem toRat_of_whole {d : Dyadic} {k : Nat} (exponent : d.exponent = k) :
    d.toRat = (d.mantissa * twoTo k : Int) := by
  rw [toRat, exponent, zpow_natCast, twoTo]
  norm_cast

end Dyadic

namespace Binary64

/-- The number that a quotient is rounded to, with the exponent it is rounded at. -/
def rounded (num den : Nat) : Dyadic := ⟨mantissaFor num den, exponentFor num den⟩

section rounded
variable {num den : Nat}

/-- The float of a quotient is what it is rounded to, also after a carry into the next exponent. -/
theorem ofQuotient?_rounded {negative : Bool} {q : Binary64} (numPos : 0 < num) (denPos : 0 < den)
    (found : ofQuotient? negative num den = some q) :
    ∃ m e, q = finite negative m e ∧ Canonical m e ∧ (Dyadic.mk m e).toRat = (rounded num den).toRat := by
  obtain ⟨m, e, rfl, canonical⟩ := ofQuotient?_canonical denPos found
  refine ⟨m, e, rfl, canonical, ?_⟩
  rw [ofQuotient?_eq negative numPos] at found
  split at found
  next carried =>
    split at found
    · cases found
      have power : ((twoTo 52 : Nat) : ℚ) * 2 = (twoTo 53 : Nat) := by norm_num [twoTo]
      simp only [Dyadic.toRat, rounded, carried, Int.cast_natCast]
      rw [zpow_add_one₀ (by norm_num), mul_comm ((2 : ℚ) ^ _), ← mul_assoc, power]
    · contradiction
  next =>
    split at found
    · cases found
      rfl
    · contradiction

theorem twoTo_toNat (e : Int) : ((twoTo e.toNat : Nat) : ℚ) / (twoTo (-e).toNat : Nat) = 2 ^ e := by
  have unit := (Dyadic.mk 1 e).toRat_eq
  simpa [Dyadic.toRat, Dyadic.num, Dyadic.den] using unit.symm

/-- What is rounded is the quotient over the power of two at its exponent. -/
theorem scaled_eq (denPos : 0 < den) (e : Int) :
    ((num * twoTo (-e).toNat : Nat) : ℚ) / (den * twoTo e.toNat : Nat) = (num : ℚ) / den / 2 ^ e := by
  have up : ((twoTo e.toNat : Nat) : ℚ) ≠ 0 := Nat.cast_ne_zero.mpr (twoTo_pos _).ne'
  have down : ((twoTo (-e).toNat : Nat) : ℚ) ≠ 0 := Nat.cast_ne_zero.mpr (twoTo_pos _).ne'
  have nonzero : (den : ℚ) ≠ 0 := Nat.cast_ne_zero.mpr denPos.ne'
  rw [← twoTo_toNat, Nat.cast_mul, Nat.cast_mul]
  field_simp

theorem mantissaFor_eq (denPos : 0 < den) : (mantissaFor num den : Int) =
    roundEven (num * twoTo (-exponentFor num den).toNat : Nat) (den * twoTo (exponentFor num den).toNat) :=
  Int.toNat_of_nonneg (le_roundEven 0 (Nat.mul_pos denPos (twoTo_pos _)) (by
    rw [Int.zero_mul]
    exact Int.natCast_nonneg _))

/-- A quotient is rounded by no more than half of the last place of its mantissa. -/
theorem rounded_error (denPos : 0 < den) :
    |(rounded num den).toRat - (num : ℚ) / den| ≤ 2 ^ exponentFor num den / 2 := by
  have pos : 0 < den * twoTo (exponentFor num den).toNat := Nat.mul_pos denPos (twoTo_pos _)
  have near := roundEven_error (num * twoTo (-exponentFor num den).toNat : Nat) pos
  rw [← mantissaFor_eq denPos, Int.cast_natCast, Int.cast_natCast, scaled_eq denPos] at near
  have unit : (0 : ℚ) < 2 ^ exponentFor num den := zpow_pos (by norm_num) _
  have scaled : (rounded num den).toRat - (num : ℚ) / den =
      (mantissaFor num den - (num : ℚ) / den / 2 ^ exponentFor num den) * 2 ^ exponentFor num den := by
    rw [sub_mul, div_mul_cancel₀ _ unit.ne']
    rfl
  rw [scaled, abs_mul, abs_of_pos unit]
  calc |(mantissaFor num den : ℚ) - num / den / 2 ^ exponentFor num den| * 2 ^ exponentFor num den
      ≤ 1 / 2 * 2 ^ exponentFor num den := mul_le_mul_of_nonneg_right near unit.le
    _ = 2 ^ exponentFor num den / 2 := by ring

theorem exponentFor_mono {more : Nat} (numPos : 0 < num) (denPos : 0 < den) (le : num ≤ more) :
    exponentFor num den ≤ exponentFor more den := by
  have reaches : Reaches num den (magnitude num den) := (reaches_iff numPos denPos _).mpr le_rfl
  have further : Reaches more den (magnitude num den) :=
    Nat.le_trans reaches (Nat.mul_le_mul_right _ le)
  have magnitudes := (reaches_iff (Nat.lt_of_lt_of_le numPos le) denPos _).mp further
  unfold exponentFor
  omega

/-- A greater quotient is not rounded to less. -/
theorem rounded_mono {more : Nat} (numPos : 0 < num) (denPos : 0 < den) (le : num ≤ more) :
    (rounded num den).toRat ≤ (rounded more den).toRat := by
  have morePos : 0 < more := Nat.lt_of_lt_of_le numPos le
  have two : (0 : ℚ) < 2 := by norm_num
  simp only [Dyadic.toRat, rounded, Int.cast_natCast]
  rcases (exponentFor_mono numPos denPos le).eq_or_lt with same | less
  · have mantissas : mantissaFor num den ≤ mantissaFor more den := by
      simp only [mantissaFor, same]
      refine Int.toNat_le_toNat (roundEven_mono (Nat.mul_pos denPos (twoTo_pos _)) ?_)
      exact Int.ofNat_le.mpr (Nat.mul_le_mul_right _ le)
    rw [same]
    exact mul_le_mul_of_nonneg_right (Nat.cast_le.mpr mantissas) (zpow_pos two _).le
  · -- A mantissa has 53 bits at most, and at a greater exponent no fewer than that.
    have full : twoTo 52 ≤ mantissaFor more den := by
      refine (le_mantissaFor morePos denPos).resolve_right fun least => ?_
      have := le_max_right (magnitude num den - 52) leastExponent
      rw [least] at less
      exact absurd less (not_lt.mpr this)
    have top : mantissaFor num den ≤ 2 * twoTo 52 := by
      rw [← twoTo_succ]
      exact mantissaFor_le numPos denPos
    calc (mantissaFor num den : ℚ) * 2 ^ exponentFor num den
        ≤ (2 * twoTo 52 : Nat) * 2 ^ exponentFor num den :=
          mul_le_mul_of_nonneg_right (Nat.cast_le.mpr top) (zpow_pos two _).le
      _ = (twoTo 52 : Nat) * 2 ^ (exponentFor num den + 1) := by
          rw [zpow_add_one₀ two.ne', Nat.cast_mul, Nat.cast_ofNat]
          ring
      _ ≤ (twoTo 52 : Nat) * 2 ^ exponentFor more den :=
          mul_le_mul_of_nonneg_left (zpow_le_zpow_right₀ (by norm_num) less) (Nat.cast_nonneg _)
      _ ≤ mantissaFor more den * 2 ^ exponentFor more den :=
          mul_le_mul_of_nonneg_right (Nat.cast_le.mpr full) (zpow_pos two _).le

theorem reaches_iff_le (denPos : 0 < den) (e : Int) : Reaches num den e ↔ (2 : ℚ) ^ e ≤ num / den := by
  have down : (0 : ℚ) < (twoTo (-e).toNat : Nat) := Nat.cast_pos.mpr (twoTo_pos _)
  rw [← twoTo_toNat, div_le_div_iff₀ down (Nat.cast_pos.mpr denPos), Reaches, mul_comm den]
  norm_cast

/-- A quotient of at least `2 ^ -1022` is rounded by no more than one part in `2 ^ 53`. -/
theorem rounded_relative (numPos : 0 < num) (denPos : 0 < den)
    (normal : leastExponent + 52 ≤ magnitude num den) :
    2 ^ 53 * |(rounded num den).toRat - (num : ℚ) / den| ≤ num / den := by
  have reached : Reaches num den (exponentFor num den + 52) := by
    rw [reaches_iff numPos denPos]
    unfold exponentFor
    omega
  rw [reaches_iff_le denPos, zpow_add₀ (by norm_num)] at reached
  calc (2 ^ 53 : ℚ) * |(rounded num den).toRat - (num : ℚ) / den|
      ≤ 2 ^ 53 * (2 ^ exponentFor num den / 2) :=
        mul_le_mul_of_nonneg_left (rounded_error denPos) (by norm_num)
    _ = 2 ^ exponentFor num den * 2 ^ (52 : Int) := by norm_num; ring
    _ ≤ num / den := reached

/-- How many floats there are to a unit, from a whole number up to the next power of two. -/
def perUnit (whole : Nat) : Nat := twoTo (52 - whole.log2)

/-- The float of a quotient is the whole number below it: the fraction is less than half of the way to the
next float, or just half of it, and the mantissa of the whole number is even. -/
def Drops (num den : Nat) : Prop :=
  2 * (num % den * perUnit (num / den)) < den ∨
    2 * (num % den * perUnit (num / den)) = den ∧ num / den * perUnit (num / den) % 2 = 0

instance : Decidable (Drops num den) := inferInstanceAs (Decidable (_ ∨ _))

theorem drops_of_exact (denPos : 0 < den) (whole : num % den = 0) : Drops num den := by
  rw [Drops, whole, Nat.zero_mul]
  exact .inl denPos

theorem magnitude_eq_log2 (denPos : 0 < den) (le : den ≤ num) : magnitude num den = (num / den).log2 := by
  have numPos : 0 < num := Nat.lt_of_lt_of_le denPos le
  have whole : num / den ≠ 0 := (Nat.div_pos le denPos).ne'
  have reaches (k : Nat) : (k : Int) ≤ magnitude num den ↔ twoTo k ≤ num / den := by
    rw [← reaches_iff numPos denPos, Nat.le_div_iff_mul_le denPos, Nat.mul_comm (twoTo k)]
    simp [Reaches]
  have low := (reaches _).mpr (Nat.log2_self_le whole)
  have high := mt (reaches _).mp (Nat.not_le.mpr (Nat.lt_log2_self (n := num / den)))
  push_cast at high
  omega

theorem exponentFor_eq_log2 (denPos : 0 < den) (le : den ≤ num) :
    exponentFor num den = (num / den).log2 - 52 := by
  unfold exponentFor leastExponent
  rw [magnitude_eq_log2 denPos le]
  omega

theorem rounded_le_iff (denPos : 0 < den) (low : exponentFor num den ≤ 0) (bound : Int) :
    (rounded num den).toRat ≤ bound ↔
      roundEven (num * twoTo (-exponentFor num den).toNat : Nat) den ≤
        bound * twoTo (-exponentFor num den).toNat := by
  have mantissa : (mantissaFor num den : Int) =
      roundEven (num * twoTo (-exponentFor num den).toNat : Nat) den := by
    rw [mantissaFor_eq denPos, Int.toNat_eq_zero.mpr low, twoTo_zero, Nat.mul_one]
  have unit : (0 : ℚ) < (twoTo (-exponentFor num den).toNat : Nat) := Nat.cast_pos.mpr (twoTo_pos _)
  have value : (rounded num den).toRat = mantissaFor num den / (twoTo (-exponentFor num den).toNat : Nat) := by
    rw [Dyadic.toRat_eq, Dyadic.num, Dyadic.den, rounded, Int.toNat_eq_zero.mpr low, twoTo_zero, Int.natCast_one,
      Int.mul_one, Int.cast_natCast]
  rw [value, div_le_iff₀ unit, ← mantissa]
  norm_cast

theorem exponentFor_nonpos (numPos : 0 < num) (denPos : 0 < den) (low : num < den * twoTo 53) :
    exponentFor num den ≤ 0 := by
  have far : ¬Reaches num den (53 : Nat) := by simpa [Reaches] using low
  rw [reaches_iff numPos denPos] at far
  unfold exponentFor leastExponent
  omega

/-- The scale at which a quotient is rounded decides what is dropped. Below one there are more floats than
the divisor can tell apart. -/
theorem drops_iff (numPos : 0 < num) (denPos : 0 < den) (small : den < twoTo 53) :
    Drops num den ↔ 2 * (num % den * twoTo (-exponentFor num den).toNat) < den ∨
      2 * (num % den * twoTo (-exponentFor num den).toNat) = den ∧
        num / den * twoTo (-exponentFor num den).toNat % 2 = 0 := by
  by_cases whole : den ≤ num
  · have same : twoTo (-exponentFor num den).toNat = perUnit (num / den) := by
      rw [perUnit, exponentFor_eq_log2 denPos whole]
      congr 1
      omega
    rw [same, Drops]
  · have less : num < den := Nat.not_le.mp whole
    have short : ¬Reaches num den (0 : Nat) := by simpa [Reaches] using less
    rw [reaches_iff numPos denPos] at short
    have fine : twoTo 53 ≤ twoTo (-exponentFor num den).toNat := twoTo_le (by
      unfold exponentFor leastExponent
      omega)
    have half : twoTo 53 = 2 * perUnit 0 := twoTo_succ 52
    have coarse := Nat.le_mul_of_pos_left (perUnit 0) numPos
    have finer := Nat.le_mul_of_pos_left (twoTo (-exponentFor num den).toNat) numPos
    rw [Drops, Nat.mod_eq_of_lt less, Nat.div_eq_of_lt less]
    omega

theorem scaled_split (num den scale : Nat) : num * scale = num / den * scale * den + num % den * scale := by
  rw [Nat.mul_right_comm, ← Nat.add_mul, Nat.div_add_mod']

theorem le_ceil_rounded (denPos : 0 < den) (low : exponentFor num den ≤ 0) :
    (num / den : Int) ≤ ⌈(rounded num den).toRat⌉ := by
  rw [Int.le_ceil_iff, ← not_le]
  intro less
  have less' := (rounded_le_iff denPos low ((num / den : Nat) - 1)).mp (by exact_mod_cast less)
  have scalePos := twoTo_pos (-exponentFor num den).toNat
  have parts := scaled_split num den (twoTo (-exponentFor num den).toNat)
  generalize twoTo (-exponentFor num den).toNat = scale at less' scalePos parts
  have product : ((num / den * scale : Nat) : Int) * den ≤ (num * scale : Nat) := by
    norm_cast
    omega
  have least := le_roundEven _ denPos product
  rw [Int.sub_mul, Int.one_mul] at less'
  push_cast at least less'
  omega

theorem ceil_rounded_le (denPos : 0 < den) (low : exponentFor num den ≤ 0) :
    ⌈(rounded num den).toRat⌉ ≤ (num / den : Int) + 1 := by
  have short := Nat.mul_le_mul_right (twoTo (-exponentFor num den).toNat) (Nat.mod_lt num denPos).le
  rw [Int.ceil_le, rounded_le_iff denPos low]
  refine roundEven_le _ denPos ?_
  norm_cast
  rw [scaled_split num den, Nat.add_mul, Nat.one_mul, Nat.add_mul, Nat.mul_comm (twoTo _) den]
  omega

/-- The float of a quotient is not above the whole number below the quotient just if it drops the fraction. -/
theorem ceil_rounded_le_iff (numPos : 0 < num) (denPos : 0 < den) (small : den < twoTo 53)
    (low : exponentFor num den ≤ 0) : ⌈(rounded num den).toRat⌉ ≤ (num / den : Int) ↔ Drops num den := by
  rw [Int.ceil_le, ← Int.natCast_ediv, rounded_le_iff denPos low, roundEven_le_iff _ denPos,
    drops_iff numPos denPos small, scaled_split num den]
  generalize twoTo (-exponentFor num den).toNat = scale
  have middle : (2 * (((num / den : Nat) : Int) * scale) + 1) * den =
      2 * ((num / den * scale * den : Nat) : Int) + den := by
    push_cast
    ring
  rw [middle]
  omega

/-- Rounding up after rounding to a float: the fraction may be gone by then. -/
theorem ceil_rounded (numPos : 0 < num) (denPos : 0 < den) (small : den < twoTo 53)
    (low : num < den * twoTo 53) :
    ⌈(rounded num den).toRat⌉ = if Drops num den then (num / den : Int) else num / den + 1 := by
  have exponent := exponentFor_nonpos numPos denPos low
  have reached := le_ceil_rounded denPos exponent
  have dropped := ceil_rounded_le_iff numPos denPos small exponent
  split
  next gone => exact le_antisymm (dropped.mpr gone) reached
  next kept =>
    have bounded := ceil_rounded_le denPos exponent
    have more := mt dropped.mp kept
    omega

section high

theorem den_le_of_high (high : den * twoTo 53 ≤ num) : den ≤ num :=
  Nat.le_trans (Nat.le_mul_of_pos_right den (twoTo_pos 53)) high

theorem log2_of_high (denPos : 0 < den) (high : den * twoTo 53 ≤ num) : 53 ≤ (num / den).log2 := by
  have reached : twoTo 53 ≤ num / den := (Nat.le_div_iff_mul_le denPos).mpr (by rwa [Nat.mul_comm])
  exact (Nat.le_log2 (Nat.div_pos (den_le_of_high high) denPos).ne').mpr reached

theorem exponentFor_of_high (denPos : 0 < den) (high : den * twoTo 53 ≤ num) :
    exponentFor num den = ((num / den).log2 - 52 : Nat) := by
  have long := log2_of_high denPos high
  rw [exponentFor_eq_log2 denPos (den_le_of_high high)]
  omega

/-- A large quotient is a whole number once it is rounded, off by at most one part in `2 ^ 53`. -/
theorem ceil_rounded_near (denPos : 0 < den) (high : den * twoTo 53 ≤ num) :
    2 ^ 53 * |den * ⌈(rounded num den).toRat⌉ - (num : Int)| ≤ num := by
  have whole := den_le_of_high high
  have long := log2_of_high denPos high
  have normal : leastExponent + 52 ≤ magnitude num den := by
    rw [magnitude_eq_log2 denPos whole]
    unfold leastExponent
    omega
  have near := rounded_relative (Nat.lt_of_lt_of_le denPos whole) denPos normal
  rw [Dyadic.toRat_of_whole (exponentFor_of_high denPos high)] at near ⊢
  rw [Int.ceil_intCast]
  generalize (rounded num den).mantissa * (twoTo ((num / den).log2 - 52) : Int) = nearest at near ⊢
  have positive : (0 : ℚ) < den := Nat.cast_pos.mpr denPos
  have scaled : ((den * nearest - num : Int) : ℚ) = den * (nearest - num / den) := by
    push_cast
    field_simp
  have bound : ((2 ^ 53 * |den * nearest - (num : Int)| : Int) : ℚ) ≤ ((num : Int) : ℚ) := by
    rw [le_div_iff₀ positive] at near
    rw [Int.cast_mul, Int.cast_abs, scaled, abs_mul, abs_of_pos positive]
    push_cast at near ⊢
    linarith
  exact_mod_cast bound

/-- Where floats are more than one apart, the least whole number that is not below a quotient is the float of
the quotient just if it is a float at all. -/
theorem ceil_rounded_eq_iff (denPos : 0 < den) (high : den * twoTo 53 ≤ num) {up : Nat} (above : num ≤ up * den)
    (least : up * den < num + den) :
    ⌈(rounded num den).toRat⌉ = up ↔ twoTo ((num / den).log2 - 52) ∣ up := by
  have long := log2_of_high denPos high
  have exponent := exponentFor_of_high denPos high
  have mantissa : (mantissaFor num den : Int) = roundEven num (den * twoTo ((num / den).log2 - 52)) := by
    rw [mantissaFor_eq denPos, exponent, Int.toNat_natCast, Int.toNat_neg_natCast, twoTo_zero, Nat.mul_one]
  have value : ⌈(rounded num den).toRat⌉ = mantissaFor num den * twoTo ((num / den).log2 - 52) := by
    rw [Dyadic.toRat_of_whole exponent, Int.ceil_intCast]
    rfl
  rw [value, mantissa]
  have apart : 2 ≤ twoTo ((num / den).log2 - 52) := twoTo_le (a := 1) (by omega)
  generalize twoTo ((num / den).log2 - 52) = step at apart ⊢
  constructor
  · intro same
    exact Int.natCast_dvd_natCast.mp ⟨_, by rw [← same, Int.mul_comm]⟩
  · rintro ⟨k, rfl⟩
    have pos : 0 < den * step := Nat.mul_pos denPos (by omega)
    have gap : 2 * den ≤ den * step := by
      rw [Nat.mul_comm]
      exact Nat.mul_le_mul_left den apart
    have scaled : step * k * den = k * (den * step) := by ring
    rw [scaled] at above least
    -- a unit is at most half of a step, so that the next multiple of a step is the nearest
    have nearest : roundEven num (den * step) = k :=
      roundEven_eq pos (by exact_mod_cast above) (by norm_cast; omega)
    rw [nearest, Nat.cast_mul, Int.mul_comm]

end high

/-- Rounding up gives the same after a quotient was rounded to a float. While floats tell single units the
fraction must not be dropped; after that the whole number must have a float. -/
def Kept (num den : Nat) : Prop :=
  if num < den * twoTo 53 then num % den = 0 ∨ ¬Drops num den
  else twoTo ((num / den).log2 - 52) ∣ (num + den - 1) / den

instance : Decidable (Kept num den) := inferInstanceAs (Decidable (ite ..))

theorem roundUp_eq (denPos : 0 < den) :
    (num + den - 1) / den = if num % den = 0 then num / den else num / den + 1 := by
  have parts := Nat.div_add_mod num den
  have rest := Nat.mod_lt num denPos
  split
  next whole =>
    have split : num + den - 1 = den * (num / den) + (den - 1) := by omega
    have short : den - 1 < den := by omega
    rw [split, Nat.mul_add_div denPos, Nat.div_eq_of_lt short, Nat.add_zero]
  next =>
    have split : num + den - 1 = den * (num / den + 1) + (num % den - 1) := by
      rw [Nat.mul_add, Nat.mul_one]
      omega
    have short : num % den - 1 < den := by omega
    rw [split, Nat.mul_add_div denPos, Nat.div_eq_of_lt short, Nat.add_zero]

theorem ceil_rounded_eq_iff_kept (numPos : 0 < num) (denPos : 0 < den) (small : den < twoTo 53) :
    ⌈(rounded num den).toRat⌉ = ((num + den - 1) / den : Nat) ↔ Kept num den := by
  unfold Kept
  split
  next low =>
    rw [ceil_rounded numPos denPos small low, roundUp_eq denPos]
    by_cases whole : num % den = 0
    · simp [whole, drops_of_exact denPos whole]
    · by_cases dropped : Drops num den
      · simp [whole, dropped]
      · simp [whole, dropped]
  next high =>
    have least := Nat.div_mul_le_self (num + den - 1) den
    have above := Nat.lt_div_mul_add denPos (a := num + den - 1)
    exact ceil_rounded_eq_iff denPos (not_lt.mp high) (by omega) (by omega)

end rounded
end Binary64
end TilePuzzle
