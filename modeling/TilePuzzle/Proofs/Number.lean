import Mathlib
import TilePuzzle.Config

/-! Rounding to floats. The exponent of a quotient is found exactly, the rounded mantissa has 53 bits
or the exponent is the least one, and a quotient has no float just when it reaches the middle between
the greatest float and the power of two after it. -/
namespace TilePuzzle

@[simp] theorem twoTo_zero : twoTo 0 = 1 := rfl

theorem twoTo_add (a b : Nat) : twoTo (a + b) = twoTo a * twoTo b := Nat.pow_add 2 a b

theorem twoTo_pos (n : Nat) : 0 < twoTo n := Nat.pow_pos (by decide)

theorem twoTo_succ (n : Nat) : twoTo (n + 1) = 2 * twoTo n := Nat.pow_succ'

theorem twoTo_le {a b : Nat} (le : a ≤ b) : twoTo a ≤ twoTo b := Nat.pow_le_pow_right (by decide) le

section roundEven
variable {num : Int} {den : Nat}

/-- The nearest whole number is at most a half away, and it is even if it is just that. -/
theorem roundEven_nearest (num : Int) (pos : 0 < den) :
    2 * num ≤ 2 * (roundEven num den * den) + den ∧
    2 * (roundEven num den * den) ≤ 2 * num + den ∧
    (2 * num = 2 * (roundEven num den * den) + den → roundEven num den % 2 = 0) := by
  have positive : (0 : Int) < den := by omega
  have below : num.fdiv den * den ≤ num := by
    rw [Int.mul_comm]; exact Int.mul_fdiv_self_le positive
  have above : num < num.fdiv den * den + den := by
    have := Int.lt_fdiv_add_one_mul_self num positive
    rwa [Int.add_mul, Int.one_mul] at this
  simp only [roundEven]
  generalize num.fdiv den = floor at below above ⊢
  have next : (floor + 1) * (den : Int) = floor * den + den := by rw [Int.add_mul, Int.one_mul]
  split
  · exact ⟨by omega, by omega, by omega⟩
  · split
    · rw [next]; exact ⟨by omega, by omega, by omega⟩
    · split
      · exact ⟨by omega, by omega, by omega⟩
      · rw [next]; exact ⟨by omega, by omega, by omega⟩

theorem le_roundEven (bound : Int) (pos : 0 < den) (le : bound * den ≤ num) :
    bound ≤ roundEven num den := by
  obtain ⟨above, _, _⟩ := roundEven_nearest num pos
  by_cases less : roundEven num den + 1 ≤ bound
  · have scaled := Int.mul_le_mul_of_nonneg_right less (Int.natCast_nonneg den)
    rw [Int.add_mul, Int.one_mul] at scaled
    omega
  · omega

theorem roundEven_le (bound : Int) (pos : 0 < den) (le : num ≤ bound * den) :
    roundEven num den ≤ bound := by
  obtain ⟨_, below, _⟩ := roundEven_nearest num pos
  by_cases more : bound + 1 ≤ roundEven num den
  · have scaled := Int.mul_le_mul_of_nonneg_right more (Int.natCast_nonneg den)
    rw [Int.add_mul, Int.one_mul] at scaled
    omega
  · omega

theorem even_le_roundEven (num : Int) {bound : Int} (pos : 0 < den) (even : bound % 2 = 0) :
    bound ≤ roundEven num den ↔ 2 * (bound * den) ≤ 2 * num + den := by
  obtain ⟨above, below, tie⟩ := roundEven_nearest num pos
  constructor
  · intro le
    have scaled := Int.mul_le_mul_of_nonneg_right le (Int.natCast_nonneg den)
    omega
  · intro reached
    by_cases less : roundEven num den + 1 ≤ bound
    · have scaled := Int.mul_le_mul_of_nonneg_right less (Int.natCast_nonneg den)
      rw [Int.add_mul, Int.one_mul] at scaled
      have parity := tie (by omega)
      have further : roundEven num den + 2 ≤ bound := by omega
      have twice := Int.mul_le_mul_of_nonneg_right further (Int.natCast_nonneg den)
      rw [Int.add_mul] at twice
      omega
    · omega

theorem roundEven_one (n : Int) : roundEven n 1 = n := by
  simp [roundEven]

end roundEven

namespace Binary64

section magnitude
variable {num den : Nat}

/-- `2 ^ e` at most `num / den`, told without fractions. -/
def Reaches (num den : Nat) (e : Int) : Prop := den * twoTo e.toNat ≤ num * twoTo (-e).toNat

theorem reaches_add (e : Int) (k : Nat) :
    Reaches num den (e + k) ↔ den * twoTo e.toNat * twoTo k ≤ num * twoTo (-e).toNat := by
  -- both sides scaled to the same powers
  have powers : twoTo (e + k).toNat * twoTo (-e).toNat =
      twoTo e.toNat * twoTo k * twoTo (-(e + k)).toNat := by
    rw [← twoTo_add, ← twoTo_add, ← twoTo_add]
    congr 1
    omega
  unfold Reaches
  rw [← Nat.mul_le_mul_right_iff (twoTo_pos (-e).toNat), Nat.mul_assoc den, powers,
    Nat.mul_right_comm num, ← Nat.mul_assoc den, Nat.mul_le_mul_right_iff (twoTo_pos _),
    ← Nat.mul_assoc den]

theorem reaches_of_le {e f : Int} (le : e ≤ f) (reaches : Reaches num den f) :
    Reaches num den e := by
  obtain ⟨k, rfl⟩ := Int.le.dest le
  rw [reaches_add] at reaches
  exact Nat.le_trans (Nat.le_mul_of_pos_right _ (twoTo_pos k)) reaches

/-- The magnitude is the greatest exponent whose power of two the quotient reaches. -/
theorem reaches_iff (numPos : 0 < num) (denPos : 0 < den) (e : Int) :
    Reaches num den e ↔ e ≤ magnitude num den := by
  have numLow : twoTo num.log2 ≤ num := Nat.log2_self_le (by omega)
  have numHigh : num < twoTo (num.log2 + 1) := Nat.lt_log2_self
  have denLow : twoTo den.log2 ≤ den := Nat.log2_self_le (by omega)
  have denHigh : den < twoTo (den.log2 + 1) := Nat.lt_log2_self
  -- one above the difference of the logarithms is out of reach, one below is not
  have beyond : ¬Reaches num den ((num.log2 : Int) - den.log2 + 1) := by
    unfold Reaches
    have left := Nat.mul_le_mul_right (twoTo ((num.log2 : Int) - den.log2 + 1).toNat) denLow
    have right := Nat.mul_lt_mul_of_pos_right numHigh
      (twoTo_pos (-((num.log2 : Int) - den.log2 + 1)).toNat)
    rw [← twoTo_add] at left right
    have same := twoTo_le (show num.log2 + 1 + (-((num.log2 : Int) - den.log2 + 1)).toNat ≤
      den.log2 + ((num.log2 : Int) - den.log2 + 1).toNat by omega)
    omega
  have reached : Reaches num den ((num.log2 : Int) - den.log2 - 1) := by
    unfold Reaches
    have left := Nat.mul_lt_mul_of_pos_right denHigh
      (twoTo_pos ((num.log2 : Int) - den.log2 - 1).toNat)
    have right := Nat.mul_le_mul_right (twoTo (-((num.log2 : Int) - den.log2 - 1)).toNat) numLow
    rw [← twoTo_add] at left right
    have same := twoTo_le (show den.log2 + 1 + ((num.log2 : Int) - den.log2 - 1).toNat ≤
      num.log2 + (-((num.log2 : Int) - den.log2 - 1)).toNat by omega)
    omega
  have greatest : Reaches num den (magnitude num den) ∧
      ¬Reaches num den (magnitude num den + 1) := by
    simp only [magnitude]
    split
    next here => exact ⟨here, beyond⟩
    next notHere =>
      refine ⟨reached, ?_⟩
      rw [Int.sub_add_cancel]
      exact notHere
  constructor
  · intro reaches
    by_cases le : e ≤ magnitude num den
    · exact le
    · exact absurd (reaches_of_le (by omega) reaches) greatest.2
  · intro le
    exact reaches_of_le le greatest.1

end magnitude

/-- A mantissa and an exponent as floats have them: 53 bits, or fewer at the least exponent. -/
structure Canonical (m : Nat) (e : Int) : Prop where
  bits : m < twoTo 53
  full : twoTo 52 ≤ m ∨ e = leastExponent
  least : leastExponent ≤ e
  greatest : e ≤ greatestExponent

section quotient
variable {num den : Nat}

def mantissaFor (num den : Nat) : Nat :=
  let e := exponentFor num den
  (roundEven (num * twoTo (-e).toNat : Nat) (den * twoTo e.toNat)).toNat

theorem mantissaFor_le (numPos : 0 < num) (denPos : 0 < den) : mantissaFor num den ≤ twoTo 53 := by
  have pos : 0 < den * twoTo (exponentFor num den).toNat := Nat.mul_pos denPos (twoTo_pos _)
  have far : ¬Reaches num den (exponentFor num den + (53 : Nat)) := by
    rw [reaches_iff numPos denPos]
    unfold exponentFor
    omega
  rw [reaches_add] at far
  have le : roundEven (num * twoTo (-exponentFor num den).toNat : Nat)
      (den * twoTo (exponentFor num den).toNat) ≤ twoTo 53 := roundEven_le _ pos (by
      rw [← Int.natCast_mul, Int.ofNat_le, Nat.mul_comm (twoTo 53)]
      omega)
  simp only [mantissaFor]
  omega

theorem le_mantissaFor (numPos : 0 < num) (denPos : 0 < den) :
    twoTo 52 ≤ mantissaFor num den ∨ exponentFor num den = leastExponent := by
  by_cases least : exponentFor num den = leastExponent
  · exact .inr least
  · have pos : 0 < den * twoTo (exponentFor num den).toNat := Nat.mul_pos denPos (twoTo_pos _)
    have near : Reaches num den (exponentFor num den + (52 : Nat)) := by
      rw [reaches_iff numPos denPos]
      unfold exponentFor at least ⊢
      omega
    rw [reaches_add] at near
    have le : (twoTo 52 : Int) ≤ roundEven (num * twoTo (-exponentFor num den).toNat : Nat)
        (den * twoTo (exponentFor num den).toNat) := le_roundEven _ pos (by
        rw [← Int.natCast_mul, Int.ofNat_le, Nat.mul_comm (twoTo 52)]
        exact near)
    simp only [mantissaFor]
    omega

theorem ofQuotient?_eq (negative : Bool) (numPos : 0 < num) :
    ofQuotient? negative num den =
      if mantissaFor num den = twoTo 53 then
        if exponentFor num den + 1 ≤ greatestExponent then
          some (finite negative (twoTo 52) (exponentFor num den + 1)) else none
      else if exponentFor num den ≤ greatestExponent then
        some (finite negative (mantissaFor num den) (exponentFor num den)) else none := by
  have nonzero : num ≠ 0 := by omega
  have unfolded : ofQuotient? negative num den =
      let rounded := if mantissaFor num den = twoTo 53 then (twoTo 52, exponentFor num den + 1)
        else (mantissaFor num den, exponentFor num den)
      if rounded.2 ≤ greatestExponent then some (finite negative rounded.1 rounded.2)
        else none := by
    unfold ofQuotient?
    rw [if_neg nonzero]
    rfl
  rw [unfolded]
  by_cases carried : mantissaFor num den = twoTo 53
  · simp only [if_pos carried]
  · simp only [if_neg carried]

theorem ofQuotient?_canonical {negative : Bool} {b : Binary64} (denPos : 0 < den)
    (found : ofQuotient? negative num den = some b) :
    ∃ m e, b = finite negative m e ∧ Canonical m e := by
  by_cases zero : num = 0
  · simp only [ofQuotient?, if_pos zero, Option.some.injEq] at found
    exact ⟨0, leastExponent, found.symm, twoTo_pos 53, .inr rfl, by decide, by decide⟩
  · have numPos : 0 < num := by omega
    have high := mantissaFor_le numPos denPos
    have low := le_mantissaFor numPos denPos
    have least : leastExponent ≤ exponentFor num den := by unfold exponentFor; omega
    rw [ofQuotient?_eq negative numPos] at found
    split at found
    · split at found
      next fits =>
        cases found
        exact ⟨_, _, rfl, by decide, .inl (Nat.le_refl _), by omega, fits⟩
      next => contradiction
    · split at found
      next notCarried fits =>
        cases found
        exact ⟨_, _, rfl, by omega, low, least, fits⟩
      next => contradiction

/-- The least whole number without a float: the middle between the greatest float and `2 ^ 1024`. -/
def beyond : Nat := (twoTo 54 - 1) * twoTo 970

/-- At the greatest exponent the rounding carries from the middle to the next power on. -/
theorem mantissaFor_carries_iff (numPos : 0 < num) (denPos : 0 < den)
    (last : exponentFor num den = greatestExponent) : mantissaFor num den = twoTo 53 ↔
      2 * (den * twoTo 970 * twoTo 53) ≤ num + den * twoTo 970 := by
  have le := mantissaFor_le numPos denPos
  have doubled : den * twoTo 971 = 2 * (den * twoTo 970) := by
    rw [twoTo_succ, Nat.mul_left_comm]
  have same : mantissaFor num den = (roundEven num (2 * (den * twoTo 970))).toNat := by
    simp [mantissaFor, last, greatestExponent, ← doubled]
  have pos : 0 < 2 * (den * twoTo 970) :=
    Nat.mul_pos (by decide) (Nat.mul_pos denPos (twoTo_pos 970))
  have even : (twoTo 53 : Int) % 2 = 0 := by decide
  have reached := even_le_roundEven num pos even
  have scaled : (twoTo 53 : Int) * (2 * (den * twoTo 970) : Nat) =
      (2 * (den * twoTo 970 * twoTo 53) : Nat) := by
    rw [← Int.natCast_mul, Nat.mul_left_comm, Nat.mul_comm (twoTo 53)]
  rw [scaled] at reached
  have positive := twoTo_pos 53
  omega

/-- Exactly the quotients below that middle have a float. -/
theorem ofQuotient?_eq_none_iff (negative : Bool) (denPos : 0 < den) :
    ofQuotient? negative num den = none ↔ beyond * den ≤ num := by
  rw [beyond, Nat.mul_assoc, Nat.mul_comm (twoTo 970)]
  have pos : 0 < den * twoTo 970 := Nat.mul_pos denPos (twoTo_pos 970)
  have half : twoTo 54 = 2 * twoTo 53 := twoTo_succ 53
  by_cases zero : num = 0
  · have some : ofQuotient? negative num den = some (finite negative 0 leastExponent) := by
      simp [ofQuotient?, zero]
    have product : 0 < (twoTo 54 - 1) * (den * twoTo 970) := Nat.mul_pos (by decide) pos
    simp only [some, reduceCtorEq, false_iff]
    omega
  have numPos : 0 < num := by omega
  -- where the quotient lies, against the powers next to the threshold
  have reach (k : Nat) : (970 + k : Int) ≤ magnitude num den ↔
      den * twoTo 970 * twoTo k ≤ num := by
    rw [← reaches_iff numPos denPos, reaches_add]
    simp
  have at53 := reach 53
  have at54 := reach 54
  rw [half, Nat.mul_left_comm] at at54
  rw [ofQuotient?_eq negative numPos, half, Nat.sub_mul, Nat.mul_assoc, Nat.one_mul,
    Nat.mul_comm (twoTo 53)]
  have larger : den * twoTo 970 ≤ den * twoTo 970 * twoTo 53 :=
    Nat.le_mul_of_pos_right _ (twoTo_pos 53)
  have carries := mantissaFor_carries_iff numPos denPos
  generalize den * twoTo 970 * twoTo 53 = top at at53 at54 larger carries ⊢
  generalize den * twoTo 970 = unit at *
  have exponent : exponentFor num den = max (magnitude num den - 52) (-1074) := rfl
  have greatest : greatestExponent = 971 := rfl
  rcases Int.lt_trichotomy (magnitude num den) 1023 with below | inside | beyond
  · have fits : exponentFor num den + 1 ≤ greatestExponent := by omega
    have fits' : exponentFor num den ≤ greatestExponent := by omega
    simp only [if_pos fits, if_pos fits']
    split <;> simp only [reduceCtorEq, false_iff] <;> omega
  · have last : exponentFor num den = greatestExponent := by omega
    have carried := carries last
    have outOfReach : ¬exponentFor num den + 1 ≤ greatestExponent := by omega
    have fits : exponentFor num den ≤ greatestExponent := by omega
    simp only [if_neg outOfReach, if_pos fits]
    split <;> simp only [reduceCtorEq, false_iff, true_iff] <;> omega
  · have outOfReach : ¬exponentFor num den ≤ greatestExponent := by omega
    have outOfReach' : ¬exponentFor num den + 1 ≤ greatestExponent := by omega
    simp only [if_neg outOfReach, if_neg outOfReach', ite_self, true_iff]
    omega

end quotient

section floats

theorem magnitudeBits_lt {m : Nat} {e : Int} (canonical : Canonical m e) :
    magnitudeBits m e < 2047 * twoTo 52 := by
  obtain ⟨bits, _, least, greatest⟩ := canonical
  have half : twoTo 53 = 2 * twoTo 52 := twoTo_succ 52
  have le : (e + 1075).toNat ≤ 2046 := by
    simp only [leastExponent, greatestExponent] at least greatest
    omega
  have scaled := Nat.mul_le_mul_right (twoTo 52) le
  unfold magnitudeBits
  split <;> omega

theorem ofBits_magnitudeBits (negative : Bool) {m : Nat} {e : Int} (canonical : Canonical m e) :
    ofBits (signBit negative + magnitudeBits m e) = finite negative m e := by
  obtain ⟨bits, full, least, greatest⟩ := canonical
  simp only [leastExponent, greatestExponent] at full least greatest
  have p52 : twoTo 52 = 4503599627370496 := rfl
  have p53 : twoTo 53 = 9007199254740992 := rfl
  have p63 : twoTo 63 = 9223372036854775808 := rfl
  rw [p53] at bits
  rw [p52] at full
  have sign : signBit negative = if negative then 9223372036854775808 else 0 := rfl
  by_cases small : m < 4503599627370496
  · have exponent : e = -1074 := by omega
    have magnitude : magnitudeBits m e = m := if_pos (by rw [p52]; exact small)
    rw [magnitude, exponent]
    have field : (signBit negative + m) / twoTo 52 % 2048 = 0 := by
      rw [sign, p52]; split <;> omega
    have fraction : (signBit negative + m) % twoTo 52 = m := by
      rw [sign, p52]; split <;> omega
    have negative' : decide (twoTo 63 ≤ signBit negative + m) = negative := by
      rw [sign, p63]; cases negative <;> simp; omega
    simp only [ofBits, field, fraction, negative']
    rfl
  · obtain ⟨k, rfl⟩ : ∃ k : Nat, e = k - 1075 := ⟨(e + 1075).toNat, by omega⟩
    have magnitude : magnitudeBits m (k - 1075) = k * 4503599627370496 + (m - 4503599627370496) := by
      unfold magnitudeBits
      rw [p52, if_neg small]
      congr 2
      omega
    rw [magnitude]
    have field : (signBit negative + (k * 4503599627370496 + (m - 4503599627370496))) /
        twoTo 52 % 2048 = k := by
      rw [sign, p52]; split <;> omega
    have fraction : (signBit negative + (k * 4503599627370496 + (m - 4503599627370496))) %
        twoTo 52 = m - 4503599627370496 := by
      rw [sign, p52]; split <;> omega
    have negative' : decide (twoTo 63 ≤
        signBit negative + (k * 4503599627370496 + (m - 4503599627370496))) = negative := by
      rw [sign, p63]; cases negative <;> simp; omega
    have inner : k ≠ 2047 ∧ k ≠ 0 := by omega
    have whole : m - 4503599627370496 + 4503599627370496 = m := by omega
    simp only [ofBits, field, fraction, negative', if_neg inner.1, if_neg inner.2]
    rw [p52, whole]

open Float.Model

theorem toBits_ofBits {u : UInt64} (finite : u.toNat / twoTo 52 % 2048 ≠ 2047) :
    (Float.ofBits u).toBits = u := by
  have field : (@UnpackedFloat.unpackExponent Format.binary64 u.toBitVec).toNat =
      u.toNat / twoTo 52 % 2048 := by
    simp only [UnpackedFloat.unpackExponent, BitVec.toNat_cast, BitVec.extractLsb_toNat,
      UInt64.toNat_toBitVec, Nat.shiftRight_eq_div_pow]
    rfl
  have number : ¬@UnpackedFloat.isNaNBits Format.binary64 u.toBitVec = true := by
    intro nan
    have all := (of_decide_eq_true nan).1
    rw [all] at field
    exact finite field.symm
  change UInt64.ofBitVec (UnpackedFloat.pack Format.binary64
    (UnpackedFloat.unpack Format.binary64 u.toBitVec)) = u
  rw [UnpackedFloat.pack_unpack, if_neg number]

theorem ofFloat_toFloat (negative : Bool) {m : Nat} {e : Int} (canonical : Canonical m e) :
    ofFloat (finite negative m e).toFloat = finite negative m e := by
  have below := magnitudeBits_lt canonical
  have p52 : twoTo 52 = 4503599627370496 := rfl
  have sign : signBit negative = if negative then 9223372036854775808 else 0 := rfl
  have fits : (UInt64.ofNat (signBit negative + magnitudeBits m e)).toNat =
      signBit negative + magnitudeBits m e := by
    rw [UInt64.toNat_ofNat', Nat.mod_eq_of_lt]
    rw [sign]
    split <;> omega
  have finite : (UInt64.ofNat (signBit negative + magnitudeBits m e)).toNat / twoTo 52 % 2048 ≠
      2047 := by
    rw [fits, sign, p52]
    split <;> omega
  simp only [ofFloat, toFloat]
  rw [toBits_ofBits finite, fits, ofBits_magnitudeBits negative canonical]

end floats

theorem ofRatio?_eq_none_iff {num den : Int} (nonzero : den ≠ 0) :
    ofRatio? num den = none ↔ beyond * den.natAbs ≤ num.natAbs :=
  ofQuotient?_eq_none_iff _ (by omega)

/-- A whole number of at most 53 bits loses nothing. -/
theorem ofInt?_exact {n : Int} (small : n.natAbs ≤ twoTo 53) :
    ∃ m e, ofInt? n = some (finite (n < 0) m e) ∧ m * twoTo e.toNat = n.natAbs * twoTo (-e).toNat := by
  by_cases zero : n = 0
  · subst zero
    exact ⟨0, leastExponent, rfl, by simp⟩
  have positive : 0 < n.natAbs := by omega
  by_cases last : n.natAbs = twoTo 53
  · have quotient : ofQuotient? (n < 0) (twoTo 53) 1 = some (finite (n < 0) (twoTo 52) 1) := by
      cases decide (n < 0) <;> decide +kernel
    refine ⟨twoTo 52, 1, ?_, ?_⟩
    · rw [ofInt?, last, quotient]
    · rw [last]
      rfl
  have low : exponentFor n.natAbs 1 ≤ 0 := by
    have short : ¬Reaches n.natAbs 1 53 := by
      simp only [Reaches, Nat.one_mul]
      change ¬twoTo 53 ≤ n.natAbs * 1
      omega
    rw [reaches_iff positive (by decide)] at short
    unfold exponentFor leastExponent
    omega
  have whole : 1 * twoTo (exponentFor n.natAbs 1).toNat = 1 := by
    rw [Int.toNat_eq_zero.mpr low]
    rfl
  have far : ¬Reaches n.natAbs 1 (exponentFor n.natAbs 1 + (53 : Nat)) := by
    rw [reaches_iff positive (by decide)]
    unfold exponentFor
    omega
  rw [reaches_add, whole, Nat.one_mul] at far
  have mantissa : mantissaFor n.natAbs 1 = n.natAbs * twoTo (-exponentFor n.natAbs 1).toNat := by
    simp only [mantissaFor, whole, roundEven_one, Int.toNat_natCast]
  have fits : exponentFor n.natAbs 1 ≤ greatestExponent := by
    unfold greatestExponent
    omega
  refine ⟨mantissaFor n.natAbs 1, exponentFor n.natAbs 1, ?_, ?_⟩
  · rw [ofInt?, ofQuotient?_eq _ positive, if_neg (by omega), if_pos fits]
  · rw [mantissa, Int.toNat_eq_zero.mpr low, twoTo_zero, Nat.mul_one]

end Binary64

open Binary64

theorem exactFloat_error_iff {x : Float} {f : Fault} :
    exactFloat x = .error f ↔ (ofFloat x = .nan ∧ f = .wholeOfNan) ∨
      (∃ negative, ofFloat x = .infinite negative) ∧ f = .wholeOfInfinity := by
  unfold exactFloat
  cases ofFloat x <;> simp [eq_comm]

/-- Exactly the whole numbers from the least one without a float on have none. -/
theorem floatOfInt_error_iff {n : Int} {f : Fault} :
    floatOfInt n = .error f ↔ f = .intTooLarge ∧ beyond ≤ n.natAbs := by
  have none : ofInt? n = none ↔ beyond ≤ n.natAbs := by
    rw [ofInt?, ofQuotient?_eq_none_iff _ (by decide), Nat.mul_one]
  rw [← none]
  unfold floatOfInt
  cases ofInt? n <;> simp [eq_comm]

theorem Number.atMost_int (a b : Int) : (Number.int a).atMost (.int b) = decide (a ≤ b) := by
  have order : (Number.int a).compare? (.int b) = some (compare a b) := by
    simp [Number.compare?, Number.extent, Dyadic.compare, Dyadic.num, Dyadic.den]
  have atMost : (compare a b = .lt ∨ compare a b = .eq) ↔ a ≤ b := by
    rw [Int.compare_eq_lt, Int.compare_eq_eq]
    omega
  rw [Bool.eq_iff_iff, decide_eq_true_iff, ← atMost]
  simp [Number.atMost, Number.less, order]

namespace Config

theorem ticks_error_iff (config : Config) {delay : Int} {f : Fault} :
    config.ticks (.int delay) = .error f ↔
      f = .quotientTooLarge ∧ 0 < delay ∧ beyond * 1000 ≤ (delay * config.tickRate).natAbs := by
  by_cases positive : 0 < delay
  · have waits : ¬delay ≤ 0 := by omega
    have scaled : (Number.int delay).mul (.int config.tickRate) =
        .ok (.int (delay * config.tickRate)) := rfl
    have none := @ofRatio?_eq_none_iff (delay * config.tickRate) 1000 (by decide)
    simp only [ticks, Number.atMost_int, decide_eq_true_eq, if_neg waits, positive, true_and]
    rw [show (1000 : Int).natAbs = 1000 from rfl] at none
    rw [← none]
    cases quotient : ofRatio? (delay * config.tickRate) 1000 with
    | none => simp [scaled, bind, Except.bind, Number.div, quotient, eq_comm]
    | some q =>
      obtain ⟨m, e, rfl, canonical⟩ := ofQuotient?_canonical (by decide) quotient
      simp [scaled, bind, Except.bind, Number.div, quotient, ceilOf, exactFloat,
        ofFloat_toFloat _ canonical, Except.map]
  · have none : delay ≤ 0 := by omega
    simp [ticks, Number.atMost_int, none, positive]

end Config
end TilePuzzle
