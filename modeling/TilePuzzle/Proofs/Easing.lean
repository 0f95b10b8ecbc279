import TilePuzzle.Proofs.Animation
import TilePuzzle.Proofs.Player

/-! The course of a move of any length. What it is computed from stays small, far below where a cube
could leave the floats, so a token is shown wherever it has come, and its last tick lands. Only
sizes are followed, by the power of two that a float stays below; how floats are rounded does not
matter. -/
namespace TilePuzzle

open Float.Model Float.Model.UnpackedFloat

/-- A float that is not infinite, and below a power of two if it is a number. -/
def Below (limit : Int) : UnpackedFloat → Prop
  | .finite _ m e _ => e ≤ limit ∧ m < 2 ^ (limit - e).toNat
  | .infinity _ => False
  | .notANumber | .zero _ => True

theorem two_pow_split {a b c : Int} (first : a ≤ b) (last : b ≤ c) :
    2 ^ (c - a).toNat = 2 ^ (c - b).toNat * 2 ^ (b - a).toNat := by
  rw [← Nat.pow_add]
  congr 1
  omega

theorem two_pow_double {a b : Int} (le : a ≤ b) : 2 ^ (b + 1 - a).toNat = 2 * 2 ^ (b - a).toNat := by
  rw [← Nat.pow_succ']
  congr 1
  omega

theorem shift_mantissa (em : ExtendedMantissa) (n : Nat) :
    (em >>> n).mantissa = em.mantissa / 2 ^ n := by
  induction n with
  | zero => exact (Nat.div_one _).symm
  | succ n ih =>
    change (em >>> n).mantissa / 2 = _
    rw [ih, Nat.div_div_eq_div_mul, Nat.pow_succ]

section
variable {m : Nat} {e limit : Int}

theorem targetExponent_le (least : e ≤ limit) (small : m < 2 ^ (limit - e).toNat)
    (floor : -1074 ≤ limit) : Format.binary64.targetExponent (totalExponent m e) ≤ limit := by
  have log : m.log2 ≤ (limit - e).toNat := by
    by_cases zero : m = 0
    · simp [zero]
    · exact Nat.le_of_lt ((Nat.log2_lt zero).mpr small)
  simp only [Format.targetExponent, totalExponent, Format.mantissaBits, Format.minExponent]
  omega

/-- Dropping digits leaves a number below where it was. -/
theorem shift_below (accuracy : Accuracy) (least : e ≤ limit)
    (small : m < 2 ^ (limit - e).toNat) (floor : -1074 ≤ limit) :
    (shiftToTargetExponent Format.binary64 m e accuracy).2 ≤ limit ∧
    (shiftToTargetExponent Format.binary64 m e accuracy).1.mantissa <
      2 ^ (limit - (shiftToTargetExponent Format.binary64 m e accuracy).2).toNat := by
  have target := targetExponent_le least small floor
  simp only [shiftToTargetExponent, shiftToExponent]
  generalize Format.binary64.targetExponent (totalExponent m e) = aim at target ⊢
  have initial : (ExtendedMantissa.ofMantissaAndAccuracy m accuracy).mantissa = m := by
    cases accuracy with
    | exact => rfl
    | inexact order => cases order <;> rfl
  refine ⟨by omega, ?_⟩
  rw [shift_mantissa, initial]
  apply Nat.div_lt_of_lt_mul
  have split := two_pow_split (a := e) (b := e + (aim - e).toNat) (c := limit) (by omega) (by omega)
  have back : (e + (aim - e).toNat - e).toNat = (aim - e).toNat := by omega
  rw [back] at split
  rw [Nat.mul_comm, ← split]
  exact small

theorem roundedMantissa_le (em : ExtendedMantissa) : em.roundedMantissa ≤ em.mantissa + 1 := by
  obtain ⟨mantissa, round, sticky⟩ := em
  cases round <;> cases sticky <;>
    simp only [ExtendedMantissa.roundedMantissa, ExtendedMantissa.accuracy,
      Accuracy.roundToNearestEven] <;> omega

/-- Only the first shift rounds; the second makes room for a digit that rounding has added. -/
theorem round_of_rounded (sign : Sign) {accuracy : Accuracy}
    (least : (shiftToTargetExponent Format.binary64 m e accuracy).2 ≤ limit)
    (small : (shiftToTargetExponent Format.binary64 m e accuracy).1.roundedMantissa <
      2 ^ (limit - (shiftToTargetExponent Format.binary64 m e accuracy).2).toNat)
    (floor : -1074 ≤ limit) : Below limit (roundWithAccuracy Format.binary64 sign m e accuracy) := by
  simp only [roundWithAccuracy]
  generalize shiftToTargetExponent Format.binary64 m e accuracy = shifted at least small ⊢
  obtain ⟨second, final⟩ := shift_below .exact least small floor
  split
  · trivial
  · exact ⟨second, final⟩

/-- Rounding takes a number past one power of two at most. -/
theorem round_below (sign : Sign) (accuracy : Accuracy) (least : e ≤ limit)
    (small : m < 2 ^ (limit - e).toNat) (floor : -1074 ≤ limit) :
    Below (limit + 1) (roundWithAccuracy Format.binary64 sign m e accuracy) := by
  obtain ⟨first, kept⟩ := shift_below accuracy least small floor
  refine round_of_rounded sign (by omega) ?_ (by omega)
  generalize shiftToTargetExponent Format.binary64 m e accuracy = shifted at first kept ⊢
  have rounded := roundedMantissa_le shifted.1
  rw [two_pow_double first]
  omega

end

theorem Below.mono {a b : Int} {x : UnpackedFloat} (below : Below a x) (le : a ≤ b) : Below b x := by
  cases x with
  | finite s m e pos =>
    obtain ⟨least, small⟩ := below
    exact ⟨by omega, Nat.lt_of_lt_of_le small (Nat.pow_le_pow_right (by decide) (by omega))⟩
  | infinity | notANumber | zero => exact below

theorem mul_below {a b : Int} {x y : UnpackedFloat} (first : Below a x) (second : Below b y)
    (floor : -1074 ≤ a + b) : Below (a + b + 1) (UnpackedFloat.mul Format.binary64 x y) := by
  cases x <;> cases y <;> simp only [UnpackedFloat.mul, Below] at first second ⊢
  next s₁ m₁ e₁ _ s₂ m₂ e₂ _ =>
    refine round_below _ _ (by omega) ?_ floor
    have split : (a + b - (e₁ + e₂)).toNat = (a - e₁).toNat + (b - e₂).toNat := by omega
    rw [split, Nat.pow_add]
    exact Nat.mul_lt_mul'' first.2 second.2

/-- Writing a number with more digits leaves it below where it was. -/
theorem decreaseExponent_below {m : Nat} {e limit : Int} (aim : Int) (least : e ≤ limit)
    (small : m < 2 ^ (limit - e).toNat) :
    (decreaseExponent m e aim).2 = e - (e - aim).toNat ∧
    (decreaseExponent m e aim).1 < 2 ^ (limit - (decreaseExponent m e aim).2).toNat := by
  refine ⟨rfl, ?_⟩
  simp only [decreaseExponent, Nat.shiftLeft_eq]
  have split : (limit - (e - (e - aim).toNat)).toNat = (limit - e).toNat + (e - aim).toNat := by omega
  rw [split, Nat.pow_add]
  exact Nat.mul_lt_mul_of_pos_right small (Nat.two_pow_pos _)

theorem aligned_below {m : Nat} {e limit aim : Int} (least : e ≤ limit)
    (small : m < 2 ^ (limit - e).toNat) (finer : aim ≤ e) :
    (decreaseExponent m e aim).1 < 2 ^ (limit - aim).toNat := by
  obtain ⟨lowered, still⟩ := decreaseExponent_below aim least small
  have same : e - (e - aim).toNat = aim := by omega
  rwa [lowered, same] at still

/-- The sign of a number decides how it is rounded, but not what of its size is rounded. -/
theorem normalize_of_round {m : Int} {e limit : Int} (sign : Sign)
    (rounds : ∀ s, Below limit (UnpackedFloat.round Format.binary64 s m.natAbs e)) :
    Below limit (normalize Format.binary64 m e sign) := by
  unfold UnpackedFloat.normalize
  split
  next negative =>
    have size : (-m).toNat = m.natAbs := by have := Int.compare_eq_lt.mp negative; omega
    exact size ▸ rounds _
  next => trivial
  next positive =>
    have size : m.toNat = m.natAbs := by have := Int.compare_eq_gt.mp positive; omega
    exact size ▸ rounds _

theorem normalize_below {m : Int} {e limit : Int} (sign : Sign) (least : e ≤ limit)
    (small : m.natAbs < 2 ^ (limit - e).toNat) (floor : -1074 ≤ limit) :
    Below (limit + 1) (normalize Format.binary64 m e sign) := by
  refine normalize_of_round sign fun s => ?_
  obtain ⟨lowered, still⟩ := decreaseExponent_below
    (Format.binary64.targetExponent (totalExponent m.natAbs e)) least small
  exact round_below s .exact (by omega) still floor

theorem natAbs_sum_le (s₁ s₂ : Sign) (k₁ k₂ : Nat) :
    (s₁.apply k₁ + s₂.apply k₂ : Int).natAbs ≤ k₁ + k₂ := by
  cases s₁ <;> cases s₂ <;> simp only [Sign.apply] <;> omega

/-- Only the sum of two numbers is rounded. -/
theorem add_of_normalize {limit : Int} {x y : UnpackedFloat} (first : Below limit x) (second : Below limit y)
    (rounds : ∀ {s₁ m₁ e₁ pos₁ s₂ m₂ e₂ pos₂}, x = .finite s₁ m₁ e₁ pos₁ → y = .finite s₂ m₂ e₂ pos₂ →
      Below limit (normalize Format.binary64 (s₁.apply (decreaseExponent m₁ e₁ (min e₁ e₂)).1 +
        s₂.apply (decreaseExponent m₂ e₂ (min e₁ e₂)).1) (min e₁ e₂) .positive)) :
    Below limit (UnpackedFloat.add Format.binary64 x y) := by
  cases x with
  | infinity => contradiction
  | notANumber => cases y <;> trivial
  | zero s =>
    cases y with
    | infinity => contradiction
    | notANumber => trivial
    | zero => simp only [UnpackedFloat.add]; split <;> trivial
    | finite => exact second
  | finite s₁ m₁ e₁ _ =>
    cases y with
    | infinity => contradiction
    | notANumber => trivial
    | zero => exact first
    | finite s₂ m₂ e₂ _ => exact rounds rfl rfl

theorem add_below {limit : Int} {x y : UnpackedFloat} (first : Below limit x)
    (second : Below limit y) (floor : -1074 ≤ limit) :
    Below (limit + 2) (UnpackedFloat.add Format.binary64 x y) := by
  refine add_of_normalize (first.mono (by omega)) (second.mono (by omega)) ?_
  rintro s₁ m₁ e₁ _ s₂ m₂ e₂ _ rfl rfl
  have within : min e₁ e₂ ≤ limit := Int.le_trans (Int.min_le_left _ _) first.1
  have small := aligned_below first.1 first.2 (Int.min_le_left e₁ e₂)
  have also_small := aligned_below second.1 second.2 (Int.min_le_right e₁ e₂)
  have sum := natAbs_sum_le s₁ s₂ (decreaseExponent m₁ e₁ (min e₁ e₂)).1
    (decreaseExponent m₂ e₂ (min e₁ e₂)).1
  have total : limit + 2 = limit + 1 + 1 := by omega
  rw [total]
  refine normalize_below .positive (by omega) ?_ (by omega)
  rw [two_pow_double within]
  omega

theorem unpack_below {b : BitVec Format.binary64.numBits} {limit : Int}
    (finite : unpackExponent b ≠ -1#_) (floor : -1022 ≤ limit)
    (small : (unpackExponent b).toNat - 1022 ≤ limit) : Below limit (unpack Format.binary64 b) := by
  have bias : (Format.binary64.exponentBias : Int) = 1023 := rfl
  unfold UnpackedFloat.unpack
  rw [if_neg finite]
  split
  next zero =>
    split
    · trivial
    · have bits := (unpackMantissa b).isLt
      rw [zero]
      refine ⟨by simp [bias]; omega, Nat.lt_of_lt_of_le bits (Nat.pow_le_pow_right (by decide) ?_)⟩
      simp [bias]
      omega
  next normal =>
    have bits := (1#1 ++ unpackMantissa b).isLt
    refine ⟨by omega, Nat.lt_of_lt_of_le bits (Nat.pow_le_pow_right (by decide) ?_)⟩
    rw [bias]
    omega

theorem unpack_pack_below {x : UnpackedFloat} {limit : Int} (below : Below limit x)
    (floor : -1022 ≤ limit) (ceiling : limit ≤ 900) :
    Below limit (unpack Format.binary64 (UnpackedFloat.pack Format.binary64 x)) := by
  cases x with
  | infinity => contradiction
  | notANumber => trivial
  | zero s => cases s <;> trivial
  | finite s m e pos =>
    obtain ⟨least, small⟩ := below
    have exponent : (e + Format.binary64.exponentBias + (52 : Nat)).toNat = (e + 1075).toNat := by
      change (e + (1023 : Nat) + (52 : Nat)).toNat = _
      omega
    simp only [UnpackedFloat.pack, exponent]
    split
    next overflows => exact absurd overflows (by change ¬2048 ≤ _; omega)
    next =>
      split
      next full =>
        have digits : 52 < (limit - e).toNat := by
          have log : m.log2 = 52 := Nat.add_right_cancel (m := 1) full
          rw [← log]
          exact (Nat.log2_lt (by omega)).mpr small
        have field : (BitVec.ofNat 11 (e + 1075).toNat).toNat = (e + 1075).toNat := by
          rw [BitVec.toNat_ofNat]
          omega
        apply unpack_below
        · rw [unpackExponent_packComponents]
          intro all
          have top : (e + 1075).toNat = 2047 := field.symm.trans (congrArg BitVec.toNat all)
          omega
        · exact floor
        · rw [unpackExponent_packComponents, field]
          omega
      next =>
        apply unpack_below
        · rw [unpackExponent_packComponents]
          decide
        · exact floor
        · rw [unpackExponent_packComponents]
          exact floor

theorem unpackExponent_toNat (b : BitVec Format.binary64.numBits) :
    (unpackExponent b).toNat = b.toNat / twoTo 52 % 2048 := by
  simp only [unpackExponent, BitVec.toNat_cast, BitVec.extractLsb_toNat, Nat.shiftRight_eq_div_pow]
  rfl

/-- A float that is not infinite, and below a power of two if it is a number. -/
def Stays (limit : Int) (x : Float) : Prop := Below limit x.toModel.unpack

theorem stays_of_value {x : Float} {negative : Bool} {m : Nat} {e limit : Int}
    (value : Binary64.ofFloat x = .finite negative m e) (floor : -1022 ≤ limit)
    (small : e + 53 ≤ limit) : Stays limit x := by
  have field := unpackExponent_toNat x.toModel.toBits.toBitVec
  have bits : x.toModel.toBits.toBitVec.toNat = x.toBits.toNat := rfl
  rw [bits] at field
  simp only [Binary64.ofFloat, Binary64.ofBits] at value
  split at value
  · split at value <;> contradiction
  next number =>
    apply unpack_below
    · intro all
      exact number (field.symm.trans (congrArg BitVec.toNat all))
    · exact floor
    · rw [field]
      split at value
      next zero => rw [zero]; exact floor
      next =>
        cases value
        omega

section
variable {a b limit : Int} {x y : Float}

theorem Stays.mono (stays : Stays a x) (le : a ≤ b) : Stays b x := Below.mono stays le

theorem Stays.mul (first : Stays a x) (second : Stays b y) (floor : -1022 ≤ a + b + 1)
    (ceiling : a + b + 1 ≤ 900) : Stays (a + b + 1) (x * y) :=
  unpack_pack_below (mul_below first second (by omega)) floor ceiling

theorem Stays.add (first : Stays limit x) (second : Stays limit y) (floor : -1022 ≤ limit)
    (ceiling : limit + 2 ≤ 900) : Stays (limit + 2) (x + y) :=
  unpack_pack_below (add_below first second (by omega)) (by omega) ceiling

theorem Stays.abs (stays : Stays limit x) (floor : -1022 ≤ limit) (ceiling : limit ≤ 900) :
    Stays limit x.abs := by
  refine unpack_pack_below ?_ floor ceiling
  unfold Stays at stays
  generalize x.toModel.unpack = value at stays ⊢
  cases value <;> exact stays

end

theorem ok_bind {α β : Type} (a : α) (next : α → Except Fault β) :
    (Except.ok a >>= next) = next a := rfl

section
variable {ints : Int → Int → Int} {floats : Float → Float → Float} {n : Int} {y : Float}

theorem Number.combine_int_float (known : floatOfInt n = .ok y) (x : Float) :
    combine ints floats (.int n) (.float x) = .ok (.float (floats y x)) := by
  simp only [combine, toFloat, known, bind, Except.bind, pure, Except.pure]

theorem Number.combine_float_int (known : floatOfInt n = .ok y) (x : Float) :
    combine ints floats (.float x) (.int n) = .ok (.float (floats x y)) := by
  simp only [combine, toFloat, known, bind, Except.bind, pure, Except.pure]

end

namespace Curve

theorem greatestCubed_value : ∃ m pos,
    greatestCubed.toModel.unpack = .finite .positive m 289 pos := ⟨_, _, rfl⟩

/-- What stays below the greatest float with a cube has one. -/
theorem cube_ok {x : Float} (stays : Stays 200 x) : cube (.float x) = .ok (.float (x.pow 3)) := by
  have below : Below 200 x.abs.toModel.unpack := stays.abs (by decide) (by decide)
  have under : UnpackedFloat.lt greatestCubed.toModel.unpack x.abs.toModel.unpack = false := by
    obtain ⟨m, pos, value⟩ := greatestCubed_value
    rw [value]
    generalize x.abs.toModel.unpack = size at below ⊢
    cases size with
    | infinity => contradiction
    | notANumber | zero => rfl
    | finite s k e _ =>
      cases s with
      | negative => rfl
      | positive =>
        have order : compare (289 : Int) e = .gt := Int.compare_eq_gt.mpr (by have := below.1; omega)
        simp [UnpackedFloat.lt, UnpackedFloat.compare, order]
  have above : ¬greatestCubed < x.abs := by
    intro less
    have less : UnpackedFloat.lt greatestCubed.toModel.unpack x.abs.toModel.unpack = true :=
      of_decide_eq_true less
    rw [under] at less
    contradiction
  simp [cube, above]

theorem floatOfInt_value {n : Int} {negative : Bool} {m : Nat} {e : Int}
    (value : Binary64.ofInt? n = some (.finite negative m e)) :
    floatOfInt n = .ok (Binary64.finite negative m e).toFloat ∧
    Binary64.ofFloat (Binary64.finite negative m e).toFloat = .finite negative m e := by
  obtain ⟨_, _, same, canonical⟩ := Binary64.ofQuotient?_canonical (by decide) value
  cases same
  refine ⟨?_, Binary64.ofFloat_toFloat _ canonical⟩
  simp only [floatOfInt, value]

theorem easeIn_ok (x : Float) : ∃ y, easeIn (.float x) = .ok (.float y) := by
  obtain ⟨four, known⟩ := floatOfInt_ok (n := 4) (by decide)
  have scaled : (Number.int 4).mul (.float x) = .ok (.float (four * x)) :=
    Number.combine_int_float known x
  refine ⟨four * x * x * x, ?_⟩
  unfold easeIn
  rw [scaled]
  rfl

theorem easeOut_ok {x : Float} (stays : Stays 1 x) : ∃ y, easeOut (.float x) = .ok (.float y) := by
  have two : Binary64.ofInt? 2 = some (.finite false 4503599627370496 (-51)) := by decide +kernel
  have minus : Binary64.ofInt? (-2) = some (.finite true 4503599627370496 (-51)) := by
    decide +kernel
  obtain ⟨known, value⟩ := floatOfInt_value two
  obtain ⟨known', value'⟩ := floatOfInt_value minus
  obtain ⟨one, unit⟩ := floatOfInt_ok (n := 1) (by decide)
  have nonzero : ((Binary64.finite false 4503599627370496 (-51)).toFloat == 0) = false := by
    decide +kernel
  have second : Stays 2 _ := stays_of_value value (by decide) (by decide)
  have first : Stays 2 _ := stays_of_value value' (by decide) (by decide)
  generalize (Binary64.finite false _ _).toFloat = two at known nonzero second
  generalize (Binary64.finite true _ _).toFloat = minus at known' first
  have falling : Stays 200 (minus * x + two) := by
    have product : Stays 4 (minus * x) := first.mul stays (by decide) (by decide)
    exact (product.add (second.mono (by decide)) (by decide) (by decide)).mono (by decide)
  have scaled : (Number.int (-2)).mul (.float x) = .ok (.float (minus * x)) :=
    Number.combine_int_float known' x
  have raised : (Number.float (minus * x)).add (.int 2) = .ok (.float (minus * x + two)) :=
    Number.combine_float_int known _
  have halved (y : Float) : (Number.float y).div (.int 2) = .ok (y / two) := by
    have unfolded : (Number.float y).div (.int 2) = (floatOfInt 2 >>= fun two =>
        if two == 0 then .error .divisionByZero else .ok (y / two)) := rfl
    rw [unfolded, known, ok_bind, nonzero]
    rfl
  have turned (y : Float) : (Number.int 1).sub (.float y) = .ok (.float (one - y)) :=
    Number.combine_int_float unit y
  refine ⟨one - (minus * x + two).pow 3 / two, ?_⟩
  unfold easeOut
  rw [scaled, ok_bind, raised, ok_bind, cube_ok falling, ok_bind, halved,
    ok_bind, turned]

/-- The course of a move is defined wherever it has come. -/
theorem ease_ok {x : Float} (stays : Stays 1 x) : ∃ y, ease (.float x) = .ok (.float y) := by
  unfold ease
  split
  · exact easeIn_ok x
  · exact easeOut_ok stays

end Curve

/-- A whole number of at most 53 bits is the float that it becomes. -/
theorem floatOfInt_exact {n : Int} (small : n.natAbs ≤ twoTo 53) {x : Float}
    (known : floatOfInt n = .ok x) : (Number.float x).compare? (.int n) = some .eq := by
  obtain ⟨m, e, quotient, exact⟩ := Binary64.ofInt?_exact small
  obtain ⟨becomes, value⟩ := Curve.floatOfInt_value quotient
  cases known.symm.trans becomes
  simp only [Number.compare?, Number.extent, value, Option.some.injEq, Dyadic.compare, Dyadic.num,
    Dyadic.den, compare_eq_iff_eq, twoTo_zero, Int.toNat_zero, Int.neg_zero]
  have exact : (m : Int) * twoTo e.toNat = n.natAbs * twoTo (-e).toNat := by exact_mod_cast exact
  by_cases below : n < 0
  · have size : (n.natAbs : Int) = -n := by omega
    rw [size] at exact
    simp [below, exact]
  · have size : (n.natAbs : Int) = n := by omega
    rw [size] at exact
    simp [below, exact]

/-- A quotient below one is a float below one, or just one. -/
theorem Binary64.ofQuotient?_proper {num den : Nat} (negative : Bool) (proper : num < den) :
    ∃ m e, ofQuotient? negative num den = some (.finite negative m e) ∧ e ≤ -52 ∧
      Canonical m e := by
  have denPos : 0 < den := by omega
  have given : ofQuotient? negative num den ≠ none := by
    rw [Ne, ofQuotient?_eq_none_iff negative denPos]
    have large : den ≤ beyond * den := Nat.le_mul_of_pos_left _ (by decide +kernel)
    omega
  cases found : ofQuotient? negative num den with
  | none => exact absurd found given
  | some b =>
    obtain ⟨m, e, rfl, canonical⟩ := ofQuotient?_canonical denPos found
    refine ⟨m, e, rfl, ?_, canonical⟩
    by_cases zero : num = 0
    · simp only [ofQuotient?, if_pos zero, Option.some.injEq, finite.injEq] at found
      have := found.2.2
      unfold leastExponent at this
      omega
    have numPos : 0 < num := by omega
    have under : magnitude num den ≤ -1 := by
      have short : ¬Reaches num den 0 := by simp [Reaches, proper]
      rw [reaches_iff numPos denPos] at short
      omega
    have small : exponentFor num den ≤ -53 := by
      unfold exponentFor leastExponent
      omega
    rw [ofQuotient?_eq negative numPos] at found
    split at found
    · split at found
      · cases found; omega
      · contradiction
    · split at found
      · cases found; omega
      · contradiction

def Place.Showable (place : Place) : Prop :=
  place.col.natAbs < Binary64.beyond ∧ place.row.natAbs < Binary64.beyond

namespace Player

theorem progress_ok {p : Player} (least : 0 ≤ p.elapsed) (under : p.elapsed < p.moveTicks) :
    ∃ part, p.progress = .ok part ∧ Stays 1 part := by
  obtain ⟨m, e, quotient, small, canonical⟩ :=
    Binary64.ofQuotient?_proper false (show p.elapsed.natAbs < p.moveTicks.natAbs by omega)
  have nonzero : p.moveTicks ≠ 0 := by omega
  have sign : (decide (p.elapsed < 0) != decide (p.moveTicks < 0)) = false := by
    simp only [bne_eq_false_iff_eq, decide_eq_decide]
    omega
  have ratio : Binary64.ofRatio? p.elapsed p.moveTicks = some (.finite false m e) := by
    rw [Binary64.ofRatio?, sign]
    exact quotient
  have value := Binary64.ofFloat_toFloat false canonical
  have one : Stays 1 (1 : Float) := by
    have unit : Binary64.ofFloat 1 = .finite false 4503599627370496 (-52) := by decide +kernel
    exact stays_of_value unit (by decide) (by decide)
  simp only [progress, Number.div, if_neg nonzero, ratio, bind, Except.bind, pure, Except.pure]
  refine ⟨_, rfl, ?_⟩
  split
  · exact stays_of_value value (by decide) (by omega)
  · exact one

/-- How far a move has come is known until it lands. -/
theorem course_ok {p : Player} (least : 0 ≤ p.elapsed) (under : p.elapsed < p.moveTicks) :
    ∃ x, (p.progress.bind fun part => Curve.ease (.float part)) = .ok (.float x) := by
  obtain ⟨part, known, stays⟩ := progress_ok least under
  rw [known]
  exact Curve.ease_ok stays

theorem showAt_ok (p : Player) {col row : Except Fault Float} {x y : Float} (across : col = .ok x)
    (down : row = .ok y) :
    p.showAt col row = (.ok (), { p with visualCol := x, visualRow := y }) := by
  rw [across, down]
  rfl

theorem showable_iff {place : Place} : place.Showable ↔
    (∃ x, floatOfInt place.col = .ok x) ∧ ∃ y, floatOfInt place.row = .ok y := by
  rw [floatOfInt_ok_iff, floatOfInt_ok_iff]
  rfl

/-- Between two places that can be shown, in one quadrant, the whole way can. -/
theorem eased_ok {a b : Int} (first : 0 ≤ a ∧ a.natAbs < Binary64.beyond)
    (last : 0 ≤ b ∧ b.natAbs < Binary64.beyond) {t : Except Fault Number} {part : Float}
    (known : t = .ok (.float part)) : ∃ x, eased a b t = .ok x := by
  obtain ⟨x, start⟩ := floatOfInt_ok_iff.mpr first.2
  obtain ⟨span, way⟩ := floatOfInt_ok_iff.mpr (show (b - a).natAbs < Binary64.beyond by omega)
  refine ⟨x + span * part, ?_⟩
  simp [eased, known, Curve.between_eq start way, Number.toFloat, bind, Except.bind]

/-- A tick before the last one of a move takes the token on, if the way can be shown. -/
theorem advance_onward {p : Player} (origin : p.origin.Showable) (target : p.target.Showable)
    (quadrant : 0 ≤ p.origin.col ∧ 0 ≤ p.origin.row ∧ 0 ≤ p.target.col ∧ 0 ≤ p.target.row)
    (least : 0 ≤ p.elapsed) (under : p.elapsed + 1 < p.moveTicks) :
    ∃ x y, p.advance =
      (.ok [], { p with elapsed := p.elapsed + 1, visualCol := x, visualRow := y }) := by
  obtain ⟨part, known⟩ := course_ok (p := { p with elapsed := p.elapsed + 1 })
    (by simp only; omega) under
  obtain ⟨x, across⟩ := eased_ok ⟨quadrant.1, origin.1⟩ ⟨quadrant.2.2.1, target.1⟩ known
  obtain ⟨y, down⟩ := eased_ok ⟨quadrant.2.1, origin.2⟩ ⟨quadrant.2.2.2, target.2⟩ known
  refine ⟨x, y, ?_⟩
  simp only [advance, if_neg (Int.not_le.mpr under), showAt_ok _ across down]

/-- The last tick of a move lands, if its target can be shown. -/
theorem advance_ends {p : Player} {x y : Float} (across : floatOfInt p.target.col = .ok x)
    (down : floatOfInt p.target.row = .ok y) (last : p.moveTicks ≤ p.elapsed + 1) :
    p.advance = (.ok [.landed p.target], { p with
      elapsed := p.elapsed + 1, phase := .idle, place := p.target, visualCol := x, visualRow := y }) := by
  simp only [advance, if_pos last, showAt_ok _ across down]

/-- Every place on a board can be shown. -/
theorem showable_within {place : Place} {size : Nat} (inside : place.within size = true)
    (most : size ≤ 64) : place.Showable := by
  have reach := lt_beyond
  rw [Place.within_iff] at inside
  exact ⟨by omega, by omega⟩

theorem place_ok {place : Place} {size : Nat} (inside : place.within size = true) (most : size ≤ 64) :
    (∃ x, floatOfInt place.col = .ok x) ∧ ∃ y, floatOfInt place.row = .ok y :=
  showable_iff.mp (showable_within inside most)

section
variable {p : Player} {size : Nat}

/-- A tick before the last one of a move takes the token on. -/
theorem advance_travels (within : p.Within size) (most : size ≤ 64) (moving : p.phase = .moving)
    (least : 0 ≤ p.elapsed) (under : p.elapsed + 1 < p.moveTicks) :
    ∃ x y, p.advance =
      (.ok [], { p with elapsed := p.elapsed + 1, visualCol := x, visualRow := y }) := by
  have target := within.target moving
  have origin : p.origin.within size = true := by rw [within.origin moving]; exact within.place
  have starts := (Place.within_iff _ _).mp origin
  have leads := (Place.within_iff _ _).mp target
  exact advance_onward (showable_within origin most) (showable_within target most)
    ⟨starts.1, starts.2.2.1, leads.1, leads.2.2.1⟩ least under

/-- The last tick of a move lands. -/
theorem advance_lands (within : p.Within size) (most : size ≤ 64) (moving : p.phase = .moving)
    (last : p.moveTicks ≤ p.elapsed + 1) :
    ∃ x y, p.advance = (.ok [.landed p.target], { p with
      elapsed := p.elapsed + 1, phase := .idle, place := p.target, visualCol := x, visualRow := y }) := by
  obtain ⟨⟨x, across⟩, y, down⟩ := place_ok (within.target moving) most
  exact ⟨x, y, advance_ends across down last⟩

end

end Player

end TilePuzzle
