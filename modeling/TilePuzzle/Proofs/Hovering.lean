import TilePuzzle.Proofs.Constants
import TilePuzzle.Proofs.Pace

/-! The hovering of a token. Its phase grows with every tick, and no session is so long that it becomes
infinite, where it would have no sine: below a power of two from which on floats lie too far apart for
the step to count, the step is rounded away. -/
namespace TilePuzzle

open Float.Model Float.Model.UnpackedFloat

section
variable {m : Nat} {e limit : Int}

theorem roundedMantissa_le_roundBit (em : ExtendedMantissa) :
    em.roundedMantissa ≤ em.mantissa + em.roundBit.toNat := by
  obtain ⟨mantissa, round, sticky⟩ := em
  cases round <;> cases sticky <;>
    simp only [ExtendedMantissa.roundedMantissa, ExtendedMantissa.accuracy,
      Accuracy.roundToNearestEven, Bool.toNat_true, Bool.toNat_false] <;> omega

/-- The digits that a shift keeps are rounded by the first of those it drops. -/
theorem shift_rounded (em : ExtendedMantissa) (n : Nat) :
    (em >>> (n + 1)).roundedMantissa ≤ em.mantissa / 2 ^ n / 2 + em.mantissa / 2 ^ n % 2 := by
  have rounded := roundedMantissa_le_roundBit (em >>> (n + 1))
  have kept : (em >>> (n + 1)).mantissa = em.mantissa / 2 ^ n / 2 := by
    rw [shift_mantissa, Nat.pow_succ, Nat.div_div_eq_div_mul]
  have first : (em >>> (n + 1)).roundBit = ((em >>> n).mantissa % 2 != 0) := rfl
  rw [shift_mantissa] at first
  rw [kept, first] at rounded
  refine rounded.trans (Nat.add_le_add_left ?_ _)
  rcases Nat.mod_two_eq_zero_or_one (em.mantissa / 2 ^ n) with even | odd
  · simp [even]
  · simp [odd]

/-- The unit that a number with a power of two right above it is rounded to. -/
theorem targetExponent_eq (least : e + 54 ≤ limit) (above : 2 ^ (limit - 1 - e).toNat ≤ m)
    (small : m < 2 ^ (limit - e).toNat) (floor : -1021 ≤ limit) :
    Format.binary64.targetExponent (totalExponent m e) = limit - 53 := by
  have next : 2 ^ (limit - e).toNat = 2 ^ ((limit - 1 - e).toNat + 1) := by
    congr 1
    omega
  have positive : m ≠ 0 := Nat.ne_of_gt (Nat.lt_of_lt_of_le (Nat.two_pow_pos _) above)
  have log : m.log2 = (limit - 1 - e).toNat := (Nat.log2_eq_iff positive).mpr ⟨above, next ▸ small⟩
  simp only [Format.targetExponent, totalExponent, Format.mantissaBits, Format.minExponent, log]
  omega

/-- What is more than half a unit below a power of two is not rounded up to it. -/
theorem round_under (sign : Sign) (least : e + 54 ≤ limit)
    (under : m + 2 ^ (limit - 54 - e).toNat < 2 ^ (limit - e).toNat) (floor : -1021 ≤ limit) :
    Below limit (roundWithAccuracy Format.binary64 sign m e .exact) := by
  by_cases above : 2 ^ (limit - 1 - e).toNat ≤ m
  · have target := targetExponent_eq least above (Nat.lt_of_le_of_lt (Nat.le_add_right _ _) under) floor
    let n := (limit - 54 - e).toNat
    have drops : (limit - 53 - e).toNat = n + 1 := by omega
    -- The 54 digits on top are not all ones, so rounding the last of them carries no further than the first.
    have top : m / 2 ^ n < 2 ^ 54 - 1 := by
      rw [Nat.div_lt_iff_lt_mul (Nat.two_pow_pos _), Nat.sub_mul, Nat.one_mul, ← Nat.pow_add]
      have whole : (limit - e).toNat = 54 + n := by omega
      rw [whole] at under
      exact Nat.lt_sub_of_add_lt under
    have rounded := shift_rounded ⟨m, false, false⟩ n
    refine round_of_rounded sign ?_ ?_ (by omega)
    · simp only [shiftToTargetExponent, shiftToExponent, target]
      omega
    · simp only [shiftToTargetExponent, shiftToExponent, target, drops]
      have room : (limit - (e + (n + 1 : Nat))).toNat = 53 := by omega
      rw [room]
      change ((⟨m, false, false⟩ : ExtendedMantissa) >>> (n + 1)).roundedMantissa < 2 ^ 53
      simp only at rounded
      omega
  · have below : Below (limit - 1 + 1) (roundWithAccuracy Format.binary64 sign m e .exact) :=
      round_below sign .exact (by omega) (Nat.lt_of_not_le above) (by omega)
    exact below.mono (by omega)

end

/-- A number with all the digits that a float has, or with the smallest unit. -/
def Digits : UnpackedFloat → Prop
  | .finite _ m e _ => m < 2 ^ 53 ∧ (2 ^ 52 ≤ m ∨ e = -1074)
  | .infinity _ | .notANumber | .zero _ => True

theorem unpack_digits (b : BitVec Format.binary64.numBits) :
    Digits (unpack Format.binary64 b) := by
  simp only [UnpackedFloat.unpack]
  split
  · split <;> trivial
  · split
    next zero =>
      split
      · trivial
      · refine ⟨Nat.lt_trans (unpackMantissa b).isLt (by decide), .inr ?_⟩
        rw [zero]
        rfl
    next =>
      refine ⟨(1#1 ++ unpackMantissa b).isLt, .inl ?_⟩
      rw [BitVec.toNat_append, ← Nat.shiftLeft_add_eq_or_of_lt (unpackMantissa b).isLt]
      exact Nat.le_add_right _ _

section
variable {m : Nat} {e limit : Int}

/-- The unit of a float below a power of two is at most that of those just below it. -/
theorem unit_le (digits : 2 ^ 52 ≤ m ∨ e = -1074) (least : e ≤ limit)
    (small : m < 2 ^ (limit - e).toNat) (floor : -1021 ≤ limit) : e + 53 ≤ limit := by
  rcases digits with full | smallest
  · have more : 52 < (limit - e).toNat := (Nat.pow_lt_pow_iff_right (by decide)).mp (full.trans_lt small)
    omega
  · omega

/-- However many digits it is written with, a float below a power of two is a unit away from it. -/
theorem decreaseExponent_under {aim : Int} (short : m < 2 ^ 53) (unit : e + 53 ≤ limit)
    (finer : aim ≤ e) :
    (decreaseExponent m e aim).1 + 2 ^ (limit - 53 - aim).toNat ≤ 2 ^ (limit - aim).toNat := by
  have split : (limit - aim).toNat = 53 + (limit - 53 - aim).toNat := by omega
  have fewer : 2 ^ (e - aim).toNat ≤ 2 ^ (limit - 53 - aim).toNat :=
    Nat.pow_le_pow_right (by decide) (by omega)
  simp only [decreaseExponent, Nat.shiftLeft_eq]
  calc m * 2 ^ (e - aim).toNat + 2 ^ (limit - 53 - aim).toNat
      ≤ m * 2 ^ (limit - 53 - aim).toNat + 2 ^ (limit - 53 - aim).toNat :=
        Nat.add_le_add_right (Nat.mul_le_mul_left _ fewer) _
    _ = (m + 1) * 2 ^ (limit - 53 - aim).toNat := (Nat.succ_mul _ _).symm
    _ ≤ 2 ^ 53 * 2 ^ (limit - 53 - aim).toNat := Nat.mul_le_mul_right _ short
    _ = 2 ^ (limit - aim).toNat := by rw [split, Nat.pow_add]

theorem normalize_under {k : Int} (sign : Sign) (least : e + 54 ≤ limit)
    (under : k.natAbs + 2 ^ (limit - 54 - e).toNat < 2 ^ (limit - e).toNat) (floor : -1021 ≤ limit) :
    Below limit (normalize Format.binary64 k e sign) := by
  refine normalize_of_round sign fun s => ?_
  let aim := Format.binary64.targetExponent (totalExponent k.natAbs e)
  refine round_under s (by omega) ?_ floor
  -- With more digits both sides have as many more.
  have wider (a : Int) (fine : e ≤ a) :
      2 ^ (a - (e - (e - aim).toNat)).toNat = 2 ^ (a - e).toNat * 2 ^ (e - aim).toNat := by
    rw [← Nat.pow_add]
    congr 1
    omega
  change k.natAbs <<< (e - aim).toNat + _ < _
  rw [Nat.shiftLeft_eq, wider _ (by omega), wider _ (by omega), ← Nat.add_mul]
  exact Nat.mul_lt_mul_of_pos_right under (Nat.two_pow_pos _)

end

/-- A sum stays below a power of two if one summand is a float below it, and the other is smaller than half
the unit of the floats just below it. -/
theorem add_under {limit : Int} {x y : UnpackedFloat} (digits : Digits x) (first : Below limit x)
    (second : Below (limit - 54) y) (floor : -1021 ≤ limit) :
    Below limit (UnpackedFloat.add Format.binary64 x y) := by
  refine add_of_normalize first (second.mono (by omega)) ?_
  rintro s₁ m₁ e₁ _ s₂ m₂ e₂ _ rfl rfl
  obtain ⟨short, full⟩ := digits
  have fine : min e₁ e₂ ≤ limit - 54 := Int.le_trans (Int.min_le_right _ _) second.1
  have small := aligned_below second.1 second.2 (Int.min_le_right e₁ e₂)
  -- The first summand is a whole unit below the power of two, and the second less than half of one.
  have kept := decreaseExponent_under short (unit_le full first.1 first.2 floor) (Int.min_le_left e₁ e₂)
  have halves := two_pow_double fine
  have sum := natAbs_sum_le s₁ s₂ (decreaseExponent m₁ e₁ (min e₁ e₂)).1
    (decreaseExponent m₂ e₂ (min e₁ e₂)).1
  have unit : limit - 54 + 1 = limit - 53 := by omega
  rw [unit] at halves
  exact normalize_under .positive (by omega) (by omega) floor

theorem Stays.add_half {x y : Float} {limit : Int} (first : Stays limit x)
    (second : Stays (limit - 54) y) (floor : -1021 ≤ limit) (ceiling : limit ≤ 900) :
    Stays limit (x + y) :=
  unpack_pack_below (add_under (unpack_digits _) first second floor) (by omega) ceiling

theorem Stays.sine_ok {x : Float} {limit : Int} (stays : Stays limit x) : sine x = .ok x.sin := by
  have finite : x.isInf = false := by
    change x.toModel.unpack.isInf = false
    unfold Stays at stays
    generalize x.toModel.unpack = value at stays ⊢
    cases value with
    | infinity => contradiction
    | finite | notANumber | zero => rfl
  simp [sine, finite]

/-- What a token keeps whatever a session does to it: it is put on a place, dies, or is updated. -/
structure Player.Lasting (K : Player → Prop) : Prop where
  reset : ∀ {p : Player} place, K p → K (p.reset place).2
  die : ∀ {p : Player}, K p → K p.die
  update : ∀ {p : Player} intent size border, K p → K (p.update intent size border).2

section
variable {K : Player → Prop} (lasting : Player.Lasting K)
include lasting

theorem Turn.Steps.player {size : Nat} {t u : Turn} (steps : Steps size t u) (holds : K t.session.player) :
    K u.session.player := by
  induction steps with
  | refl => exact holds
  | tail _ step ih =>
    cases step with
    | emit | judge | win => exact ih
    | die => exact lasting.die ih
    | teleport place => exact lasting.reset place ih

namespace Game

theorem Loads.player {g after : Game} {result : Except Fault Bool} (loads : g.Loads result after)
    (holds : K g.session.player) : K after.session.player := by
  cases loads with
  | refused | broken | missed => exact holds
  | stuck f level index same | opened level index same =>
    rw [same]
    exact lasting.reset _ holds

theorem tick_player {g : Game} (coherent : g.session.Coherent) (holds : K g.session.player) :
    K g.tick.2.session.player := by
  rcases tick_settles coherent with ⟨_, same⟩ | ⟨level, t, _, _, steps, ends⟩
  · rw [same]; exact holds
  · have kept := steps.player lasting (lasting.update _ _ _ holds)
    rcases ends with same | ⟨board, same⟩
    · rw [same]; exact kept
    · rw [same]; exact kept

theorem perform_player {g : Game} (coherent : g.session.Coherent) (holds : K g.session.player) (op : Op) :
    K (g.perform op).session.player := by
  by_cases load : op.isLoad = true
  · rcases perform_loads load with loads | loads
    · exact loads.player lasting holds
    · exact loads.player lasting holds
  · cases op with
    | load | retry | advance | jump => exact absurd rfl load
    | push | finish | rewrite => exact holds
    | tick => exact tick_player lasting coherent holds

theorem play_player {g : Game} (coherent : g.session.Coherent) (holds : K g.session.player)
    (ops : List Op) : K (g.play ops).session.player := by
  refine (play_keeps (P := fun h => h.session.Coherent ∧ K h.session.player) ?_ ⟨coherent, holds⟩ ops).2
  rintro h op ⟨still, kept⟩
  exact ⟨perform_coherent h op still, perform_player lasting still kept op⟩

end Game

end

namespace Player

/-- A token whose hovering has come no further than its steps can take it. -/
def Hovers (p : Player) : Prop := Stays 53 p.hoverPhase

theorem hover_hovers {p : Player} (hovers : p.Hovers) : p.hover.Hovers := by
  have step : Stays (53 - 54) 0.038 := stays_of_value rfl (by decide) (by decide)
  exact hovers.add_half step (by decide) (by decide)

theorem rest_hovers (moveTicks : Int) : ({ moveTicks } : Player).Hovers := by
  have zero : (0 : Float).toModel.unpack = .zero .positive := rfl
  unfold Hovers Stays
  rw [zero]
  trivial

theorem hovers_lasting : Lasting Hovers where
  reset place hovers := by
    obtain ⟨x, y, frame | frame⟩ := reset_frame _ place <;> rw [frame] <;> exact hovers
  die hovers := hovers
  update {p} intent size border hovers := by
    have higher := hover_hovers hovers
    unfold update
    split
    · exact hovers
    · obtain ⟨x, y, frame | frame⟩ := p.hover.advance_frame <;> rw [frame] <;> exact higher
    · split
      · exact higher
      · exact higher
      next direction =>
        rcases p.hover.tryMove_frame direction size border with frame | ⟨target, frame⟩ <;> rw [frame] <;>
          exact higher

end Player

theorem Session.create_player {config : Config} {levels : LevelSet} {predicates : Predicates}
    {now : Number} {s : Session} (created : create config levels predicates now = .ok s) :
    s.player = { moveTicks := config.moveTicks } := by
  obtain ⟨ids, _, created⟩ := bind_ok_iff.mp created
  obtain ⟨referee, _, created⟩ := bind_ok_iff.mp created
  cases created
  rfl

/-- However long a session is played, the hovering of its token has a sine at the next tick. -/
theorem Game.play_hovers {config : Config} {levels : LevelSet} {predicates : Predicates} {now : Number}
    {s : Session} (created : Session.create config levels predicates now = .ok s) (listeners : Nat)
    (ops : List Op) :
    let next := ((ofSession s listeners).play ops).session.player.hover
    sine next.hoverPhase = .ok next.hoverPhase.sin := by
  have coherent := Session.create_coherent created
  have rests : s.player.Hovers := by
    rw [Session.create_player created]
    exact Player.rest_hovers _
  have kept := play_player (g := ofSession s listeners) Player.hovers_lasting coherent rests ops
  exact (Player.hover_hovers kept).sine_ok

end TilePuzzle
