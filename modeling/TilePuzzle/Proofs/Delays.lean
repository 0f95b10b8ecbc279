import TilePuzzle.Proofs.Loading
import TilePuzzle.Proofs.Pace
import TilePuzzle.Proofs.Rounding

/-! Delays in ticks. They are rounded up, but only after the quotient was rounded to a float: a short rest
of a long delay may be gone by then, and the delay is over a tick too early. -/
namespace TilePuzzle
open Binary64

namespace Config
variable {config : Config} {delay : Int}

/-- The ticks of a delay as they are meant: the fewest that last as long, and none without a delay. -/
def Punctual (config : Config) (delay ticks : Int) : Prop :=
  delay ≤ 0 ∧ ticks = 0 ∨
    0 < delay ∧ 1000 * (ticks - 1) < delay * config.tickRate ∧ delay * config.tickRate ≤ 1000 * ticks

instance {ticks : Int} : Decidable (config.Punctual delay ticks) := inferInstanceAs (Decidable (_ ∨ _))

def Told (config : Config) (delay : Int) : Prop :=
  delay * config.tickRate < (beyond : Int) * 1000 ∧ Kept (delay * config.tickRate).toNat 1000

instance : Decidable (config.Told delay) := inferInstanceAs (Decidable (_ ∧ _))

/-- The shortest delay that is over too early, at sixty ticks a second. The rest is 20 of 1000, and from
`2 ^ 48` ticks on floats are a sixteenth apart. -/
def firstEarly : Int := 4691249611844267

theorem ticks_of_nonpos (none : delay ≤ 0) : config.ticks (.int delay) = .ok 0 := by
  simp [ticks, Number.atMost_int, none]

theorem ticks_eq_ceil {due : Int} (rate : 0 < config.tickRate) (positive : 0 < delay)
    (found : config.ticks (.int delay) = .ok due) :
    due = ⌈(rounded (delay * config.tickRate).toNat 1000).toRat⌉ := by
  have waits : ¬delay ≤ 0 := by omega
  have product : 0 < delay * config.tickRate := Int.mul_pos positive rate
  simp only [ticks, Number.atMost_int, decide_eq_true_eq, if_neg waits] at found
  obtain ⟨_, ⟨⟩, found⟩ := bind_ok_iff.mp found
  obtain ⟨x, quotient, found⟩ := bind_ok_iff.mp found
  rw [Number.div, if_neg (by decide)] at quotient
  split at quotient
  next q ratio =>
    cases quotient
    have unsigned : ofQuotient? false (delay * config.tickRate).toNat 1000 = some q := by
      have sign : ((delay * config.tickRate < 0 : Bool) != ((1000 : Int) < 0 : Bool)) = false := by
        simp [product.le]
      have size : (delay * config.tickRate).natAbs = (delay * config.tickRate).toNat := by omega
      have ratio : ofRatio? (delay * config.tickRate) 1000 = some q := ratio
      rw [← ratio, ofRatio?, sign, size]
      rfl
    obtain ⟨m, e, rfl, canonical, same⟩ :=
      ofQuotient?_rounded (Int.lt_toNat.mpr product) (by decide) unsigned
    rw [ceilOf, exactFloat, ofFloat_toFloat _ canonical] at found
    cases found
    rw [← same, ← Dyadic.ceil_eq]
    rfl
  next => contradiction

/-- A quotient out of reach of floats, told without a sign. -/
theorem overlong_iff (rate : 0 < config.tickRate) :
    0 < delay ∧ beyond * 1000 ≤ (delay * config.tickRate).natAbs ↔
      (beyond : Int) * 1000 ≤ delay * config.tickRate := by
  have positive : (0 : Int) < beyond * 1000 := by decide +kernel
  constructor
  · rintro ⟨waits, large⟩
    zify at large
    rwa [abs_of_pos (Int.mul_pos waits rate)] at large
  · intro large
    refine ⟨Int.pos_of_mul_pos_left (positive.trans_le large) rate, ?_⟩
    zify
    rwa [abs_of_pos (positive.trans_le large)]

theorem ticks_error_iff_of_pos (rate : 0 < config.tickRate) {f : Fault} :
    config.ticks (.int delay) = .error f ↔
      f = .quotientTooLarge ∧ (beyond : Int) * 1000 ≤ delay * config.tickRate := by
  rw [ticks_error_iff, overlong_iff rate]

theorem exists_ticks_iff (rate : 0 < config.tickRate) :
    (∃ due, config.ticks (.int delay) = .ok due) ↔ delay * config.tickRate < (beyond : Int) * 1000 := by
  cases found : config.ticks (.int delay) with
  | ok due =>
    refine iff_of_true ⟨due, rfl⟩ (not_le.mp fun large => ?_)
    rw [(ticks_error_iff_of_pos rate).mpr ⟨rfl, large⟩] at found
    contradiction
  | error f => exact iff_of_false nofun (not_lt.mpr ((ticks_error_iff_of_pos rate).mp found).2)

theorem low_lt_beyond : (twoTo 53 * 1000 : Int) < beyond * 1000 :=
  Int.mul_lt_mul_of_pos_right (by decide +kernel) (by decide)

/-- The ticks of a delay that floats tell to a tick: a fraction counts unless its float drops it. -/
theorem ticks_eq (rate : 0 < config.tickRate) (positive : 0 < delay)
    (low : delay * config.tickRate < twoTo 53 * 1000) :
    config.ticks (.int delay) = .ok (if Drops (delay * config.tickRate).toNat 1000 then
      delay * config.tickRate / 1000 else delay * config.tickRate / 1000 + 1) := by
  have product : 0 < delay * config.tickRate := Int.mul_pos positive rate
  obtain ⟨due, found⟩ := (exists_ticks_iff rate).mpr (low.trans low_lt_beyond)
  rw [found, ticks_eq_ceil rate positive found, ceil_rounded (by omega) (by decide) (by decide) (by omega),
    Int.toNat_of_nonneg product.le, Nat.cast_ofNat]

/-- The ticks of a longer delay are off by at most one part in `2 ^ 53`. -/
theorem ticks_near {due : Int} (rate : 0 < config.tickRate) (high : twoTo 53 * 1000 ≤ delay * config.tickRate)
    (found : config.ticks (.int delay) = .ok due) :
    2 ^ 53 * |1000 * due - delay * config.tickRate| ≤ delay * config.tickRate := by
  have large : (0 : Int) < twoTo 53 * 1000 := by decide
  have positive : 0 < delay := Int.pos_of_mul_pos_left (large.trans_le high) rate
  have near := ceil_rounded_near (show 0 < 1000 by decide) (Int.le_toNat (large.trans_le high).le |>.mpr high)
  rwa [← ticks_eq_ceil rate positive found, Int.toNat_of_nonneg (large.trans_le high).le] at near

/-- A longer delay is not over sooner. -/
theorem ticks_mono {later due : Int} (rate : 0 < config.tickRate) (le : delay ≤ later)
    (found : config.ticks (.int later) = .ok due) :
    ∃ sooner ≤ due, config.ticks (.int delay) = .ok sooner := by
  have products := Int.mul_le_mul_of_nonneg_right le rate.le
  have inRange := (exists_ticks_iff rate).mp ⟨due, found⟩
  obtain ⟨sooner, found'⟩ := (exists_ticks_iff rate).mpr (products.trans_lt inRange)
  refine ⟨sooner, ?_, found'⟩
  by_cases waits : 0 < delay
  · rw [ticks_eq_ceil rate waits found', ticks_eq_ceil rate (waits.trans_le le) found]
    have product : 0 < delay * config.tickRate := Int.mul_pos waits rate
    exact Int.ceil_mono (rounded_mono (by omega) (by decide) (by omega))
  · rw [ticks_of_nonpos (not_lt.mp waits)] at found'
    cases found'
    by_cases waits' : 0 < later
    · rw [ticks_eq_ceil rate waits' found]
      exact Int.ceil_nonneg (Dyadic.toRat_nonneg (Int.natCast_nonneg _))
    · rw [ticks_of_nonpos (not_lt.mp waits')] at found
      cases found
      exact le_rfl

/-- No fraction is dropped before the first delay that is over too early. -/
theorem not_drops {num : Nat} (rest : 20 ≤ num % 1000) (low : num / 1000 < twoTo 48) : ¬Drops num 1000 := by
  have bits : (num / 1000).log2 ≤ 47 := by
    by_cases none : num / 1000 = 0
    · rw [none]
      decide
    · exact Nat.le_of_lt_succ ((Nat.log2_lt none).mpr low)
  have fine : 32 ≤ perUnit (num / 1000) := twoTo_le (a := 5) (by omega)
  have scaled := Nat.mul_le_mul rest fine
  unfold Drops
  omega

/-- Every delay before that one is rounded up, as short as its fraction of a tick may be. -/
theorem told_of_lt (rate : config.tickRate = 60) (soon : delay < firstEarly) : config.Told delay := by
  have limit : twoTo 53 = 9007199254740992 := rfl
  have power : twoTo 48 = 281474976710656 := rfl
  unfold firstEarly at soon
  have low : delay * 60 < twoTo 53 * 1000 := by omega
  rw [Told, rate, Kept, if_pos (by omega)]
  refine ⟨low.trans low_lt_beyond, ?_⟩
  -- sixty and a thousand have the divisor 20, so a rest of less is none
  by_cases rest : 20 ≤ (delay * 60).toNat % 1000
  · exact .inr (not_drops rest (by omega))
  · exact .inl (by omega)

/-- The ticks of a delay are as they are meant just where rounding up keeps them. -/
theorem ticks_punctual_iff (rate : 0 < config.tickRate) :
    (∃ due, config.ticks (.int delay) = .ok due ∧ config.Punctual delay due) ↔
      config.Told delay := by
  unfold Told
  by_cases waits : delay ≤ 0
  · have product : delay * config.tickRate ≤ 0 := Int.mul_nonpos_of_nonpos_of_nonneg waits rate.le
    have limit : (0 : Int) < beyond * 1000 := by decide +kernel
    rw [Int.toNat_of_nonpos product]
    exact iff_of_true ⟨0, ticks_of_nonpos waits, .inl ⟨waits, rfl⟩⟩ ⟨product.trans_lt limit, .inl rfl⟩
  have positive : 0 < delay := not_le.mp waits
  have product : 0 < delay * config.tickRate := Int.mul_pos positive rate
  cases found : config.ticks (.int delay) with
  | error f =>
    have large := ((ticks_error_iff_of_pos rate).mp found).2
    exact iff_of_false nofun fun kept => not_lt.mpr large kept.1
  | ok due =>
    have inRange := (exists_ticks_iff rate).mp ⟨due, found⟩
    have punctual : config.Punctual delay due ↔
        due = (((delay * config.tickRate).toNat + 1000 - 1) / 1000 : Nat) := by
      simp only [Punctual, waits, positive, false_and, false_or, true_and]
      omega
    rw [← ceil_rounded_eq_iff_kept (by omega) (by decide) (by decide), ← ticks_eq_ceil rate positive found,
      ← punctual]
    constructor
    · rintro ⟨_, ⟨⟩, meant⟩
      exact ⟨inRange, meant⟩
    · rintro ⟨_, meant⟩
      exact ⟨due, rfl, meant⟩

theorem ticks_firstEarly (rate : config.tickRate = 60) :
    config.ticks (.int firstEarly) = .ok (twoTo 48) := by
  have dropped : Drops (firstEarly * 60).toNat 1000 := by decide +kernel
  rw [ticks_eq (by omega) (by decide) (by rw [rate]; decide), rate, if_pos dropped]
  rfl

/-- Each cue is planned for the ticks of its delay, in the order of the cues. -/
theorem schedule_ticks {cues : List Cue} {plan : List (Int × Cue)}
    (planned : Game.schedule config cues = .ok plan) :
    List.Forall₂ (fun cue entry => entry.2 = cue ∧ config.ticks (.int cue.delay) = .ok entry.1) cues plan := by
  induction cues generalizing plan with
  | nil =>
    cases planned
    exact .nil
  | cons cue rest ih =>
    obtain ⟨due, ticks, planned⟩ := bind_ok_iff.mp planned
    obtain ⟨more, later, planned⟩ := bind_ok_iff.mp planned
    cases planned
    exact .cons ⟨rfl, ticks⟩ (ih later)

/-- A delay at sixty ticks a second. It is rounded up just where it is told, which all up to
4691249611844266 milliseconds are; the one after that is over a tick too early. As long as a float tells single
ticks, a fraction counts unless the float of the quotient is the whole number below it; after that the ticks are
those of the nearest float, which may be too many as well, and a quotient that no float can hold is a fault. The
order of delays is kept throughout, and cues are planned by the ticks of their delays. -/
structure RoundedAtSixty (config : Config) (delay : Int) : Prop where
  told : (∃ due, config.ticks (.int delay) = .ok due ∧ config.Punctual delay due) ↔ config.Told delay
  short : delay < firstEarly → config.Told delay
  early : config.ticks (.int firstEarly) = .ok (twoTo 48)
  meant : config.Punctual firstEarly (twoTo 48 + 1)
  single : 0 < delay → delay * 60 < twoTo 53 * 1000 → config.ticks (.int delay) =
    .ok (if Drops (delay * 60).toNat 1000 then delay * 60 / 1000 else delay * 60 / 1000 + 1)
  near : ∀ due, twoTo 53 * 1000 ≤ delay * 60 → config.ticks (.int delay) = .ok due →
    2 ^ 53 * |1000 * due - delay * 60| ≤ delay * 60
  fault : ∀ f, config.ticks (.int delay) = .error f ↔
    f = .quotientTooLarge ∧ (beyond : Int) * 1000 ≤ delay * 60
  mono : ∀ later due, delay ≤ later → config.ticks (.int later) = .ok due →
    ∃ sooner ≤ due, config.ticks (.int delay) = .ok sooner
  unplanned : ∀ cues f, Game.schedule config cues = .error f ↔
    f = .quotientTooLarge ∧ ∃ cue ∈ cues, (beyond : Int) * 1000 ≤ cue.delay * 60
  planned : ∀ cues plan, Game.schedule config cues = .ok plan →
    List.Forall₂ (fun cue entry => entry.2 = cue ∧ config.ticks (.int cue.delay) = .ok entry.1 ∧
      (config.Punctual cue.delay entry.1 ↔ config.Told cue.delay)) cues plan

theorem ticks_at_sixty (rate : config.tickRate = 60) (delay : Int) : RoundedAtSixty config delay := by
  have positive : 0 < config.tickRate := by omega
  have told (delay : Int) : (∃ due, config.ticks (.int delay) = .ok due ∧ config.Punctual delay due) ↔
      config.Told delay := ticks_punctual_iff positive
  constructor
  case told => exact told delay
  case short => exact told_of_lt rate
  case early => exact ticks_firstEarly rate
  case meant =>
    rw [Punctual, rate]
    decide
  case single =>
    intro waits low
    rw [← rate] at low ⊢
    exact ticks_eq positive waits low
  case near =>
    intro due high found
    rw [← rate] at high ⊢
    exact ticks_near positive high found
  case fault =>
    intro f
    rw [← rate]
    exact ticks_error_iff_of_pos positive
  case mono => exact fun later due le found => ticks_mono positive le found
  case unplanned =>
    intro cues f
    rw [Game.schedule_error_iff, ← rate]
    exact and_congr_right fun _ => exists_congr fun cue => and_congr_right fun _ => overlong_iff positive
  case planned =>
    intro cues plan planned
    refine (schedule_ticks planned).imp fun cue entry ⟨same, found⟩ => ⟨same, found, ?_, ?_⟩
    · exact fun punctual => (told cue.delay).mp ⟨_, found, punctual⟩
    · intro meant
      obtain ⟨due, found', punctual⟩ := (told cue.delay).mpr meant
      rw [found] at found'
      cases found'
      exact punctual

theorem ticks_at_sixty_early : ({} : Config).tickRate = 60 ∧
    ({} : Config).ticks (.int 4691249611844267) = .ok 281474976710656 ∧
    ¬∃ due, ({} : Config).ticks (.int 4691249611844267) = .ok due ∧
      ({} : Config).Punctual 4691249611844267 due :=
  ⟨rfl, (ticks_at_sixty rfl 0).early,
    mt (ticks_at_sixty rfl 4691249611844267).told.mp (by decide +kernel)⟩

end Config
end TilePuzzle
