import TilePuzzle.Proofs.Board
import TilePuzzle.Proofs.Number
import TilePuzzle.Proofs.Reading

/-! What breaks the animation of a tile. A mechanic breaks at a whole number that no float can hold,
and where a phase without bounds meets a sine, a remainder or a whole number. -/
namespace TilePuzzle

open Binary64

section
variable {α β : Type}

def Fails (result : Except Fault α) : Prop := ∃ f, result = .error f

@[simp] theorem fails_error (f : Fault) : Fails (.error f : Except Fault α) := ⟨f, rfl⟩

@[simp] theorem not_fails_ok (a : α) : ¬Fails (.ok a : Except Fault α) := nofun

@[simp] theorem not_fails_pure (a : α) : ¬Fails (pure a : Except Fault α) := nofun

@[simp] theorem fails_map {result : Except Fault α} {g : α → β} :
    Fails (result.map g) ↔ Fails result := by
  simp [Fails, map_error_iff]

@[simp] theorem fails_fmap {result : Except Fault α} {g : α → β} :
    Fails (g <$> result) ↔ Fails result := fails_map

theorem fails_bind {first : Except Fault α} {next : α → Except Fault β} :
    Fails (first >>= next) ↔ Fails first ∨ ∃ a, first = .ok a ∧ Fails (next a) := by
  cases first <;> simp [bind, Except.bind]

theorem fails_bind_congr {first : Except Fault α} {next : α → Except Fault β} {Q : α → Prop}
    (later : ∀ a, Fails (next a) ↔ Q a) :
    Fails (first >>= next) ↔ Fails first ∨ ∃ a, first = .ok a ∧ Q a := by
  simp only [fails_bind, later]

theorem fails_bind_of {first : Except Fault α} {next : α → Except Fault β} {P : Prop}
    (later : ∀ a, first = .ok a → (Fails (next a) ↔ P)) :
    Fails (first >>= next) ↔ Fails first ∨ P := by
  cases first with
  | error f => simp [bind, Except.bind]
  | ok a => simp [bind, Except.bind, later a rfl]

theorem fails_or_exists {first : Except Fault α} {P : Prop} {Q : α → Prop} :
    (Fails first ∨ ∃ a, first = .ok a ∧ (P ∨ Q a)) ↔
      Fails first ∨ P ∨ ∃ a, first = .ok a ∧ Q a := by
  cases first <;> simp

theorem fails_of_isOk {result : Except Fault α} (broken : result.isOk = false) : Fails result := by
  cases result with
  | error f => exact ⟨f, rfl⟩
  | ok a => contradiction

theorem ok_of_not_fails {result : Except Fault α} (sound : ¬Fails result) :
    ∃ a, result = .ok a := by
  cases result with
  | error f => exact absurd ⟨f, rfl⟩ sound
  | ok a => exact ⟨a, rfl⟩

end

def Unbounded (x : Float) : Prop := ofFloat x = .nan ∨ ∃ negative, ofFloat x = .infinite negative

@[simp] theorem exactFloat_fails_iff {x : Float} : Fails (exactFloat x) ↔ Unbounded x := by
  simp [Fails, Unbounded, exactFloat_error_iff, exists_or]

@[simp] theorem floatOfInt_fails_iff {n : Int} : Fails (floatOfInt n) ↔ beyond ≤ n.natAbs := by
  simp [Fails, floatOfInt_error_iff]

@[simp] theorem sine_fails_iff {x : Float} : Fails (sine x) ↔ x.isInf = true := by
  unfold sine
  split <;> simp [*]

theorem floatRemainder_fullTurn_fails_iff {x : Float} :
    Fails (floatRemainder x Mechanic.fullTurn) ↔ ∃ negative, ofFloat x = .infinite negative := by
  have turn : ofFloat Mechanic.fullTurn = .finite false 7074237752028440 (-50) := by decide +kernel
  unfold floatRemainder
  rw [turn]
  cases ofFloat x <;> simp

theorem lt_beyond : 4096 < beyond := by decide +kernel

/-- Exactly the whole numbers below the least one without a float have one. -/
theorem floatOfInt_ok_iff {n : Int} : (∃ x, floatOfInt n = .ok x) ↔ n.natAbs < beyond := by
  refine ⟨fun ⟨x, known⟩ => ?_, fun below => ok_of_not_fails ?_⟩
  · have sound : ¬Fails (floatOfInt n) := by rw [known]; exact not_fails_ok x
    rw [floatOfInt_fails_iff] at sound
    omega
  · rw [floatOfInt_fails_iff]
    omega

theorem floatOfInt_ok {n : Int} (small : n.natAbs ≤ 4096) : ∃ x, floatOfInt n = .ok x := by
  have reach := lt_beyond
  rw [floatOfInt_ok_iff]
  omega

/-- Between two whole numbers there is a point at every part of the way, if floats can hold the way. -/
theorem Curve.between_eq {a b : Int} {x span : Float} (start : floatOfInt a = .ok x)
    (way : floatOfInt (b - a) = .ok span) (t : Float) :
    between (.int a) (.int b) (.float t) = .ok (.float (x + span * t)) := by
  simp [between, Number.sub, Number.mul, Number.add, Number.combine, Number.toFloat, way, start,
    bind, Except.bind, pure, Except.pure]

theorem Curve.between_ok {a b : Int} (first : 0 ≤ a ∧ a < 256) (last : 0 ≤ b ∧ b < 256) (t : Float) :
    ∃ x span, floatOfInt a = .ok x ∧ floatOfInt (b - a) = .ok span ∧
      between (.int a) (.int b) (.float t) = .ok (.float (x + span * t)) := by
  obtain ⟨x, start⟩ := floatOfInt_ok (n := a) (by omega)
  obtain ⟨span, way⟩ := floatOfInt_ok (n := b - a) (by omega)
  exact ⟨x, span, start, way, between_eq start way t⟩

namespace Color

theorem rgb?_byte {color : String} {rgb : Rgb} (written : rgb? color = some rgb) :
    ∀ component ∈ [Rgb.red, Rgb.green, Rgb.blue], 0 ≤ component rgb ∧ component rgb < 256 := by
  unfold rgb? at written
  split at written
  · obtain ⟨n, _, rfl⟩ := Option.map_eq_some_iff.mp written
    simp only [List.forall_mem_cons, Rgb.ofInt]
    refine ⟨?_, ?_, ?_, nofun⟩ <;> omega
  · contradiction

/-- A component between two bytes, where the way from one to the other leaves the numbers. -/
def Strays (a b : Int) (t : Float) : Prop :=
  ∃ x span, floatOfInt a = .ok x ∧ floatOfInt (b - a) = .ok span ∧ Unbounded (x + span * t)

theorem blendComponent_fails_iff {a b : Int} {t : Float} (first : 0 ≤ a ∧ a < 256)
    (last : 0 ≤ b ∧ b < 256) : Fails (blendComponent a b (.float t)) ↔ Strays a b t := by
  obtain ⟨x, span, start, way, between⟩ := Curve.between_ok first last t
  simp [blendComponent, between, Number.round, Strays, start, way, bind, Except.bind]

/-- Two colours that are blended on a way that leaves the numbers in one of the components. -/
def Unblendable (first last : String) (t : Float) : Prop :=
  ∃ a b, rgb? first = some a ∧ rgb? last = some b ∧
    ∃ component ∈ [Rgb.red, Rgb.green, Rgb.blue], Strays (component a) (component b) t

theorem blend_fails_iff {first last : String} {t : Float} :
    Fails (blend first last (.float t)) ↔ Unblendable first last t := by
  unfold blend Unblendable
  cases start : rgb? first with
  | none => simp
  | some a =>
    cases finish : rgb? last with
    | none => simp
    | some b =>
      have component (c : Rgb → Int) (member : c ∈ [Rgb.red, Rgb.green, Rgb.blue]) :
          Fails (blendComponent (c a) (c b) (.float t)) ↔ Strays (c a) (c b) t :=
        blendComponent_fails_iff (rgb?_byte start c member) (rgb?_byte finish c member)
      refine Iff.trans (fails_bind_of fun _ _ => fails_bind_of fun _ _ => fails_bind_of fun _ _ =>
        iff_false_intro (not_fails_pure _)) ?_
      rw [component Rgb.red (by simp), component Rgb.green (by simp), component Rgb.blue (by simp)]
      simp

end Color

namespace Mechanic

/-- A parameter is a whole number that no float can hold. -/
def Overlarge (params : Fields) (name : String) : Prop :=
  ∃ n, Value.get params name = .int n ∧ beyond ≤ n.natAbs

@[simp] theorem numberParam_fails_iff {params : Fields} {name : String} {default : Float} :
    Fails (numberParam params name default) ↔ Overlarge params name := by
  have reach := lt_beyond
  unfold numberParam Overlarge
  cases Value.get params name with
  | int n =>
    simp only [Value.number?, Number.isZero, beq_iff_eq]
    split
    next zero =>
      have none : ¬beyond ≤ n.natAbs := by omega
      simp [none]
    next => simp [Number.toFloat]
  | float x =>
    simp only [Value.number?]
    split <;> simp [Number.toFloat]
  | null | bool | str | arr | obj => simp [Value.number?]

/-- The number that drives a mechanic, with what stands for a missing one. -/
def pace? : Mechanic → Option (String × Float)
  | blinking => some ("speed", 0.04)
  | rotatingCw | rotatingCcw => some ("speed", 0.025)
  | levitating => some ("frequency", 0.03)
  | pulsing => some ("speed", 0.03)
  | multicolor => some ("speed", 0.01)
  | colorShift => some ("speed", 0.02)
  | solidColor | unsupported => none

def measures : Mechanic → List String
  | levitating => ["amplitude"]
  | pulsing => ["min_scale", "max_scale"]
  | _ => []

/-- A phase that a mechanic can do nothing with. -/
def Loses (params : Fields) (phase : Float) : Mechanic → Prop
  | blinking | levitating | pulsing => (phase * fullTurn).isInf = true
  | rotatingCw | rotatingCcw => ∃ negative, ofFloat phase = .infinite negative
  | multicolor => Unbounded phase
  | colorShift => (phase * fullTurn).isInf = true ∨
      Color.Unblendable (colorParam params "color_from" "#4A90D9")
        (colorParam params "color_to" "#E74C3C") ((phase * fullTurn).sin * 0.5 + 0.5)
  | solidColor | unsupported => False

/-- What breaks a mechanic at a tick. -/
inductive Breaks (tick : Int) (params : Fields) (mechanic : Mechanic) : Prop
  | measure {name : String} : name ∈ mechanic.measures → Overlarge params name →
      Breaks tick params mechanic
  | pace {name : String} {default : Float} : mechanic.pace? = some (name, default) →
      Overlarge params name → Breaks tick params mechanic
  | clock {name : String} {default : Float} : mechanic.pace? = some (name, default) →
      beyond ≤ tick.natAbs → Breaks tick params mechanic
  | phase {name : String} {default speed time : Float} :
      mechanic.pace? = some (name, default) → numberParam params name default = .ok speed →
      floatOfInt tick = .ok time → mechanic.Loses params (time * speed) →
      Breaks tick params mechanic

/-- A tick that no float can hold, or one at which the phase is lost. -/
def LosesAt (tick : Int) (speed : Float) (lost : Float → Prop) : Prop :=
  beyond ≤ tick.natAbs ∨ ∃ time, floatOfInt tick = .ok time ∧ lost (time * speed)

theorem breaks_iff (mechanic : Mechanic) {tick : Int} {params : Fields} {name : String}
    {default : Float} (paced : mechanic.pace? = some (name, default)) :
    mechanic.Breaks tick params ↔ Overlarge params name ∨
      (∃ measure ∈ mechanic.measures, Overlarge params measure) ∨
      ∃ speed, numberParam params name default = .ok speed ∧
        LosesAt tick speed fun phase => mechanic.Loses params phase := by
  constructor
  · intro breaks
    by_cases large : Overlarge params name
    · exact .inl large
    · obtain ⟨speed, read⟩ := ok_of_not_fails (mt numberParam_fails_iff.mp large)
      refine .inr ?_
      cases breaks with
      | measure member large => exact .inl ⟨_, member, large⟩
      | pace other large => cases paced.symm.trans other; contradiction
      | clock _ late => exact .inr ⟨speed, read, .inl late⟩
      | phase other read time lost =>
        cases paced.symm.trans other
        exact .inr ⟨_, read, .inr ⟨_, time, lost⟩⟩
  · rintro (large | ⟨measure, member, large⟩ | ⟨speed, read, late | ⟨time, known, lost⟩⟩)
    · exact .pace paced large
    · exact .measure member large
    · exact .clock paced late
    · exact .phase paced read known lost

theorem phaseAt_bind_fails_iff {α : Type} {tick : Int} {speed : Float} {next : Float → Except Fault α} :
    Fails (phaseAt tick speed >>= next) ↔ LosesAt tick speed fun phase => Fails (next phase) := by
  rw [LosesAt, ← floatOfInt_fails_iff, phaseAt, bind_assoc, fails_bind]
  simp only [pure_bind]

theorem waveAt_fails_iff {tick : Int} {speed : Float} :
    Fails (waveAt tick speed) ↔ LosesAt tick speed fun phase => (phase * fullTurn).isInf = true := by
  rw [waveAt, phaseAt_bind_fails_iff]
  simp only [sine_fails_iff]

theorem factorAt_fails_iff {tick : Int} {speed : Float} :
    Fails (factorAt tick speed) ↔
      LosesAt tick speed fun phase => (phase * fullTurn).isInf = true := by
  simp [factorAt, waveAt_fails_iff]

theorem factorAt_bind_fails_iff {α : Type} {tick : Int} {speed : Float}
    {next : Float → Except Fault α} : Fails (factorAt tick speed >>= next) ↔
      LosesAt tick speed fun phase => (phase * fullTurn).isInf = true ∨
        Fails (next ((phase * fullTurn).sin * 0.5 + 0.5)) := by
  have wave (x : Float) : Fails (sine x >>= fun w => next (w * 0.5 + 0.5)) ↔
      x.isInf = true ∨ Fails (next (x.sin * 0.5 + 0.5)) := by
    unfold sine
    split <;> simp [*, bind, Except.bind]
  simp only [factorAt, waveAt, bind_assoc, pure_bind, phaseAt_bind_fails_iff, wave]

section
variable {tick : Int} {params : Fields} {color : String}

theorem blink_fails_iff : Fails (blink tick params color) ↔ blinking.Breaks tick params := by
  rw [breaks_iff blinking rfl, blink, fails_bind, numberParam_fails_iff]
  simp [waveAt_fails_iff, measures, Loses]

theorem angleAt_fails_iff {mechanic : Mechanic}
    (turning : mechanic = rotatingCw ∨ mechanic = rotatingCcw) :
    Fails (angleAt tick params) ↔ mechanic.Breaks tick params := by
  have paced : mechanic.pace? = some ("speed", 0.025) := by rcases turning with rfl | rfl <;> rfl
  have unmeasured : mechanic.measures = [] := by rcases turning with rfl | rfl <;> rfl
  have loses (phase : Float) : mechanic.Loses params phase ↔
      ∃ negative, ofFloat phase = .infinite negative := by rcases turning with rfl | rfl <;> rfl
  rw [breaks_iff mechanic paced, angleAt, fails_bind, numberParam_fails_iff]
  simp only [phaseAt_bind_fails_iff, floatRemainder_fullTurn_fails_iff, loses, unmeasured,
    List.not_mem_nil, false_and, exists_false, false_or]

theorem levitate_fails_iff : Fails (levitate tick params color) ↔ levitating.Breaks tick params := by
  rw [breaks_iff levitating rfl, levitate]
  refine Iff.trans (fails_bind_of fun amplitude _ => fails_bind_congr
    (Q := fun speed => LosesAt tick speed fun phase => levitating.Loses params phase)
    fun speed => ?_) ?_
  · simp [waveAt_fails_iff, Loses]
  · simp [measures, or_left_comm]

theorem pulse_fails_iff : Fails (pulse tick params color) ↔ pulsing.Breaks tick params := by
  rw [breaks_iff pulsing rfl, pulse]
  refine Iff.trans (fails_bind_congr (Q := fun speed =>
    (Overlarge params "min_scale" ∨ Overlarge params "max_scale") ∨
      LosesAt tick speed fun phase => pulsing.Loses params phase) fun speed => ?_) ?_
  · refine Iff.trans (fails_bind_of fun least _ => fails_bind_of
      (P := LosesAt tick speed fun phase => pulsing.Loses params phase) fun greatest _ => ?_) ?_
    · simp [factorAt_fails_iff, Loses]
    · simp [or_assoc]
  · rw [fails_or_exists]
    simp [measures]

theorem alternate_fails_iff : Fails (alternate tick params) ↔ multicolor.Breaks tick params := by
  rw [breaks_iff multicolor rfl, alternate, fails_bind, numberParam_fails_iff]
  simp [phaseAt_bind_fails_iff, measures, Loses]

theorem shift_fails_iff : Fails (shift tick params) ↔ colorShift.Breaks tick params := by
  rw [breaks_iff colorShift rfl, shift, fails_bind, numberParam_fails_iff]
  simp [factorAt_bind_fails_iff, Color.blend_fails_iff, measures, Loses]

end

theorem look_fails_iff (tick : Int) (mechanic : Option Mechanic) (params : Fields)
    (base : Option String) : Fails (look tick mechanic params base) ↔
      ∃ m, mechanic = some m ∧ m.Breaks tick params := by
  have still (m : Mechanic) (unpaced : m.pace? = none) (unmeasured : m.measures = []) :
      ¬m.Breaks tick params := by
    intro breaks
    cases breaks with
    | measure member => rw [unmeasured] at member; contradiction
    | pace paced | clock paced | phase paced => rw [unpaced] at paced; contradiction
  cases mechanic with
  | none => simp [look]
  | some m =>
    simp only [Option.some.injEq, exists_eq_left']
    cases m with
    | unsupported | solidColor => exact iff_of_false nofun (still _ rfl rfl)
    | blinking => exact blink_fails_iff
    | rotatingCw => exact fails_map.trans (angleAt_fails_iff (.inl rfl))
    | rotatingCcw => exact fails_map.trans (angleAt_fails_iff (.inr rfl))
    | levitating => exact levitate_fails_iff
    | pulsing => exact pulse_fails_iff
    | multicolor => exact alternate_fails_iff
    | colorShift => exact shift_fails_iff

end Mechanic

namespace Tile

/-- A tile that moves with the ticks, and whose mechanic breaks. -/
def Breaks (tick : Int) (t : Tile) : Prop :=
  t.isStart = false ∧ t.isExit = false ∧
    ∃ mechanic, t.mechanic = some mechanic ∧ mechanic.Breaks tick t.params

theorem refresh_fails_iff {tick : Int} {t : Tile} : Fails (t.refresh tick) ↔ t.Breaks tick := by
  unfold refresh Breaks
  split
  next marked =>
    rcases Bool.or_eq_true _ _ ▸ marked with marked | marked <;> simp [marked]
  next plain =>
    simp only [Bool.or_eq_true, not_or, Bool.not_eq_true] at plain
    simp [plain, Mechanic.look_fails_iff]

theorem breaks_bare {tick : Int} {t : Tile} : t.bare.Breaks tick ↔ t.Breaks tick := Iff.rfl

end Tile

namespace Board

theorem refreshRow_fails_iff {tick : Int} {row : List Tile} :
    Fails (refreshRow tick row).1 ↔ ∃ t ∈ row, t.Breaks tick := by
  induction row with
  | nil => simp [refreshRow]
  | cons t rest ih =>
    simp only [List.mem_cons, exists_eq_or_imp, refreshRow]
    rw [← ih, ← Tile.refresh_fails_iff]
    cases t.refresh tick <;> simp

theorem refreshRows_fails_iff {tick : Int} {rows : List (List Tile)} :
    Fails (refreshRows tick rows).1 ↔ ∃ row ∈ rows, ∃ t ∈ row, t.Breaks tick := by
  induction rows with
  | nil => simp [refreshRows]
  | cons row rest ih =>
    simp only [List.mem_cons, exists_eq_or_imp, refreshRows]
    rw [← ih, ← refreshRow_fails_iff]
    obtain ⟨result, after⟩ := refreshRow tick row
    cases result <;> simp

theorem refresh_fails_iff {tick : Int} {b : Board} :
    Fails (b.refresh tick).1 ↔ ∃ t ∈ b.tiles, t.Breaks tick := by
  simp only [refresh, refreshRows_fails_iff, tiles, List.mem_flatten]
  constructor
  · rintro ⟨row, listed, t, member, breaks⟩
    exact ⟨t, ⟨row, listed, member⟩, breaks⟩
  · rintro ⟨t, ⟨row, listed, member⟩, breaks⟩
    exact ⟨row, listed, t, member, breaks⟩

theorem breaks_of_bare {tick : Int} {b c : Board} (same : b.bare = c.bare) :
    (∃ t ∈ b.tiles, t.Breaks tick) → ∃ t ∈ c.tiles, t.Breaks tick := by
  rintro ⟨t, member, breaks⟩
  obtain ⟨u, inside, bare⟩ := mem_of_bare same member
  refine ⟨u, inside, ?_⟩
  rw [← Tile.breaks_bare, bare]
  exact breaks

end Board
end TilePuzzle
