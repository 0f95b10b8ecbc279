import TilePuzzle.Proofs.Easing
import TilePuzzle.Proofs.Referee

/-! What cannot break in a frame. A token that makes its moves in eleven ticks is shown wherever it
is on its way, and rules are judged without a fault. -/
namespace TilePuzzle

theorem bind_ok_iff {α β : Type} {first : Except Fault α} {next : α → Except Fault β} {b : β} :
    (first >>= next) = .ok b ↔ ∃ a, first = .ok a ∧ next a = .ok b := by
  cases first <;> simp [bind, Except.bind]

namespace Player

/-- A token that makes its moves in eleven ticks, the last of which lands. -/
structure Paced (p : Player) : Prop where
  ticks : p.moveTicks = 11
  elapsed : p.phase = .moving → 0 ≤ p.elapsed ∧ p.elapsed < 11

theorem paced_of_still {p : Player} (ticks : p.moveTicks = 11) (still : p.phase ≠ .moving) :
    p.Paced :=
  ⟨ticks, fun moving => absurd moving still⟩

theorem reset_paced {p : Player} (paced : p.Paced) (place : Place) : (p.reset place).2.Paced := by
  obtain ⟨ticks, elapsed⟩ := paced
  obtain ⟨x, y, frame | frame⟩ := p.reset_frame place
  · rw [frame]
    exact ⟨ticks, elapsed⟩
  · rw [frame]
    exact paced_of_still ticks Phase.noConfusion

theorem die_paced {p : Player} (paced : p.Paced) : p.die.Paced :=
  paced_of_still paced.ticks Phase.noConfusion

theorem hover_paced {p : Player} (paced : p.Paced) : p.hover.Paced := ⟨paced.ticks, paced.elapsed⟩

theorem startMove_paced {p : Player} (paced : p.Paced) (target : Place) :
    (p.startMove target).Paced :=
  ⟨paced.ticks, fun _ => ⟨Int.le_refl 0, show (0 : Int) < 11 by decide⟩⟩

/-- One tick of a move on a board never breaks. -/
theorem advance_ok {p : Player} {size : Nat} (paced : p.Paced) (within : p.Within size)
    (most : size ≤ 64) (moving : p.phase = .moving) :
    ∃ events after, p.advance = (.ok events, after) ∧ after.Paced := by
  obtain ⟨least, below⟩ := paced.elapsed moving
  by_cases under : p.elapsed + 1 < p.moveTicks
  · obtain ⟨x, y, travels⟩ := advance_travels within most moving least under
    rw [travels]
    refine ⟨_, _, rfl, paced.ticks, fun _ => ⟨by simp only; omega, ?_⟩⟩
    rw [← paced.ticks]
    exact under
  · obtain ⟨x, y, lands⟩ := advance_lands within most moving (Int.not_lt.mp under)
    rw [lands]
    exact ⟨_, _, rfl, paced_of_still paced.ticks Phase.noConfusion⟩

theorem tryMove_ok {p : Player} {size : Nat} (paced : p.Paced) (least : 1 ≤ size)
    (direction : Direction) (border : Border) :
    ∃ events after, p.tryMove direction size border = (.ok events, after) ∧ after.Paced := by
  by_cases inside : (p.place.step direction).within size = true
  · simp only [tryMove, if_pos inside]
    exact ⟨_, _, rfl, startMove_paced paced _⟩
  · simp only [tryMove, if_neg inside]
    cases border with
    | kill | exit | block => exact ⟨_, _, rfl, paced⟩
    | wrap =>
      have nonzero : (size : Int) ≠ 0 := by omega
      simp only [wrapped, if_neg nonzero]
      exact ⟨_, _, rfl, startMove_paced paced _⟩

/-- One tick of a token on a board never breaks, whatever the intent and the border. -/
theorem update_ok {p : Player} {size : Nat} (paced : p.Paced) (within : p.Within size)
    (least : 1 ≤ size) (most : size ≤ 64) (intent : Option Direction) (border : Border) :
    ∃ events after, p.update (.ok intent) size border = (.ok events, after) ∧ after.Paced := by
  have hovers := hover_paced paced
  unfold update
  split
  · exact ⟨_, _, rfl, paced⟩
  next moving => exact advance_ok hovers (hover_within within) most moving
  · cases intent with
    | none => exact ⟨_, _, rfl, hovers⟩
    | some direction => exact tryMove_ok hovers least direction border

end Player

namespace Condition

mutual
theorem judge_ok (predicates : Predicates) {context : Context} (landing : context.onTick = false) :
    (c : Condition) → ∃ b, (judge predicates context c).value = .ok b
  | touchTile _ | touchColor _ | reachExit | repeated _ | repeatedSolid _ | patternBreak _
  | sequenceViolates _ | musicPlaying | totalSteps _ | unsupported _ => ⟨_, rfl⟩
  | idleSeconds seconds => ⟨false, by simp [judge, isIdleFor, landing]⟩
  | all conditions => by
    obtain ⟨values, judged⟩ := judgeList_ok predicates landing conditions
    exact ⟨_, by simp only [judge, judged]; rfl⟩
  | any conditions => by
    obtain ⟨values, judged⟩ := judgeList_ok predicates landing conditions
    exact ⟨_, by simp only [judge, judged]; rfl⟩
  | custom name => by
    simp only [judge, ask]
    split <;> exact ⟨_, rfl⟩

theorem judgeList_ok (predicates : Predicates) {context : Context}
    (landing : context.onTick = false) :
    (conditions : List Condition) → ∃ values, (judgeList predicates context conditions).2 = .ok values
  | [] => ⟨[], rfl⟩
  | c :: rest => by
    obtain ⟨b, judged⟩ := judge_ok predicates landing c
    obtain ⟨values, more⟩ := judgeList_ok predicates landing rest
    refine ⟨b :: values, ?_⟩
    simp only [judgeList]
    generalize judge predicates context c = verdict at judged ⊢
    obtain ⟨asked, value⟩ := verdict
    simp only at judged
    subst judged
    simp only [more]
    rfl
end

end Condition

namespace Referee

theorem firstMatch_ok (predicates : Predicates) {context : Context}
    (landing : context.onTick = false) (rules : List Rule) :
    ∃ effect, (firstMatch predicates context rules).2 = .ok effect := by
  induction rules with
  | nil => exact ⟨none, rfl⟩
  | cons rule rest ih =>
    obtain ⟨b, judged⟩ := Condition.judge_ok predicates landing rule.condition
    simp only [firstMatch]
    generalize rule.condition.judge predicates context = verdict at judged ⊢
    obtain ⟨asked, value⟩ := verdict
    simp only at judged
    subst judged
    cases b with
    | true => exact ⟨_, rfl⟩
    | false => exact ih

theorem land_ok (r : Referee) (place : Place) : ∃ events after, r.land place = (.ok events, after) := by
  simp only [land]
  generalize found : firstMatch _ _ _ = outcome
  have judged : ∃ effect, outcome.2 = .ok effect := by
    rw [← found]
    exact firstMatch_ok _ rfl _
  obtain ⟨asked, result⟩ := outcome
  obtain ⟨effect, rfl⟩ := judged
  exact ⟨_, _, rfl⟩

theorem firstDue_ok {context : Context} (rate : context.tickRate = 60)
    (rules : List (Number × Effect)) : ∃ effect, firstDue context rules = .ok effect := by
  obtain ⟨sixty, known⟩ := floatOfInt_ok (n := 60) (by decide)
  have judged (seconds : Number) : ∃ b, Condition.isIdleFor seconds context = .ok b := by
    unfold Condition.isIdleFor
    split
    · rw [rate]
      cases seconds with
      | int n => exact ⟨_, rfl⟩
      | float x => simp [Number.mul, Number.combine, Number.toFloat, known, bind, Except.bind, pure, Except.pure, Except.map]
    · exact ⟨false, rfl⟩
  induction rules with
  | nil => exact ⟨none, rfl⟩
  | cons rule rest ih =>
    obtain ⟨b, holds⟩ := judged rule.1
    simp only [firstDue, holds]
    cases b with
    | true => exact ⟨_, rfl⟩
    | false => exact ih

/-- With sixty ticks in a second idle time is always judged. -/
theorem tick_ok {r : Referee} (rate : r.config.tickRate = 60) (moving : Bool) :
    ∃ events after, r.tick moving = (.ok events, after) := by
  simp only [tick]
  generalize due : firstDue _ _ = outcome
  have judged : ∃ effect, outcome = .ok effect := by
    rw [← due]
    exact firstDue_ok rate _
  obtain ⟨effect, rfl⟩ := judged
  cases effect <;> exact ⟨_, _, rfl⟩

end Referee
end TilePuzzle
