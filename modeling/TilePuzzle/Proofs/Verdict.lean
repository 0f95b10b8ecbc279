import TilePuzzle.Proofs.Recollection

/-! What conditions come to, and which rule decides. A condition is judged as a whole: every predicate
that it names and that is known is asked once, from left to right, whatever the answers are. Rules are
asked in their order up to the first that holds, which alone takes effect. -/
namespace TilePuzzle

namespace Condition

mutual
/-- The conditions at or below a condition that have none below them, from left to right. -/
def leaves : Condition → List Condition
  | all conditions => leavesOf conditions
  | any conditions => leavesOf conditions
  | c => [c]

def leavesOf : List Condition → List Condition
  | [] => []
  | c :: rest => leaves c ++ leavesOf rest
end

def asks (predicates : Predicates) : Condition → List String
  | custom name => if (predicates.lookup name).isSome then [name] else []
  | _ => []

mutual
/-- Whether a condition holds: conditions are combined as `all` and `any` say. What is not supported, not
known or breaks down is false. -/
def truth (predicates : Predicates) (context : Context) : Condition → Bool
  | all conditions => (truths predicates context conditions).all id
  | any conditions => (truths predicates context conditions).any id
  | custom name => ((predicates.lookup name).bind fun predicate => predicate context).getD false
  | unsupported _ => false
  | idleSeconds seconds =>
    match isIdleFor seconds context with
    | .ok due => due
    | .error _ => false
  | touchTile id => touches context.tile id
  | touchColor color => Color.key (shownColor context.tile) == Color.key color
  | reachExit => (context.tile.map (·.isExit)).getD false
  | repeated color => lastTwoAre context.memory.colors color
  | repeatedSolid color => lastTwoAre context.memory.solidColors color
  | patternBreak pattern => breaksPattern context.memory.colors pattern
  | sequenceViolates sequence => leavesSequence context.memory.colors sequence
  | musicPlaying => context.memory.music
  | totalSteps steps => context.memory.steps == steps

def truths (predicates : Predicates) (context : Context) : List Condition → List Bool
  | [] => []
  | c :: rest => truth predicates context c :: truths predicates context rest
end

/-- A leaf that cannot be judged: on a tick a fraction of seconds is to be multiplied by a rate that no
float can hold. -/
def Overflows (context : Context) (c : Condition) : Prop :=
  context.onTick = true ∧ Binary64.beyond ≤ context.tickRate.natAbs ∧ ∃ x, c = idleSeconds (.float x)

theorem isIdleFor_error_iff {seconds : Number} {context : Context} {f : Fault} :
    isIdleFor seconds context = .error f ↔
      f = .intTooLarge ∧ (idleSeconds seconds).Overflows context := by
  unfold isIdleFor Overflows
  cases context.onTick with
  | false => simp
  | true =>
    cases seconds with
    | int n => simp [Number.mul, Number.combine, map_error_iff]
    | float x =>
      simp only [Number.mul, Number.combine, Number.toFloat, map_error_iff, if_true, true_and]
      refine map_error_iff.trans (floatOfInt_error_iff.trans ?_)
      simp

section
variable {predicates : Predicates} {context : Context}

theorem ask_eq (name : String) : ask predicates context name =
    ⟨asks predicates (custom name), .ok (truth predicates context (custom name))⟩ := by
  simp only [ask, asks, truth]
  cases predicates.lookup name <;> rfl

mutual
/-- Without a leaf that cannot be judged, a condition is judged as a whole. -/
theorem judge_eq : (c : Condition) → (∀ leaf ∈ c.leaves, ¬leaf.Overflows context) →
    judge predicates context c =
      ⟨c.leaves.flatMap (asks predicates), .ok (c.truth predicates context)⟩
  | touchTile _ | touchColor _ | reachExit | repeated _ | repeatedSolid _ | patternBreak _
  | sequenceViolates _ | musicPlaying | totalSteps _ | unsupported _ => fun _ => rfl
  | idleSeconds seconds => fun sound => by
    cases judged : isIdleFor seconds context with
    | error f =>
      exact absurd (isIdleFor_error_iff.mp judged).2 (sound _ (List.mem_singleton_self _))
    | ok due =>
      simp only [judge, truth, judged]
      rfl
  | custom name => fun _ => by
    rw [judge, ask_eq]
    simp only [leaves, List.flatMap_singleton]
  | all conditions => fun sound => by
    rw [judge, judgeList_eq conditions sound]
    rfl
  | any conditions => fun sound => by
    rw [judge, judgeList_eq conditions sound]
    rfl

theorem judgeList_eq : (conditions : List Condition) →
    (∀ leaf ∈ leavesOf conditions, ¬leaf.Overflows context) →
    judgeList predicates context conditions =
      ((leavesOf conditions).flatMap (asks predicates), .ok (truths predicates context conditions))
  | [] => fun _ => rfl
  | c :: rest => fun sound => by
    have first := judge_eq c fun leaf member => sound leaf (List.mem_append_left _ member)
    have later := judgeList_eq rest fun leaf member => sound leaf (List.mem_append_right _ member)
    simp only [judgeList, first, later, leavesOf, List.flatMap_append, truths]
    rfl
end

mutual
theorem judge_overflows : (c : Condition) → (∃ leaf ∈ c.leaves, leaf.Overflows context) →
    (judge predicates context c).value = .error .intTooLarge
  | touchTile _ | touchColor _ | reachExit | repeated _ | repeatedSolid _ | patternBreak _
  | sequenceViolates _ | musicPlaying | totalSteps _ | unsupported _ | custom _ => by
    rintro ⟨leaf, member, _, _, x, rfl⟩
    simp [leaves] at member
  | idleSeconds seconds => by
    rintro ⟨leaf, member, overflows⟩
    obtain rfl := List.mem_singleton.mp member
    exact isIdleFor_error_iff.mpr ⟨rfl, overflows⟩
  | all conditions => fun overflows => by
    simp only [judge, judgeList_overflows conditions overflows]
    rfl
  | any conditions => fun overflows => by
    simp only [judge, judgeList_overflows conditions overflows]
    rfl

theorem judgeList_overflows : (conditions : List Condition) →
    (∃ leaf ∈ leavesOf conditions, leaf.Overflows context) →
    (judgeList predicates context conditions).2 = .error .intTooLarge
  | [] => by
    rintro ⟨_, member, _⟩
    contradiction
  | c :: rest => by
    rintro ⟨leaf, member, overflows⟩
    -- Only the first leaf that overflows is met, but every one of them fails in the same way.
    by_cases first : ∃ leaf ∈ c.leaves, leaf.Overflows context
    · have broken := judge_overflows c first
      simp only [judgeList]
      generalize judge predicates context c = verdict at broken ⊢
      obtain ⟨asked, value⟩ := verdict
      cases broken
      rfl
    · have sound : ∀ leaf ∈ c.leaves, ¬leaf.Overflows context :=
        fun leaf member overflows => first ⟨leaf, member, overflows⟩
      have later : leaf ∈ leavesOf rest :=
        (List.mem_append.mp member).resolve_left fun member => sound leaf member overflows
      simp only [judgeList, judge_eq c sound, judgeList_overflows rest ⟨leaf, later, overflows⟩]
      rfl
end

theorem judge_error_iff (c : Condition) {f : Fault} : (judge predicates context c).value = .error f ↔
    f = .intTooLarge ∧ ∃ leaf ∈ c.leaves, leaf.Overflows context := by
  by_cases overflows : ∃ leaf ∈ c.leaves, leaf.Overflows context
  · rw [judge_overflows c overflows, Except.error.injEq, eq_comm]
    exact (and_iff_left overflows).symm
  · rw [judge_eq c fun leaf member overflow => overflows ⟨leaf, member, overflow⟩]
    simp [overflows]

end

end Condition

namespace Referee

def asksOf (predicates : Predicates) (rule : Rule) : List String :=
  rule.condition.leaves.flatMap (Condition.asks predicates)

def holdsAt (r : Referee) (place : Place) (rule : Rule) : Bool :=
  rule.condition.truth r.predicates (r.landing place)

/-- The rules that are asked about a landing: those before the first that holds, and that one. -/
def consulted (r : Referee) (place : Place) : List Rule :=
  r.rules.takeWhile (fun rule => !r.holdsAt place rule) ++ (r.rules.find? (r.holdsAt place)).toList

def informed (r : Referee) (place : Place) : Referee :=
  { r with
    memory := (r.landing place).memory
    asked := r.asked ++ (r.consulted place).flatMap (asksOf r.predicates) }

/-- The first rule that holds gives the effect, and no rule after it is asked. -/
theorem firstMatch_decides {predicates : Predicates} {context : Context}
    (landing : context.onTick = false) (rules : List Rule) :
    let holds (rule : Rule) := rule.condition.truth predicates context
    firstMatch predicates context rules =
      ((rules.takeWhile (fun rule => !holds rule) ++ (rules.find? holds).toList).flatMap
        (asksOf predicates), .ok ((rules.find? holds).map (·.effect))) := by
  intro holds
  induction rules with
  | nil => rfl
  | cons rule rest ih =>
    have judged : rule.condition.judge predicates context = ⟨asksOf predicates rule, .ok (holds rule)⟩ :=
      Condition.judge_eq rule.condition fun leaf _ overflows => by
        rw [overflows.1] at landing
        contradiction
    simp only [firstMatch, judged, List.takeWhile_cons, List.find?_cons]
    cases holds rule with
    | true => simp
    | false => simp [ih]

/-- A landing is remembered, then the first rule that holds of it takes effect, if any does. -/
theorem land_decides (r : Referee) (place : Place) :
    let effect := (r.rules.find? (r.holdsAt place)).map (·.effect)
    r.land place =
      (.ok ((r.informed place).executeIfAny effect).1, ((r.informed place).executeIfAny effect).2) := by
  intro effect
  have decides := @firstMatch_decides r.predicates (r.landing place) rfl r.rules
  simp only [landing] at decides
  simp only [land, decides]
  rfl

/-- What is executed depends on the board, the patterns and the memory alone. -/
theorem execute_independent (r : Referee) (rules : List Rule) (asked : List String) (effect : Effect) :
    { r with rules, asked }.execute effect =
      ((r.execute effect).1, { (r.execute effect).2 with rules, asked }) := by
  cases effect with
  | teleport col row =>
    simp only [execute]
    split <;> rfl
  | kill | win | showHint | playSound | stopSound | unsupported => rfl

theorem execute_asked (r : Referee) (effect : Effect) : (r.execute effect).2.asked = r.asked :=
  congrArg (fun told => told.2.asked) (r.execute_independent r.rules r.asked effect)

/-- Ticks ask no predicate. -/
theorem tick_asked (r : Referee) (moving : Bool) : (r.tick moving).2.asked = r.asked := by
  simp only [tick]
  generalize firstDue _ _ = due
  rcases due with f | _ | effect
  · rfl
  · rfl
  · exact execute_asked { r with memory := { r.memory with idle := 0 } } effect

/-- Landings and ticks, rules and conditions. A condition is judged as a whole, unless one of its leaves
cannot be judged; at a landing all of them can. A landing is remembered, then the first rule that holds
takes effect, if any does: the predicates that are asked are those of the rules up to that one, and what
is told and remembered is the same for any other rules whose first gives the same effect. Ticks ask
nobody. -/
theorem first_decides :
    (∀ (predicates : Predicates) (context : Context) (c : Condition),
      (∀ f, (c.judge predicates context).value = .error f ↔
        f = .intTooLarge ∧ ∃ leaf ∈ c.leaves, leaf.Overflows context) ∧
      ((∀ leaf ∈ c.leaves, ¬leaf.Overflows context) → c.judge predicates context =
        ⟨c.leaves.flatMap (Condition.asks predicates), .ok (c.truth predicates context)⟩)) ∧
    ∀ r : Referee,
      (∀ place, let effect := (r.rules.find? (r.holdsAt place)).map (·.effect)
        r.land place = (.ok ((r.informed place).executeIfAny effect).1,
          ((r.informed place).executeIfAny effect).2) ∧
        ∀ rules, (rules.find? (r.holdsAt place)).map (·.effect) = effect →
          ({ r with rules }.land place).1 = (r.land place).1 ∧
          ({ r with rules }.land place).2.memory = (r.land place).2.memory) ∧
      ∀ moving, (r.tick moving).2.asked = r.asked := by
  refine ⟨fun predicates context c => ⟨fun f => c.judge_error_iff, c.judge_eq⟩, fun r => ⟨?_, r.tick_asked⟩⟩
  intro place effect
  refine ⟨r.land_decides place, fun rules same => ?_⟩
  have lands : r.land place = (.ok ((r.informed place).executeIfAny effect).1,
    ((r.informed place).executeIfAny effect).2) := r.land_decides place
  have others := land_decides { r with rules } place
  have first : (rules.find? (({ r with rules } : Referee).holdsAt place)).map (·.effect) = effect := same
  have informed : ∃ asked, ({ r with rules } : Referee).informed place =
      { r.informed place with rules, asked } := ⟨_, rfl⟩
  obtain ⟨asked, informed⟩ := informed
  simp only [first, informed] at others
  rw [lands, others]
  clear_value effect
  cases effect with
  | none => exact ⟨rfl, rfl⟩
  | some effect =>
    simp only [executeIfAny, execute_independent, and_self]

/-- A tick with a predicate that breaks down between two that do not, and a landing on which the second
of three rules decides, as it does when it is the only one. -/
theorem first_decides_nested :
    let predicates : Predicates := [("calm", fun context => some context.onTick), ("broken", fun _ => none)]
    let context : Context := { memory := { idle := 90 }, onTick := true }
    let c : Condition := .any [.custom "calm", .all [.idleSeconds (.float 1.5), .custom "broken",
      .custom "unknown"], .custom "calm"]
    let first : Rule := ⟨.all [.idleSeconds (.int 0), .custom "calm"], .win⟩
    let second : Rule := ⟨.any [.all [], .custom "broken"], .kill⟩
    let r : Referee := { predicates, rules := [first, second, ⟨.custom "calm", .win⟩] }
    (∀ leaf ∈ c.leaves, ¬leaf.Overflows context) ∧
    c.judge predicates context = ⟨["calm", "broken", "calm"], .ok true⟩ ∧
    r.land ⟨0, 0⟩ = (.ok [.killed],
      { r with memory := { steps := 1, deaths := 1 }, asked := ["calm", "broken"] }) ∧
    ({ r with rules := [second] }.land ⟨0, 0⟩).1 = (r.land ⟨0, 0⟩).1 := by
  intro predicates context c first second r
  obtain ⟨judged, decides⟩ := first_decides
  have sound : ∀ leaf ∈ c.leaves, ¬leaf.Overflows context := by
    rintro leaf - ⟨_, large, _⟩
    exact absurd large (by decide +kernel)
  obtain ⟨lands, same⟩ := (decides r).1 ⟨0, 0⟩
  refine ⟨sound, ((judged predicates context c).2 sound).trans ?_, lands.trans ?_,
    (same [second] ?_).1⟩
  · have holds : c.truth predicates context = true := by decide +kernel
    rw [holds]
    rfl
  · rfl
  · rfl

/-- A tick on which half a second is to be multiplied by a rate beyond all floats: the condition is
neither true nor false. -/
theorem judge_half_overflows :
    ((Condition.idleSeconds (.float 0.5)).judge []
      { memory := {}, onTick := true, tickRate := 10 ^ 309 }).value = .error .intTooLarge := by
  rw [Condition.judge_error_iff]
  exact ⟨rfl, _, List.mem_singleton_self _, rfl, by decide +kernel, _, rfl⟩

end Referee
end TilePuzzle
