import TilePuzzle.Proofs.Verdict

/-! When idle rules fire. Idle time counts the ticks since the player last moved or an idle rule last
fired, so it comes back to the least time that a rule waits for and never further: the first rule that
waits no longer than any other is the only one that fires. -/
namespace TilePuzzle

namespace Condition

mutual
/-- The condition with every idle time at or below it made one that never holds. -/
def muted : Condition → Condition
  | idleSeconds _ => unsupported "idle_seconds"
  | all conditions => all (mutedAll conditions)
  | any conditions => any (mutedAll conditions)
  | c => c

def mutedAll : List Condition → List Condition
  | [] => []
  | c :: rest => muted c :: mutedAll rest
end

section
variable {predicates : Predicates} {context : Context}

theorem judge_idleSeconds (landing : context.onTick = false) (seconds : Number) :
    judge predicates context (idleSeconds seconds) = .plain false := by
  simp [judge, isIdleFor, landing, Verdict.plain]

mutual
/-- No time passes at a landing, so idle times may as well never hold. -/
theorem judge_muted (landing : context.onTick = false) :
    (c : Condition) → judge predicates context c.muted = judge predicates context c
  | touchTile _ | touchColor _ | reachExit | repeated _ | repeatedSolid _ | patternBreak _
  | sequenceViolates _ | musicPlaying | totalSteps _ | unsupported _ | custom _ => rfl
  | idleSeconds seconds => (judge_idleSeconds landing seconds).symm
  | all conditions => by simp only [muted, judge, judgeList_muted landing conditions]
  | any conditions => by simp only [muted, judge, judgeList_muted landing conditions]

theorem judgeList_muted (landing : context.onTick = false) : (conditions : List Condition) →
    judgeList predicates context (mutedAll conditions) = judgeList predicates context conditions
  | [] => rfl
  | c :: rest => by
    simp only [mutedAll, judgeList, judge_muted landing c, judgeList_muted landing rest]
end

end

theorem isIdleFor_int {context : Context} (ticking : context.onTick = true) (seconds : Int) :
    isIdleFor (.int seconds) context =
      .ok (decide (seconds * context.tickRate ≤ context.memory.idle)) := by
  simp only [isIdleFor, ticking, if_true, Number.mul, Number.combine, Except.map, Number.atMost_int]

end Condition

/-- The rule with every idle time below its condition made one that never holds; an idle rule stays. -/
def Rule.muted (rule : Rule) : Rule :=
  match rule.condition with
  | .idleSeconds _ => rule
  | c => { rule with condition := c.muted }

namespace Referee

/-- What a tick is for idle time: an idle rule fires, the player moves, or one more tick has passed. -/
inductive Mark
  | fired
  | moved
  | waited
  deriving DecidableEq

def Call.mark (r : Referee) : Call → List Mark
  | tick moving =>
    match (tick moving).effect r with
    | _ :: _ => [.fired]
    | [] => [if moving then .moved else .waited]
  | land _ | borderHit _ | hints _ | repaint _ => []

def idleSince (marks : List Mark) : Nat := (marks.rtakeWhile (· == .waited)).length

theorem idleSince_append (marks : List Mark) (mark : Mark) :
    idleSince (marks ++ [mark]) = if mark = .waited then idleSince marks + 1 else 0 := by
  unfold idleSince
  split
  next waited => rw [List.rtakeWhile_concat_pos _ _ _ (by simpa using waited), List.length_append]; rfl
  next other => rw [List.rtakeWhile_concat_neg _ _ _ (by simpa using other)]; rfl

theorem record_idle (m : Memory) (capacity : Nat) (tile : Option Tile) :
    (record m capacity tile).idle = m.idle := by
  simp only [record]
  split
  · rfl
  · split <;> rfl

theorem executeIfAny_idle (r : Referee) (effect : Option Effect) :
    (r.executeIfAny effect).2.memory.idle = r.memory.idle := by
  obtain ⟨music, memory, _⟩ := r.executeIfAny_memory effect
  rw [memory]

/-- One more call. -/
theorem attend_idle {r : Referee} {marks : List Mark} (counted : r.memory.idle = idleSince marks)
    (call : Call) : (r.attend call).2.memory.idle = idleSince (marks ++ call.mark r) := by
  cases call with
  | land place =>
    simp only [attend, r.land_decides, executeIfAny_idle, Call.mark, List.append_nil]
    exact (record_idle _ _ _).trans counted
  | tick moving =>
    simp only [Call.mark, Call.effect, attend, tick, passing]
    generalize firstDue _ _ = due
    rcases due with f | _ | effect
    · cases moving <;> simp [counted, idleSince_append]
    · cases moving <;> simp [counted, idleSince_append]
    · refine (executeIfAny_idle { r with memory := { r.memory with idle := 0 } } (some effect)).trans ?_
      simp [idleSince_append]
  | borderHit border =>
    simp only [attend, Call.mark, List.append_nil]
    cases border with
    | kill => exact (executeIfAny_idle r (some .kill)).trans counted
    | exit => exact (executeIfAny_idle r (some .win)).trans counted
    | block | wrap => exact counted
  | hints | repaint =>
    rw [Call.mark, List.append_nil]
    exact counted

/-- The rules and the constants stay, whatever is asked. -/
theorem attend_settled (r : Referee) (call : Call) :
    (r.attend call).2.rules = r.rules ∧ (r.attend call).2.config = r.config := by
  have kept {after : Referee} (keeps : r.Keeps after) :
      after.rules = r.rules ∧ after.config = r.config := ⟨keeps.rules, keeps.config⟩
  cases call with
  | land place => exact kept (r.land_keeps place)
  | tick moving => exact kept (r.tick_keeps moving)
  | borderHit border => exact kept (r.borderHit_keeps border)
  | hints | repaint => exact ⟨rfl, rfl⟩

theorem attendAll_settled (r : Referee) (calls : List Call) :
    (r.attendAll calls).rules = r.rules ∧ (r.attendAll calls).config = r.config := by
  induction calls generalizing r with
  | nil => exact ⟨rfl, rfl⟩
  | cons call rest ih =>
    obtain ⟨rules, config⟩ := ih (r.attend call).2
    obtain ⟨sameRules, sameConfig⟩ := r.attend_settled call
    exact ⟨rules.trans sameRules, config.trans sameConfig⟩

def withRules (r : Referee) (rules : List Rule) : Referee := { r with rules }

theorem idleRules_muted (rules : List Rule) : idleRules (rules.map Rule.muted) = idleRules rules := by
  simp only [idleRules, List.filterMap_map]
  refine List.filterMap_congr fun rule _ => ?_
  obtain ⟨condition, effect⟩ := rule
  cases condition <;> rfl

theorem firstMatch_muted {predicates : Predicates} {context : Context}
    (landing : context.onTick = false) (rules : List Rule) :
    firstMatch predicates context (rules.map Rule.muted) = firstMatch predicates context rules := by
  have judged (rule : Rule) : rule.muted.condition.judge predicates context =
      rule.condition.judge predicates context ∧ rule.muted.effect = rule.effect := by
    obtain ⟨condition, effect⟩ := rule
    cases condition with
    | idleSeconds => exact ⟨rfl, rfl⟩
    | _ => exact ⟨Condition.judge_muted landing _, rfl⟩
  induction rules with
  | nil => rfl
  | cons rule rest ih => simp only [List.map_cons, firstMatch, (judged rule).1, (judged rule).2, ih]

theorem executeIfAny_withRules (r : Referee) (rules : List Rule) (effect : Option Effect) :
    (r.withRules rules).executeIfAny effect =
      ((r.executeIfAny effect).1, (r.executeIfAny effect).2.withRules rules) := by
  cases effect with
  | none => rfl
  | some effect =>
    refine (r.execute_independent rules r.asked effect).trans ?_
    rw [← r.execute_asked effect]
    rfl

/-- Rules that decide as others do, at every landing and on every tick. -/
structure SameRulings (rules others : List Rule) : Prop where
  landing : ∀ predicates context, context.onTick = false →
    firstMatch predicates context others = firstMatch predicates context rules
  idle : idleRules others = idleRules rules

theorem sameRulings_muted (rules : List Rule) : SameRulings rules (rules.map Rule.muted) where
  landing _ _ landing := firstMatch_muted landing rules
  idle := idleRules_muted rules

section
variable {r : Referee} {others : List Rule}

/-- Such rules make no difference to any call. -/
theorem SameRulings.attend (same : SameRulings r.rules others) (call : Call) :
    (r.withRules others).attend call = ((r.attend call).1, (r.attend call).2.withRules others) := by
  cases call with
  | land place =>
    have found := same.landing r.predicates (r.landing place) rfl
    simp only [Referee.landing] at found
    simp only [Referee.attend, land, withRules, tileAt] at found ⊢
    rw [found]
    generalize firstMatch _ _ _ = found
    obtain ⟨asked, f | effect⟩ := found
    · rfl
    · exact congrArg (fun told => (Except.ok told.1, told.2))
        (executeIfAny_withRules { r with
          memory := (r.landing place).memory, asked := r.asked ++ asked } others effect)
  | tick moving =>
    simp only [Referee.attend, tick, withRules, same.idle]
    generalize firstDue _ _ = due
    rcases due with f | _ | effect
    · rfl
    · rfl
    · exact congrArg (fun told => (Except.ok told.1, told.2))
        (executeIfAny_withRules { r with memory := { r.memory with idle := 0 } } others (some effect))
  | borderHit border =>
    cases border with
    | kill | exit | block | wrap => rfl
  | hints | repaint => rfl

theorem SameRulings.attendAll (same : SameRulings r.rules others) (calls : List Call) :
    (r.withRules others).attendAll calls = (r.attendAll calls).withRules others := by
  induction calls generalizing r with
  | nil => rfl
  | cons call rest ih =>
    have later := ih (r := (r.attend call).2) (by rw [(r.attend_settled call).1]; exact same)
    exact (congrArg (fun next => Referee.attendAll next.2 rest) (same.attend call)).trans later

/-- Nor do they to what is gathered from calls, if that tells nothing of rules. -/
theorem SameRulings.gather {α : Type} {part : Referee → Call → List α}
    (same : SameRulings r.rules others)
    (blind : ∀ s : Referee, SameRulings s.rules others → ∀ call,
      part (s.withRules others) call = part s call) (calls : List Call) :
    gather part (r.withRules others) calls = gather part r calls := by
  induction calls generalizing r with
  | nil => rfl
  | cons call rest ih =>
    have later := ih (r := (r.attend call).2) (by rw [(r.attend_settled call).1]; exact same)
    rw [Referee.gather, Referee.gather, blind r same call, same.attend call, later]

theorem SameRulings.events (same : SameRulings r.rules others) (call : Call) :
    call.events (r.withRules others) = call.events r := by
  rw [Call.events, Call.events, same.attend call]

end

theorem firstDue_int {context : Context} (ticking : context.onTick = true)
    (idles : List (Int × Effect)) :
    firstDue context (idles.map fun idle => (.int idle.1, idle.2)) =
      .ok ((idles.find? fun idle => idle.1 * context.tickRate ≤ context.memory.idle).map (·.2)) := by
  induction idles with
  | nil => rfl
  | cons idle rest ih =>
    simp only [List.map_cons, firstDue, Condition.isIdleFor_int ticking, List.find?_cons]
    cases decide (idle.1 * context.tickRate ≤ context.memory.idle) with
    | true => rfl
    | false => exact ih

/-- Until the least time is up no idle rule is due, and then the first that waits for it. -/
theorem firstDue_least {idles : List (Int × Effect)} {least : Int}
    (shortest : (idles.map (·.1)).min? = some least) :
    ∃ effect, idles.find? (·.1 == least) = some (least, effect) ∧
      ∀ context : Context, context.onTick = true → 1 ≤ context.tickRate →
        context.memory.idle ≤ least * context.tickRate →
        firstDue context (idles.map fun idle => (.int idle.1, idle.2)) =
          .ok (if context.memory.idle = least * context.tickRate then some effect else none) := by
  obtain ⟨present, atLeast⟩ := List.min?_eq_some_iff.mp shortest
  have longer {idle : Int × Effect} (member : idle ∈ idles) : least ≤ idle.1 :=
    atLeast _ (List.mem_map_of_mem member)
  obtain ⟨idle, member, same⟩ := List.mem_map.mp present
  have found : (idles.find? (·.1 == least)).isSome :=
    List.find?_isSome.mpr ⟨idle, member, by simpa using same⟩
  obtain ⟨⟨seconds, effect⟩, first⟩ := Option.isSome_iff_exists.mp found
  obtain rfl : seconds = least := by simpa using List.find?_some first
  refine ⟨effect, first, fun context ticking rate notLater => ?_⟩
  rw [firstDue_int ticking]
  split
  next up =>
    have due : ∀ idle ∈ idles, decide (idle.1 * context.tickRate ≤ context.memory.idle) =
        (idle.1 == seconds) := by
      intro idle member
      have bound := longer member
      rw [up, Bool.eq_iff_iff, decide_eq_true_iff, beq_iff_eq, Int.mul_le_mul_right (by omega)]
      omega
    rw [List.find?_congr due, first, Option.map_some]
  next early =>
    have none : idles.find? (fun idle => decide (idle.1 * context.tickRate ≤ context.memory.idle)) =
        Option.none := by
      rw [List.find?_eq_none]
      intro idle member
      have bound := Int.mul_le_mul_of_nonneg_right (longer member) (by omega : 0 ≤ context.tickRate)
      rw [decide_eq_true_iff]
      omega
    rw [none, Option.map_none]

/-- A referee whose idle rules all wait for whole seconds and whose idle time, which is counted by what
its ticks have been, is short of the least of them. -/
structure Waits (r : Referee) (idles : List (Int × Effect)) (least : Int) (marks : List Mark) : Prop where
  rate : 1 ≤ r.config.tickRate
  listed : idleRules r.rules = idles.map fun idle => (.int idle.1, idle.2)
  shortest : (idles.map (·.1)).min? = some least
  counted : r.memory.idle = idleSince marks
  early : (idleSince marks : Int) < least * r.config.tickRate

section
variable {r : Referee} {idles : List (Int × Effect)} {least : Int} {marks : List Mark}

/-- The first idle rule that waits no longer than the others takes effect in the tick in which its time
is up, and none does in any other tick. -/
theorem Waits.due (waits : r.Waits idles least marks) :
    ∃ effect, idles.find? (·.1 == least) = some (least, effect) ∧
      ∀ moving, firstDue (r.passing moving) (idleRules r.rules) =
        .ok (if moving = false ∧ (idleSince marks + 1 : Int) = least * r.config.tickRate then some effect
          else none) := by
  have early := waits.early
  obtain ⟨effect, first, due⟩ := firstDue_least waits.shortest
  refine ⟨effect, first, fun moving => ?_⟩
  have idle : (r.passing moving).memory.idle = if moving then 0 else (idleSince marks + 1 : Int) := by
    rw [passing, waits.counted]
  have notLater : (r.passing moving).memory.idle ≤ least * r.config.tickRate := by
    rw [idle]
    split <;> omega
  have up : (r.passing moving).memory.idle = least * r.config.tickRate ↔
      moving = false ∧ (idleSince marks + 1 : Int) = least * r.config.tickRate := by
    rw [idle]
    cases moving with
    | false => simp
    | true =>
      refine iff_of_false (fun now => ?_) (fun waiting => Bool.false_ne_true waiting.1.symm)
      rw [if_pos rfl] at now
      omega
  rw [waits.listed, due _ rfl waits.rate notLater]
  exact congrArg _ (if_congr up rfl rfl)

/-- One more call. -/
theorem Waits.attend (waits : r.Waits idles least marks) (call : Call) :
    (r.attend call).2.Waits idles least (marks ++ call.mark r) := by
  obtain ⟨rules, config⟩ := r.attend_settled call
  have early := waits.early
  refine ⟨config ▸ waits.rate, rules ▸ waits.listed, waits.shortest, attend_idle waits.counted call, ?_⟩
  rw [config]
  cases call with
  | tick moving =>
    obtain ⟨effect, _, due⟩ := waits.due
    simp only [Call.mark, Call.effect, due]
    -- The tick that would bring the time up to the period fires a rule, and that starts it again.
    split
    next up => simp [idleSince_append]; omega
    next running =>
      cases moving with
      | false => simp [idleSince_append] at running ⊢; omega
      | true => simp [idleSince_append]; omega
  | land | borderHit | hints | repaint =>
    rw [Call.mark, List.append_nil]
    exact early

theorem Waits.attendAll (waits : r.Waits idles least marks) (calls : List Call) :
    (r.attendAll calls).Waits idles least (marks ++ gather Call.mark r calls) := by
  induction calls generalizing r marks with
  | nil => simpa [gather, Referee.attendAll] using waits
  | cons call rest ih => simpa [gather, Referee.attendAll] using ih (waits.attend call)

theorem Waits.tick (waits : r.Waits idles least marks) :
    ∃ effect, idles.find? (·.1 == least) = some (least, effect) ∧ ∀ moving,
      let waited : Int := idleSince marks
      let rested := { r with memory := { r.memory with idle := 0 } }
      let passed := { r with memory := { r.memory with idle := if moving then 0 else waited + 1 } }
      let up := moving = false ∧ waited + 1 = least * r.config.tickRate
      (Call.tick moving).effect r = (if up then [effect] else []) ∧
      r.tick moving = if up then (.ok (rested.execute effect).1, (rested.execute effect).2)
        else (.ok [], passed) := by
  obtain ⟨effect, first, due⟩ := waits.due
  refine ⟨effect, first, fun moving => ?_⟩
  intro waited rested passed up
  have due := due moving
  constructor
  · rw [Call.effect, due]
    by_cases isUp : up
    · rw [if_pos isUp, if_pos isUp]; rfl
    · rw [if_neg isUp, if_neg isUp]; rfl
  · simp only [passing, waits.counted] at due
    simp only [Referee.tick, waits.counted, due]
    by_cases isUp : up
    · rw [if_pos isUp, if_pos isUp]
    · rw [if_neg isUp, if_neg isUp]

/-- No idle rule that waits longer is ever due. -/
theorem Waits.longer (waits : r.Waits idles least marks) (moving : Bool) {seconds : Int}
    (longer : least < seconds) :
    Condition.isIdleFor (.int seconds) (r.passing moving) = .ok false := by
  have early := waits.early
  have rate := waits.rate
  have later : least * r.config.tickRate < seconds * r.config.tickRate :=
    Int.mul_lt_mul_of_pos_right longer (by omega)
  rw [Condition.isIdleFor_int rfl, Except.ok.injEq, decide_eq_false_iff_not, passing, waits.counted]
  simp only
  split <;> omega

end

/-- Idle rules in a level where they all wait for whole seconds. The first that waits for the least of
them takes effect whenever that time has passed since the player moved or it last took effect, and no
other idle rule ever does; idle times below a condition or at a landing make no difference to any call. -/
theorem load_idles {r s : Referee} {rules : List Rule} {idles : List (Int × Effect)} {least : Int}
    (board : Board) (patterns : Fields) (calls : List Call) (rate : 1 ≤ r.config.tickRate)
    (listed : idleRules rules = idles.map fun idle => (.int idle.1, idle.2))
    (positive : ∀ idle ∈ idles, 0 < idle.1) (shortest : (idles.map (·.1)).min? = some least)
    (here : s = (r.load rules board patterns).attendAll calls) :
    let loaded := r.load rules board patterns
    let quiet := r.load (rules.map Rule.muted) board patterns
    let waited : Int := idleSince (gather Call.mark loaded calls)
    let period := least * r.config.tickRate
    (s.memory.idle = waited ∧ waited < period) ∧
    (∃ effect, idles.find? (·.1 == least) = some (least, effect) ∧ ∀ moving,
      let rested := { s with memory := { s.memory with idle := 0 } }
      let passed := { s with memory := { s.memory with idle := if moving then 0 else waited + 1 } }
      let up := moving = false ∧ waited + 1 = period
      (Call.tick moving).effect s = (if up then [effect] else []) ∧
      s.tick moving = if up then (.ok (rested.execute effect).1, (rested.execute effect).2)
        else (.ok [], passed)) ∧
    (∀ moving seconds, least < seconds →
      Condition.isIdleFor (.int seconds) (s.passing moving) = .ok false) ∧
    (∀ place seconds,
      (Condition.idleSeconds seconds).judge s.predicates (s.landing place) = .plain false) ∧
    quiet.attendAll calls = s.withRules (rules.map Rule.muted) ∧
    gather Call.events quiet calls = gather Call.events loaded calls := by
  intro loaded quiet waited period
  obtain ⟨idle, member, is⟩ := List.mem_map.mp (List.min?_eq_some_iff.mp shortest).1
  have one : 0 < least := is ▸ positive idle member
  have fresh : loaded.Waits idles least [] :=
    ⟨rate, listed, shortest, rfl, Int.mul_pos one rate⟩
  have waits : s.Waits idles least (gather Call.mark loaded calls) := by
    rw [here]
    exact fresh.attendAll calls
  have same : s.config.tickRate = r.config.tickRate := by
    rw [here]
    exact congrArg Config.tickRate (attendAll_settled loaded calls).2
  have early := waits.early
  have fires := waits.tick
  rw [same] at early
  simp only [same] at fires
  have muted := (sameRulings_muted loaded.rules).attendAll calls
  have told := (sameRulings_muted loaded.rules).gather (fun _ same call => same.events call) calls
  refine ⟨⟨waits.counted, early⟩, fires,
    fun moving seconds longer => waits.longer moving longer,
    fun place seconds => Condition.judge_idleSeconds rfl seconds, ?_, told⟩
  · rw [here]
    exact muted

/-- Two seconds of two ticks each have passed once, and then all but one tick of them again; a rule that
waits for five and one below a condition that waits for one have no part in it. -/
theorem load_idles_again :
    let rules : List Rule := [⟨.any [.all [.idleSeconds (.int 1)]], .win⟩, ⟨.idleSeconds (.int 5), .win⟩,
      ⟨.idleSeconds (.int 2), .showHint "Move" 3⟩, ⟨.idleSeconds (.int 2), .kill⟩]
    let calls : List Call := [.tick true, .tick false, .tick false, .tick false, .tick false, .tick false,
      .land ⟨0, 0⟩, .tick false, .borderHit .kill, .tick false]
    let r : Referee := { config := { tickRate := 2 } }
    let s := (r.load rules ⟨0, []⟩ []).attendAll calls
    gather Call.mark (r.load rules ⟨0, []⟩ []) calls =
      [.moved, .waited, .waited, .waited, .fired, .waited, .waited, .waited] ∧
    s.memory.idle = 3 ∧ (s.tick true).1 = .ok [] ∧
    (s.tick false).1 = .ok [.hintShown (.str "Move") (.int 3)] ∧
    Condition.isIdleFor (.int 5) (s.passing false) = .ok false := by
  intro rules calls r s
  let idles : List (Int × Effect) := [(5, .win), (2, .showHint "Move" 3), (2, .kill)]
  have positive : ∀ idle ∈ idles, 0 < idle.1 := by simp [idles]
  obtain ⟨⟨counted, _⟩, ⟨effect, first, fires⟩, longer, _⟩ :=
    @load_idles r s rules idles 2 ⟨0, []⟩ [] calls (by decide) rfl positive rfl rfl
  obtain rfl : effect = .showHint "Move" 3 := by cases first; rfl
  have marks : gather Call.mark (r.load rules ⟨0, []⟩ []) calls =
      [.moved, .waited, .waited, .waited, .fired, .waited, .waited, .waited] := by decide +kernel
  rw [marks] at counted fires
  refine ⟨marks, counted, ?_, ?_, longer false 5 (by decide)⟩
  · rw [(fires true).2, if_neg fun up => Bool.noConfusion up.1]
  · rw [(fires false).2, if_pos ⟨rfl, by decide⟩]
    rfl

end Referee
end TilePuzzle
