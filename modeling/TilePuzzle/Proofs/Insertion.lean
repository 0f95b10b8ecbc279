import TilePuzzle.Proofs.Idling

/-! One rule more. A rule whose condition is not supported is as good as absent, wherever it stands. A
rule whose effect is not supported does nothing either, but it holds like any other: where it comes
first, no rule behind it is asked. So it goes unnoticed just as long as it displaces nothing. -/
namespace TilePuzzle

namespace Referee

def Call.outcome (r : Referee) (call : Call) : Except Fault (List Event) × Memory :=
  ((r.attend call).1, (r.attend call).2.memory)

def transcript (r : Referee) (calls : List Call) : List (Except Fault (List Event) × Memory) :=
  gather (fun r call => [call.outcome r]) r calls

theorem transcript_cons (r : Referee) (call : Call) (rest : List Call) :
    r.transcript (call :: rest) = call.outcome r :: (r.attend call).2.transcript rest := rfl

/-- What the idle rules behind one without effect would do on a tick where that one comes first: tell
something, let idle time go on, or break down; or they can be judged and it cannot. -/
def Hides (r : Referee) (seconds : Number) (after : List Rule) (moving : Bool) : Prop :=
  match Condition.isIdleFor seconds (r.passing moving),
    firstDue (r.passing moving) (idleRules after) with
  | .ok true, .ok (some effect) => (r.execute effect).1 ≠ []
  | .ok true, .ok none => (r.passing moving).memory.idle ≠ 0
  | .ok true, .error _ => True
  | .ok false, _ => False
  | .error _, .ok _ => True
  | .error _, .error _ => False

/-- A rule without effect comes first in a call that would come to something without it. -/
inductive Displaces (r : Referee) (before : List Rule) (rule : Rule) (after : List Rule) : Call → Prop
  /-- Of the rules behind it, the first that holds of the landing has something to tell. -/
  | land {place : Place} {later : Rule} :
      before.find? (r.holdsAt place) = none → r.holdsAt place rule = true →
      after.find? (r.holdsAt place) = some later → (r.execute later.effect).1 ≠ [] →
      Displaces r before rule after (.land place)
  | tick {moving : Bool} {seconds : Number} :
      firstDue (r.passing moving) (idleRules before) = .ok none →
      rule.condition = .idleSeconds seconds → r.Hides seconds after moving →
      Displaces r before rule after (.tick moving)

theorem idleRules_append (first second : List Rule) :
    idleRules (first ++ second) = idleRules first ++ idleRules second := List.filterMap_append

theorem firstDue_append (context : Context) (first second : List (Number × Effect)) :
    firstDue context (first ++ second) =
      match firstDue context first with
      | .ok none => firstDue context second
      | decided => decided := by
  induction first with
  | nil => rfl
  | cons idle rest ih =>
    simp only [List.cons_append, firstDue]
    cases Condition.isIdleFor idle.1 context with
    | error f => rfl
    | ok due =>
      cases due with
      | true => rfl
      | false => exact ih

/-- Idle rules that cannot be judged all fail in the same way. -/
theorem firstDue_error {context : Context} {idles : List (Number × Effect)} {f : Fault}
    (failed : firstDue context idles = .error f) : f = .intTooLarge := by
  induction idles with
  | nil => contradiction
  | cons idle rest ih =>
    simp only [firstDue] at failed
    cases judged : Condition.isIdleFor idle.1 context with
    | error g =>
      rw [judged] at failed
      cases failed
      exact (Condition.isIdleFor_error_iff.mp judged).1
    | ok due =>
      rw [judged] at failed
      cases due with
      | true => contradiction
      | false => exact ih failed

/-- A rule whose condition is not supported decides nothing. -/
theorem sameRulings_insert (before after : List Rule) {rule : Rule} {name : String}
    (unsupported : rule.condition = .unsupported name) :
    SameRulings (before ++ after) (before ++ rule :: after) where
  landing predicates context _ := by
    induction before with
    | nil =>
      simp only [List.nil_append, firstMatch, unsupported, Condition.judge, Verdict.plain]
    | cons first rest ih => simp only [List.cons_append, firstMatch, ih]
  idle := by
    have absent : idleRules (rule :: after) = idleRules after := by
      simp [idleRules, unsupported]
    rw [idleRules_append, idleRules_append, absent]

section
variable (r : Referee) (m : Memory)

def told (effect : Option Effect) : Except Fault (List Event) × Memory :=
  (.ok ({ r with memory := m }.executeIfAny effect).1, ({ r with memory := m }.executeIfAny effect).2.memory)

theorem execute_events (effect : Effect) :
    ({ r with memory := m }.execute effect).1 = (r.execute effect).1 := by
  cases effect with
  | teleport => simp only [execute]; split <;> rfl
  | kill | win | showHint | playSound | stopSound | unsupported => rfl

theorem execute_silent {effect : Effect} (silent : (r.execute effect).1 = []) :
    (r.execute effect).2 = r := by
  cases effect with
  | kill | win | showHint | playSound | stopSound => contradiction
  | teleport => simp only [execute]; split <;> rfl
  | unsupported => rfl

/-- An effect that tells nothing changes nothing. -/
theorem told_silent_iff (effect : Effect) :
    r.told m (some effect) = (.ok [], m) ↔ (r.execute effect).1 = [] := by
  have events := r.execute_events m effect
  simp only [told, executeIfAny]
  constructor
  · intro quiet
    rw [← events]
    exact Except.ok.inj (Prod.mk.inj quiet).1
  · intro silent
    have same := execute_silent { r with memory := m } (events.trans silent)
    rw [same, events, silent]

end

/-- Executing does not depend on the rules, nor on who was asked. -/
theorem told_independent (r : Referee) (rules : List Rule) (asked : List String) (m : Memory)
    (effect : Option Effect) : ({ r with rules, asked } : Referee).told m effect = r.told m effect := by
  cases effect with
  | none => rfl
  | some effect =>
    have same := execute_independent { r with memory := m } rules asked effect
    simp only [told, executeIfAny, same]

theorem land_outcome (r : Referee) (place : Place) :
    (Call.land place).outcome r = r.told (r.landing place).memory
      ((r.rules.find? (r.holdsAt place)).map (·.effect)) := by
  simp only [Call.outcome, attend, r.land_decides place]
  exact told_independent { r with memory := (r.landing place).memory } r.rules _ _ _

def ticked (r : Referee) (moving : Bool) :
    Except Fault (Option Effect) → Except Fault (List Event) × Memory
  | .error f => (.error f, (r.passing moving).memory)
  | .ok none => (.ok [], (r.passing moving).memory)
  | .ok (some effect) => r.told { r.memory with idle := 0 } (some effect)

theorem tick_outcome (r : Referee) (moving : Bool) :
    (Call.tick moving).outcome r =
      r.ticked moving (firstDue (r.passing moving) (idleRules r.rules)) := by
  simp only [Call.outcome, attend, tick, passing, ticked]
  generalize firstDue _ _ = due
  rcases due with f | _ | effect <;> rfl

theorem ticked_independent (r : Referee) (rules : List Rule) (asked : List String) (moving : Bool)
    (due : Except Fault (Option Effect)) :
    ({ r with rules, asked } : Referee).ticked moving due = r.ticked moving due := by
  rcases due with f | _ | effect
  · rfl
  · rfl
  · exact r.told_independent rules asked _ (some effect)

/-- A rule without effect before the others hides them, or the tick comes to the same without it. -/
theorem ticked_same_iff (r : Referee) (seconds : Number) (name : String) (after : List Rule)
    (moving : Bool) :
    r.ticked moving (firstDue (r.passing moving) ((seconds, .unsupported name) :: idleRules after)) =
      r.ticked moving (firstDue (r.passing moving) (idleRules after)) ↔ ¬r.Hides seconds after moving := by
  have quiet : r.ticked moving (.ok (some (.unsupported name))) =
      (.ok [], { r.memory with idle := 0 }) := rfl
  simp only [Hides, firstDue]
  cases judged : Condition.isIdleFor seconds (r.passing moving) with
  | error f =>
    cases behind : firstDue (r.passing moving) (idleRules after) with
    | error g => simp [(Condition.isIdleFor_error_iff.mp judged).1, firstDue_error behind]
    | ok effect => cases effect <;> simp [ticked, told]
  | ok due =>
    cases due with
    | false => simp
    | true =>
      simp only [quiet]
      rcases firstDue (r.passing moving) (idleRules after) with g | _ | effect
      · simp [ticked]
      · simp [ticked, passing, eq_comm]
      · simp [ticked, ← told_silent_iff r { r.memory with idle := 0 }, eq_comm]

/-- A referee with one rule more; others may have been asked for it. -/
def Amends (before : List Rule) (rule : Rule) (after : List Rule) (r s : Referee) : Prop :=
  r.rules = before ++ after ∧ ∃ asked, s = { r with rules := before ++ rule :: after, asked }

/-- A rule that is no idle rule leaves the idle rules as they are. -/
theorem idleRules_cons_other {rule : Rule} (other : ∀ seconds, rule.condition ≠ .idleSeconds seconds)
    (rules : List Rule) : idleRules (rule :: rules) = idleRules rules := by
  obtain ⟨condition, effect⟩ := rule
  cases condition with
  | idleSeconds seconds => exact absurd rfl (other seconds)
  | _ => rfl

theorem idleRules_cons_idle {rule : Rule} {seconds : Number}
    (idle : rule.condition = .idleSeconds seconds) (rules : List Rule) :
    idleRules (rule :: rules) = (seconds, rule.effect) :: idleRules rules := by
  obtain ⟨condition, effect⟩ := rule
  cases idle
  rfl

section
variable {before after : List Rule} {rule : Rule} {r s : Referee} {name : String}

/-- A rule without effect that comes first at a landing leaves it at that: the landing is remembered. -/
theorem land_first (listed : r.rules = before ++ rule :: after) (idles : rule.effect = .unsupported name)
    {place : Place} (ahead : before.find? (r.holdsAt place) = none)
    (holds : r.holdsAt place rule = true) :
    (Call.land place).outcome r = (.ok [], (r.landing place).memory) := by
  rw [land_outcome, listed, List.find?_append, ahead, Option.none_or, List.find?_cons, holds]
  simp only [Option.map_some, idles]
  rfl

/-- A rule without effect that comes first on a tick leaves it at starting idle time again. -/
theorem tick_first (listed : r.rules = before ++ rule :: after) (idles : rule.effect = .unsupported name)
    {moving : Bool} {seconds : Number} (ahead : firstDue (r.passing moving) (idleRules before) = .ok none)
    (idle : rule.condition = .idleSeconds seconds)
    (due : Condition.isIdleFor seconds (r.passing moving) = .ok true) :
    (Call.tick moving).outcome r = (.ok [], { r.memory with idle := 0 }) := by
  rw [tick_outcome, listed, idleRules_append, firstDue_append, ahead, idleRules_cons_idle idle]
  simp only [firstDue, due, idles]
  rfl

theorem Amends.land_outcome (amends : Amends before rule after r s) (place : Place) :
    (Call.land place).outcome s = r.told (r.landing place).memory
      (((before ++ rule :: after).find? (r.holdsAt place)).map (·.effect)) := by
  obtain ⟨_, asked, rfl⟩ := amends
  rw [Referee.land_outcome, told_independent]
  rfl

theorem Amends.tick_outcome (amends : Amends before rule after r s) (moving : Bool) :
    (Call.tick moving).outcome s =
      r.ticked moving (firstDue (r.passing moving) (idleRules (before ++ rule :: after))) := by
  obtain ⟨_, asked, rfl⟩ := amends
  rw [Referee.tick_outcome, ticked_independent]
  rfl

/-- A landing shows just if the rule without effect displaces another one. -/
theorem Amends.land_same_iff (amends : Amends before rule after r s)
    (idles : rule.effect = .unsupported name) (place : Place) :
    (Call.land place).outcome s = (Call.land place).outcome r ↔
      ¬r.Displaces before rule after (.land place) := by
  rw [amends.land_outcome, Referee.land_outcome, amends.1, List.find?_append, List.find?_append,
    List.find?_cons]
  cases ahead : before.find? (r.holdsAt place) with
  | some first =>
    refine iff_of_true rfl fun displaces => ?_
    cases displaces with
    | land none => rw [none] at ahead; contradiction
  | none =>
    cases holds : r.holdsAt place rule with
    | false =>
      refine iff_of_true rfl fun displaces => ?_
      cases displaces with
      | land _ first => rw [first] at holds; contradiction
    | true =>
      have quiet : r.told (r.landing place).memory (some rule.effect) =
          (.ok [], (r.landing place).memory) := by rw [idles]; rfl
      simp only [Option.none_or, Option.map_some, quiet]
      cases behind : after.find? (r.holdsAt place) with
      | none =>
        refine iff_of_true rfl fun displaces => ?_
        cases displaces with
        | land _ _ found => rw [found] at behind; contradiction
      | some later =>
        rw [Option.map_some, eq_comm, told_silent_iff]
        constructor
        · intro silent displaces
          cases displaces with
          | land _ _ found tells =>
            cases behind.symm.trans found
            exact tells silent
        · intro kept
          by_contra tells
          exact kept (.land ahead holds behind tells)

/-- A tick shows just if the rule without effect displaces another one, or the time that goes on. -/
theorem Amends.tick_same_iff (amends : Amends before rule after r s)
    (idles : rule.effect = .unsupported name) (moving : Bool) :
    (Call.tick moving).outcome s = (Call.tick moving).outcome r ↔
      ¬r.Displaces before rule after (.tick moving) := by
  rw [amends.tick_outcome, Referee.tick_outcome, amends.1, idleRules_append, idleRules_append,
    firstDue_append, firstDue_append]
  -- Unless the idle rules before it leave a tick open, it is never asked.
  have decided {due : Except Fault (Option Effect)} (ahead : firstDue (r.passing moving)
      (idleRules before) = due) (some : due ≠ .ok none) :
      ¬r.Displaces before rule after (.tick moving) := by
    rintro (_ | ⟨none, _, _⟩)
    exact some (ahead.symm.trans none)
  cases ahead : firstDue (r.passing moving) (idleRules before) with
  | error f => exact iff_of_true rfl (decided ahead nofun)
  | ok first =>
    cases first with
    | some effect => exact iff_of_true rfl (decided ahead nofun)
    | none =>
      by_cases isIdle : ∃ seconds, rule.condition = .idleSeconds seconds
      · obtain ⟨seconds, idle⟩ := isIdle
        have displaces : r.Displaces before rule after (.tick moving) ↔ r.Hides seconds after moving := by
          refine ⟨?_, .tick ahead idle⟩
          rintro (_ | ⟨_, same, hides⟩)
          cases idle.symm.trans same
          exact hides
        rw [displaces, idleRules_cons_idle idle, idles]
        exact r.ticked_same_iff seconds name after moving
      · rw [idleRules_cons_other fun seconds idle => isIdle ⟨seconds, idle⟩]
        refine iff_of_true rfl ?_
        rintro (_ | ⟨_, idle, _⟩)
        exact isIdle ⟨_, idle⟩

/-- A call shows just if the rule without effect displaces something. -/
theorem Amends.same_iff (amends : Amends before rule after r s) (idles : rule.effect = .unsupported name)
    (call : Call) : call.outcome s = call.outcome r ↔ ¬r.Displaces before rule after call := by
  cases call with
  | land place => exact amends.land_same_iff idles place
  | tick moving => exact amends.tick_same_iff idles moving
  | borderHit border =>
    obtain ⟨_, asked, rfl⟩ := amends
    exact iff_of_true (by cases border <;> rfl) nofun
  | hints | repaint =>
    obtain ⟨_, asked, rfl⟩ := amends
    exact iff_of_true rfl nofun

theorem Keeps.eq {r after : Referee} (keeps : r.Keeps after) :
    after = { r with memory := after.memory, asked := after.asked } := by
  obtain ⟨config, predicates, rules, board, patterns⟩ := keeps
  cases r
  cases after
  simp only at config predicates rules board patterns
  subst config predicates rules board patterns
  rfl

/-- As long as nothing shows, it is the same referee with one rule more. -/
theorem Amends.attend (amends : Amends before rule after r s) {call : Call}
    (same : call.outcome s = call.outcome r) :
    Amends before rule after (r.attend call).2 (s.attend call).2 := by
  have memory : (s.attend call).2.memory = (r.attend call).2.memory := congrArg Prod.snd same
  obtain ⟨listed, asked, rfl⟩ := amends
  have kept {longer plain : Referee} (first : Keeps { r with rules := before ++ rule :: after, asked } longer)
      (second : r.Keeps plain) (memory : longer.memory = plain.memory) :
      Amends before rule after plain longer := by
    refine ⟨second.rules.trans listed, longer.asked, ?_⟩
    rw [second.eq, first.eq, memory]
  cases call with
  | land place => exact kept (land_keeps _ place) (land_keeps _ place) memory
  | tick moving => exact kept (tick_keeps _ moving) (tick_keeps _ moving) memory
  | borderHit border => exact kept (borderHit_keeps _ border) (borderHit_keeps _ border) memory
  | hints | repaint => exact ⟨listed, asked, rfl⟩

/-- Calls show just if the rule without effect displaces something in one of them. -/
theorem Amends.transcript_same_iff (amends : Amends before rule after r s)
    (idles : rule.effect = .unsupported name) (calls : List Call) :
    s.transcript calls = r.transcript calls ↔ ∀ earlier call later,
      calls = earlier ++ call :: later → ¬(r.attendAll earlier).Displaces before rule after call := by
  -- Where a call first shows, the two referees part; up to there they are one rule apart.
  induction calls generalizing r s with
  | nil => exact iff_of_true rfl fun earlier call later split => by simp at split
  | cons first rest ih =>
    rw [transcript_cons, transcript_cons, List.cons.injEq, amends.same_iff idles]
    constructor
    · rintro ⟨kept, same⟩ earlier call later split
      cases earlier with
      | nil =>
        cases split
        exact kept
      | cons _ earlier =>
        cases split
        exact (ih (amends.attend ((amends.same_iff idles _).mpr kept))).mp same _ _ _ rfl
    · intro kept
      have here := kept [] first rest rfl
      refine ⟨here, (ih (amends.attend ((amends.same_iff idles _).mpr here))).mpr ?_⟩
      intro earlier call later split
      exact kept (first :: earlier) call later (congrArg (first :: ·) split)

end

/-- A level with one rule more than another, wherever it stands. If its condition is not supported, every
run of calls comes to the same, asks the same predicates and leaves the same behind. If its effect is not
supported, a run comes to the same just if the rule never displaces anything; where it comes first, a
landing is remembered and a tick starts idle time again, and that is all. -/
theorem load_inserts (r : Referee) (before after : List Rule) (rule : Rule) (board : Board)
    (patterns : Fields) (name : String) :
    let plain := r.load (before ++ after) board patterns
    let longer := r.load (before ++ rule :: after) board patterns
    (rule.condition = .unsupported name → ∀ calls,
      longer.attendAll calls = (plain.attendAll calls).withRules (before ++ rule :: after) ∧
      longer.transcript calls = plain.transcript calls) ∧
    (rule.effect = .unsupported name →
      (∀ calls, longer.transcript calls = plain.transcript calls ↔ ∀ earlier call later,
        calls = earlier ++ call :: later →
          ¬(plain.attendAll earlier).Displaces before rule after call) ∧
      ∀ calls, let s := longer.attendAll calls
        (∀ place, before.find? (s.holdsAt place) = none → s.holdsAt place rule = true →
          (Call.land place).outcome s = (.ok [], (s.landing place).memory)) ∧
        ∀ moving seconds, firstDue (s.passing moving) (idleRules before) = .ok none →
          rule.condition = .idleSeconds seconds →
          Condition.isIdleFor seconds (s.passing moving) = .ok true →
          (Call.tick moving).outcome s = (.ok [], { s.memory with idle := 0 })) := by
  intro plain longer
  refine ⟨fun unsupported calls => ?_, fun idles => ⟨fun calls => ?_, fun calls => ?_⟩⟩
  · have same : SameRulings plain.rules longer.rules := sameRulings_insert before after unsupported
    refine ⟨same.attendAll calls, same.gather (fun s same call => ?_) calls⟩
    rw [Call.outcome, Call.outcome, same.attend call]
    rfl
  · have amends : Amends before rule after plain longer := ⟨rfl, r.asked, rfl⟩
    exact amends.transcript_same_iff idles calls
  · have listed : (longer.attendAll calls).rules = before ++ rule :: after :=
      (longer.attendAll_settled calls).1
    exact ⟨fun place => land_first listed idles, fun moving seconds => tick_first listed idles⟩

/-- A rule about the phase of the moon is as good as absent. One that explodes at the first step and on the
exit goes unnoticed at that step, where no rule behind it holds, and on a tick; on the exit it comes first. -/
theorem load_inserts_explosion :
    let exit : Tile := { place := ⟨1, 0⟩, isExit := true }
    let board : Board := ⟨2, [[{ place := ⟨0, 0⟩ }, exit]]⟩
    let moon : Rule := ⟨.unsupported "moon_phase", .kill⟩
    let explosion : Rule := ⟨.any [.totalSteps 1, .reachExit], .unsupported "explode"⟩
    let rest : List Rule := [⟨.reachExit, .win⟩]
    let plain := ({} : Referee).load rest board []
    let longer := ({} : Referee).load (explosion :: rest) board []
    let calls : List Call := [.land ⟨0, 0⟩, .tick true]
    let all := calls ++ [.land ⟨1, 0⟩]
    (({} : Referee).load (moon :: rest) board []).transcript all = plain.transcript all ∧
    longer.transcript calls = plain.transcript calls ∧
    (plain.attendAll calls).Displaces [] explosion rest (.land ⟨1, 0⟩) ∧
    (Call.land ⟨1, 0⟩).outcome (longer.attendAll calls) =
      (.ok [], { steps := 2 }) := by
  intro exit board moon explosion rest plain longer calls all
  obtain ⟨absent, _⟩ := load_inserts {} [] rest moon board [] "moon_phase"
  obtain ⟨_, idles⟩ := load_inserts {} [] rest explosion board [] "explode"
  obtain ⟨noticed, first⟩ := idles rfl
  refine ⟨(absent rfl all).2, (noticed calls).mpr ?_, .land rfl rfl rfl nofun,
    ((first calls).1 ⟨1, 0⟩ rfl rfl).trans rfl⟩
  intro earlier call later split displaces
  unfold calls at split
  match earlier with
  | [] =>
    cases split
    cases displaces with
    | land _ _ found => cases found
  | [_] =>
    cases split
    cases displaces with
    | tick _ idle => cases idle
  | _ :: _ :: _ => simp at split

/-- A level whose exit wins, with a rule before that explodes there, and explosions are not supported: a
landing on the exit, which wins without that rule, comes to nothing. -/
theorem explosion_displaces :
    let exit : Value := .obj [("type", .str "reach_exit")]
    let authored (effect : String) : Value :=
      .obj [("condition", exit), ("effect", .obj [("type", .str effect)])]
    let win : Rule := ⟨.reachExit, .win⟩
    let explosion : Rule := ⟨.reachExit, .unsupported "explode"⟩
    let board : Board := ⟨1, [[{ place := ⟨0, 0⟩, isExit := true }]]⟩
    Rule.ofItems [authored "explode", authored "win"] = .ok [explosion, win] ∧
    ((({} : Referee).load [win] board []).land ⟨0, 0⟩).1 = .ok [.won] ∧
    ((({} : Referee).load [explosion, win] board []).land ⟨0, 0⟩).1 = .ok [] :=
  ⟨rfl, rfl, rfl⟩

end Referee
end TilePuzzle
