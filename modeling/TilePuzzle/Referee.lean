import TilePuzzle.Config
import TilePuzzle.Event
import TilePuzzle.Rule.Verdict

/-! The referee: applies the rules of a level to what the player does, and keeps what they
remember. Rules are asked in their order and the first that holds takes effect. -/
namespace TilePuzzle

structure Referee where
  config : Config := {}
  predicates : Predicates := []
  rules : List Rule := []
  board : Option Board := none
  /-- The patterns of the sounds that a level knows. -/
  patterns : Fields := []
  memory : Memory := {}
  /-- Every predicate asked so far, in order. -/
  asked : List String := []

namespace Referee

/-- A referee without a level. Nothing can be remembered with a negative capacity. -/
def create (config : Config) (predicates : Predicates) : Except Fault Referee :=
  if config.capacity < 0 then .error .negativeCapacity else .ok { config, predicates }

/-- Takes on a level. Everything is forgotten but the deaths. -/
def load (r : Referee) (rules : List Rule) (board : Board) (patterns : Fields) : Referee :=
  { r with rules, board := some board, patterns, memory := { deaths := r.memory.deaths } }

def resetDeaths (r : Referee) : Referee := { r with memory := { r.memory with deaths := 0 } }

def remember (capacity : Nat) (sequence : List String) (entry : String) : List String :=
  let longer := sequence ++ [entry]
  longer.drop (longer.length - capacity)

/-- The key of the colour that a landing leaves behind: none on a joker or without a colour. -/
def trace? (tile : Option Tile) : Option String :=
  match tile with
  | none => none
  | some t =>
    if t.isJoker then none
    else match t.look.color with
      | some color => if color = "" then none else some (Color.key color)
      | none => none

def record (m : Memory) (capacity : Nat) (tile : Option Tile) : Memory :=
  let m := match trace? tile with
    | none => m
    | some key =>
      let m := { m with colors := remember capacity m.colors key }
      if (tile.map Tile.isBlinking).getD false then m
      else { m with solidColors := remember capacity m.solidColors key }
  { m with steps := m.steps + 1 }

/-- The effect of the first rule that holds, with the predicates asked on the way to it. -/
def firstMatch (predicates : Predicates) (context : Context) :
    List Rule → List String × Except Fault (Option Effect)
  | [] => ([], .ok none)
  | rule :: rest =>
    match rule.condition.judge predicates context with
    | ⟨asked, .error f⟩ => (asked, .error f)
    | ⟨asked, .ok true⟩ => (asked, .ok (some rule.effect))
    | ⟨asked, .ok false⟩ =>
      let (more, effect) := firstMatch predicates context rest
      (asked ++ more, effect)

def soundEvent (patterns : Fields) : Option String → Event
  | none => .soundStarted .null .null
  | some s => .soundStarted (.str s) (if s = "" then .null else Value.get patterns s)

def execute (r : Referee) : Effect → List Event × Referee
  | .kill => ([.killed], { r with memory := { r.memory with deaths := r.memory.deaths + 1 } })
  | .win => ([.won], r)
  | .teleport col row =>
    match r.board with
    | some board => (if board.contains ⟨col, row⟩ then [.teleported ⟨col, row⟩] else [], r)
    | none => ([.teleported ⟨col, row⟩], r)
  | .showHint text duration => ([.hintShown (.str text) (.int duration)], r)
  | .playSound sound =>
    ([soundEvent r.patterns sound], { r with memory := { r.memory with music := true } })
  | .stopSound => ([.soundStopped], { r with memory := { r.memory with music := false } })
  | .unsupported _ => ([], r)

def executeIfAny (r : Referee) : Option Effect → List Event × Referee
  | none => ([], r)
  | some effect => r.execute effect

def tileAt (r : Referee) (place : Place) : Option Tile := r.board.bind (·.tileAt place)

/-- The player landed on a place: it is remembered, then the first rule that holds takes effect. -/
def land (r : Referee) (place : Place) : Except Fault (List Event) × Referee :=
  let tile := r.tileAt place
  let r := { r with memory := record r.memory r.config.capacity.toNat tile }
  let context : Context :=
    { memory := r.memory, tile, col := some place.col, row := some place.row,
      tickRate := r.config.tickRate }
  let (asked, effect) := firstMatch r.predicates context r.rules
  let r := { r with asked := r.asked ++ asked }
  match effect with
  | .error f => (.error f, r)
  | .ok effect =>
    let (events, r) := r.executeIfAny effect
    (.ok events, r)

/-- The idle rules: those whose condition itself is about idle time. -/
def idleRules (rules : List Rule) : List (Number × Effect) :=
  rules.filterMap fun rule =>
    match rule.condition with
    | .idleSeconds seconds => some (seconds, rule.effect)
    | _ => none

def firstDue (context : Context) : List (Number × Effect) → Except Fault (Option Effect)
  | [] => .ok none
  | (seconds, effect) :: rest =>
    match Condition.isIdleFor seconds context with
    | .error f => .error f
    | .ok true => .ok (some effect)
    | .ok false => firstDue context rest

/-- A tick passed. The first idle rule that is due takes effect and idle time starts again. -/
def tick (r : Referee) (moving : Bool) : Except Fault (List Event) × Referee :=
  let r := { r with memory := { r.memory with idle := if moving then 0 else r.memory.idle + 1 } }
  let context : Context := { memory := r.memory, onTick := true, tickRate := r.config.tickRate }
  match firstDue context (idleRules r.rules) with
  | .error f => (.error f, r)
  | .ok none => (.ok [], r)
  | .ok (some effect) =>
    let (events, r) := { r with memory := { r.memory with idle := 0 } }.execute effect
    (.ok events, r)

def borderHit (r : Referee) : Border → List Event × Referee
  | .kill => r.execute .kill
  | .exit => r.execute .win
  | .block | .wrap => ([], r)

def hints (r : Referee) (hints : List Hint) : List Event :=
  (hints.filter fun h => h.threshold ≤ r.memory.deaths).map fun h => .hintShown h.text h.duration

def withBoard (r : Referee) (board : Board) : Referee := { r with board := some board }

end Referee
end TilePuzzle
