import TilePuzzle.Board
import TilePuzzle.Rule.Basic

/-! Judging conditions. A verdict holds, beside the truth value, which named predicates were asked
for it, in order. -/
namespace TilePuzzle

structure Memory where
  /-- The colours landed on, oldest first, no more than a fixed number. -/
  colors : List String := []
  /-- Those of them that belong to tiles that do not blink. -/
  solidColors : List String := []
  steps : Int := 0
  deaths : Int := 0
  /-- Ticks since the player last moved. -/
  idle : Int := 0
  music : Bool := false

structure Context where
  memory : Memory
  tile : Option Tile := none
  col : Option Int := none
  row : Option Int := none
  /-- Whether time passed, rather than the player landing. -/
  onTick : Bool := false
  tickRate : Int := 60

/-- The answer of a predicate; `none` if it breaks down. -/
abbrev Predicate := Context → Option Bool

abbrev Predicates := List (String × Predicate)

structure Verdict where
  asked : List String
  value : Except Fault Bool

namespace Verdict

def plain (b : Bool) : Verdict := ⟨[], .ok b⟩

end Verdict

namespace Condition

def lastTwoAre (sequence : List String) (color : String) : Bool :=
  match sequence.reverse with
  | last :: before :: _ => before == Color.key color && last == Color.key color
  | _ => false

/-- Whether the last entry of a sequence is not the one that a repeated pattern has there. -/
def breaksPattern (sequence pattern : List String) : Bool :=
  match sequence.getLast?, pattern[(sequence.length - 1) % pattern.length]? with
  | some last, some expected => last != Color.key expected
  | _, _ => false

/-- Whether the last entry of a sequence is not the one that a reference has there; past its end
nothing is wrong. -/
def leavesSequence (sequence reference : List String) : Bool :=
  match sequence.getLast?, reference[sequence.length - 1]? with
  | some last, some expected => last != Color.key expected
  | _, _ => false

def touches (tile : Option Tile) (id : Value) : Bool :=
  match tile with
  | some t => (t.id.map fun i => i.isValue id).getD false
  | none => false

def shownColor (tile : Option Tile) : String := ((tile.bind (·.look.color)).getD "")

/-- Whether enough time passed; it counts on ticks only. -/
def isIdleFor (seconds : Number) (context : Context) : Except Fault Bool :=
  if context.onTick then
    (seconds.mul (.int context.tickRate)).map fun due => due.atMost (.int context.memory.idle)
  else .ok false

/-- Asks a named predicate. One that is not known is not asked, one that breaks down is false. -/
def ask (predicates : Predicates) (context : Context) (name : String) : Verdict :=
  match predicates.lookup name with
  | none => .plain false
  | some predicate => ⟨[name], .ok ((predicate context).getD false)⟩

mutual
/-- Judges a condition. All conditions below it are judged, whatever the first ones say. -/
def judge (predicates : Predicates) (context : Context) : Condition → Verdict
  | touchTile id => .plain (touches context.tile id)
  | touchColor color => .plain (Color.key (shownColor context.tile) == Color.key color)
  | reachExit => .plain ((context.tile.map (·.isExit)).getD false)
  | repeated color => .plain (lastTwoAre context.memory.colors color)
  | repeatedSolid color => .plain (lastTwoAre context.memory.solidColors color)
  | patternBreak pattern => .plain (breaksPattern context.memory.colors pattern)
  | sequenceViolates sequence => .plain (leavesSequence context.memory.colors sequence)
  | idleSeconds seconds => ⟨[], isIdleFor seconds context⟩
  | musicPlaying => .plain context.memory.music
  | totalSteps steps => .plain (context.memory.steps == steps)
  | all conditions =>
    let (asked, values) := judgeList predicates context conditions
    ⟨asked, values.map fun vs => vs.all id⟩
  | any conditions =>
    let (asked, values) := judgeList predicates context conditions
    ⟨asked, values.map fun vs => vs.any id⟩
  | custom name => ask predicates context name
  | unsupported _ => .plain false

def judgeList (predicates : Predicates) (context : Context) :
    List Condition → List String × Except Fault (List Bool)
  | [] => ([], .ok [])
  | c :: rest =>
    match judge predicates context c with
    | ⟨asked, .error f⟩ => (asked, .error f)
    | ⟨asked, .ok b⟩ =>
      let (more, values) := judgeList predicates context rest
      (asked ++ more, values.map (b :: ·))
end

end Condition
end TilePuzzle
