import TilePuzzle.Value

/-! The conditions of rules and how they are read from data. What is not known is kept as an
unsupported condition, which never holds. -/
namespace TilePuzzle

inductive Condition
  | touchTile (id : Value)
  | touchColor (color : String)
  | reachExit
  /-- The last two remembered colours both are this one. -/
  | repeated (color : String)
  /-- The same, among tiles that do not blink. -/
  | repeatedSolid (color : String)
  /-- The last colour leaves a pattern that repeats forever. -/
  | patternBreak (pattern : List String)
  /-- The last colour leaves a sequence that is followed once. -/
  | sequenceViolates (sequence : List String)
  | idleSeconds (seconds : Number)
  | musicPlaying
  | totalSteps (steps : Int)
  | all (conditions : List Condition)
  | any (conditions : List Condition)
  | custom (name : String)
  | unsupported (typeName : String)

namespace Condition

instance : Inhabited Condition := ⟨.reachExit⟩

inductive Kind
  | touchTile
  | touchColor
  | reachExit
  | repeated
  | repeatedSolid
  | patternBreak
  | sequenceViolates
  | idleSeconds
  | musicPlaying
  | totalSteps
  | all
  | any
  | custom
  deriving DecidableEq

def Kind.ofName? : String → Option Kind
  | "touch_cell" => some touchTile
  | "touch_cell_color" => some touchColor
  | "reach_exit" => some reachExit
  | "two_consecutive_same" => some repeated
  | "two_consecutive_same_solid" => some repeatedSolid
  | "pattern_break" => some patternBreak
  | "sequence_violates" => some sequenceViolates
  | "idle_seconds" => some idleSeconds
  | "music_playing" => some musicPlaying
  | "total_steps_equals" => some totalSteps
  | "AND" => some all
  | "OR" => some any
  | "custom_rule" => some custom
  | _ => none

def Kind.ofTag? : Value → Option Kind
  | .str s => ofName? s
  | _ => none

def textField (fields : Fields) (name : String) : String :=
  ((Value.get fields name).orElse (.str "")).text

def textsField (fields : Fields) (name : String) : List String :=
  match Value.get fields name with
  | .arr items => items.map Value.text
  | _ => []

def numberField (fields : Fields) (name : String) (default : Int) : Number :=
  ((Value.get fields name).number?).getD (.int default)

def ofKind (kind : Kind) (fields : Fields) (below : Except Fault (List Condition)) :
    Except Fault Condition :=
  match kind with
  | .touchTile => .ok (.touchTile (Value.get fields "cell_id"))
  | .touchColor => .ok (.touchColor (textField fields "color"))
  | .reachExit => .ok .reachExit
  | .repeated => .ok (.repeated (textField fields "color"))
  | .repeatedSolid => .ok (.repeatedSolid (textField fields "color"))
  | .patternBreak => .ok (.patternBreak (textsField fields "pattern"))
  | .sequenceViolates => .ok (.sequenceViolates (textsField fields "sequence"))
  | .idleSeconds => .ok (.idleSeconds (numberField fields "seconds" 0))
  | .musicPlaying => .ok .musicPlaying
  | .totalSteps => (numberField fields "steps" (-1)).trunc.map .totalSteps
  | .all => below.map .all
  | .any => below.map .any
  | .custom => .ok (.custom (textField fields "name"))

mutual
/-- Reads a condition. Only an object can be one; its type tag decides which. -/
def ofValue : Value → Except Fault Condition
  | .obj fields =>
    match Kind.ofTag? (Value.get fields "type") with
    | some kind => ofKind kind fields (belowOf fields)
    | none => .ok (.unsupported (Value.get fields "type").text)
  | v => .ok (.unsupported v.shown)

def belowOf : List (String × Value) → Except Fault (List Condition)
  | [] => .ok []
  | (name, v) :: rest => if name = "conditions" then membersOf v else belowOf rest

/-- The conditions that a value is walked through as; one that counts as false has none. -/
def membersOf : Value → Except Fault (List Condition)
  | .arr items => listOf items
  | .obj fields => .ok (fields.map fun f => .unsupported (Text.quoted f.1))
  | .str s => .ok ((Text.split s).map fun letter => .unsupported (Text.quoted letter))
  | v => if v.isTruthy then .error (.notIterable v.kind) else .ok []

def listOf : List Value → Except Fault (List Condition)
  | [] => .ok []
  | v :: rest => do
    let first ← ofValue v
    return first :: (← listOf rest)
end

end Condition
end TilePuzzle
