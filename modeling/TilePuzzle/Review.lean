import TilePuzzle.Board
import TilePuzzle.Rule.Verdict

/-! Reviews: what an author should know about a blueprint before players find out. Errors make a
blueprint invalid: something in it cannot work as written. Warnings do not. -/
namespace TilePuzzle

/-- What is wrong with a blueprint: errors make it invalid, warnings do not. -/
structure Review where
  errors : List String := []
  warnings : List String := []

namespace Review

def isValid (r : Review) : Bool := r.errors.isEmpty

instance : Append Review := ⟨fun a b => ⟨a.errors ++ b.errors, a.warnings ++ b.warnings⟩⟩

def error (s : String) : Review := { errors := [s] }

def warning (s : String) : Review := { warnings := [s] }

def clean : Review := {}

def concat (reviews : List Review) : Review := reviews.foldl (· ++ ·) clean

def when (condition : Bool) (r : Review) : Review := if condition then r else clean

def placeText (p : Place) : String := "[" ++ toString p.col ++ ", " ++ toString p.row ++ "]"

def sizeText (size : Nat) : String := toString size ++ "x" ++ toString size

def idText (id : Option Ident) : String := (Ident.optionalValue id).text

def ofCorner (size : Nat) (label : String) : Option Place → Review
  | none => clean
  | some p => when (!p.within size) <| warning <|
      label ++ " " ++ placeText p ++ " is outside the " ++ sizeText size ++
        " grid; default corner used"

/-- Start and exit as authored, the default corners where absent, have to differ. -/
def ofMeeting (b : Blueprint) : Review :=
  when (b.start.getD ⟨0, 0⟩ == b.exit.getD ⟨b.size - 1, b.size - 1⟩) <|
    warning "start and exit are the same cell"

def ofBorder : Option String → Review
  | none => clean
  | some s => when (Border.find? s).isNone <|
      warning ("Unknown border_behavior '" ++ s ++ "', treated as 'block'")

def ofTiles (size : Nat) (seen : List Key) : List TileEntry → Review
  | [] => clean
  | entry :: rest =>
    if entry.place.within size then
      let known := (entry.id.map fun id => seen.contains id.key).getD false
      let seen := match entry.id with
        | some id => id.key :: seen
        | none => seen
      when known (warning ("Duplicate cell id '" ++ idText entry.id ++ "'")) ++
        when (Mechanic.ofName? entry.mechanic == some .unsupported)
          (warning ("Cell '" ++ idText entry.id ++ "' has unknown mechanic '" ++
            entry.mechanic.getD "" ++ "'")) ++
        ofTiles size seen rest
    else
      warning ("Cell '" ++ idText entry.id ++ "' at " ++ placeText entry.place ++
        " is outside the grid and will be ignored") ++ ofTiles size seen rest

mutual
/-- Reviews a condition and those below it; `label` says which rule it belongs to. -/
def ofCondition (known : List String) (label : String) : Condition → Review
  | .unsupported typeName => warning (label ++ ": unknown condition type '" ++ typeName ++ "'")
  | .patternBreak pattern =>
    when pattern.isEmpty (error (label ++ ": pattern_break has an empty pattern"))
  | .sequenceViolates sequence =>
    when sequence.isEmpty (error (label ++ ": sequence_violates has an empty sequence"))
  | .idleSeconds seconds =>
    when (seconds.atMost (.int 0)) (error (label ++ ": idle_seconds must be positive"))
  | .custom name =>
    when (!known.contains name)
      (warning (label ++ ": custom_rule '" ++ name ++ "' is not registered"))
  | .all conditions => ofConditions known label conditions
  | .any conditions => ofConditions known label conditions
  | .touchTile _ | .touchColor _ | .reachExit | .repeated _ | .repeatedSolid _ | .musicPlaying
  | .totalSteps _ => clean

/-- Findings on the conditions of a rule; only names that nothing answers are doubtful. -/
def ofConditions (known : List String) (label : String) : List Condition → Review
  | [] => clean
  | c :: rest => ofCondition known label c ++ ofConditions known label rest
end

def hasPattern (patterns : Fields) (sound : Option String) : Bool :=
  match sound with
  | none => false
  | some s => (patterns.lookup s).isSome

def ofEffect (b : Blueprint) (label : String) : Effect → Review
  | .unsupported typeName => warning (label ++ ": unknown effect type '" ++ typeName ++ "'")
  | .teleport col row =>
    when (!(Place.mk col row).within b.size) <| error <|
      label ++ ": teleport target " ++ placeText ⟨col, row⟩ ++ " is outside the grid"
  | .playSound sound =>
    when (!hasPattern b.patterns sound) <| warning <|
      label ++ ": sound '" ++ sound.getD "None" ++ "' not found in music_patterns"
  | .kill | .win | .showHint .. | .stopSound => clean

def ofRules (b : Blueprint) (known : List String) (index : Nat) :
    List Fields → Except Fault Review
  | [] => .ok clean
  | fields :: rest => do
    let label := "Rule " ++ toString index
    let condition ← Condition.ofValue (Value.get fields "condition")
    let effect ← Effect.ofValue (Value.get fields "effect")
    let more ← ofRules b known (index + 1) rest
    return ofCondition known label condition ++ ofEffect b label effect ++ more

def ofHint (h : HintEntry) : Review :=
  when (h.trigger != "death_count")
    (warning ("Hint trigger '" ++ h.trigger ++ "' is not supported"))

def cueKinds : List String := ["show_hint", "show_sequence", "play_sound"]

def ofCue (c : CueEntry) : Review :=
  when (!cueKinds.contains c.kind)
    (warning ("on_start event type '" ++ c.kind ++ "' is not supported"))

/-- Without rules, only the border can be the way out. -/
def ofWinning (b : Blueprint) : Review :=
  when (b.rules.isEmpty && b.border != some "exit")
    (warning "No rules defined - level cannot be won")

/-- Reviews a blueprint; `known` are the predicates that its rules may ask. -/
def ofBlueprint (b : Blueprint) (known : List String) : Except Fault Review := do
  let rules ← ofRules b known 0 b.rules
  return ofCorner b.size "start" b.start ++ ofCorner b.size "exit" b.exit ++ ofMeeting b ++
    ofBorder b.border ++ ofTiles b.size [] b.tiles ++ rules ++ concat (b.hints.map ofHint) ++
    concat (b.cues.map ofCue) ++ ofWinning b

def failure (r : Review) : String :=
  "Level validation failed with " ++ toString r.errors.length ++ " error(s)"

end Review
end TilePuzzle
