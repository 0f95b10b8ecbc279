import TilePuzzle.Lobby
import TilePuzzle.Review

/-! What the service answers: replies and failures, and how they are written as values. -/
namespace TilePuzzle

inductive Refusal
  | notLoaded (session : String)
  | badDirection (text : String)
  | badIndex (cause : Fault) (count : Nat)
  | badBlueprint (first : Issue) (more : List Issue)

namespace Refusal

def code : Refusal → String
  | notLoaded _ => "LEVEL_LOAD_FAILED"
  | badDirection _ => "INVALID_DIRECTION"
  | badIndex .. => "INVALID_LEVEL_INDEX"
  | badBlueprint .. => "VALIDATION_ERROR"

def message : Refusal → String
  | notLoaded _ => "Level could not be loaded"
  | badDirection text => "Invalid direction '" ++ text ++ "'"
  | badIndex cause _ => cause.message
  | badBlueprint .. => "Level descriptor does not match the schema"

end Refusal

def Step.value : Step → Value
  | .field name => .str name
  | .index i => .int i

def Issue.fields (i : Issue) : Fields :=
  [("type", .str i.problem.tag), ("loc", .arr (i.path.map Step.value)),
    ("msg", .str i.problem.message), ("input", i.input)]

def Refusal.details : Refusal → Value
  | notLoaded session => .obj [("session_id", .str session)]
  | badDirection _ => .obj [("allowed", .arr (["up", "down", "left", "right"].map .str))]
  | badIndex _ count => .obj [("level_count", .int count)]
  | badBlueprint first more =>
    .obj [("errors", .arr ((first :: more).map fun i => .obj i.fields))]

inductive Failure
  | fault (f : Fault)
  | unknownSession (id : String)
  | refused (r : Refusal)
  /-- The reply itself has not the shape it should have. -/
  | malformed (first : Issue) (more : List Issue)

def unknownSessionMessage (id : String) : String := "Session not found: " ++ id

def apiVersion : Value := .str "v1"

def replyId (level : Option Level) : Except Failure (Option Ident) :=
  match ((Schema.optional Blueprint.ident) ((level.map (·.id)).getD .null)).under
      (.field "level_id") with
  | .ok id => .ok id
  | .issues first more => .error (.malformed first more)

structure SessionReply where
  id : String
  stage : Stage
  levelIndex : Nat
  levelId : Option Ident
  title : String
  levelCount : Nat
  deaths : Int
  frame : Nat
  /-- Whether the last intent was kept, where there was one. -/
  accepted : Option Bool
  createdAt : Float

def orFault : Except Fault α → Except Failure α
  | .ok a => .ok a
  | .error f => .error (.fault f)

def SessionReply.ofSession (id : String) (s : Session) (accepted : Option Bool := none) :
    Except Failure SessionReply := do
  let levelId ← replyId s.level
  let createdAt ← orFault s.createdAt.toFloat
  return {
    id, stage := s.stage, levelIndex := s.levelIndex, levelId
    title := (s.level.map (·.blueprint.title)).getD ""
    levelCount := s.levelIds.length, deaths := s.deaths, frame := s.frame, accepted, createdAt }

def SessionReply.value (r : SessionReply) : Value :=
  .obj [("session_id", .str r.id), ("status", .str r.stage.name),
    ("level_index", .int r.levelIndex), ("level_id", Ident.optionalValue r.levelId),
    ("level_title", .str r.title), ("level_count", .int r.levelCount),
    ("death_count", .int r.deaths), ("frame", .int r.frame),
    ("accepted", Value.optional .bool r.accepted), ("created_at", .float r.createdAt),
    ("api_version", apiVersion)]

structure PlayerView where
  player : Player
  progress : Float

/-- The progress of a move counts only during one. -/
def PlayerView.ofPlayer (p : Player) : Except Failure PlayerView :=
  if p.phase = .moving then (orFault p.progress).map (⟨p, ·⟩) else .ok ⟨p, 0⟩

def PlayerView.value (v : PlayerView) : Value :=
  .obj [("col", .int v.player.place.col), ("row", .int v.player.place.row),
    ("visual_col", .float v.player.visualCol), ("visual_row", .float v.player.visualRow),
    ("phase", .str v.player.phase.name), ("progress", .float v.progress),
    ("lev_offset", .float v.player.hoverHeight)]

structure TickReply where
  id : String
  stage : Stage
  frame : Nat
  ticksRun : Nat
  events : List Event
  player : PlayerView

def eventValue (e : Event) : Value := .obj [("type", .str e.name), ("data", .obj e.fields)]

def TickReply.value (r : TickReply) : Value :=
  .obj [("session_id", .str r.id), ("status", .str r.stage.name), ("frame", .int r.frame),
    ("ticks_run", .int r.ticksRun), ("events", .arr (r.events.map eventValue)),
    ("player", r.player.value), ("api_version", apiVersion)]

structure LevelView where
  levelId : Option Ident
  level : Level
  frame : Nat
  player : PlayerView
  waiting : List Direction

structure StateReply where
  id : String
  stage : Stage
  memory : Memory
  view : Option LevelView

def StateReply.ofSession (id : String) (s : Session) : Except Failure StateReply :=
  match s.level with
  | none => .ok ⟨id, s.stage, s.referee.memory, none⟩
  | some level => do
    let player ← PlayerView.ofPlayer s.player
    let levelId ← replyId (some level)
    return ⟨id, s.stage, s.referee.memory,
      some { levelId, level, frame := s.frame, player, waiting := s.intents.waiting }⟩

def memoryValue (m : Memory) : Value :=
  .obj [("color_sequence", .arr (m.colors.map .str)),
    ("solid_color_sequence", .arr (m.solidColors.map .str)), ("step_count", .int m.steps),
    ("death_count", .int m.deaths), ("idle_ticks", .int m.idle), ("music_playing", .bool m.music)]

def tileView (t : Tile) : Value :=
  .obj [("col", .int t.place.col), ("row", .int t.place.row), ("id", Ident.optionalValue t.id),
    ("is_start", .bool t.isStart), ("is_exit", .bool t.isExit), ("is_joker", .bool t.isJoker),
    ("mechanic", Value.optional .str (t.mechanic.map (·.name))),
    ("current_color", Value.optional .str t.look.color), ("rotation_angle", .float t.look.angle),
    ("elevation", .float t.look.elevation), ("pulse_scale", .float t.look.scale),
    ("blink_visible", .bool t.look.visible)]

def LevelView.fields (v : LevelView) : Fields :=
  let b := v.level.blueprint
  [("level_id", Ident.optionalValue v.levelId), ("title", .str b.title),
    ("grid_size", .int v.level.board.size), ("border_behavior", .str v.level.border.name),
    ("frame", .int v.frame), ("player", v.player.value),
    ("cells", .arr (v.level.board.tiles.map tileView)),
    ("pending_intents", .arr (v.waiting.map fun d => .str d.name)),
    ("wall_hint", Value.optional .str b.wallHint), ("death_message", .str b.deathMessage),
    ("win_message", .str b.winMessage)]

def noLevelFields : Fields :=
  [("level_id", .null), ("title", .str ""), ("grid_size", .int 0),
    ("border_behavior", .str "kill"), ("frame", .int 0), ("player", .null), ("cells", .arr []),
    ("pending_intents", .arr []), ("wall_hint", .null), ("death_message", .str "You fell."),
    ("win_message", .str "Pattern understood.")]

def StateReply.value (r : StateReply) : Value :=
  .obj ([("session_id", .str r.id), ("status", .str r.stage.name),
    ("rules", memoryValue r.memory), ("api_version", apiVersion)] ++
    match r.view with
    | none => noLevelFields
    | some v => v.fields)

def reviewValue (r : Review) : Value :=
  .obj [("valid", .bool r.isValid), ("errors", .arr (r.errors.map .str)),
    ("warnings", .arr (r.warnings.map .str)), ("api_version", apiVersion)]

end TilePuzzle
