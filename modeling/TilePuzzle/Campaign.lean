import TilePuzzle.Level

/-! The built-in campaign. Each level introduces one idea: reach the exit, some colours kill, never
twice the same, keep the rhythm, the edges wrap around, cross with the music on, and the border as
the way out. -/
namespace TilePuzzle.Campaign

def red : Value := .str "#E74C3C"
def blue : Value := .str "#4A90D9"
def yellow : Value := .str "#F5A623"
def green : Value := .str "#2ECC71"

def pair (col row : Int) : Value := .arr [.int col, .int row]

def tile (col row : Int) (mechanic : String) (params : Fields) (more : Fields := []) : Value :=
  .obj ([("position", pair col row), ("mechanic", .str mechanic), ("mechanic_params", .obj params)]
    ++ more)

def solid (col row : Int) (color : Value) (more : Fields := []) : Value :=
  tile col row "solid_color" [("color", color)] more

/-- A value whose `type` field says what it is, as conditions, effects and cues are written. -/
def tagged (type : String) (fields : Fields := []) : Value := .obj (("type", .str type) :: fields)

def rule (condition effect : Value) : Value := .obj [("condition", condition), ("effect", effect)]

def onExit (effect : Value) : Value := rule (tagged "reach_exit") effect

def winOnExit : Value := onExit (tagged "win")

def killOn (color : Value) : Value :=
  rule (tagged "touch_cell_color" [("color", color)]) (tagged "kill")

def onTile (id : String) (effect : Value) : Value :=
  rule (tagged "touch_cell" [("cell_id", .str id)]) effect

def jumpTo (col row : Int) : Value :=
  tagged "teleport" [("target_col", .int col), ("target_row", .int row)]

def hint (threshold : Int) (text : String) (duration : Int) : Value :=
  .obj [("trigger", .str "death_count"), ("threshold", .int threshold), ("text", .str text),
    ("duration", .int duration)]

def level (id : Int) (title : String) (size : Int) (border : String) (tiles rules : List Value)
    (more : Fields := []) : Value :=
  .obj ([("id", .int id), ("title", .str title), ("grid_size", .int size),
    ("border_behavior", .str border), ("cells", .arr tiles), ("rules", .arr rules)] ++ more)

def firstSteps : Value :=
  level 1 "First Steps" 4 "block"
    [solid 1 0 blue, solid 1 1 blue, solid 2 2 yellow]
    [winOnExit]
    [("start", pair 0 0), ("exit", pair 3 3), ("wall_hint", .str "Find the way out.")]

def redMeansStop : Value :=
  level 2 "Red Means Stop" 5 "kill"
    [solid 1 0 red, solid 1 1 red, solid 3 3 red, solid 0 2 blue,
      tile 2 2 "pulsing" [("color", blue), ("speed", .float 0.02)]]
    [killOn red, winOnExit]
    [("hints", .arr [hint 2 "Red is not your friend." 4000])]

def neverTwice : Value :=
  level 3 "Never Twice" 5 "block"
    [solid 1 0 blue, solid 2 0 blue, solid 1 1 yellow, solid 2 1 blue,
      tile 3 1 "blinking" [("color", blue), ("speed", .float 0.03)],
      tile 2 2 "blinking" [("color", yellow), ("speed", .float 0.05)] [("joker", .bool true)]]
    [rule (tagged "two_consecutive_same_solid" [("color", blue)]) (tagged "kill"), winOnExit]
    [("hints", .arr [hint 3 "Blinking tiles break a streak." 5000])]

def rhythm : Value :=
  level 4 "Rhythm" 4 "block"
    [solid 1 0 blue, solid 2 0 blue, solid 3 0 yellow, solid 3 1 blue, solid 3 2 blue,
      solid 0 1 yellow, tile 1 1 "rotating_cw" [("color", red)]]
    [rule (tagged "pattern_break" [("pattern", .arr [blue, blue, yellow])]) (tagged "kill"),
      winOnExit]
    [("on_start", .arr [tagged "show_sequence" [("delay", .int 500), ("duration", .int 4000),
      ("colors", .arr [blue, blue, yellow]), ("label", .str "Keep the beat")]])]

def aroundTheWorld : Value :=
  level 5 "Around the World" 5 "wrap"
    [solid 1 0 red, solid 0 1 red, solid 1 1 red, solid 4 4 green [("id", .str "portal")],
      tile 2 1 "levitating" [("color", yellow), ("amplitude", .int 10)],
      tile 3 2 "rotating_ccw" [("color", blue)]]
    [killOn red, onTile "portal" (jumpTo 4 0), winOnExit]
    [("start", pair 2 2), ("exit", pair 0 0)]

def silence : Value :=
  level 6 "Silence" 4 "block"
    [solid 1 0 green [("id", .str "play")], solid 0 1 red [("id", .str "stop")],
      tile 2 2 "color_shift" [("color_from", blue), ("color_to", yellow)],
      tile 1 2 "multicolor" [("colors", .arr [red, blue, yellow]), ("speed", .float 0.02)]]
    [onTile "play" (tagged "play_sound" [("sound_id", .str "theme")]),
      onTile "stop" (tagged "stop_sound"),
      rule (tagged "AND" [("conditions", .arr [tagged "reach_exit", tagged "music_playing"])])
        (tagged "win"),
      onExit (jumpTo 0 0),
      rule (tagged "idle_seconds" [("seconds", .int 6)])
        (tagged "show_hint" [("hint_text", .str "Too quiet in here."), ("duration", .int 3000)])]
    [("music_patterns", .obj [("theme", .obj [("notes", .arr [.int 60, .int 64, .int 67, .int 72]),
      ("tempo", .int 120)])])]

def wayOut : Value :=
  level 7 "Way Out" 3 "exit"
    [solid 0 1 blue, solid 1 0 yellow, solid 2 1 red, solid 1 2 red]
    [rule (tagged "sequence_violates" [("sequence", .arr [yellow])]) (tagged "kill"),
      onExit (tagged "kill")]
    [("start", pair 1 1), ("exit", pair 2 2),
      ("wall_hint", .str "Sometimes the edge is the answer.")]

def levels : List Value :=
  [firstSteps, redMeansStop, neverTwice, rhythm, aroundTheWorld, silence, wayOut]

def levelSet : LevelSet :=
  match Catalog.ofItems levels with
  | .ok c => .catalog c
  | .error _ => .catalog {}

end TilePuzzle.Campaign
