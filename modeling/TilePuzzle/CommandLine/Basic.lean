import TilePuzzle.Campaign
import TilePuzzle.CommandLine.Help
import TilePuzzle.Playthrough
import TilePuzzle.Review

/-! The program: what each request prints, and how it ends. -/
namespace TilePuzzle.CommandLine

structure Outcome where
  lines : List String := []
  /-- The exit code, or the fault that ended the program. -/
  ending : Except Fault Nat := .ok 0

namespace Outcome

def output (o : Outcome) : String := String.join (o.lines.map (· ++ "\n"))

def after (lines : List String) (o : Outcome) : Outcome := { o with lines := lines ++ o.lines }

def orFault (result : Except Fault α) (go : α → Outcome) : Outcome :=
  match result with
  | .error f => { ending := .error f }
  | .ok a => go a

end Outcome

def levelSet (read : FileReader) (folder : String) : LevelSet :=
  if folder = "" then Campaign.levelSet else .folder read folder

/-! Reviewing files -/

def stepText : Step → String
  | .field name => name
  | .index i => toString i

def issueLine (i : Issue) : String :=
  "  - " ++ ".".intercalate (i.path.map stepText) ++ ": " ++ i.problem.message

def reviewLines (r : Review) : List String :=
  r.warnings.map ("  warning: " ++ ·) ++ r.errors.map ("  error: " ++ ·) ++
    [if r.isValid then "  OK" else "  INVALID"]

def checkValue (v : Value) : Except Fault (List String × Bool) :=
  match Blueprint.ofValue v with
  | .issues first more =>
    .ok ("  Error: level does not match the schema" :: (first :: more).map issueLine, false)
  | .ok b => (Review.ofBlueprint b []).map fun r => (reviewLines r, r.isValid)

def checkFile (read : FileReader) (path : String) : Except Fault (List String × Bool) :=
  match loadFile read path with
  | .error f => .error f
  | .ok (.error problem) => .ok (["  Error: cannot read level: " ++ problem.message path], false)
  | .ok (.ok v) => checkValue v

def checkFiles (read : FileReader) (valid : Bool) : List String → Outcome
  | [] => { ending := .ok (if valid then 0 else 1) }
  | path :: rest =>
    .after ["Validating: " ++ path] <|
      .orFault (checkFile read path) fun (lines, isValid) =>
        .after lines (checkFiles read (valid && isValid) rest)

/-! Listing levels -/

def textOr (s default : String) : String := if s = "" then default else s

/-- One line of the level list; a level that could not be loaded is listed without its title. -/
def levelLine (index : Nat) (id : Value) (level : Option Level) : String :=
  Text.padLeft ' ' 3 (toString index) ++ "  " ++ Text.padRight 10 id.text ++ " " ++
    match level with
    | none => "(failed to load)"
    | some l =>
      let size := toString l.board.size
      Text.padRight 24 (textOr l.blueprint.title "-") ++ " " ++ size ++ "x" ++ size ++
        "  border=" ++ l.border.name ++ "  rules=" ++ toString l.rules.length

def listFrom (levels : LevelSet) (index : Nat) : List Value → Outcome
  | [] => {}
  | id :: rest =>
    .orFault (levels.load id) fun level =>
      .after [levelLine index id level] (listFrom levels (index + 1) rest)

def listLevels (levels : LevelSet) : Outcome := .orFault levels.ids (listFrom levels 0)

/-! Playing -/

/-- Items in round brackets; a single one is followed by a comma. -/
def shownSequence : List Value → String
  | [v] => "(" ++ v.shown ++ ",)"
  | items => "(" ++ ", ".intercalate (items.map Value.shown) ++ ")"

def eventFields : Event → List (String × String)
  | .sequenceShown colors duration label =>
    [("colors", shownSequence colors), ("duration_ms", duration.shown), ("label", label.shown)]
  | e => e.fields.map fun f => (f.1, f.2.shown)

def eventLine (frame : Nat) (e : Event) : String :=
  " ".intercalate (("[" ++ Text.padLeft ' ' 4 (toString frame) ++ "] " ++ e.name) ::
    (eventFields e).map fun f => f.1 ++ "=" ++ f.2)

def tickLines (r : TickResult) : List String := r.events.map (eventLine r.frame)

def finalLines (s : Session) (b : Blueprint) : List String :=
  ("Final: " ++ s.stage.name ++ " at (" ++ toString s.player.place.col ++ ", " ++
      toString s.player.place.row ++ ") after " ++ toString s.frame ++ " ticks, deaths=" ++
      toString s.deaths) ::
    match s.stage with
    | .dead => [b.deathMessage]
    | .won => [b.winMessage]
    | _ => []

def errorOutcome (message : String) : Outcome := ⟨["Error: " ++ message], .ok 1⟩

def playEnding (p : Playthrough) (b : Blueprint) : Outcome :=
  match p.breakdown with
  | some (.badMove f) => errorOutcome f.message
  | some (.tick f) => { ending := .error f }
  | none => { lines := finalLines p.game.session b }

def playLevel (g : Game) (level : Level) (r : PlayRequest) : Outcome :=
  let p := g.follow r.ticks.toNat r.moves
  .after ["Level " ++ level.id.text ++ ": " ++ textOr level.blueprint.title "untitled"] <|
    .after (p.results.flatMap tickLines) (playEnding p level.blueprint)

def notLoaded (index : Int) : Outcome :=
  errorOutcome ("level at index " ++ toString index ++ " could not be loaded")

def playSession (s : Session) (r : PlayRequest) : Outcome :=
  match (Game.mk s {}).load r.level with
  | (.error f, _) => if f.isBadValue then errorOutcome f.message else { ending := .error f }
  | (.ok false, _) => notLoaded r.level
  | (.ok true, g) =>
    match g.session.level with
    | none => notLoaded r.level
    | some level => playLevel g level r

def run (read : FileReader) : Request → Outcome
  | .help about => { lines := about.elim programHelp Command.help }
  | .misuse => { ending := .ok 2 }
  | .nothing => ⟨programHelp, .ok 1⟩
  | .validate paths => checkFiles read true paths
  | .levels folder => listLevels (levelSet read folder)
  | .play r => .orFault (Session.create {} (levelSet read r.folder) [] (.int 0)) (playSession · r)

/-! The files that a request needs -/

def Request.folder? : Request → Option String
  | .levels folder => if folder = "" then none else some folder
  | .play r => if r.folder = "" then none else some r.folder
  | _ => none

/-- The files that have to be known first. -/
def Request.paths : Request → List String
  | .validate paths => paths
  | r => r.folder?.toList.map LevelSet.indexPath

/-- The files that have to be known besides, once the first ones are. -/
def Request.levelPaths (read : FileReader) (r : Request) : List String :=
  match r.folder? with
  | none => []
  | some folder =>
    match (LevelSet.folder read folder).ids with
    | .error _ => []
    | .ok ids => ids.map (LevelSet.levelPath folder)

end TilePuzzle.CommandLine
