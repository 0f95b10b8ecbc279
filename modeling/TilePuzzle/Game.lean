import TilePuzzle.Session

/-! Playing a session, tick by tick and from level to level. Every operation gives its result
together with the game as it leaves it, also when it fails half-way. -/
namespace TilePuzzle

structure Backstage where
  /-- Events from outside of ticks; the next tick delivers them. -/
  outbox : List Event := []
  /-- What is still to happen on the level, with the frame it is due. -/
  cues : List (Int × Cue) := []
  /-- What each listener heard so far. -/
  heard : List (List Event) := []

/-- A session that is being played, with what its listeners were told. -/
structure Game where
  session : Session
  backstage : Backstage := {}

structure TickResult where
  frame : Nat
  stage : Stage
  events : List Event

/-- A tick part-way through: the session and the events so far. -/
structure Turn where
  session : Session
  events : List Event := []

namespace Turn

def emit (t : Turn) (event : Event) : Turn := { t with events := t.events ++ [event] }

/-- The player dies; once the session is over nothing more comes of it. -/
def kill (t : Turn) : Turn :=
  if t.session.isActive then
    ({ t with session := { t.session with
        stage := .dead, player := t.session.player.die, intents := t.session.intents.flush } }).emit
      .killed
  else t

def win (t : Turn) : Turn :=
  if t.session.isActive then
    ({ t with session := { t.session with
        stage := .won, intents := t.session.intents.flush } }).emit .won
  else t

/-- Applies one event of the rules. A place on a board can always be shown. -/
def applyOne (t : Turn) (event : Event) : Turn :=
  match event with
  | .killed => t.kill
  | .won => t.win
  | .teleported place =>
    ({ t with session := { t.session with player := (t.session.player.teleport place).2 } }).emit
      event
  | event => t.emit event

def apply (t : Turn) (events : List Event) : Turn := events.foldl applyOne t

def applyResult (t : Turn) (result : Except Fault (List Event) × Referee) :
    Except Fault Unit × Turn :=
  let t := { t with session := { t.session with referee := result.2 } }
  match result.1 with
  | .error f => (.error f, t)
  | .ok events => (.ok (), t.apply events)

def answer (t : Turn) (level : Level) (event : Event) : Except Fault Unit × Turn :=
  let t := t.emit event
  match event with
  | .landed place =>
    match t.applyResult (t.session.referee.land place) with
    | (.error f, t) => (.error f, t)
    | (.ok (), t) => (.ok (), t.apply (t.session.referee.hints level.hints))
  | .borderHit _ =>
    let (events, referee) := t.session.referee.borderHit level.border
    (.ok (), { t with session := { t.session with referee } }.apply events)
  | _ => (.ok (), t)

/-- Answers events in order. A fault ends it, and what was done before stays done. -/
def answerAll (level : Level) : Turn → List Event → Except Fault Unit × Turn
  | t, [] => (.ok (), t)
  | t, event :: rest =>
    match t.answer level event with
    | (.error f, t) => (.error f, t)
    | (.ok (), t) => answerAll level t rest

def movePlayer (t : Turn) (level : Level) : Except Fault Unit × Turn :=
  let s := t.session
  let (intent, intents) := if s.player.phase = .idle then s.intents.take else (none, s.intents)
  let (result, player) := s.player.update (.ok intent) level.board.size level.border
  let t := { t with session := { s with intents, player } }
  match result with
  | .error f => (.error f, t)
  | .ok events => t.answerAll level events

def passTime (t : Turn) : Except Fault Unit × Turn :=
  if t.session.isActive then
    t.applyResult (t.session.referee.tick (t.session.player.phase = .moving))
  else (.ok (), t)

def animate (t : Turn) (level : Level) : Except Fault Unit × Turn :=
  let clock := t.session.clock + 1
  let (result, board) := level.board.refresh clock
  (result, { t with session := { t.session with
    clock, level := some { level with board }, referee := t.session.referee.withBoard board } })

end Turn

namespace Cue

/-- How long something is shown; four seconds unless stated. -/
def duration (params : Fields) : Value := (Value.get params "duration").orElse (.int 4000)

/-- What a parameter is walked through as; one that counts as false is empty. -/
def itemsOf (v : Value) : Except Fault (List Value) := if v.isTruthy then v.items else .ok []

/-- The pattern that a level has for a sound; only texts name one. -/
def patternOf (patterns : Fields) (sound : Value) : Except Fault Value :=
  match sound with
  | .str s => .ok (Value.get patterns s)
  | v => v.key.map fun _ => .null

def event (patterns : Fields) (cue : Cue) : Except Fault (Option Event) :=
  let params := cue.params
  let text (name : String) := (Value.get params name).orElse (.str "")
  if cue.kind = "show_hint" then .ok (some (.hintShown (text "hint_text") (duration params)))
  else if cue.kind = "show_sequence" then
    (itemsOf (Value.get params "colors")).map fun colors =>
      some (.sequenceShown colors (duration params) (text "label"))
  else if cue.kind = "play_sound" then
    let sound := Value.get params "sound_id"
    (patternOf patterns sound).map fun pattern => some (.soundStarted sound pattern)
  else .ok none

def eventsOf (patterns : Fields) : List Cue → Except Fault Unit × List Event
  | [] => (.ok (), [])
  | cue :: rest =>
    match cue.event patterns with
    | .error f => (.error f, [])
    | .ok event =>
      let (result, events) := eventsOf patterns rest
      (result, event.toList ++ events)

end Cue

namespace Game

/-- A session that nobody plays yet; `listeners` hear everything from now on. -/
def ofSession (session : Session) (listeners : Nat) : Game :=
  { session, backstage := { heard := List.replicate listeners [] } }

def listen (g : Game) : Game :=
  { g with backstage := { g.backstage with heard := g.backstage.heard ++ [[]] } }

def hear (g : Game) (events : List Event) : Game :=
  { g with backstage := { g.backstage with heard := g.backstage.heard.map (· ++ events) } }

def post (g : Game) (events : List Event) : Game :=
  { g with backstage := { g.backstage with outbox := g.backstage.outbox ++ events } }.hear events

def install (g : Game) (level : Level) (index : Nat) : Game :=
  { g with session := { g.session with
      level := some level
      levelIndex := index
      player := (g.session.player.reset level.start).2
      clock := 0
      referee := g.session.referee.load level.rules level.board level.blueprint.patterns
      frame := 0 } }.post
    [.levelStarted level.id level.blueprint.title level.blueprint.wallHint]

def schedule (config : Config) : List Cue → Except Fault (List (Int × Cue))
  | [] => .ok []
  | cue :: rest => do
    let due ← config.ticks (.int cue.delay)
    return (due, cue) :: (← schedule config rest)

def beginLoading (g : Game) : Game :=
  { session := { g.session with stage := .loading, intents := g.session.intents.flush }
    backstage := { g.backstage with cues := [] } }

def setStage (g : Game) (stage : Stage) : Game := { g with session := { g.session with stage } }

/-- Loads the level at an index, whose id is given, and goes on with `finish` once it is there. -/
def loadId (g : Game) (id : Value) (finish : Game → Level → Except Fault Unit × Game) :
    Except Fault Bool × Game :=
  match g.session.levels.load id with
  | .error f => (.error f, g)
  | .ok none => (.ok false, g.setStage .loadFailed)
  | .ok (some level) =>
    match finish g level with
    | (.error f, g) => (.error f, g)
    | (.ok (), g) => (.ok true, g.setStage .active)

def openLevel (index : Nat) (g : Game) (level : Level) : Except Fault Unit × Game :=
  let g := g.install level index
  match schedule g.session.config level.cues with
  | .error f => (.error f, g)
  | .ok cues => (.ok (), { g with backstage := { g.backstage with cues } })

/-- Puts the current level in place again. Its cues are not repeated; the hints that the deaths
call for are shown at once. -/
def reopenLevel (g : Game) (level : Level) : Except Fault Unit × Game :=
  let g := g.install level g.session.levelIndex
  (.ok (), g.post (g.session.referee.hints level.hints))

def load (g : Game) (index : Int) : Except Fault Bool × Game :=
  match (if 0 ≤ index then g.session.levelIds[index.toNat]? else none) with
  | none => (.error (.levelOutOfRange index g.session.levelIds.length), g)
  | some id =>
    g.beginLoading.loadId id (openLevel index.toNat)

def retry (g : Game) : Except Fault Bool × Game :=
  let g := g.beginLoading
  match g.session.levelIds[g.session.levelIndex]? with
  | none => (.error .indexPastEnd, g)
  | some id =>
    g.loadId id reopenLevel

def resetDeaths (g : Game) : Game :=
  { g with session := { g.session with referee := g.session.referee.resetDeaths } }

/-- Loads the next level, or the first one after the last. -/
def advance (g : Game) : Except Fault Bool × Game :=
  g.resetDeaths.load (if g.session.isLast then 0 else g.session.levelIndex + 1)

/-- Loads any level by its position, with no deaths. -/
def jump (g : Game) (index : Int) : Except Fault Bool × Game :=
  if 0 ≤ index && index < g.session.levelIds.length then g.resetDeaths.load index
  else (.error (.levelOutOfRange index g.session.levelIds.length), g)

def push (g : Game) (v : Value) : Except Fault Bool × Game :=
  let (result, intents) := g.session.intents.pushValue v
  (result, { g with session := { g.session with intents } })

def andThen (result : Except Fault Unit × Turn) (next : Turn → Except Fault Unit × Turn) :
    Except Fault Unit × Turn :=
  match result with
  | (.error f, t) => (.error f, t)
  | (.ok (), t) => next t

def simulate (session : Session) (level : Level) : Except Fault Unit × Turn :=
  let t : Turn := { session := { session with frame := session.frame + 1 } }
  andThen (andThen (t.movePlayer level) Turn.passTime) fun t => t.animate level

def emitDue (cues : List (Int × Cue)) (level : Level) (t : Turn) :
    Except Fault Unit × Turn × List (Int × Cue) :=
  if t.session.isActive then
    let frame : Int := t.session.frame
    let (result, events) := Cue.eventsOf level.blueprint.patterns
      ((cues.filter fun c => c.1 ≤ frame).map (·.2))
    (result, { t with events := t.events ++ events }, cues.filter fun c => frame < c.1)
  else (.ok (), t, cues)

def playFrame (session : Session) (level : Level) (cues : List (Int × Cue)) :
    Except Fault Unit × Turn × List (Int × Cue) :=
  match simulate session level with
  | (.error f, t) => (.error f, t, cues)
  | (.ok (), t) => emitDue cues level t

/-- One tick: delivers the outbox and, if the session is active, plays a frame. -/
def tick (g : Game) : Except Fault TickResult × Game :=
  let delivered := g.backstage.outbox
  let backstage := { g.backstage with outbox := [] }
  match g.session.level, g.session.isActive with
  | some level, true =>
    let (result, t, cues) := playFrame g.session level backstage.cues
    let g := ({ session := t.session, backstage := { backstage with cues } } : Game).hear t.events
    match result with
    | .error f => (.error f, g)
    | .ok () => (.ok ⟨t.session.frame, t.session.stage, delivered ++ t.events⟩, g)
  | _, _ => (.ok ⟨g.session.frame, g.session.stage, delivered⟩, { g with backstage })

/-- Several ticks, up to the first that leaves the session inactive. -/
def run : Nat → Game → Except Fault (List TickResult) × Game
  | 0, g => (.ok [], g)
  | n + 1, g =>
    match g.tick with
    | (.error f, g) => (.error f, g)
    | (.ok result, g) =>
      if result.stage = .active then
        let (more, g) := run n g
        (more.map (result :: ·), g)
      else (.ok [result], g)

end Game
end TilePuzzle
