import TilePuzzle.Campaign
import TilePuzzle.Service.Reply

/-! The service: sessions by id, each played through requests. Every operation gives its answer
together with the service as it leaves it. -/
namespace TilePuzzle

structure CreateRequest where
  /-- Levels to play instead of those of the service. -/
  levels : Option (List Fields) := none
  startIndex : Int := 0

structure InputRequest where
  direction : String

structure TickRequest where
  count : Nat := 1

structure JumpRequest where
  index : Int

namespace Request

open Schema

def create (fields : Fields) : Checked CreateRequest :=
  CreateRequest.mk
    <$> fieldOr (optional (list object)) none "levels" fields
    <*> fieldOr (fun v => (int v).andAlso (atLeast 0) v) 0 "start_index" fields

def input (fields : Fields) : Checked InputRequest :=
  InputRequest.mk <$> required string "direction" fields

/-- At least one tick and at most ten seconds of them. -/
def tickCount (v : Value) : Checked Nat :=
  (((int v).andAlso (atLeast 1) v).andAlso (atMost 600) v).map Int.toNat

def tick (fields : Fields) : Checked TickRequest :=
  TickRequest.mk <$> fieldOr tickCount 1 "count" fields

def jump (fields : Fields) : Checked JumpRequest :=
  JumpRequest.mk <$> required int "index" fields

end Request

/-- A lobby, and the folder from which sessions are dealt levels if there is one. -/
structure Service where
  lobby : Lobby := {}
  /-- A folder of levels; without one the built-in campaign is played. -/
  folder : Option (FileReader × String) := none
  predicates : Predicates := []
  /-- What the games of the sessions keep beside them. -/
  stages : List (String × Backstage) := []

namespace Service

abbrev Answer (α : Type) := Except Failure α × Service

def defaultLevels (s : Service) : LevelSet :=
  match s.folder with
  | some (read, path) => .folder read path
  | none => Campaign.levelSet

def blueprint (v : Value) : Except Failure Blueprint :=
  match Blueprint.ofValue v with
  | .ok b => .ok b
  | .issues first more => .error (.refused (.badBlueprint first more))

def review (s : Service) (v : Value) : Except Failure Review := do
  let b ← blueprint v
  orFault (Review.ofBlueprint b (s.predicates.map (·.1)))

def game? (s : Service) (id : String) : Option Game :=
  match s.lobby.find? id, s.stages.lookup id with
  | some session, some backstage => some ⟨session, backstage⟩
  | _, _ => none

def setGame (s : Service) (id : String) (g : Game) : Service :=
  { s with
    lobby := s.lobby.update id g.session
    stages := s.stages.map fun e => if e.1 = id then (id, g.backstage) else e }

/-- Refuses what a load complains about: an unusable value, or a level that is not there. -/
def loadAnswer (id : String) (g : Game) : Except Fault Bool → Except Failure Unit
  | .ok true => .ok ()
  | .ok false => .error (.refused (.notLoaded id))
  | .error f =>
    if f.isBadValue then .error (.refused (.badIndex f g.session.levelIds.length))
    else .error (.fault f)

def finish (s : Service) (id : String) : Bool × Service :=
  let (found, lobby) := s.lobby.finish id
  (found, { s with lobby, stages := s.stages.filter fun e => e.1 != id })

/-- The levels of a request: those it brings, each a blueprint, else those of the service. -/
def requestLevels (s : Service) (r : CreateRequest) : Except Failure LevelSet :=
  match r.levels with
  | some (first :: more) => do
    let items := (first :: more).map Value.obj
    let _ ← items.mapM blueprint
    orFault ((Catalog.ofItems items).map .catalog)
  | _ => .ok s.defaultLevels

def enroll (s : Service) (id : String) (lobby : Lobby) : Service :=
  { s with lobby, stages := s.stages.filter (fun e => e.1 != id) ++ [(id, {})] }

/-- Loads the first level of a new session; if that is refused, the session is gone again. -/
def openGame (s : Service) (id : String) (session : Session) (index : Int) : Answer SessionReply :=
  let (result, g) := (Game.mk session {}).load index
  let s := s.setGame id g
  match loadAnswer id g result with
  | .ok () => (SessionReply.ofSession id g.session, s)
  | .error (.refused r) => (.error (.refused r), (s.finish id).2)
  | .error e => (.error e, s)

def create (s : Service) (r : CreateRequest) (now : Number) : Answer SessionReply :=
  match s.requestLevels r with
  | .error e => (.error e, s)
  | .ok levels =>
    match s.lobby.create levels s.predicates now with
    | (.error f, lobby) => (.error (.fault f), { s with lobby })
    | (.ok (id, session), lobby) => (s.enroll id lobby).openGame id session r.startIndex

def ask (s : Service) (id : String) (reply : Game → Except Failure α) : Answer α :=
  match s.game? id with
  | none => (.error (.unknownSession id), s)
  | some g => (reply g, s)

def play (s : Service) (id : String) (move : Game → Except Failure α × Game) : Answer α :=
  match s.game? id with
  | none => (.error (.unknownSession id), s)
  | some g =>
    let (result, g) := move g
    (result, s.setGame id g)

def get (s : Service) (id : String) : Answer SessionReply :=
  s.ask id fun g => SessionReply.ofSession id g.session

def state (s : Service) (id : String) : Answer StateReply :=
  s.ask id fun g => StateReply.ofSession id g.session

/-- Adds an intent; one that finds no room is dropped, which is no failure. -/
def input (s : Service) (id : String) (r : InputRequest) : Answer SessionReply :=
  s.play id fun g =>
    match g.push (.str r.direction) with
    | (.error _, g) => (.error (.refused (.badDirection r.direction)), g)
    | (.ok kept, g) => (SessionReply.ofSession id g.session (some kept), g)

def tickReply (id : String) (s : Session) (results : List TickResult) :
    Except Failure TickReply := do
  let player ← PlayerView.ofPlayer s.player
  return { id, stage := s.stage, frame := s.frame, ticksRun := results.length
           events := results.flatMap (·.events), player }

def tick (s : Service) (id : String) (r : TickRequest) : Answer TickReply :=
  s.play id fun g =>
    match g.run r.count with
    | (.error f, g) => (.error (.fault f), g)
    | (.ok results, g) => (tickReply id g.session results, g)

def go (s : Service) (id : String) (move : Game → Except Fault Bool × Game) :
    Answer SessionReply :=
  s.play id fun g =>
    let (result, g) := move g
    match loadAnswer id g result with
    | .error e => (.error e, g)
    | .ok () => (SessionReply.ofSession id g.session, g)

def retry (s : Service) (id : String) : Answer SessionReply := s.go id Game.retry

def advance (s : Service) (id : String) : Answer SessionReply := s.go id Game.advance

def jump (s : Service) (id : String) (r : JumpRequest) : Answer SessionReply :=
  s.go id fun g => g.jump r.index

def ids (s : Service) : List String := s.lobby.ids

end Service
end TilePuzzle
