import TilePuzzle.Intents
import TilePuzzle.Level
import TilePuzzle.Player
import TilePuzzle.Referee

/-! A play session: the level in place and everything that changes while it is played. -/
namespace TilePuzzle

inductive Stage
  /-- No level was loaded yet. -/
  | created
  | loading
  | active
  | dead
  | won
  /-- The last load failed; the level before it is still in place. -/
  | loadFailed
  | ended
  deriving DecidableEq

def Stage.name : Stage → String
  | created => "created"
  | loading => "loading"
  | active => "active"
  | dead => "dead"
  | won => "won"
  | loadFailed => "load_failed"
  | ended => "ended"

structure Session where
  levels : LevelSet
  createdAt : Number
  config : Config
  stage : Stage := .created
  levelIds : List Value
  levelIndex : Nat := 0
  level : Option Level := none
  frame : Nat := 0
  player : Player
  /-- Ticks of tile animation since the level was loaded. -/
  clock : Nat := 0
  referee : Referee
  intents : Intents

namespace Session

def create (config : Config) (levels : LevelSet) (predicates : Predicates) (now : Number) :
    Except Fault Session := do
  let levelIds ← levels.ids
  let referee ← Referee.create config predicates
  return {
    levels, createdAt := now, config, levelIds, referee
    player := { moveTicks := config.moveTicks }
    intents := { limit := .int config.maxPending } }

def isActive (s : Session) : Bool := s.stage == .active

def deaths (s : Session) : Int := s.referee.memory.deaths

def isLast (s : Session) : Bool := s.levelIds.length ≤ s.levelIndex + 1

def finish (s : Session) : Session :=
  { s with stage := .ended, level := none, intents := s.intents.flush }

end Session
end TilePuzzle
