import TilePuzzle.Config
import TilePuzzle.Curve
import TilePuzzle.Event

/-! The player: a token that stands on a place or is on its way to the next one. Its place changes
at once when a move ends; in between only its visual position changes, for those who draw it. -/
namespace TilePuzzle

inductive Phase
  | idle
  | moving
  | dead
  deriving DecidableEq

def Phase.name : Phase → String
  | idle => "idle"
  | moving => "moving"
  | dead => "dead"

structure Player where
  place : Place := ⟨0, 0⟩
  visualCol : Float := 0
  visualRow : Float := 0
  phase : Phase := .idle
  /-- Where the last move started. -/
  origin : Place := ⟨0, 0⟩
  /-- Where it leads. -/
  target : Place := ⟨0, 0⟩
  /-- Ticks for a move. -/
  moveTicks : Int := 11
  /-- Ticks of the current move so far. -/
  elapsed : Int := 0
  /-- The token hovers: the phase of that motion and the height it gives. -/
  hoverPhase : Float := 0
  hoverHeight : Float := 0

namespace Player

def progress (p : Player) : Except Fault Float := do
  let part ← (Number.int p.elapsed).div (.int p.moveTicks)
  return if part < 1 then part else 1

/-- Sets the visual position, the column first; a coordinate no float can hold is a fault. -/
def showAt (p : Player) (col row : Except Fault Float) : Except Fault Unit × Player :=
  match col with
  | .error f => (.error f, p)
  | .ok x =>
    let p := { p with visualCol := x }
    match row with
    | .error f => (.error f, p)
    | .ok y => (.ok (), { p with visualRow := y })

def reset (p : Player) (place : Place) : Except Fault Unit × Player :=
  let p := { p with place, origin := place, target := place }
  match p.showAt (floatOfInt place.col) (floatOfInt place.row) with
  | (.error f, p) => (.error f, p)
  | (.ok (), p) => (.ok (), { p with phase := .idle, elapsed := 0 })

def teleport (p : Player) (place : Place) : Except Fault Unit × Player := p.reset place

def die (p : Player) : Player := { p with phase := .dead }

/-- Sets out for a place; the token counts as standing at its origin until it lands. -/
def startMove (p : Player) (target : Place) : Player :=
  { p with origin := p.place, target, elapsed := 0, phase := .moving }

/-- The phase starts at zero, and no session is so long that it has no sine (`Game.play_hovers`). -/
def hover (p : Player) : Player :=
  let phase := p.hoverPhase + 0.038
  { p with hoverPhase := phase, hoverHeight := 8 + phase.sin * 8 * 0.55 }

def eased (a b : Int) (t : Except Fault Number) : Except Fault Float := do
  (← Curve.between (.int a) (.int b) (← t)).toFloat

def advance (p : Player) : Except Fault (List Event) × Player :=
  let p := { p with elapsed := p.elapsed + 1 }
  if p.moveTicks ≤ p.elapsed then
    let p := { p with phase := .idle, place := p.target }
    match p.showAt (floatOfInt p.target.col) (floatOfInt p.target.row) with
    | (.error f, p) => (.error f, p)
    | (.ok (), p) => (.ok [.landed p.place], p)
  else
    let t := p.progress.bind fun part => Curve.ease (.float part)
    match p.showAt (eased p.origin.col p.target.col t) (eased p.origin.row p.target.row t) with
    | (.error f, p) => (.error f, p)
    | (.ok (), p) => (.ok [], p)

/-- The place on a board of this side that a place beyond its border wraps to. -/
def wrapped (p : Place) (size : Int) : Except Fault Place :=
  if size = 0 then .error .remainderByZero else .ok ⟨p.col.fmod size, p.row.fmod size⟩

def tryMove (p : Player) (direction : Direction) (size : Int) (border : Border) :
    Except Fault (List Event) × Player :=
  let target := p.place.step direction
  if target.within size then (.ok [], p.startMove target) else
    match border with
    | .kill | .exit => (.ok [.borderHit direction], p)
    | .block => (.ok [], p)
    | .wrap =>
      match wrapped target size with
      | .error f => (.error f, p)
      | .ok target => (.ok [], p.startMove target)

/-- One tick. A dead player does nothing; the intent counts only for an idle one, and one that
names no direction is a fault then. -/
def update (p : Player) (intent : Except Fault (Option Direction)) (size : Int) (border : Border) :
    Except Fault (List Event) × Player :=
  match p.phase with
  | .dead => (.ok [], p)
  | .moving => p.hover.advance
  | .idle =>
    match intent with
    | .error f => (.error f, p.hover)
    | .ok none => (.ok [], p.hover)
    | .ok (some direction) => p.hover.tryMove direction size border

end Player
end TilePuzzle
