import TilePuzzle.Game

/-! Playthroughs: a game played from a list of moves, each handed over as soon as the player can
take it, until the attempt ends or nothing is left to do. -/
namespace TilePuzzle

inductive Breakdown
  /-- A move names no direction. -/
  | badMove (f : Fault)
  /-- A tick failed. -/
  | tick (f : Fault)

structure Playthrough where
  game : Game
  results : List TickResult := []
  breakdown : Option Breakdown := none

namespace Game

def isWaiting (g : Game) : Bool :=
  g.session.player.phase == .idle && g.session.intents.waiting.isEmpty

/-- Hands over the next move if the player is waiting for one; gives the moves that are left. -/
def handOver (g : Game) : List String → Except Fault (List String) × Game
  | [] => (.ok [], g)
  | move :: rest =>
    if g.isWaiting then
      match g.push (.str move) with
      | (.error f, g) => (.error f, g)
      | (.ok _, g) => (.ok rest, g)
    else (.ok (move :: rest), g)

/-- Plays moves for some ticks at most. It stops when the attempt has ended, or when the moves are
used up and the player is waiting. -/
def follow : Nat → List String → Game → Playthrough
  | 0, _, g => { game := g }
  | n + 1, moves, g =>
    match g.handOver moves with
    | (.error f, g) => { game := g, breakdown := some (.badMove f) }
    | (.ok moves, g) =>
      match g.tick with
      | (.error f, g) => { game := g, breakdown := some (.tick f) }
      | (.ok result, g) =>
        if result.stage ≠ .active || (moves.isEmpty && g.isWaiting) then
          { game := g, results := [result] }
        else
          let rest := follow n moves g
          { rest with results := result :: rest.results }

end Game
end TilePuzzle
