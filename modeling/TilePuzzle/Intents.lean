import TilePuzzle.Direction

/-! Intents: directions that wait until the player can take the next one. -/
namespace TilePuzzle

/-- Moves that a player asked for and that were not made yet, oldest first. -/
structure Intents where
  /-- No more than this many wait; what comes beyond is dropped. -/
  limit : Number := .int 2
  waiting : List Direction := []

namespace Intents

def isFull (q : Intents) : Bool := q.limit.atMost (.int q.waiting.length)

def push (q : Intents) (direction : Direction) : Bool × Intents :=
  if q.isFull then (false, q) else (true, { q with waiting := q.waiting ++ [direction] })

/-- Adds the direction that a value names. One that names none changes nothing. -/
def pushValue (q : Intents) (v : Value) : Except Fault Bool × Intents :=
  match Direction.ofValue v with
  | .error f => (.error f, q)
  | .ok direction => ((.ok (q.push direction).1), (q.push direction).2)

def take (q : Intents) : Option Direction × Intents :=
  match q.waiting with
  | [] => (none, q)
  | direction :: rest => (some direction, { q with waiting := rest })

def flush (q : Intents) : Intents := { q with waiting := [] }

end Intents
end TilePuzzle
