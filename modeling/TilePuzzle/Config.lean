import TilePuzzle.Number.Basic

/-! The constants of a simulation. Ticks are its only clock. -/
namespace TilePuzzle

structure Config where
  /-- Ticks in a second. -/
  tickRate : Int := 60
  /-- Ticks for one move. -/
  moveTicks : Int := 11
  /-- How many colours a sequence remembers. -/
  capacity : Int := 64
  /-- How many intents may wait. -/
  maxPending : Int := 2

namespace Config

def ceilOf (x : Float) : Except Fault Int := (exactFloat x).map (·.ceil)

/-- The ticks of a delay in milliseconds, rounded up; none for a delay that is not positive. -/
def ticks (config : Config) (ms : Number) : Except Fault Int :=
  if ms.atMost (.int 0) then .ok 0
  else do
    let scaled ← ms.mul (.int config.tickRate)
    let quotient ← scaled.div (.int 1000)
    ceilOf quotient

end Config
end TilePuzzle
