import TilePuzzle.Number.Basic

/-! Interpolation between two numbers and the eased course of a move. -/
namespace TilePuzzle.Curve

def between (a b t : Number) : Except Fault Number := do
  let span ← b.sub a
  let part ← span.mul t
  a.add part

/-- The greatest float whose cube is finite, about `5.6e102`. -/
def greatestCubed : Float := Float.ofBits 0x554428a2f98d728a

/-- The cube of a number; a finite float whose cube is not finite has none. -/
def cube : Number → Except Fault Number
  | .int n => .ok (.int (n * n * n))
  | .float x =>
    if !x.isInf && greatestCubed < x.abs then .error .powerTooLarge else .ok (.float (x.pow 3))

/-- The second half of the eased course, `1 - (2 - 2t)³ / 2`. -/
def easeOut (t : Number) : Except Fault Number := do
  let falling ← (← (Number.int (-2)).mul t).add (.int 2)
  let half ← (← cube falling).div (.int 2)
  (Number.int 1).sub (.float half)

/-- The first half of the eased course, `4t³`. -/
def easeIn (t : Number) : Except Fault Number := do
  ((← (← (Number.int 4).mul t).mul t).mul t)

/-- The course of a move: slow at both ends and symmetric about the middle. -/
def ease (t : Number) : Except Fault Number :=
  if t.less (.float 0.5) then easeIn t else easeOut t

end TilePuzzle.Curve
