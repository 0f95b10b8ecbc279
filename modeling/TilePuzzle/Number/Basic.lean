import TilePuzzle.Fault
import TilePuzzle.Number.Shortest

/-! Numbers: whole numbers of any size beside floats. Arithmetic between whole numbers is exact;
as soon as a float takes part, the whole number becomes the nearest float, and one beyond the
greatest float is a fault. -/
namespace TilePuzzle

/-- A whole number of any size, or a double. Whole stays whole as long as it can. -/
inductive Number
  | int (n : Int)
  | float (x : Float)

def floatOfInt (n : Int) : Except Fault Float :=
  match Binary64.ofInt? n with
  | some b => .ok b.toFloat
  | none => .error .intTooLarge

def exactFloat (x : Float) : Except Fault Dyadic :=
  match Binary64.ofFloat x with
  | .nan => .error .wholeOfNan
  | .infinite _ => .error .wholeOfInfinity
  | .finite negative m e => .ok ⟨if negative then -m else m, e⟩

/-- The sine, which an infinity has none of. -/
def sine (x : Float) : Except Fault Float :=
  if x.isInf then .error .outsideDomain else .ok x.sin

/-- The remainder of a division that drops the fraction, with the sign of `x`; `y` is finite and
not zero. -/
def floatRemainder (x y : Float) : Except Fault Float :=
  match Binary64.ofFloat x, Binary64.ofFloat y with
  | .infinite _, _ => .error .outsideDomain
  | .finite negative mx ex, .finite _ my ey =>
    .ok ((Binary64.remainder negative mx ex my ey).getD .nan).toFloat
  | _, _ => .ok Binary64.nan.toFloat

namespace Number

instance : Inhabited Number := ⟨.int 0⟩

def toFloat : Number → Except Fault Float
  | int n => floatOfInt n
  | float x => .ok x

def combine (ints : Int → Int → Int) (floats : Float → Float → Float) :
    Number → Number → Except Fault Number
  | int a, int b => .ok (int (ints a b))
  | a, b => do
    let x ← a.toFloat
    let y ← b.toFloat
    return float (floats x y)

def add : Number → Number → Except Fault Number := combine (· + ·) (· + ·)
def sub : Number → Number → Except Fault Number := combine (· - ·) (· - ·)
def mul : Number → Number → Except Fault Number := combine (· * ·) (· * ·)

/-- The quotient as a float; between whole numbers it is rounded once. -/
def div : Number → Number → Except Fault Float
  | int a, int b =>
    if b = 0 then .error .divisionByZero
    else match Binary64.ofRatio? a b with
      | some q => .ok q.toFloat
      | none => .error .quotientTooLarge
  | a, b => do
    let x ← a.toFloat
    let y ← b.toFloat
    if y == 0 then .error .divisionByZero else return x / y

/-- What a number stands for; a whole number is never rounded here. -/
inductive Extent
  | exact (d : Dyadic)
  | infinite (negative : Bool)
  | nan

def extent : Number → Extent
  | int n => .exact ⟨n, 0⟩
  | float x =>
    match Binary64.ofFloat x with
    | .finite negative m e => .exact ⟨if negative then -m else m, e⟩
    | .infinite negative => .infinite negative
    | .nan => .nan

/-- The order of the exact values; what is no number has no place in it. -/
def compare? (a b : Number) : Option Ordering :=
  match a.extent, b.extent with
  | .nan, _ | _, .nan => none
  | .exact x, .exact y => some (x.compare y)
  | .infinite n, .infinite m => some (if n == m then .eq else if n then .lt else .gt)
  | .infinite n, .exact _ => some (if n then .lt else .gt)
  | .exact _, .infinite m => some (if m then .gt else .lt)

def less (a b : Number) : Bool := a.compare? b == some .lt

def atMost (a b : Number) : Bool := a.less b || a.compare? b == some .eq

def isZero : Number → Bool
  | int n => n == 0
  | float x => x == 0

def trunc : Number → Except Fault Int
  | int n => .ok n
  | float x => (exactFloat x).map (·.trunc)

def round : Number → Except Fault Int
  | int n => .ok n
  | float x => (exactFloat x).map (·.round)

end Number
end TilePuzzle
