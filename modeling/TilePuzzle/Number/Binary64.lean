/-! Binary floating point with 53 bits in exact integer arithmetic: the exact value of a float, its
whole-number roundings, and the float nearest to a quotient. -/
namespace TilePuzzle

def twoTo (n : Nat) : Nat := Nat.pow 2 n

def tenTo (n : Nat) : Nat := Nat.pow 10 n

/-- The number `mantissa · 2 ^ exponent`. -/
structure Dyadic where
  mantissa : Int
  exponent : Int
  deriving DecidableEq

/-- Rounds `num / den` to the nearest whole number, a half to the even neighbour. -/
def roundEven (num : Int) (den : Nat) : Int :=
  let below := num.fdiv den
  let twice := 2 * (num - below * den)
  if twice < den then below
  else if (den : Int) < twice then below + 1
  else if below % 2 = 0 then below else below + 1

namespace Dyadic

def num (d : Dyadic) : Int := d.mantissa * twoTo d.exponent.toNat

def den (d : Dyadic) : Nat := twoTo (-d.exponent).toNat

def neg (d : Dyadic) : Dyadic := { d with mantissa := -d.mantissa }

def floor (d : Dyadic) : Int := d.num.fdiv d.den

def ceil (d : Dyadic) : Int := -d.neg.floor

def trunc (d : Dyadic) : Int := d.num.tdiv d.den

def round (d : Dyadic) : Int := roundEven d.num d.den

def isWhole (d : Dyadic) : Bool := d.num % d.den == 0

def compare (a b : Dyadic) : Ordering := Ord.compare (a.num * b.den) (b.num * a.den)

end Dyadic

inductive Binary64
  | finite (negative : Bool) (mantissa : Nat) (exponent : Int)
  | infinite (negative : Bool)
  | nan
  deriving DecidableEq

namespace Binary64

def leastExponent : Int := -1074

def greatestExponent : Int := 971

/-- The bits of a finite magnitude: either 53 bits long, or at the least exponent. -/
def magnitudeBits (mantissa : Nat) (exponent : Int) : Nat :=
  if mantissa < twoTo 52 then mantissa
  else (exponent + 1075).toNat * twoTo 52 + (mantissa - twoTo 52)

def signBit (negative : Bool) : Nat := if negative then twoTo 63 else 0

def toFloat : Binary64 → Float
  | finite negative m e => Float.ofBits (UInt64.ofNat (signBit negative + magnitudeBits m e))
  | infinite negative => Float.ofBits (UInt64.ofNat (signBit negative + 2047 * twoTo 52))
  | nan => Float.ofBits (UInt64.ofNat (2047 * twoTo 52 + twoTo 51))

def ofBits (bits : Nat) : Binary64 :=
  let negative := decide (twoTo 63 ≤ bits)
  let exponent : Nat := bits / twoTo 52 % 2048
  let fraction := bits % twoTo 52
  if exponent = 2047 then (if fraction = 0 then infinite negative else nan)
  else if exponent = 0 then finite negative fraction leastExponent
  else finite negative (fraction + twoTo 52) ((exponent : Int) - 1075)

def ofFloat (x : Float) : Binary64 := ofBits x.toBits.toNat

/-- The greatest `e` with `2 ^ e ≤ num / den`, both positive. -/
def magnitude (num den : Nat) : Int :=
  let e : Int := (Nat.log2 num : Int) - Nat.log2 den
  if den * twoTo e.toNat ≤ num * twoTo (-e).toNat then e else e - 1

/-- The exponent at which the quotient has 53 bits before the point, or the least exponent. -/
def exponentFor (num den : Nat) : Int := max (magnitude num den - 52) leastExponent

/-- The float nearest to `num / den`, a half to the even neighbour; `none` beyond the greatest. -/
def ofQuotient? (negative : Bool) (num den : Nat) : Option Binary64 :=
  if num = 0 then some (finite negative 0 leastExponent) else
    let e := exponentFor num den
    let m := (roundEven (num * twoTo (-e).toNat : Nat) (den * twoTo e.toNat)).toNat
    let (m, e) := if m = twoTo 53 then (twoTo 52, e + 1) else (m, e)
    if e ≤ greatestExponent then some (finite negative m e) else none

def ofInt? (n : Int) : Option Binary64 := ofQuotient? (n < 0) n.natAbs 1

def ofRatio? (num den : Int) : Option Binary64 :=
  ofQuotient? ((num < 0) != (den < 0)) num.natAbs den.natAbs

/-- The float nearest to `mantissa · 10 ^ exponent`, infinite beyond the greatest. An exponent far
out of reach settles the answer without the power being built. -/
def ofDecimal (negative : Bool) (mantissa : Nat) (exponent : Int) : Binary64 :=
  let size : Int := (Nat.log2 mantissa : Int) / 3 + 1 + exponent
  if mantissa = 0 then finite negative 0 leastExponent
  else if size < -400 then finite negative 0 leastExponent
  else if exponent > 400 then infinite negative
  else
    (ofQuotient? negative (mantissa * tenTo exponent.toNat) (tenTo (-exponent).toNat)).getD
      (infinite negative)

/-- The remainder of `x / y` with the sign of `x`; `y` is finite and not zero. -/
def remainder (negative : Bool) (mx : Nat) (ex : Int) (my : Nat) (ey : Int) : Option Binary64 :=
  let e := min ex ey
  let r := (mx * twoTo (ex - e).toNat) % (my * twoTo (ey - e).toNat)
  ofQuotient? negative (r * twoTo e.toNat) (twoTo (-e).toNat)

end Binary64
end TilePuzzle
