import TilePuzzle.Number.Binary64

/-! The text of a float: the fewest decimal digits that read back as the same float, of those the
nearest to it, laid out with a point or an exponent. -/
namespace TilePuzzle

/-- The number `digits · 10 ^ exponent`. -/
structure Decimal where
  digits : Nat
  exponent : Int
  deriving DecidableEq

namespace Binary64

/-- Compares `m · 2 ^ e` with `d · 10 ^ g`. -/
def compareDecimal (m : Nat) (e : Int) (d : Nat) (g : Int) : Ordering :=
  compare (m * twoTo e.toNat * tenTo (-g).toNat) (d * tenTo g.toNat * twoTo (-e).toNat)

/-- The greatest `k` with `10 ^ k ≤ m · 2 ^ e`. -/
def decimalMagnitude (m : Nat) (e : Int) : Int :=
  let guess := (((Nat.log2 m : Int) + e) * 1233).fdiv 4096
  if compareDecimal m e 1 guess == .lt then guess - 1
  else if compareDecimal m e 1 (guess + 1) != .lt then guess + 1
  else guess

/-- Whether a decimal is nearer to `m · 2 ^ e` than to the floats beside it; a point half-way
belongs to the float with an even mantissa. -/
def readsBack (m : Nat) (e : Int) (d : Decimal) : Bool :=
  let below := if m = twoTo 52 && leastExponent < e then 4 * m - 1 else 4 * m - 2
  let low := compareDecimal below (e - 2) d.digits d.exponent
  let high := compareDecimal (4 * m + 2) (e - 2) d.digits d.exponent
  if m % 2 = 0 then low != .gt && high != .lt else low == .lt && high == .gt

/-- The decimals next to `m · 2 ^ e` on the grid of `10 ^ g`, the nearer one first. -/
def neighbours (m : Nat) (e g : Int) : List Decimal :=
  let num := m * twoTo e.toNat * tenTo (-g).toNat
  let den := twoTo (-e).toNat * tenTo g.toNat
  let below : Decimal := ⟨num / den, g⟩
  let above : Decimal := ⟨num / den + 1, g⟩
  let twice := 2 * (num % den)
  if twice < den || (twice = den && below.digits % 2 = 0) then [below, above]
  else [above, below]

/-- The shortest decimal that reads back; seventeen digits always do. A first grid may be hit at
its ten, which is one digit of the next power. -/
def shortest (m : Nat) (e : Int) : Decimal :=
  let top := decimalMagnitude m e
  let grids := (List.range 17).map fun (k : Nat) => top - (k : Int)
  let hit := (grids.findSome? fun g => (neighbours m e g).find? (readsBack m e)).getD ⟨0, 0⟩
  if hit.digits = 10 then ⟨1, hit.exponent + 1⟩ else hit

end Binary64

structure DecimalLayout where
  /-- Positional for a point at least this far from the first digit. -/
  positionalFrom : Int
  /-- Positional for a point at most this far behind the first digit. -/
  positionalTo : Int
  exponentMark : String
  exponentWidth : Nat

namespace DecimalLayout

def zeros (n : Int) : String := String.ofList (List.replicate n.toNat '0')

/-- Digits with a point after the first `point` of them. -/
def positional (digits : List Char) (point : Int) : String :=
  let count : Int := digits.length
  if point ≤ 0 then "0." ++ zeros (-point) ++ String.ofList digits
  else if count ≤ point then String.ofList digits ++ zeros (point - count) ++ ".0"
  else
    String.ofList (digits.take point.toNat) ++ "." ++ String.ofList (digits.drop point.toNat)

def scientific (layout : DecimalLayout) (digits : List Char) (exponent : Int) : String :=
  let power := toString exponent.natAbs
  let fraction := if digits.length ≤ 1 then "" else "." ++ String.ofList (digits.drop 1)
  String.ofList (digits.take 1) ++ fraction ++ layout.exponentMark ++
    (if exponent < 0 then "-" else "+") ++ zeros (layout.exponentWidth - power.length) ++ power

def write (layout : DecimalLayout) (d : Decimal) : String :=
  let digits := Nat.toDigits 10 d.digits
  let point : Int := digits.length + d.exponent
  if layout.positionalFrom ≤ point && point ≤ layout.positionalTo then positional digits point
  else scientific layout digits (point - 1)

end DecimalLayout

/-- Floats are positional from `0.0001` up to below `1e16`, always show a point or an exponent, and
an exponent has at least two digits. -/
def floatLayout : DecimalLayout := ⟨-3, 16, "e", 2⟩

def Binary64.text : Binary64 → String
  | finite negative m e =>
    (if negative then "-" else "") ++ floatLayout.write (if m = 0 then ⟨0, 0⟩ else shortest m e)
  | infinite negative => if negative then "-inf" else "inf"
  | nan => "nan"

def floatText (x : Float) : String := (Binary64.ofFloat x).text

end TilePuzzle
