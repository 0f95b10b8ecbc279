import TilePuzzle.Curve
import TilePuzzle.Text.LowerCase
import TilePuzzle.Text.Numeral

/-! Colours are texts. They are compared by a key, and those written in hexadecimal can be
blended. -/

namespace TilePuzzle.Color

/-- Two colours are the same if their keys are: case and blanks do not count. -/
def key (color : String) : String :=
  String.ofList ((Text.lowerFrom false color.toList).filter fun c => !Text.isBlank c)

/-- Drops the mark of a hexadecimal number and one underscore after it. -/
def dropMark : List Char → List Char
  | '0' :: 'x' :: '_' :: rest | '0' :: 'X' :: '_' :: rest => rest
  | '0' :: 'x' :: rest | '0' :: 'X' :: rest => rest
  | digits => digits

/-- A hexadecimal number with an optional sign and mark, blanks around it allowed. -/
def hexNumber? (s : List Char) : Option Int :=
  (Text.plain? s).bind (Text.signed? fun digits => Text.hex? (dropMark digits))

structure Rgb where
  red : Int
  green : Int
  blue : Int
  deriving DecidableEq

def Rgb.ofInt (n : Int) : Rgb :=
  ⟨(n.fdiv 65536) % 256, (n.fdiv 256) % 256, n % 256⟩

/-- Three digits stand for six, each written twice. -/
def widen (digits : List Char) : List Char :=
  if digits.length = 3 then digits.flatMap fun c => [c, c] else digits

def rgb? (color : String) : Option Rgb :=
  match color.toList with
  | '#' :: digits => (hexNumber? (widen digits)).map Rgb.ofInt
  | _ => none

/-- One component on the way from `a` to `b`, to the nearest whole number. -/
def blendComponent (a b : Int) (t : Number) : Except Fault Int := do
  (← Curve.between (.int a) (.int b) t).round

/-- The colour at `t` on the way between two; unless both are hexadecimal, the first. -/
def blend (first last : String) (t : Number) : Except Fault String :=
  match rgb? first, rgb? last with
  | some a, some b => do
    let red ← blendComponent a.red b.red t
    let green ← blendComponent a.green b.green t
    let blue ← blendComponent a.blue b.blue t
    return "rgb(" ++ toString red ++ "," ++ toString green ++ "," ++ toString blue ++ ")"
  | _, _ => .ok first

end TilePuzzle.Color
