import TilePuzzle.Color
import TilePuzzle.Value

/-! Tile mechanics. What a tile looks like at a tick follows from the tick, its mechanic and the
parameters its author gave; nothing else is remembered. -/
namespace TilePuzzle

inductive Mechanic
  | solidColor
  | blinking
  | rotatingCw
  | rotatingCcw
  | levitating
  | pulsing
  | multicolor
  | colorShift
  /-- A name that is not known: the tile keeps its base colour. -/
  | unsupported
  deriving DecidableEq

namespace Mechanic

def name : Mechanic → String
  | solidColor => "solid_color"
  | blinking => "blinking"
  | rotatingCw => "rotating_cw"
  | rotatingCcw => "rotating_ccw"
  | levitating => "levitating"
  | pulsing => "pulsing"
  | multicolor => "multicolor"
  | colorShift => "color_shift"
  | unsupported => "unsupported"

def all : List Mechanic :=
  [solidColor, blinking, rotatingCw, rotatingCcw, levitating, pulsing, multicolor, colorShift,
    unsupported]

/-- The mechanic of a name: none without a name, `unsupported` for an unknown one. -/
def ofName? : Option String → Option Mechanic
  | none => none
  | some s => if s = "" then none else some ((all.find? fun m => m.name == s).getD unsupported)

end Mechanic

structure Look where
  color : Option String
  angle : Float := 0
  elevation : Float := 0
  scale : Float := 1
  visible : Bool := true

namespace Mechanic

/-- The double nearest to 2π. -/
def fullTurn : Float := Float.ofBits 0x401921fb54442d18

/-- A number parameter; one that is missing, zero or no number takes its default. -/
def numberParam (params : Fields) (name : String) (default : Float) : Except Fault Float :=
  match (Value.get params name).number? with
  | some n => if n.isZero then .ok default else n.toFloat
  | none => .ok default

/-- A text parameter; one that is missing, empty or no text takes its default. -/
def colorParam (params : Fields) (name default : String) : String :=
  match Value.get params name with
  | .str s => if s = "" then default else s
  | _ => default

def nonEmptyTexts (items : List Value) : List String :=
  items.filterMap fun
    | .str s => if s = "" then none else some s
    | _ => none

def defaultColors : List String := ["#E74C3C", "#4A90D9", "#F5A623"]

/-- The parameter that lists colours; without a usable one the default list, never none. -/
def colorsParam (params : Fields) : List String :=
  match Value.get params "colors" with
  | .arr items => match nonEmptyTexts items with
    | [] => defaultColors
    | colors => colors
  | _ => defaultColors

def phaseAt (tick : Int) (speed : Float) : Except Fault Float := do
  return (← floatOfInt tick) * speed

def waveAt (tick : Int) (speed : Float) : Except Fault Float := do
  sine ((← phaseAt tick speed) * fullTurn)

def factorAt (tick : Int) (speed : Float) : Except Fault Float := do
  return (← waveAt tick speed) * 0.5 + 0.5

def angleAt (tick : Int) (params : Fields) : Except Fault Float := do
  let speed ← numberParam params "speed" 0.025
  floatRemainder (← phaseAt tick speed) fullTurn

/-- Shown for one half of a sine wave and hidden for the other. -/
def blink (tick : Int) (params : Fields) (color : String) : Except Fault Look := do
  let speed ← numberParam params "speed" 0.04
  let lit := decide (0 < (← waveAt tick speed))
  return { color := if lit then some color else none, visible := lit }

def levitate (tick : Int) (params : Fields) (color : String) : Except Fault Look := do
  let amplitude ← numberParam params "amplitude" 8
  let frequency ← numberParam params "frequency" 0.03
  let wave ← waveAt tick frequency
  return { color := some color, elevation := amplitude + wave * amplitude * 0.5 }

def pulse (tick : Int) (params : Fields) (color : String) : Except Fault Look := do
  let speed ← numberParam params "speed" 0.03
  let least ← numberParam params "min_scale" 0.75
  let greatest ← numberParam params "max_scale" 1
  let factor ← factorAt tick speed
  return { color := some color, scale := least + factor * (greatest - least) }

/-- The colour whose turn it is in a list that repeats forever. -/
def cycle (colors : List String) (turn : Int) : Option String :=
  colors[(turn % colors.length).toNat]?

def alternate (tick : Int) (params : Fields) : Except Fault Look := do
  let speed ← numberParam params "speed" 0.01
  let turn ← exactFloat (← phaseAt tick speed)
  return { color := cycle (colorsParam params) turn.floor }

def shift (tick : Int) (params : Fields) : Except Fault Look := do
  let speed ← numberParam params "speed" 0.02
  let factor ← factorAt tick speed
  let color ← Color.blend (colorParam params "color_from" "#4A90D9")
    (colorParam params "color_to" "#E74C3C") (.float factor)
  return { color := some color }

def look (tick : Int) (mechanic : Option Mechanic) (params : Fields) (base : Option String) :
    Except Fault Look :=
  let color := colorParam params "color" "#888"
  match mechanic with
  | none | some unsupported => .ok { color := base }
  | some solidColor => .ok { color := some color }
  | some blinking => blink tick params color
  | some rotatingCw => (angleAt tick params).map fun angle => { color := some color, angle }
  | some rotatingCcw =>
    (angleAt tick params).map fun angle => { color := some color, angle := -angle }
  | some levitating => levitate tick params color
  | some pulsing => pulse tick params color
  | some multicolor => alternate tick params
  | some colorShift => shift tick params

end Mechanic
end TilePuzzle
