import TilePuzzle.Value

/-! Places on a board, the four directions, and what the border of a board does. -/
namespace TilePuzzle

/-- A place by column and row; it may lie outside of any board. -/
structure Place where
  col : Int
  row : Int
  deriving DecidableEq

def Place.within (p : Place) (size : Int) : Bool :=
  (0 ≤ p.col && p.col < size) && (0 ≤ p.row && p.row < size)

inductive Direction
  | up
  | down
  | left
  | right
  deriving DecidableEq

namespace Direction

def name : Direction → String
  | up => "up"
  | down => "down"
  | left => "left"
  | right => "right"

def ofName? : String → Option Direction
  | "up" => some up
  | "down" => some down
  | "left" => some left
  | "right" => some right
  | _ => none

/-- The direction that a value names; only the four exact texts name one. -/
def ofValue : Value → Except Fault Direction
  | .str s =>
    match ofName? s with
    | some d => .ok d
    | none => .error (.notADirection (Text.quoted s))
  | v => .error (.notADirection v.shown)

def ofIntent : Value → Except Fault (Option Direction)
  | .null => .ok none
  | v => (ofValue v).map some

end Direction

def Place.step (p : Place) : Direction → Place
  | .up => { p with row := p.row - 1 }
  | .down => { p with row := p.row + 1 }
  | .left => { p with col := p.col - 1 }
  | .right => { p with col := p.col + 1 }

inductive Border
  | block
  | kill
  | wrap
  | exit
  deriving DecidableEq

namespace Border

def name : Border → String
  | block => "block"
  | kill => "kill"
  | wrap => "wrap"
  | exit => "exit"

def find? (s : String) : Option Border := [block, kill, wrap, exit].find? fun b => b.name == s

/-- The border that a level names: `kill` if it names none, `block` for an unknown name. -/
def ofName : Option String → Border
  | none => kill
  | some s => (find? s).getD block

end Border
end TilePuzzle
