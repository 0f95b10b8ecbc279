import TilePuzzle.Blueprint
import TilePuzzle.Mechanic

/-! Boards: square, row by row. What a tile is stays fixed after a board is built; how it looks
follows the ticks. -/
namespace TilePuzzle

/-- One tile: what its level says of it, and how it looked at the last refresh. -/
structure Tile where
  place : Place
  id : Option Ident := none
  isStart : Bool := false
  isExit : Bool := false
  isJoker : Bool := false
  mechanic : Option Mechanic := none
  params : Fields := []
  /-- The colour its author gave it. -/
  base : Option String := none
  look : Look := { color := none }

namespace Tile

def isBlinking (t : Tile) : Bool := t.mechanic == some .blinking

/-- The start and the exit are never animated; they stay on the ground. -/
def refresh (tick : Int) (t : Tile) : Except Fault Tile :=
  if t.isStart || t.isExit then .ok { t with look := { t.look with elevation := 0 } }
  else (Mechanic.look tick t.mechanic t.params t.base).map fun look => { t with look }

def author (entry : TileEntry) (t : Tile) : Tile :=
  let base := match Value.get entry.params "color" with
    | .str s => if s = "" then none else some s
    | _ => none
  { t with
    id := entry.id
    mechanic := Mechanic.ofName? entry.mechanic
    params := entry.params
    base
    look := { t.look with color := base }
    isJoker := entry.joker }

def isNotable (t : Tile) : Bool :=
  t.id.isSome || t.mechanic.isSome || t.base.isSome || t.isStart || t.isExit || t.isJoker

end Tile

structure Board where
  size : Nat
  rows : List (List Tile)

namespace Board

def blank (size : Nat) : Board :=
  ⟨size, (List.range size).map fun (r : Nat) =>
    (List.range size).map fun (c : Nat) => { place := ⟨c, r⟩ }⟩

def tiles (b : Board) : List Tile := b.rows.flatten

def contains (b : Board) (p : Place) : Bool := p.within b.size

def tileAt (b : Board) (p : Place) : Option Tile :=
  if b.contains p then (b.rows[p.row.toNat]?).bind (·[p.col.toNat]?) else none

/-- Changes the tile at a place; outside of the board nothing changes. -/
def modifyAt (b : Board) (p : Place) (f : Tile → Tile) : Board :=
  if b.contains p then { b with rows := b.rows.modify p.row.toNat (·.modify p.col.toNat f) } else b

/-- The first tile, row by row, whose id a value is. -/
def findId (b : Board) (v : Value) : Option Tile :=
  b.tiles.find? fun t => (t.id.map fun id => id.isValue v).getD false

def start? (b : Board) : Option Tile := b.tiles.find? (·.isStart)

def exit? (b : Board) : Option Tile := b.tiles.find? (·.isExit)

/-- An authored place, or the default one if it is absent or outside of the board. -/
def corner (size : Nat) (authored : Option Place) (default : Place) : Place :=
  match authored with
  | some p => if p.within size then p else default
  | none => default

/-- A level starts in the top left corner unless it says otherwise. -/
def startPlace (b : Blueprint) : Place := corner b.size b.start ⟨0, 0⟩

/-- A level ends in the bottom right corner unless it says otherwise. -/
def exitPlace (b : Blueprint) : Place := corner b.size b.exit ⟨b.size - 1, b.size - 1⟩

/-- The board of a blueprint. A later entry for the same place replaces an earlier one, and
entries outside of the board change nothing. -/
def build (b : Blueprint) : Board :=
  let started := (blank b.size).modifyAt (startPlace b) fun t => { t with isStart := true }
  let marked := started.modifyAt (exitPlace b) fun t => { t with isExit := true }
  b.tiles.foldl (fun board entry => board.modifyAt entry.place (·.author entry)) marked

/-- Refreshes tiles from the left; at a fault the tiles before it stay refreshed. -/
def refreshRow (tick : Int) : List Tile → Except Fault Unit × List Tile
  | [] => (.ok (), [])
  | t :: rest =>
    match t.refresh tick with
    | .error f => (.error f, t :: rest)
    | .ok t =>
      let (result, rest) := refreshRow tick rest
      (result, t :: rest)

def refreshRows (tick : Int) : List (List Tile) → Except Fault Unit × List (List Tile)
  | [] => (.ok (), [])
  | row :: rest =>
    match refreshRow tick row with
    | (.error f, row) => (.error f, row :: rest)
    | (.ok (), row) =>
      let (result, rest) := refreshRows tick rest
      (result, row :: rest)

/-- Gives every tile its look at a tick, row by row; a fault leaves the rest as it was. -/
def refresh (tick : Int) (b : Board) : Except Fault Unit × Board :=
  let (result, rows) := refreshRows tick b.rows
  (result, { b with rows })

end Board
end TilePuzzle
