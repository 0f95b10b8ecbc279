import TilePuzzle.Board
import TilePuzzle.Files
import TilePuzzle.Rule.Basic

/-! Levels, ready to be played, and the sets of levels that a session goes through. -/
namespace TilePuzzle

structure Level where
  blueprint : Blueprint
  /-- The id it is known by; the one in the blueprint, else the one it was asked for by. -/
  id : Value
  board : Board
  rules : List Rule
  hints : List Hint
  cues : List Cue
  border : Border

namespace Level

/-- Only hints about deaths are known; a missing or zero duration is four seconds. -/
def hintOf? (entry : HintEntry) : Option Hint :=
  if entry.trigger = "death_count" then
    let duration := entry.duration.getD 0
    some ⟨entry.threshold, .str entry.text, .int (if duration = 0 then 4000 else duration)⟩
  else none

def cueOf (entry : CueEntry) : Cue := ⟨entry.kind, entry.delay, entry.extra⟩

def build (b : Blueprint) : Except Fault Level := do
  let rules ← Rule.ofItems (b.rules.map .obj)
  return {
    blueprint := b
    id := Ident.optionalValue b.id
    board := Board.build b
    rules
    hints := b.hints.filterMap hintOf?
    cues := b.cues.map cueOf
    border := Border.ofName b.border }

def start (l : Level) : Place := Board.startPlace l.blueprint

def ofValue (v : Value) : Except Fault (Option Level) :=
  match Blueprint.ofValue v with
  | .ok b => (build b).map some
  | .issues .. => .ok none

/-- A level that names no id takes the one it was asked for by. -/
def named (l : Level) (asked : Value) : Level :=
  if l.blueprint.id.isNone then { l with id := asked } else l

def ofAsked (asked v : Value) : Except Fault (Option Level) :=
  (ofValue v).map fun l => l.map (·.named asked)

/-- The file of a level: its number with at least two digits, or its id as text. -/
def fileName (id : Value) : String :=
  let stem := match id with
    | .int n => Text.padLeft '0' 2 (toString n)
    | .bool b => if b then "01" else "00"
    | v => v.text
  "level_" ++ stem ++ ".json"

end Level

/-- Levels that were given as values: by key, and their ids in order. -/
structure Catalog where
  entries : List (Key × Value) := []
  order : List Value := []

namespace Catalog

def setEntry (key : Key) (v : Value) : List (Key × Value) → List (Key × Value)
  | [] => [(key, v)]
  | (other, w) :: rest =>
    if other = key then (key, v) :: rest else (other, w) :: setEntry key v rest

def ownId : Value → Value
  | .obj fields => Value.get fields "id"
  | _ => .null

def idAt (position : Nat) (v : Value) : Value :=
  match ownId v with
  | .null => .int position
  | id => id

/-- Adds levels in order; those without an id are named by their position. -/
def addFrom (position : Nat) (c : Catalog) : List Value → Except Fault Catalog
  | [] => .ok c
  | v :: rest =>
    let id := idAt position v
    match id.key with
    | .error f => .error f
    | .ok key =>
      addFrom (position + 1) ⟨setEntry key v c.entries, c.order ++ [id]⟩ rest

/-- The catalog of some values; of two with the same id the later one counts. -/
def ofItems (items : List Value) : Except Fault Catalog := addFrom 1 {} items

/-- The level of an id; null stands for no level. -/
def load (c : Catalog) (id : Value) : Except Fault (Option Level) :=
  match id.key with
  | .error f => .error f
  | .ok key =>
    match (c.entries.lookup key).getD .null with
    | .null => .ok none
    | v => Level.ofAsked id v

end Catalog

inductive LevelSet
  | folder (read : FileReader) (path : String)
  | catalog (c : Catalog)

namespace LevelSet

instance : Inhabited LevelSet := ⟨.catalog {}⟩

def fallbackIds : List Value := [1, 2, 3, 4, 5, 6, 7].map .int

def indexPath (folder : String) : String := pathBelow folder "index.json"

def levelPath (folder : String) (id : Value) : String := pathBelow folder (Level.fileName id)

/-- The ids that an index lists; only a list that is not empty counts. -/
def idsOfIndex : Except LoadProblem Value → List Value
  | .ok (.arr (first :: more)) => first :: more
  | _ => fallbackIds

def ids : LevelSet → Except Fault (List Value)
  | folder read path => (loadFile read (indexPath path)).map idsOfIndex
  | catalog c => .ok c.order

def load (set : LevelSet) (id : Value) : Except Fault (Option Level) :=
  match set with
  | folder read path =>
    match loadFile read (levelPath path id) with
    | .error f => .error f
    | .ok (.error _) => .ok none
    | .ok (.ok v) => Level.ofAsked id v
  | catalog c => c.load id

end LevelSet
end TilePuzzle
