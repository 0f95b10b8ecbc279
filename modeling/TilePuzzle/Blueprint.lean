import TilePuzzle.Direction
import TilePuzzle.Schema

/-! Blueprints: what the author of a level wrote down, checked for its shape only. Whether it makes
sense as a level is another question. -/
namespace TilePuzzle

inductive Ident
  | int (n : Int)
  | str (s : String)
  deriving DecidableEq

namespace Ident

def value : Ident → Value
  | int n => .int n
  | str s => .str s

def key : Ident → Key
  | int n => .int n
  | str s => .str s

/-- Whether a value is this identity; numbers count by what they equal. -/
def isValue (id : Ident) (v : Value) : Bool :=
  match v.key with
  | .ok k => id.key == k
  | .error _ => false

def optionalValue : Option Ident → Value := Value.optional value

end Ident

/-- What a level file says of one tile; `extra` keeps the fields that no rule names. -/
structure TileEntry where
  place : Place
  id : Option Ident
  mechanic : Option String
  params : Fields
  joker : Bool
  /-- Fields that are not known here. -/
  extra : Fields

structure HintEntry where
  trigger : String
  threshold : Int
  text : String
  duration : Option Int
  extra : Fields

structure CueEntry where
  kind : String
  delay : Int
  extra : Fields

/-- A level as its file describes it, every field read and nothing checked for sense. -/
structure Blueprint where
  id : Option Ident
  title : String
  size : Nat
  start : Option Place
  exit : Option Place
  tiles : List TileEntry
  rules : List Fields
  hints : List HintEntry
  border : Option String
  cues : List CueEntry
  patterns : Fields
  wallHint : Option String
  deathMessage : String
  winMessage : String
  extra : Fields
  size_pos : 1 ≤ size
  size_le : size ≤ 64

namespace Blueprint

open Schema

/-- A text stays a text; anything else has to be a whole number, and both complaints are made. -/
def ident (v : Value) : Checked Ident :=
  match v with
  | .str s => .ok (.str s)
  | v =>
    match intResult v with
    | .ok n => .ok (.int n)
    | .error problem =>
      .issues ⟨[.field "int"], problem, v⟩ [⟨[.field "str"], .stringType, v⟩]

def pairItem (v : Value) (i : Nat) (item : Option Value) : Checked Int :=
  match item with
  | some w => (Schema.int w).under (.index i)
  | none => (Checked.fail v .missing).under (.index i)

def place (v : Value) : Checked Place :=
  match v with
  | .arr items =>
    if 2 < items.length then .fail v (.tooLong 2 items.length)
    else Place.mk <$> pairItem v 0 items[0]? <*> pairItem v 1 items[1]?
  | v => .fail v .pairType

/-- Reads an object and the fields that are not known. If a name of those cannot be spelt, nothing else is
complained about. -/
def ofObject (name : String) (known : List String) (read : Fields → Checked α) (v : Value) : Checked α :=
  match v with
  | .obj fields =>
    match unspelt? known fields with
    | some key => .fail (.str key) .unspelt
    | none => read fields
  | v => .fail v (.shapeType name)

/-- The fields that a tile entry reads; all others are its extras. -/
def tileNames : List String := ["position", "id", "mechanic", "mechanic_params", "joker"]

def tileOfFields (fields : Fields) : Checked TileEntry :=
  TileEntry.mk
    <$> required place "position" fields
    <*> fieldOr (optional ident) none "id" fields
    <*> fieldOr (optional string) none "mechanic" fields
    <*> fieldOr object [] "mechanic_params" fields
    <*> fieldOr bool false "joker" fields
    <*> .ok (extras tileNames fields)

def hintNames : List String := ["trigger", "threshold", "text", "duration"]

def hintOfFields (fields : Fields) : Checked HintEntry :=
  HintEntry.mk
    <$> fieldOr string "death_count" "trigger" fields
    <*> fieldOr int 0 "threshold" fields
    <*> fieldOr string "" "text" fields
    <*> fieldOr (optional int) none "duration" fields
    <*> .ok (extras hintNames fields)

def cueNames : List String := ["type", "delay"]

def cueOfFields (fields : Fields) : Checked CueEntry :=
  CueEntry.mk
    <$> required string "type" fields
    <*> fieldOr int 0 "delay" fields
    <*> .ok (extras cueNames fields)

structure Size where
  val : Nat
  pos : 1 ≤ val
  le : val ≤ 64

def Size.default : Size := ⟨6, by decide, by decide⟩

def boundedSize (v : Value) (n : Int) : Checked Size :=
  if low : 1 ≤ n then
    if high : n ≤ 64 then .ok ⟨n.toNat, by omega, by omega⟩ else .fail v (.atMost 64)
  else .fail v (.atLeast 1)

/-- Reads the length of a side: a whole number first, then its bounds. -/
def side (v : Value) : Checked Size :=
  match Schema.int v with
  | .ok n => boundedSize v n
  | .issues first more => .issues first more

/-- The fields that a blueprint reads; all others are its extras. -/
def names : List String :=
  ["id", "title", "grid_size", "start", "exit", "cells", "rules", "hints", "border_behavior",
    "on_start", "music_patterns", "wall_hint", "death_message", "win_message"]

/-- Puts a blueprint together; the defaults of absent fields are chosen by the readers. -/
def build (id : Option Ident) (title : String) (size : Size) (start exit : Option Place)
    (tiles : List TileEntry) (rules : List Fields) (hints : List HintEntry)
    (border : Option String) (cues : List CueEntry) (patterns : Fields)
    (wallHint : Option String) (deathMessage winMessage : String) (extra : Fields) : Blueprint :=
  ⟨id, title, size.val, start, exit, tiles, rules, hints, border, cues, patterns, wallHint,
    deathMessage, winMessage, extra, size.pos, size.le⟩

/-- Reads every field in the order of the blueprint, so that complaints come in that order. -/
def ofFields (fields : Fields) : Checked Blueprint :=
  build
    <$> fieldOr (optional ident) none "id" fields
    <*> fieldOr string "" "title" fields
    <*> fieldOr side Size.default "grid_size" fields
    <*> fieldOr (optional place) none "start" fields
    <*> fieldOr (optional place) none "exit" fields
    <*> fieldOr (list (ofObject "CellEntry" tileNames tileOfFields)) [] "cells" fields
    <*> fieldOr (list object) [] "rules" fields
    <*> fieldOr (list (ofObject "HintEntry" hintNames hintOfFields)) [] "hints" fields
    <*> fieldOr (optional string) (some "kill") "border_behavior" fields
    <*> fieldOr (list (ofObject "StartEventEntry" cueNames cueOfFields)) [] "on_start" fields
    <*> fieldOr object [] "music_patterns" fields
    <*> fieldOr (optional string) none "wall_hint" fields
    <*> fieldOr string "You fell." "death_message" fields
    <*> fieldOr string "Pattern understood." "win_message" fields
    <*> .ok (extras names fields)

/-- Reads a blueprint, with all complaints if it has none. -/
def ofValue (v : Value) : Checked Blueprint := ofObject "LevelDescriptor" names ofFields v

def placeValue (p : Place) : Value := .arr [.int p.col, .int p.row]

def tileValue (t : TileEntry) : Value :=
  .obj ([("position", placeValue t.place), ("id", Ident.optionalValue t.id),
    ("mechanic", Value.optional .str t.mechanic), ("mechanic_params", .obj t.params),
    ("joker", .bool t.joker)] ++ t.extra)

def hintValue (h : HintEntry) : Value :=
  .obj ([("trigger", .str h.trigger), ("threshold", .int h.threshold), ("text", .str h.text),
    ("duration", Value.optional .int h.duration)] ++ h.extra)

def cueValue (c : CueEntry) : Value :=
  .obj ([("type", .str c.kind), ("delay", .int c.delay)] ++ c.extra)

/-- A blueprint with every field written out, also those that had been left to their default. -/
def value (b : Blueprint) : Value :=
  .obj ([("id", Ident.optionalValue b.id), ("title", .str b.title), ("grid_size", .int b.size),
    ("start", Value.optional placeValue b.start), ("exit", Value.optional placeValue b.exit),
    ("cells", .arr (b.tiles.map tileValue)), ("rules", .arr (b.rules.map .obj)),
    ("hints", .arr (b.hints.map hintValue)), ("border_behavior", Value.optional .str b.border),
    ("on_start", .arr (b.cues.map cueValue)), ("music_patterns", .obj b.patterns),
    ("wall_hint", Value.optional .str b.wallHint), ("death_message", .str b.deathMessage),
    ("win_message", .str b.winMessage)] ++ b.extra)

end Blueprint
end TilePuzzle
