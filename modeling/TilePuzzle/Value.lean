import TilePuzzle.Number.Basic

/-! Decoded data: what a level file holds before anything is known about its shape. -/
namespace TilePuzzle

/-- Data as it is written in a document. The fields of an object keep their order. -/
inductive Value
  | null
  | bool (b : Bool)
  | int (n : Int)
  | float (x : Float)
  | str (s : String)
  | arr (items : List Value)
  | obj (fields : List (String × Value))

abbrev Fields := List (String × Value)

namespace Value

instance : Inhabited Value := ⟨.null⟩

/-- Nothing, zero and what is empty count as false. -/
def isTruthy : Value → Bool
  | null => false
  | bool b => b
  | int n => n != 0
  | float x => !(x == 0)
  | str s => s != ""
  | arr items => !items.isEmpty
  | obj fields => !fields.isEmpty

def kind : Value → String
  | null => "NoneType"
  | bool _ => "bool"
  | int _ => "int"
  | float _ => "float"
  | str _ => "str"
  | arr _ => "list"
  | obj _ => "dict"

mutual
def shown : Value → String
  | null => "None"
  | bool b => if b then "True" else "False"
  | int n => toString n
  | float x => floatText x
  | str s => Text.quoted s
  | arr items => "[" ++ ", ".intercalate (shownItems items) ++ "]"
  | obj fields => "\x7b" ++ ", ".intercalate (shownFields fields) ++ "\x7d"

def shownItems : List Value → List String
  | [] => []
  | v :: rest => v.shown :: shownItems rest

def shownFields : List (String × Value) → List String
  | [] => []
  | (name, v) :: rest => (Text.quoted name ++ ": " ++ v.shown) :: shownFields rest
end

/-- The text of a value: a text is itself, anything else as it is shown. Documents hold no whole number
that is too long to be shown. -/
def text : Value → String
  | str s => s
  | v => v.shown

/-- What a value is walked through as: an object gives its names, a text its letters. -/
def items : Value → Except Fault (List Value)
  | arr items => .ok items
  | obj fields => .ok (fields.map fun f => str f.1)
  | str s => .ok ((Text.split s).map str)
  | v => .error (.notIterable v.kind)

/-- The number in a value; truth values are none. -/
def number? : Value → Option Number
  | int n => some (.int n)
  | float x => some (.float x)
  | _ => none

/-- The value under a name; a missing one is null. -/
def get (fields : Fields) (name : String) : Value := (fields.lookup name).getD null

def optional (write : α → Value) : Option α → Value
  | none => null
  | some a => write a

def orElse (v fallback : Value) : Value := if v.isTruthy then v else fallback

end Value

/-- What decides whether two values are the same key: truth values and whole floats are the
numbers they equal. -/
inductive Key
  | null
  | int (n : Int)
  | fraction (bits : UInt64)
  | str (s : String)
  deriving DecidableEq

def Key.ofFloat (x : Float) : Key :=
  match Binary64.ofFloat x with
  | .finite negative m e =>
    let d : Dyadic := ⟨if negative then -m else m, e⟩
    if d.isWhole then .int d.trunc else .fraction x.toBits
  | _ => .fraction x.toBits

def Value.key : Value → Except Fault Key
  | .null => .ok .null
  | .bool b => .ok (.int (if b then 1 else 0))
  | .int n => .ok (.int n)
  | .float x => .ok (Key.ofFloat x)
  | .str s => .ok (.str s)
  | v => .error (.unhashable v.kind)

end TilePuzzle
