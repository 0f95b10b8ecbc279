import TilePuzzle.Text.Numeral
import TilePuzzle.Value

/-! Reading typed data from values. Every field is read by a stated rule that may coerce what it
finds, and all complaints are collected, in the order of the fields. -/
namespace TilePuzzle

inductive Step
  | field (name : String)
  | index (i : Nat)
  deriving DecidableEq

inductive Problem
  | missing
  | intType
  | intParsing
  | intParsingSize
  | intFromFloat
  | finiteNumber
  | atLeast (bound : Int)
  | atMost (bound : Int)
  | stringType
  /-- Half of a pair stands alone in a text. -/
  | unspelt
  | boolType
  | boolParsing
  | pairType
  | tooLong (limit actual : Nat)
  | listType
  | objectType
  | shapeType (name : String)
  /-- The body of a request is no object. -/
  | bodyType
  deriving DecidableEq

structure Issue where
  path : List Step
  problem : Problem
  input : Value

namespace Problem

def tag : Problem → String
  | missing => "missing"
  | intType => "int_type"
  | intParsing => "int_parsing"
  | intParsingSize => "int_parsing_size"
  | intFromFloat => "int_from_float"
  | finiteNumber => "finite_number"
  | atLeast _ => "greater_than_equal"
  | atMost _ => "less_than_equal"
  | stringType => "string_type"
  | unspelt => "string_unicode"
  | boolType => "bool_type"
  | boolParsing => "bool_parsing"
  | pairType => "tuple_type"
  | tooLong .. => "too_long"
  | listType => "list_type"
  | objectType => "dict_type"
  | shapeType _ => "model_type"
  | bodyType => "model_attributes_type"

def message : Problem → String
  | missing => "Field required"
  | intType => "Input should be a valid integer"
  | intParsing => "Input should be a valid integer, unable to parse string as an integer"
  | intParsingSize => "Unable to parse input string as an integer, exceeded maximum size"
  | intFromFloat => "Input should be a valid integer, got a number with a fractional part"
  | finiteNumber => "Input should be a finite number"
  | atLeast bound => "Input should be greater than or equal to " ++ toString bound
  | atMost bound => "Input should be less than or equal to " ++ toString bound
  | stringType => "Input should be a valid string"
  | unspelt => "Input should be a valid string, unable to parse raw data as a unicode string"
  | boolType => "Input should be a valid boolean"
  | boolParsing => "Input should be a valid boolean, unable to interpret input"
  | pairType => "Input should be a valid tuple"
  | tooLong limit actual =>
    "Tuple should have at most " ++ toString limit ++ " items after validation, not " ++
      toString actual
  | listType => "Input should be a valid list"
  | objectType => "Input should be a valid dictionary"
  | shapeType name => "Input should be a valid dictionary or instance of " ++ name
  | bodyType => "Input should be a valid dictionary or object to extract fields from"

def context : Problem → Fields
  | atLeast bound => [("ge", .int bound)]
  | atMost bound => [("le", .int bound)]
  | _ => []

end Problem

/-- A result, or all complaints about what should have given it. -/
inductive Checked (α : Type)
  | ok (a : α)
  | issues (first : Issue) (more : List Issue)

namespace Checked

def fail (input : Value) (problem : Problem) : Checked α := .issues ⟨[], problem, input⟩ []

protected def map (f : α → β) : Checked α → Checked β
  | ok a => ok (f a)
  | issues i more => issues i more

/-- Applies one result to another; complaints of both sides are kept, the left ones first. -/
protected def seq : Checked (α → β) → Checked α → Checked β
  | ok f, ok a => ok (f a)
  | ok _, issues i more => issues i more
  | issues i more, ok _ => issues i more
  | issues i more, issues j more' => issues i (more ++ j :: more')

instance : Applicative Checked where
  pure := ok
  seq f a := f.seq (a ())
  map := Checked.map

def under (step : Step) : Checked α → Checked α
  | ok a => ok a
  | issues i more =>
    let inside := fun (i : Issue) => { i with path := step :: i.path }
    issues (inside i) (more.map inside)

def andAlso (check : α → Option Problem) (input : Value) : Checked α → Checked α
  | ok a =>
    match check a with
    | none => ok a
    | some problem => fail input problem
  | issues i more => issues i more

end Checked

namespace Schema

def isMargin (c : Char) : Bool :=
  let n := c.toNat
  (9 ≤ n && n ≤ 13) || n == 32 || n == 0x85 || n == 0xa0 || n == 0x1680 ||
    (0x2000 ≤ n && n ≤ 0x200a) || n == 0x2028 || n == 0x2029 || n == 0x202f || n == 0x205f ||
    n == 0x3000

def dropZeroFraction (s : List Char) : List Char :=
  match s.span (· != '.') with
  | (whole, '.' :: zeros) => if !zeros.isEmpty && zeros.all (· == '0') then whole else s
  | _ => s

def parseInt? (s : List Char) : Option Int := Text.signed? Text.decimal? (dropZeroFraction s)

/-- Texts beyond this many bytes are not tried as numbers. -/
def longestInt : Nat := 4300

/-- A whole number in a text: blanks around it, a sign, digits with single underscores, and a
fraction of zeros. -/
def intOfText (text : List Char) : Except Problem Int :=
  let core := Text.trimList isMargin text
  if longestInt < (String.ofList core).utf8ByteSize then .error .intParsingSize
  else match parseInt? core with
    | some n => .ok n
    | none => .error .intParsing

/-- Whole floats strictly inside the range of 64 bits are whole numbers. -/
def intOfFloat (x : Float) : Except Problem Int :=
  match Binary64.ofFloat x with
  | .finite negative m e =>
    let d : Dyadic := ⟨if negative then -m else m, e⟩
    if !d.isWhole then .error .intFromFloat
    else if -(twoTo 63 : Int) < d.trunc && d.trunc < twoTo 63 then .ok d.trunc
    else .error .intParsingSize
  | _ => .error .finiteNumber

def intResult : Value → Except Problem Int
  | .int n => .ok n
  | .bool b => .ok (if b then 1 else 0)
  | .float x => intOfFloat x
  | .str s =>
    match Text.chars? s with
    | some text => intOfText text
    | none => .error .unspelt
  | _ => .error .intType

def verdict (v : Value) : Except Problem α → Checked α
  | .ok a => .ok a
  | .error problem => .fail v problem

def int (v : Value) : Checked Int := verdict v (intResult v)

def atLeast (bound : Int) (n : Int) : Option Problem :=
  if bound ≤ n then none else some (.atLeast bound)

def atMost (bound : Int) (n : Int) : Option Problem :=
  if n ≤ bound then none else some (.atMost bound)

def string (v : Value) : Checked String :=
  match v with
  | .str s => .ok s
  | v => .fail v .stringType

def falseWords : List String := ["0", "off", "f", "false", "n", "no"]

def trueWords : List String := ["1", "on", "t", "true", "y", "yes"]

def boolOfInt (n : Int) : Except Problem Bool :=
  if n = 0 then .ok false
  else if n = 1 then .ok true
  else if -(twoTo 63 : Int) ≤ n && n < twoTo 63 then .error .boolParsing
  else .error .boolType

/-- A truth value, a one or zero, or a word for one. -/
def boolResult : Value → Except Problem Bool
  | .bool b => .ok b
  | .int n => boolOfInt n
  | .float x =>
    match intOfFloat x with
    | .ok n => boolOfInt n
    | .error _ => .error .boolType
  | .str s =>
    let word := s.map Char.toLower
    if falseWords.contains word then .ok false
    else if trueWords.contains word then .ok true
    else if (Text.chars? s).isNone then .error .unspelt
    else .error .boolParsing
  | _ => .error .boolType

def bool (v : Value) : Checked Bool := verdict v (boolResult v)

def optional (read : Value → Checked α) : Value → Checked (Option α)
  | .null => .ok none
  | v => (read v).map some

/-- Reads items in order, each complaint placed by the index of its item. -/
def listFrom (read : Value → Checked α) (i : Nat) : List Value → Checked (List α)
  | [] => .ok []
  | v :: rest => List.cons <$> (read v).under (.index i) <*> listFrom read (i + 1) rest

def list (read : Value → Checked α) (v : Value) : Checked (List α) :=
  match v with
  | .arr items => listFrom read 0 items
  | v => .fail v .listType

def object (v : Value) : Checked Fields :=
  match v with
  | .obj fields => .ok fields
  | v => .fail v .objectType

def fieldOr (read : Value → Checked α) (default : α) (name : String) (fields : Fields) :
    Checked α :=
  match fields.lookup name with
  | some v => (read v).under (.field name)
  | none => .ok default

def required (read : Value → Checked α) (name : String) (fields : Fields) : Checked α :=
  match fields.lookup name with
  | some v => (read v).under (.field name)
  | none => (Checked.fail (.obj fields) .missing).under (.field name)

def extras (known : List String) (fields : Fields) : Fields :=
  fields.filter fun f => !known.contains f.1

/-- The first name beside the known ones in which half of a pair stands alone. -/
def unspelt? (known : List String) (fields : Fields) : Option String :=
  (extras known fields).findSome? fun f => if (Text.chars? f.1).isNone then some f.1 else none

end Schema
end TilePuzzle
