import TilePuzzle.Json.Token

/-! Reading a value from tokens: a fold whose state holds the containers that are still open, so they may
be nested to any depth. -/
namespace TilePuzzle.Json

namespace Problem

def message : Problem → String
  | byteOrderMark => "Unexpected UTF-8 BOM (decode using utf-8-sig)"
  | noValue => "Expecting value"
  | noName => "Expecting property name enclosed in double quotes"
  | noColon => "Expecting ':' delimiter"
  | noComma => "Expecting ',' delimiter"
  | extraData => "Extra data"
  | unterminated => "Unterminated string starting at"
  | control => "Invalid control character at"
  | badEscape => "Invalid \\escape"
  | badUnicode => "Invalid \\uXXXX escape"

end Problem

def Complaint.message (c : Complaint) (text : List Char) : String :=
  let before := text.take c.position
  let line := before.count '\n' + 1
  let column := (before.reverse.takeWhile (· != '\n')).length + 1
  c.problem.message ++ ": line " ++ toString line ++ " column " ++ toString column ++
    " (char " ++ toString c.position ++ ")"

inductive Failure
  | complaint (c : Complaint)
  | tooManyDigits (digits : Nat)
  deriving DecidableEq

def complain (problem : Problem) (position : Nat) : Except Failure α :=
  .error (.complaint ⟨problem, position⟩)

/-- Sets a field: a name keeps the place it first had and takes the last value. -/
def setField (name : String) (v : Value) : Fields → Fields
  | [] => [(name, v)]
  | (other, w) :: rest =>
    if other = name then (name, v) :: rest else (other, w) :: setField name v rest

/-- A container part-way through: an array's items, last first, or an object's fields and the name
of the value to come. -/
inductive Frame
  | array (items : List Value)
  | object (fields : Fields) (name : String)

inductive ReadState
  | value (open_ : List Frame)
  | firstItem (open_ : List Frame)
  | firstName (open_ : List Frame)
  | name (open_ : List Frame) (fields : Fields)
  | colon (open_ : List Frame) (fields : Fields) (name : String)
  /-- A value is complete, inside the open containers. -/
  | after (open_ : List Frame) (v : Value)

def readValue (open_ : List Frame) (t : Located) : Except Failure ReadState :=
  match t.token with
  | .scalar v => .ok (.after open_ v)
  | .text s => .ok (.after open_ (.str s))
  | .openArray => .ok (.firstItem open_)
  | .openObject => .ok (.firstName open_)
  | .broken c => .error (.complaint c)
  | .tooLong digits => .error (.tooManyDigits digits)
  | _ => complain .noValue t.position

def readName (open_ : List Frame) (fields : Fields) (t : Located) : Except Failure ReadState :=
  match t.token with
  | .text s => .ok (.colon open_ fields s)
  | .broken c => .error (.complaint c)
  | _ => complain .noName t.position

def readAfter (open_ : List Frame) (v : Value) (t : Located) : Except Failure ReadState :=
  match open_, t.token with
  | .array items :: open_, .comma => .ok (.value (.array (v :: items) :: open_))
  | .array items :: open_, .closeArray => .ok (.after open_ (.arr (v :: items).reverse))
  | .object fields name :: open_, .comma => .ok (.name open_ (setField name v fields))
  | .object fields name :: open_, .closeObject => .ok (.after open_ (.obj (setField name v fields)))
  | [], .stop => .ok (.after [] v)
  | [], _ => complain .extraData t.position
  | _ :: _, _ => complain .noComma t.position

/-- Takes one token. A complaint is about the first token that does not fit. -/
def step (state : ReadState) (t : Located) : Except Failure ReadState :=
  match state, t.token with
  | .value open_, _ => readValue open_ t
  | .firstItem open_, .closeArray => .ok (.after open_ (.arr []))
  | .firstItem open_, _ => readValue (.array [] :: open_) t
  | .firstName open_, .closeObject => .ok (.after open_ (.obj []))
  | .firstName open_, _ => readName open_ [] t
  | .name open_ fields, _ => readName open_ fields t
  | .colon open_ fields name, .colon => .ok (.value (.object fields name :: open_))
  | .colon _ _ _, _ => complain .noColon t.position
  | .after open_ v, _ => readAfter open_ v t

def read (text : List Char) : Except Failure Value :=
  if text.head? = some '\ufeff' then complain .byteOrderMark 0 else
    match (tokens text).foldlM step (.value []) with
    | .ok (.after _ v) => .ok v
    | .ok _ => complain .noValue text.length
    | .error failure => .error failure

end TilePuzzle.Json
