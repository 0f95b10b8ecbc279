import TilePuzzle.Text.Numeral
import TilePuzzle.Value

/-! Tokens of JSON text, cut one character at a time. Cutting never fails: the first characters
that form no token become a last token that says so, and only a reader that gets there complains.

Beyond the standard, `NaN`, `Infinity` and `-Infinity` are numbers. -/
namespace TilePuzzle.Json

inductive Problem
  | byteOrderMark
  | noValue
  | noName
  | noColon
  | noComma
  | extraData
  | unterminated
  | control
  | badEscape
  | badUnicode
  deriving DecidableEq

structure Complaint where
  problem : Problem
  position : Nat
  deriving DecidableEq

/-- The smallest parts of a document. Whatever is wrong with a text or a number is a token too, so
that a complaint comes only once the reader has reached it. -/
inductive Token
  | openArray
  | closeArray
  | openObject
  | closeObject
  | comma
  | colon
  | scalar (v : Value)
  | text (s : String)
  | broken (c : Complaint)
  /-- A whole number of so many digits that it is not read. -/
  | tooLong (digits : Nat)
  | stray
  | stop

structure Located where
  token : Token
  position : Nat

/-- How far a number got. Its digits so far form `mantissa · 10 ^ -scale`. -/
inductive NumberPhase
  | sign
  | zero
  | whole
  | point
  | fraction
  /-- The mark of an exponent at `mark`, with no digit yet. -/
  | mark (mark : Nat) (signed : Bool)
  | exponent

structure NumberState where
  start : Nat
  negative : Bool
  phase : NumberPhase
  mantissa : Nat
  scale : Nat
  /-- Whether digits after a point were seen. -/
  fractional : Bool
  power : Nat
  powerNegative : Bool

inductive EscapePhase
  | none
  | opened (backslash : Nat)
  /-- After `u` at `mark`: how many digits came and their value. -/
  | digits (mark count code : Nat)
  /-- The four digits came, and nothing after them. -/
  | complete (mark : Nat)

structure TextState where
  start : Nat
  /-- The letters so far, last first. -/
  done : List Text.Letter
  /-- The first half of a pair that stands for one character, if it came last. -/
  half : Option (Fin 0x800)
  escape : EscapePhase

inductive CutState
  | between
  | word (start : Nat) (rest : List Char) (v : Value)
  | number (s : NumberState)
  | text (s : TextState)

structure Cut where
  tokens : List Located
  next : Option CutState

def isSpace (c : Char) : Bool := c == ' ' || c == '\t' || c == '\n' || c == '\r'

namespace NumberState

/-- A whole number, or a float if a point or an exponent was written. -/
def token (s : NumberState) (withPower : Bool) : Token :=
  if s.fractional || withPower then
    let power : Int := if s.powerNegative then -(s.power : Int) else s.power
    .scalar (.float (Binary64.ofDecimal s.negative s.mantissa
      ((if withPower then power else 0) - s.scale)).toFloat)
  else
    let digits := (Nat.toDigits 10 s.mantissa).length
    if Text.longestWhole < digits then .tooLong digits
    else .scalar (.int (if s.negative then -s.mantissa else s.mantissa))

def push (s : NumberState) (phase : NumberPhase) (d : Nat) : NumberState :=
  { s with phase, mantissa := s.mantissa * 10 + d }

/-- The number that ends before `position`. A mark without digits is not part of it and starts
nothing else. -/
def finish (s : NumberState) (position : Nat) : List Located × Bool :=
  match s.phase with
  | .sign => ([⟨.stray, s.start⟩], false)
  | .point => ([⟨s.token false, s.start⟩, ⟨.stray, position - 1⟩], false)
  | .mark mark _ => ([⟨s.token false, s.start⟩, ⟨.stray, mark⟩], false)
  | .exponent => ([⟨s.token true, s.start⟩], true)
  | .zero | .whole | .fraction => ([⟨s.token false, s.start⟩], true)

def next? (s : NumberState) (position : Nat) (c : Char) : Option NumberState :=
  match s.phase, Text.decDigit? c with
  | .sign, some d => some (s.push (if d = 0 then .zero else .whole) d)
  | .whole, some d => some (s.push .whole d)
  | .point, some d | .fraction, some d =>
    some { s.push .fraction d with scale := s.scale + 1, fractional := true }
  | .mark _ _, some d | .exponent, some d =>
    some { s with phase := .exponent, power := s.power * 10 + d }
  | .mark mark false, none =>
    if c = '+' then some { s with phase := .mark mark true }
    else if c = '-' then some { s with phase := .mark mark true, powerNegative := true }
    else none
  | .zero, none | .whole, none =>
    if c = '.' then some { s with phase := .point }
    else if c = 'e' || c = 'E' then some { s with phase := .mark position false }
    else none
  | .fraction, none =>
    if c = 'e' || c = 'E' then some { s with phase := .mark position false } else none
  | _, _ => none

end NumberState

def joinHalves (high low : Fin 0x800) : Char :=
  Char.ofNat (0x10000 + high * 0x400 + (low - 0x400))

namespace TextState

/-- A first half that no second one follows stands alone. -/
def settle (s : TextState) : TextState :=
  match s.half with
  | some high => { s with done := .half high :: s.done, half := none }
  | none => s

def push (s : TextState) (letter : Text.Letter) : TextState :=
  let s := s.settle
  { s with done := letter :: s.done, escape := .none }

/-- Adds half of a pair. A second half joins the first one before it, or else stands alone. -/
def pushHalf (s : TextState) (half : Fin 0x800) : TextState :=
  if half.val < 0x400 then { s.settle with half := some half }
  else match s.half with
    | some high => { s with done := .char (joinHalves high half) :: s.done, half := none }
    | none => s.push (.half half)

def pushUnit (s : TextState) (mark unit : Nat) : TextState :=
  let s := match Text.halfOfUnit? unit with
    | some half => s.pushHalf half
    | none => s.push (.char (Char.ofNat unit))
  { s with escape := .complete mark }

def escaped? : Char → Option Char
  | '"' => some '"'
  | '\\' => some '\\'
  | '/' => some '/'
  | 'b' => some '\x08'
  | 'f' => some '\x0c'
  | 'n' => some '\n'
  | 'r' => some '\r'
  | 't' => some '\t'
  | _ => none

def broken (s : TextState) (problem : Problem) (position : Nat) : Cut :=
  ⟨[⟨.broken ⟨problem, position⟩, s.start⟩], none⟩

def plain (s : TextState) (position : Nat) (c : Char) : Cut :=
  if c = '"' then ⟨[⟨.text (Text.ofLetters s.settle.done.reverse), s.start⟩], some .between⟩
  else if c = '\\' then ⟨[], some (.text { s with escape := .opened position })⟩
  else if c.toNat < 0x20 then s.broken .control position
  else ⟨[], some (.text (s.push (.char c)))⟩

def next (s : TextState) (position : Nat) (c : Char) : Cut :=
  match s.escape with
  | .none | .complete _ => s.plain position c
  | .opened backslash =>
    if c = 'u' then ⟨[], some (.text { s with escape := .digits position 0 0 })⟩
    else match escaped? c with
      | some c => ⟨[], some (.text (s.push (.char c)))⟩
      | none => s.broken .badEscape backslash
  | .digits mark count code =>
    match Text.hexDigit? c with
    | none => s.broken .badUnicode mark
    | some d =>
      let code := code * 16 + d
      if count = 3 then ⟨[], some (.text (s.pushUnit mark code))⟩
      else ⟨[], some (.text { s with escape := .digits mark (count + 1) code })⟩

def cutOff (s : TextState) : Complaint :=
  match s.escape with
  | .digits mark _ _ | .complete mark => ⟨.badUnicode, mark⟩
  | .none | .opened _ => ⟨.unterminated, s.start⟩

end TextState

def openToken (position : Nat) (c : Char) : Cut :=
  let one (token : Token) : Cut := ⟨[⟨token, position⟩], some .between⟩
  let word (rest : String) (v : Value) : Cut := ⟨[], some (.word position rest.toList v)⟩
  let number (negative : Bool) (phase : NumberPhase) (d : Nat) : Cut :=
    ⟨[], some (.number ⟨position, negative, phase, d, 0, false, 0, false⟩)⟩
  if isSpace c then ⟨[], some .between⟩ else
    match c with
    | '[' => one .openArray
    | ']' => one .closeArray
    | '{' => one .openObject
    | '}' => one .closeObject
    | ',' => one .comma
    | ':' => one .colon
    | '"' => ⟨[], some (.text ⟨position, [], none, .none⟩)⟩
    | 'n' => word "ull" .null
    | 't' => word "rue" (.bool true)
    | 'f' => word "alse" (.bool false)
    | 'N' => word "aN" (.float Binary64.nan.toFloat)
    | 'I' => word "nfinity" (.float (Binary64.infinite false).toFloat)
    | '-' => number true .sign 0
    | c =>
      match Text.decDigit? c with
      | some d => number false (if d = 0 then .zero else .whole) d
      | none => ⟨[⟨.stray, position⟩], none⟩

def cut (position : Nat) (c : Char) : CutState → Cut
  | .between => openToken position c
  | .word start rest v =>
    match rest with
    | [] => ⟨[⟨.stray, start⟩], none⟩
    | [last] =>
      if c = last then ⟨[⟨.scalar v, start⟩], some .between⟩ else ⟨[⟨.stray, start⟩], none⟩
    | expected :: rest =>
      if c = expected then ⟨[], some (.word start rest v)⟩
      else ⟨[⟨.stray, start⟩], none⟩
  | .text s => s.next position c
  | .number s =>
    match s.next? position c, s.phase, c with
    | some s, _, _ => ⟨[], some (.number s)⟩
    | none, .sign, 'I' =>
      ⟨[], some (.word s.start "nfinity".toList (.float (Binary64.infinite true).toFloat))⟩
    | none, _, _ =>
      let (tokens, goesOn) := s.finish position
      if goesOn then
        let more := openToken position c
        ⟨tokens ++ more.tokens, more.next⟩
      else ⟨tokens, none⟩

def cutEnd (position : Nat) : CutState → List Located
  | .between => [⟨.stop, position⟩]
  | .word start _ _ => [⟨.stray, start⟩]
  | .text s => [⟨.broken s.cutOff, s.start⟩]
  | .number s =>
    let (tokens, goesOn) := s.finish position
    if goesOn then tokens ++ [⟨.stop, position⟩] else tokens

def tokensFrom (position : Nat) (state : CutState) : List Char → List Located
  | [] => cutEnd position state
  | c :: rest =>
    let step := cut position c state
    match step.next with
    | none => step.tokens
    | some state => step.tokens ++ tokensFrom (position + 1) state rest

/-- The tokens of a text; the last one is `stop`, `stray` or `broken`. -/
def tokens (text : List Char) : List Located := tokensFrom 0 .between text

end TilePuzzle.Json
