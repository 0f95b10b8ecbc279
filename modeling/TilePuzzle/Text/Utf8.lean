import TilePuzzle.Text.Quoted

/-! Decoding of UTF-8, one byte at a time, and encoding of paths. A sequence that breaks off is
reported with the bytes that belonged to it. -/
namespace TilePuzzle.Text.Utf8

inductive Defect
  | start
  | continuation
  | truncated
  deriving DecidableEq

/-- A defect of the bytes from `first` up to before `stop`; `byte` is the first of them. -/
structure Failure where
  defect : Defect
  byte : Nat
  first : Nat
  stop : Nat
  deriving DecidableEq

def Defect.reason : Defect → String
  | start => "invalid start byte"
  | continuation => "invalid continuation byte"
  | truncated => "unexpected end of data"

def Failure.message (f : Failure) : String :=
  let place :=
    if f.stop = f.first + 1 then
      "byte 0x" ++ String.ofList (hexDigits 2 f.byte) ++ " in position " ++ toString f.first
    else "bytes in position " ++ toString f.first ++ "-" ++ toString (f.stop - 1)
  "'utf-8' codec can't decode " ++ place ++ ": " ++ f.defect.reason

/-- A sequence part-way through: its first byte and place, how many bytes came, the bits so far,
how many bytes are to come, and the bounds of the next one. -/
structure Pending where
  byte : Nat
  first : Nat
  seen : Nat
  code : Nat
  missing : Nat
  low : Nat
  high : Nat

def Pending.failure (p : Pending) (defect : Defect) : Failure :=
  ⟨defect, p.byte, p.first, p.first + p.seen⟩

inductive Start
  | done (c : Char)
  | opened (p : Pending)
  | invalid

/-- What a first byte opens; the bounds keep out long forms, surrogates and what lies beyond. -/
def start (position b : Nat) : Start :=
  if b < 0x80 then .done (Char.ofNat b)
  else if b < 0xc2 then .invalid
  else if b < 0xe0 then .opened ⟨b, position, 1, b - 0xc0, 1, 0x80, 0xbf⟩
  else if b < 0xf0 then
    .opened ⟨b, position, 1, b - 0xe0, 2, if b = 0xe0 then 0xa0 else 0x80,
      if b = 0xed then 0x9f else 0xbf⟩
  else if b < 0xf5 then
    .opened ⟨b, position, 1, b - 0xf0, 3, if b = 0xf0 then 0x90 else 0x80,
      if b = 0xf4 then 0x8f else 0xbf⟩
  else .invalid

def Pending.next? (p : Pending) (b : Nat) : Option (Char ⊕ Pending) :=
  if p.low ≤ b && b ≤ p.high then
    let code := p.code * 64 + (b - 0x80)
    if p.missing = 1 then some (.inl (Char.ofNat code))
    else some (.inr ⟨p.byte, p.first, p.seen + 1, code, p.missing - 1, 0x80, 0xbf⟩)
  else none

/-- Decodes what follows an open sequence; `done` holds the characters so far, last first. -/
def decodeFrom (position : Nat) (pending : Option Pending) (done : List Char) :
    List UInt8 → Except Failure (List Char)
  | [] =>
    match pending with
    | some p => .error (p.failure .truncated)
    | none => .ok done.reverse
  | byte :: rest =>
    match pending with
    | some p =>
      match p.next? byte.toNat with
      | none => .error (p.failure .continuation)
      | some (.inl c) => decodeFrom (position + 1) none (c :: done) rest
      | some (.inr p) => decodeFrom (position + 1) (some p) done rest
    | none =>
      match start position byte.toNat with
      | .invalid => .error ⟨.start, byte.toNat, position, position + 1⟩
      | .done c => decodeFrom (position + 1) none (c :: done) rest
      | .opened p => decodeFrom (position + 1) (some p) done rest

def decode (bytes : List UInt8) : Except Failure (List Char) := decodeFrom 0 none [] bytes

/-- Halves of pairs from place `first` up to before `stop` that no bytes stand for; `code` is the
first of them. -/
structure Unencodable where
  code : Nat
  first : Nat
  stop : Nat
  deriving DecidableEq

def Unencodable.message (u : Unencodable) : String :=
  let place :=
    if u.stop = u.first + 1 then
      "character '" ++ String.ofList (escapeCode u.code) ++ "' in position " ++ toString u.first
    else "characters in position " ++ toString u.first ++ "-" ++ toString (u.stop - 1)
  "'utf-8' codec can't encode " ++ place ++ ": surrogates not allowed"

/-- The bytes of a letter. The halves from `0xdc80` to `0xdcff` each stand for a single byte that
is part of no character; the others stand for none. -/
def bytes? : Letter → Option (List UInt8)
  | .char c => some (String.utf8EncodeChar c)
  | .half offset =>
    if 0x480 ≤ offset.val ∧ offset.val < 0x500 then some [UInt8.ofNat (offset - 0x400)] else none

/-- Encodes letters from a place on. A failure takes in all halves that follow. -/
def encodeFrom (position : Nat) : List Letter → Except Unencodable (List UInt8)
  | [] => .ok []
  | letter :: rest =>
    match bytes? letter with
    | some bytes => (encodeFrom (position + 1) rest).map (bytes ++ ·)
    | none =>
      .error ⟨letter.code, position, position + 1 + (rest.takeWhile Letter.isHalf).length⟩

def encode (s : String) : Except Unencodable (List UInt8) := encodeFrom 0 (letters s)

end Utf8

def unifyNewlines : List Char → List Char
  | [] => []
  | '\r' :: '\n' :: rest => '\n' :: unifyNewlines rest
  | c :: rest => (if c = '\r' then '\n' else c) :: unifyNewlines rest

end TilePuzzle.Text
