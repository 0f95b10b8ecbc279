import TilePuzzle.Text.Blank

/-! Numerals: whole numbers written with digits of a base, single underscores between them. -/
namespace TilePuzzle.Text

def decDigit? (c : Char) : Option Nat := if c.isDigit then some (c.toNat - 48) else none

def hexDigit? (c : Char) : Option Nat :=
  if c.isDigit then some (c.toNat - 48)
  else if 'a' ≤ c && c ≤ 'f' then some (c.toNat - 87)
  else if 'A' ≤ c && c ≤ 'F' then some (c.toNat - 55)
  else none

/-- The value of digits that go on from `value`; a digit has to come next if `wanted`. -/
def digitsFrom? (base : Nat) (digit? : Char → Option Nat) (value : Nat) (wanted : Bool) :
    List Char → Option Nat
  | [] => if wanted then none else some value
  | c :: rest =>
    if c = '_' then (if wanted then none else digitsFrom? base digit? value true rest)
    else (digit? c).bind fun d => digitsFrom? base digit? (value * base + d) false rest

def decimal? (s : List Char) : Option Nat := digitsFrom? 10 decDigit? 0 true s

def hex? (s : List Char) : Option Nat := digitsFrom? 16 hexDigit? 0 true s

/-- Whole numbers of more decimal digits are neither read nor written. -/
def longestWhole : Nat := 4300

def signed? (natural? : List Char → Option Nat) : List Char → Option Int
  | '-' :: s => (natural? s).map fun n => -(n : Int)
  | '+' :: s => (natural? s).map Int.ofNat
  | s => (natural? s).map Int.ofNat

/-- The character of plain text that a character of a numeral stands for: a blank is a space and a
digit of any script its value. -/
def plainChar? (c : Char) : Option Char :=
  if c.toNat < 0x80 then some c
  else if isBlank c then some ' '
  else (decimalDigit? c).map fun d => Char.ofNat (48 + d)

def isPlainBlank (c : Char) : Bool := (9 ≤ c.toNat && c.toNat ≤ 13) || c == ' '

def plain? (s : List Char) : Option (List Char) := (s.mapM plainChar?).map (trimList isPlainBlank)

end TilePuzzle.Text
