/-! The letters of a text: characters, and halves of surrogate pairs that stand alone.

A document may spell half of a pair, and no character is one. A text keeps such a half as two
characters, a mark and a private character that tells which half it is, and the mark itself
doubled. So texts are equal just when their letters are. -/
namespace TilePuzzle.Text

/-- Stands before the private character of a half, and twice for itself. -/
def halfMark : Char := Char.ofNat 0x10ffff

inductive Letter
  | char (c : Char)
  | half (offset : Fin 0x800)
  deriving DecidableEq

def halfOfUnit? (unit : Nat) : Option (Fin 0x800) :=
  if h : 0xd800 ≤ unit ∧ unit < 0xe000 then some ⟨unit - 0xd800, by omega⟩ else none

namespace Letter

def code : Letter → Nat
  | char c => c.toNat
  | half offset => 0xd800 + offset

def isHalf : Letter → Bool
  | char _ => false
  | half _ => true

/-- The private character that tells a half. -/
def sign (offset : Fin 0x800) : Char := Char.ofNat (0x100000 + offset)

def ofSign? (c : Char) : Option (Fin 0x800) :=
  if h : 0x100000 ≤ c.toNat ∧ c.toNat < 0x100800 then some ⟨c.toNat - 0x100000, by omega⟩ else none

def chars : Letter → List Char
  | char c => if c = halfMark then [halfMark, halfMark] else [c]
  | half offset => [halfMark, sign offset]

theorem toNat_sign (offset : Fin 0x800) : (sign offset).toNat = 0x100000 + offset := by
  have valid : (0x100000 + offset.val).isValidChar := .inr ⟨by omega, by omega⟩
  unfold sign
  rw [Char.ofNat, dif_pos valid]
  rfl

@[simp] theorem ofSign?_sign (offset : Fin 0x800) : ofSign? (sign offset) = some offset := by
  have small := offset.isLt
  simp only [ofSign?, toNat_sign]
  rw [dif_pos ⟨by omega, by omega⟩]
  simp

end Letter

def ofLetters (letters : List Letter) : String := String.ofList (letters.flatMap Letter.chars)

/-- Reads letters; `marked` says that a mark stands before the rest. -/
def lettersFrom (marked : Bool) : List Char → List Letter
  | [] => if marked then [.char halfMark] else []
  | c :: rest =>
    if marked then
      match Letter.ofSign? c with
      | some offset => .half offset :: lettersFrom false rest
      | none =>
        if c = halfMark then .char halfMark :: lettersFrom false rest
        else .char halfMark :: .char c :: lettersFrom false rest
    else if c = halfMark then lettersFrom true rest
    else .char c :: lettersFrom false rest

def letters (s : String) : List Letter := lettersFrom false s.toList

def ofPlain (chars : List Char) : String := ofLetters (chars.map .char)

def toPlain (s : String) : List Char :=
  (letters s).map fun
    | .char c => c
    | .half _ => '\ufffd'

/-- The characters of a text, unless half of a pair stands alone in it. -/
def chars? (s : String) : Option (List Char) :=
  if (letters s).any Letter.isHalf then none else some (toPlain s)

def split (s : String) : List String := (letters s).map fun letter => ofLetters [letter]

@[simp] theorem lettersFrom_chars (letter : Letter) (rest : List Char) :
    lettersFrom false (letter.chars ++ rest) = letter :: lettersFrom false rest := by
  cases letter with
  | half offset => simp [Letter.chars, lettersFrom]
  | char c =>
    have unsigned : Letter.ofSign? halfMark = none := by decide
    by_cases marks : c = halfMark
    · simp [Letter.chars, lettersFrom, marks, unsigned]
    · simp [Letter.chars, lettersFrom, marks]

@[simp] theorem letters_ofLetters (letters : List Letter) :
    Text.letters (ofLetters letters) = letters := by
  have read : lettersFrom false (letters.flatMap Letter.chars) = letters := by
    induction letters with
    | nil => rfl
    | cons letter rest ih => rw [List.flatMap_cons, lettersFrom_chars, ih]
  simpa [Text.letters, ofLetters] using read

/-- Texts made of different letters differ. -/
theorem ofLetters_injective {first second : List Letter} (same : ofLetters first = ofLetters second) :
    first = second := by
  rw [← letters_ofLetters first, same, letters_ofLetters]

end TilePuzzle.Text
