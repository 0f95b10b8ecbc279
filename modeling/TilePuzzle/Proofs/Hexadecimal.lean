import TilePuzzle.Proofs.Pace

/-! Colours in hexadecimal. What is documented, `#` and three or six digits, is read as meant; but what comes
after the `#` is read as any numeral, which has blanks, a sign, a mark and underscores as well and digits
without end. -/
namespace TilePuzzle

namespace Text

section hexDigit
variable {c : Char} {d : Nat}

theorem hexDigit?_range (digit : hexDigit? c = some d) : d < 16 ∧
    (48 ≤ c.toNat ∧ c.toNat ≤ 57 ∨ 65 ≤ c.toNat ∧ c.toNat ≤ 70 ∨ 97 ≤ c.toNat ∧ c.toNat ≤ 102) := by
  have decimal : c.isDigit = true ↔ 48 ≤ c.toNat ∧ c.toNat ≤ 57 := by
    simp [Char.isDigit, UInt32.le_iff_toNat_le]
  have lower : ('a' ≤ c && c ≤ 'f') = true ↔ 97 ≤ c.toNat ∧ c.toNat ≤ 102 := by
    simp [Char.le_def, UInt32.le_iff_toNat_le]
  have upper : ('A' ≤ c && c ≤ 'F') = true ↔ 65 ≤ c.toNat ∧ c.toNat ≤ 70 := by
    simp [Char.le_def, UInt32.le_iff_toNat_le]
  simp only [hexDigit?, decimal, lower, upper] at digit
  split at digit
  · cases digit
    omega
  · split at digit
    · cases digit
      omega
    · split at digit
      · cases digit
        omega
      · contradiction

theorem ne_of_hexDigit? {other : Char} (foreign : hexDigit? other = none) (digit : hexDigit? c = some d) :
    c ≠ other := by
  rintro rfl
  rw [foreign] at digit
  contradiction

theorem isPlainBlank_of_hexDigit? (digit : hexDigit? c = some d) : isPlainBlank c = false := by
  have range := (hexDigit?_range digit).2
  have space : c ≠ ' ' := ne_of_hexDigit? rfl digit
  simp only [isPlainBlank, Bool.or_eq_false_iff, Bool.and_eq_false_iff, decide_eq_false_iff_not,
    beq_eq_false_iff_ne]
  exact ⟨by omega, space⟩

theorem plainChar?_of_hexDigit? (digit : hexDigit? c = some d) : plainChar? c = some c := by
  have range := (hexDigit?_range digit).2
  exact if_pos (by omega)

end hexDigit

section trimList
variable {p : Char → Bool}

theorem trimList_split (p : Char → Bool) (s : List Char) :
    ∃ before after, s = before ++ trimList p s ++ after ∧ ∀ c ∈ before ++ after, p c := by
  refine ⟨s.takeWhile p, ((s.dropWhile p).reverse.takeWhile p).reverse, ?_, fun c member => ?_⟩
  · rw [trimList, List.append_assoc, ← List.reverse_append, List.takeWhile_append_dropWhile,
      List.reverse_reverse, List.takeWhile_append_dropWhile]
  · rcases List.mem_append.mp member with first | last
    · exact List.mem_takeWhile_imp first
    · exact List.mem_takeWhile_imp (List.mem_reverse.mp last)

theorem dropWhile_kept {core : List Char} (filled : core ≠ []) (kept : ∀ c ∈ core, p c = false)
    (rest : List Char) : (core ++ rest).dropWhile p = core ++ rest := by
  cases core with
  | nil => contradiction
  | cons c core => simp [kept c (List.mem_cons_self ..)]

theorem trimList_between {before core after : List Char} (blank : ∀ c ∈ before ++ after, p c)
    (filled : core ≠ []) (kept : ∀ c ∈ core, p c = false) : trimList p (before ++ core ++ after) = core := by
  have first : ∀ c ∈ before, p c := fun c member => blank c (List.mem_append_left _ member)
  have last : ∀ c ∈ after.reverse, p c := fun c member =>
    blank c (List.mem_append_right _ (List.mem_reverse.mp member))
  rw [trimList, List.append_assoc, List.dropWhile_append_of_pos first, dropWhile_kept filled kept,
    List.reverse_append, List.dropWhile_append_of_pos last]
  have kept' : ∀ c ∈ core.reverse, p c = false := fun c member => kept c (List.mem_reverse.mp member)
  have backwards := dropWhile_kept (List.reverse_ne_nil_iff.mpr filled) kept' []
  rw [List.append_nil] at backwards
  rw [backwards, List.reverse_reverse]

end trimList

/-- Hexadecimal digits with single underscores between them, and the number that they write. -/
inductive HexDigits : List Char → Nat → Prop
  | one {c : Char} {d : Nat} (digit : hexDigit? c = some d) : HexDigits [c] d
  | next {s : List Char} {n d : Nat} {c : Char} (before : HexDigits s n) (digit : hexDigit? c = some d) :
      HexDigits (s ++ [c]) (n * 16 + d)
  | apart {s : List Char} {n d : Nat} {c : Char} (before : HexDigits s n) (digit : hexDigit? c = some d) :
      HexDigits (s ++ ['_', c]) (n * 16 + d)

theorem digitsFrom?_digit {value d : Nat} {wanted : Bool} {c : Char} {rest : List Char}
    (digit : hexDigit? c = some d) : digitsFrom? 16 hexDigit? value wanted (c :: rest) =
      digitsFrom? 16 hexDigit? (value * 16 + d) false rest := by
  rw [digitsFrom?, if_neg (ne_of_hexDigit? rfl digit), digit, Option.bind_some]

namespace HexDigits
variable {s : List Char} {n : Nat}

/-- What the reader has read of digits is the number that they write. -/
theorem read (digits : HexDigits s n) (rest : List Char) :
    digitsFrom? 16 hexDigit? 0 true (s ++ rest) = digitsFrom? 16 hexDigit? n false rest := by
  induction digits generalizing rest with
  | one digit => rw [List.singleton_append, digitsFrom?_digit digit, Nat.zero_mul, Nat.zero_add]
  | next before digit ih => rw [List.append_assoc, ih, List.singleton_append, digitsFrom?_digit digit]
  | apart before digit ih =>
    rw [List.append_assoc, ih, List.cons_append, digitsFrom?, if_pos rfl, if_neg (by decide),
      List.singleton_append, digitsFrom?_digit digit]

/-- What the reader goes on to accept, also after an underscore, makes longer digits. -/
theorem extend {m : Nat} (digits : HexDigits s n) (rest : List Char) :
    (digitsFrom? 16 hexDigit? n false rest = some m → HexDigits (s ++ rest) m) ∧
    (digitsFrom? 16 hexDigit? n true rest = some m → HexDigits (s ++ '_' :: rest) m) := by
  -- both at once: an underscore leads from the first to the second, a digit from either to the first
  induction rest generalizing s n with
  | nil =>
    refine ⟨fun done => ?_, nofun⟩
    cases done
    rwa [List.append_nil]
  | cons c rest ih =>
    constructor
    · intro accepted
      by_cases underscore : c = '_'
      · rw [underscore] at accepted ⊢
        exact (ih digits).2 accepted
      · rw [digitsFrom?, if_neg underscore] at accepted
        obtain ⟨d, digit, accepted⟩ := Option.bind_eq_some_iff.mp accepted
        simpa using (ih (digits.next digit)).1 accepted
    · intro accepted
      by_cases underscore : c = '_'
      · rw [digitsFrom?, if_pos underscore] at accepted
        contradiction
      · rw [digitsFrom?, if_neg underscore] at accepted
        obtain ⟨d, digit, accepted⟩ := Option.bind_eq_some_iff.mp accepted
        simpa using (ih (digits.apart digit)).1 accepted

theorem head (digits : HexDigits s n) : ∃ c rest d, s = c :: rest ∧ hexDigit? c = some d := by
  induction digits with
  | one digit => exact ⟨_, _, _, rfl, digit⟩
  | next _ _ ih | apart _ _ ih =>
    obtain ⟨c, rest, d, rfl, digit⟩ := ih
    exact ⟨c, _, d, rfl, digit⟩

theorem mem {c : Char} (digits : HexDigits s n) (member : c ∈ s) :
    c = '_' ∨ ∃ d, hexDigit? c = some d := by
  induction digits with
  | one digit =>
    cases List.mem_singleton.mp member
    exact .inr ⟨_, digit⟩
  | next before digit ih =>
    rcases List.mem_append.mp member with earlier | last
    · exact ih earlier
    · cases List.mem_singleton.mp last
      exact .inr ⟨_, digit⟩
  | apart before digit ih =>
    rcases List.mem_append.mp member with earlier | last
    · exact ih earlier
    · rcases List.mem_cons.mp last with rfl | last
      · exact .inl rfl
      · cases List.mem_singleton.mp last
        exact .inr ⟨_, digit⟩

end HexDigits

abbrev HexValues : List Char → List Nat → Prop := List.Forall₂ fun c d => hexDigit? c = some d

namespace HexValues
variable {s : List Char} {values : List Nat}

theorem plain (digits : HexValues s values) : s.mapM plainChar? = some s := by
  induction digits with
  | nil => rfl
  | cons digit _ ih => simp [List.mapM_cons, plainChar?_of_hexDigit? digit, ih]

theorem goesOn (digits : HexValues s values) (value : Nat) :
    digitsFrom? 16 hexDigit? value false s = some (values.foldl (fun n d => n * 16 + d) value) := by
  induction digits generalizing value with
  | nil => rfl
  | cons digit _ ih => rw [digitsFrom?_digit digit, ih, List.foldl_cons]

/-- Digits without underscores write the number that Horner's rule makes of their values. -/
theorem hex? (digits : HexValues s values) (filled : values ≠ []) :
    Text.hex? s = some (values.foldl (fun n d => n * 16 + d) 0) := by
  cases digits with
  | nil => contradiction
  | cons digit rest => rw [Text.hex?, digitsFrom?_digit digit, goesOn rest, List.foldl_cons]

theorem lt (digits : HexValues s values) : ∀ d ∈ values, d < 16 := by
  induction digits with
  | nil => exact nofun
  | cons digit _ ih => exact List.forall_mem_cons.mpr ⟨(hexDigit?_range digit).1, ih⟩

theorem twice (digits : HexValues s values) :
    HexValues (s.flatMap fun c => [c, c]) (values.flatMap fun d => [d, d]) := by
  induction digits with
  | nil => exact .nil
  | cons digit _ ih => exact .cons digit (.cons digit ih)

end HexValues

theorem hex?_eq_some_iff {s : List Char} {n : Nat} : hex? s = some n ↔ HexDigits s n := by
  constructor
  · intro read
    cases s with
    | nil => contradiction
    | cons c rest =>
      by_cases underscore : c = '_'
      · rw [hex?, digitsFrom?, if_pos underscore] at read
        contradiction
      · rw [hex?, digitsFrom?, if_neg underscore] at read
        obtain ⟨d, digit, read⟩ := Option.bind_eq_some_iff.mp read
        rw [Nat.zero_mul, Nat.zero_add] at read
        exact ((HexDigits.one digit).extend rest).1 read
  · intro digits
    have read := digits.read []
    rw [List.append_nil] at read
    exact read

end Text

namespace Color
open Text

def marks : List (List Char) := [[], ['0', 'x'], ['0', 'X'], ['0', 'x', '_'], ['0', 'X', '_']]

/-- A hexadecimal number in plain text: a sign, a mark and digits, of which only the digits are required. -/
inductive HexNumeral : List Char → Int → Prop
  | unsigned {mark digits : List Char} {n : Nat} (marked : mark ∈ marks) (written : HexDigits digits n) :
      HexNumeral (mark ++ digits) n
  | positive {mark digits : List Char} {n : Nat} (marked : mark ∈ marks) (written : HexDigits digits n) :
      HexNumeral ('+' :: (mark ++ digits)) n
  | negative {mark digits : List Char} {n : Nat} (marked : mark ∈ marks) (written : HexDigits digits n) :
      HexNumeral ('-' :: (mark ++ digits)) (-n)

section marks
variable {mark digits : List Char} {n : Nat}

theorem dropMark_split (s : List Char) : ∃ mark ∈ marks, s = mark ++ dropMark s := by
  unfold dropMark
  split
  next rest => exact ⟨['0', 'x', '_'], by decide, rfl⟩
  next rest => exact ⟨['0', 'X', '_'], by decide, rfl⟩
  next rest _ => exact ⟨['0', 'x'], by decide, rfl⟩
  next rest _ => exact ⟨['0', 'X'], by decide, rfl⟩
  next => exact ⟨[], by decide, rfl⟩

theorem dropMark_digits (written : HexDigits digits n) : dropMark digits = digits := by
  have absent (c : Char) (other : c ≠ '_') (foreign : hexDigit? c = none) : c ∉ digits := fun member => by
    rcases written.mem member with same | ⟨d, digit⟩
    · exact other same
    · exact ne_of_hexDigit? foreign digit rfl
  have lower := absent 'x' (by decide) rfl
  have upper := absent 'X' (by decide) rfl
  unfold dropMark
  split <;> simp_all

theorem dropMark_marked (marked : mark ∈ marks) (written : HexDigits digits n) :
    dropMark (mark ++ digits) = digits := by
  obtain ⟨c, rest, d, rfl, digit⟩ := written.head
  have plain : c ≠ '_' := ne_of_hexDigit? rfl digit
  simp only [marks, List.mem_cons, List.not_mem_nil, or_false] at marked
  rcases marked with rfl | rfl | rfl | rfl | rfl
  · exact dropMark_digits written
  · simp [dropMark, plain]
  · simp [dropMark, plain]
  · rfl
  · rfl

theorem marked_head (marked : mark ∈ marks) (written : HexDigits digits n) :
    ∃ c rest d, mark ++ digits = c :: rest ∧ hexDigit? c = some d := by
  simp only [marks, List.mem_cons, List.not_mem_nil, or_false] at marked
  rcases marked with rfl | rfl | rfl | rfl | rfl
  · exact written.head
  all_goals exact ⟨'0', _, 0, rfl, rfl⟩

theorem marked_kept (marked : mark ∈ marks) (written : HexDigits digits n) :
    ∀ c ∈ mark ++ digits, isPlainBlank c = false := by
  intro c member
  rcases List.mem_append.mp member with first | last
  · have kept : ∀ mark ∈ marks, ∀ c ∈ mark, isPlainBlank c = false := by
      simp [marks, isPlainBlank]
    exact kept mark marked c first
  · rcases written.mem last with rfl | ⟨d, digit⟩
    · rfl
    · exact isPlainBlank_of_hexDigit? digit

end marks

namespace HexNumeral
variable {s : List Char} {n : Int}

theorem ne_nil (numeral : HexNumeral s n) : s ≠ [] := by
  cases numeral with
  | unsigned marked written =>
    obtain ⟨c, rest, d, same, _⟩ := marked_head marked written
    rw [same]
    exact List.cons_ne_nil c rest
  | positive | negative => exact List.cons_ne_nil _ _

theorem kept (numeral : HexNumeral s n) : ∀ c ∈ s, isPlainBlank c = false := by
  cases numeral with
  | unsigned marked written => exact marked_kept marked written
  | positive marked written => exact List.forall_mem_cons.mpr ⟨rfl, marked_kept marked written⟩
  | negative marked written => exact List.forall_mem_cons.mpr ⟨rfl, marked_kept marked written⟩

theorem of_hex? {digits : List Char} {n : Nat} (read : hex? (dropMark digits) = some n) :
    ∃ mark ∈ marks, ∃ rest, digits = mark ++ rest ∧ HexDigits rest n := by
  obtain ⟨mark, marked, split⟩ := dropMark_split digits
  exact ⟨mark, marked, dropMark digits, split, hex?_eq_some_iff.mp read⟩

theorem signed?_iff : signed? (fun digits => hex? (dropMark digits)) s = some n ↔ HexNumeral s n := by
  constructor
  · intro read
    unfold signed? at read
    split at read
    · obtain ⟨_, cast, rfl⟩ := Option.map_eq_some_iff.mp read
      obtain ⟨value, found, ⟨⟩⟩ := Option.bind_eq_some_iff.mp cast
      obtain ⟨mark, marked, rest, rfl, written⟩ := of_hex? found
      exact .negative marked written
    · obtain ⟨value, found, rfl⟩ := Option.map_eq_some_iff.mp read
      obtain ⟨mark, marked, rest, rfl, written⟩ := of_hex? found
      exact .positive marked written
    · obtain ⟨value, found, rfl⟩ := Option.map_eq_some_iff.mp read
      obtain ⟨mark, marked, rest, rfl, written⟩ := of_hex? found
      exact .unsigned marked written
  · intro numeral
    cases numeral with
    | unsigned marked written =>
      have read := hex?_eq_some_iff.mpr written
      rw [← dropMark_marked marked written] at read
      obtain ⟨c, rest, d, same, digit⟩ := marked_head marked written
      rw [same] at read ⊢
      have notMinus : c ≠ '-' := ne_of_hexDigit? rfl digit
      have notPlus : c ≠ '+' := ne_of_hexDigit? rfl digit
      simp [signed?, notMinus, notPlus, read]
    | positive marked written | negative marked written =>
      simp [signed?, dropMark_marked marked written, hex?_eq_some_iff.mpr written]

end HexNumeral

/-- The numbers that a text is read as: a hexadecimal number, once digits of other scripts and blanks are
those of plain text, with blanks around it. -/
def Reads (s : List Char) (n : Int) : Prop :=
  ∃ before numeral after, s.mapM plainChar? = some (before ++ numeral ++ after) ∧
    (∀ c ∈ before ++ after, isPlainBlank c) ∧ HexNumeral numeral n

theorem hexNumber?_eq_some_iff {s : List Char} {n : Int} : hexNumber? s = some n ↔ Reads s n := by
  constructor
  · intro read
    obtain ⟨core, trimmed, found⟩ := Option.bind_eq_some_iff.mp read
    obtain ⟨text, plain, rfl⟩ := Option.map_eq_some_iff.mp trimmed
    obtain ⟨before, after, split, blank⟩ := trimList_split isPlainBlank text
    exact ⟨before, _, after, by rw [plain, ← split], blank, HexNumeral.signed?_iff.mp found⟩
  · rintro ⟨before, numeral, after, plain, blank, written⟩
    rw [hexNumber?, plain?, plain, Option.map_some, trimList_between blank written.ne_nil written.kept,
      Option.bind_some]
    exact HexNumeral.signed?_iff.mpr written

/-- A colour as it is documented: `#` and two hexadecimal digits for each component, or one that is meant
twice. -/
inductive Documented : String → Rgb → Prop
  | six {color : String} {digits : List Char} {a b c d e f : Nat} (text : color.toList = '#' :: digits)
      (values : HexValues digits [a, b, c, d, e, f]) :
      Documented color ⟨16 * a + b, 16 * c + d, 16 * e + f⟩
  | three {color : String} {digits : List Char} {a b c : Nat} (text : color.toList = '#' :: digits)
      (values : HexValues digits [a, b, c]) : Documented color ⟨17 * a, 17 * b, 17 * c⟩

theorem rgb?_eq {color : String} {digits : List Char} (text : color.toList = '#' :: digits) :
    rgb? color = (hexNumber? (widen digits)).map Rgb.ofInt := by
  rw [rgb?, text]
  rfl

theorem hexNumber?_values {digits : List Char} {values : List Nat} (written : HexValues digits values)
    (filled : values ≠ []) :
    hexNumber? digits = some ((values.foldl (fun n d => n * 16 + d) 0 : Nat) : Int) := by
  have unmarked : [] ∈ marks := List.mem_cons_self ..
  have read := HexNumeral.unsigned unmarked (hex?_eq_some_iff.mp (written.hex? filled))
  refine hexNumber?_eq_some_iff.mpr ⟨[], digits, [], ?_, nofun, read⟩
  rw [List.nil_append, List.append_nil]
  exact written.plain

theorem widen_of_length {digits : List Char} (other : digits.length ≠ 3) : widen digits = digits :=
  if_neg other

theorem widen_twice {digits : List Char} (three : digits.length = 3) :
    widen digits = widen (digits.flatMap fun c => [c, c]) := by
  rw [widen, if_pos three, widen_of_length]
  simp [three]

theorem hexNumber?_six {digits : List Char} {a b c d e f : Nat}
    (values : HexValues digits [a, b, c, d, e, f]) :
    (hexNumber? digits).map Rgb.ofInt = some ⟨16 * a + b, 16 * c + d, 16 * e + f⟩ := by
  have bounds := values.lt
  simp only [List.forall_mem_cons] at bounds
  rw [hexNumber?_values values (List.cons_ne_nil _ _), Option.map_some, Option.some.injEq, Rgb.ofInt,
    Int.fdiv_eq_ediv_of_nonneg _ (by decide), Int.fdiv_eq_ediv_of_nonneg _ (by decide), Rgb.mk.injEq]
  simp only [List.foldl_cons, List.foldl_nil]
  push_cast
  omega

theorem rgb?_documented {color : String} {rgb : Rgb} (documented : Documented color rgb) :
    rgb? color = some rgb := by
  cases documented with
  | six text values =>
    rw [rgb?_eq text, widen_of_length (by simp [values.length_eq]), hexNumber?_six values]
  | three text values =>
    have three : List.length _ = 3 := values.length_eq
    rw [rgb?_eq text, widen, if_pos three, hexNumber?_six values.twice, Option.some.injEq, Rgb.mk.injEq]
    omega

/-- Colours that are not hexadecimal leave the first as it is, and no others do. -/
theorem blend_eq_first_iff {first last : String} {t : Number} :
    blend first last t = .ok first ↔ rgb? first = none ∨ rgb? last = none := by
  unfold blend
  cases start : rgb? first with
  | none => simp
  | some a =>
    cases finish : rgb? last with
    | none => simp
    | some b =>
      refine iff_of_false (fun same => ?_) (by simp)
      obtain ⟨red, _, same⟩ := bind_ok_iff.mp same
      obtain ⟨green, _, same⟩ := bind_ok_iff.mp same
      obtain ⟨blue, _, same⟩ := bind_ok_iff.mp same
      cases same
      -- what is blended has no `#`, so it is not the first colour
      have foreign : rgb? ("rgb(" ++ toString red ++ "," ++ toString green ++ "," ++ toString blue ++ ")") =
          none := by simp [rgb?]
      rw [start] at foreign
      contradiction

theorem rgb?_eq_some_iff {color : String} {rgb : Rgb} : rgb? color = some rgb ↔
    ∃ digits n, color.toList = '#' :: digits ∧ Reads (widen digits) n ∧ rgb = .ofInt n := by
  constructor
  · intro accepted
    unfold rgb? at accepted
    split at accepted
    next digits text =>
      obtain ⟨n, read, same⟩ := Option.map_eq_some_iff.mp accepted
      exact ⟨digits, n, text, hexNumber?_eq_some_iff.mp read, same.symm⟩
    next => contradiction
  · rintro ⟨digits, n, text, read, rfl⟩
    rw [rgb?_eq text, hexNumber?_eq_some_iff.mpr read, Option.map_some]

/-- Only documented colours are accepted, unless what follows the `#` is a number in another way. -/
theorem rgb?_strict_iff {color : String} : (∀ rgb, rgb? color = some rgb ↔ Documented color rgb) ↔
    (∃ rgb, Documented color rgb) ∨ ¬∃ digits n, color.toList = '#' :: digits ∧ Reads (widen digits) n := by
  constructor
  · intro strict
    refine or_iff_not_imp_right.mpr fun reads => ?_
    obtain ⟨digits, n, text, read⟩ := not_not.mp reads
    exact ⟨.ofInt n, (strict _).mp (rgb?_eq_some_iff.mpr ⟨digits, n, text, read, rfl⟩)⟩
  · rintro (⟨meant, documented⟩ | unread) rgb
    · refine ⟨fun accepted => ?_, rgb?_documented⟩
      rw [rgb?_documented documented] at accepted
      cases accepted
      exact documented
    · have refused : rgb? color ≠ some rgb := fun accepted => by
        obtain ⟨digits, n, text, read, _⟩ := rgb?_eq_some_iff.mp accepted
        exact unread ⟨digits, n, text, read⟩
      exact iff_of_false refused fun documented => refused (rgb?_documented documented)

/-- What a colour is read as. A documented one is read as documented, three digits as six. Besides, all that
makes a number is accepted after the `#`: blanks around it, a sign, a mark, underscores, digits of other scripts,
and any count of digits, of which the last 24 bits are taken. So a colour is read strictly just if it is
documented or has no such number. Components are bytes in every case, and two colours are blended just if both
are accepted. -/
structure ReadAs (color : String) : Prop where
  strict : (∀ rgb, rgb? color = some rgb ↔ Documented color rgb) ↔ (∃ rgb, Documented color rgb) ∨
    ¬∃ digits n, color.toList = '#' :: digits ∧ Reads (widen digits) n
  documented : ∀ rgb, Documented color rgb → rgb? color = some rgb
  accepted : ∀ rgb, rgb? color = some rgb ↔
    ∃ digits n, color.toList = '#' :: digits ∧ Reads (widen digits) n ∧ rgb = .ofInt n
  byte : ∀ rgb, rgb? color = some rgb →
    ∀ component ∈ [Rgb.red, Rgb.green, Rgb.blue], 0 ≤ component rgb ∧ component rgb < 256
  three : ∀ digits, color.toList = '#' :: digits → digits.length = 3 →
    rgb? color = rgb? (String.ofList ('#' :: digits.flatMap fun c => [c, c]))
  blended : ∀ last t, blend color last t = .ok color ↔ rgb? color = none ∨ rgb? last = none

theorem rgb_reads (color : String) : ReadAs color where
  strict := rgb?_strict_iff
  documented _ := rgb?_documented
  accepted _ := rgb?_eq_some_iff
  byte _ := rgb?_byte
  three digits text three := by
    rw [rgb?_eq text, rgb?_eq String.toList_ofList, widen_twice three]
  blended _ _ := blend_eq_first_iff

example : rgb? "#12" = some ⟨0, 0, 18⟩ ∧ rgb? "# -0X_0001_00" = some ⟨255, 255, 0⟩ := by decide +kernel

end Color
end TilePuzzle
