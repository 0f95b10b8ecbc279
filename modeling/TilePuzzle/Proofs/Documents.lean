import TilePuzzle.Proofs.Reading

/-! What documents and paths can hold. Every whole number that is read from a document can be written
in decimal again, since longer ones are refused, and a path has bytes unless it holds a half of a pair
that stands for none. -/
namespace TilePuzzle

namespace Value

/-- A value is inside of another: it is that one, or inside of an item or a field of it. -/
inductive Inside (w : Value) : Value → Prop
  | self : Inside w w
  | item {items : List Value} {v : Value} : v ∈ items → Inside w v → Inside w (.arr items)
  | field {fields : Fields} {field : String × Value} :
      field ∈ fields → Inside w field.2 → Inside w (.obj fields)

/-- No whole number inside has more digits than are written. -/
def Bounded (v : Value) : Prop :=
  ∀ n : Int, Inside (.int n) v → (Nat.toDigits 10 n.natAbs).length ≤ Text.longestWhole

@[simp] theorem bounded_null : null.Bounded := fun _ => nofun
@[simp] theorem bounded_bool (b : Bool) : (bool b).Bounded := fun _ => nofun
@[simp] theorem bounded_float (x : Float) : (float x).Bounded := fun _ => nofun
@[simp] theorem bounded_str (s : String) : (str s).Bounded := fun _ => nofun

@[simp] theorem bounded_int {n : Int} :
    (int n).Bounded ↔ (Nat.toDigits 10 n.natAbs).length ≤ Text.longestWhole := by
  constructor
  · exact fun bounded => bounded n .self
  · rintro short _ ⟨⟩
    exact short

@[simp] theorem bounded_arr {items : List Value} : (arr items).Bounded ↔ ∀ v ∈ items, v.Bounded := by
  constructor
  · exact fun bounded v member n inside => bounded n (.item member inside)
  · rintro bounded n (_ | ⟨member, inside⟩)
    exact bounded _ member n inside

@[simp] theorem bounded_obj {fields : Fields} :
    (obj fields).Bounded ↔ ∀ field ∈ fields, field.2.Bounded := by
  constructor
  · exact fun bounded field member n inside => bounded n (.field member inside)
  · rintro bounded n (_ | _ | ⟨member, inside⟩)
    exact bounded _ member n inside

end Value

namespace Json

def Token.Bounded (t : Token) : Prop :=
  (∀ v, t = .scalar v → v.Bounded) ∧ ∀ digits, t = .tooLong digits → Text.longestWhole < digits

def CutState.Bounded (state : CutState) : Prop :=
  ∀ start rest v, state = .word start rest v → v.Bounded

structure Cut.Bounded (cut : Cut) : Prop where
  tokens : ∀ t ∈ cut.tokens, t.token.Bounded
  next : ∀ state, cut.next = some state → state.Bounded

theorem NumberState.token_bounded (s : NumberState) (withPower : Bool) :
    (s.token withPower).Bounded := by
  have digits : (if s.negative then -(s.mantissa : Int) else s.mantissa).natAbs = s.mantissa := by
    split <;> simp
  unfold token
  cases s.fractional || withPower with
  | true => simp [Token.Bounded]
  | false =>
    by_cases long : Text.longestWhole < (Nat.toDigits 10 s.mantissa).length
    · simp [Token.Bounded, long]
    · simp [Token.Bounded, long, digits, Nat.not_lt.mp long]

theorem NumberState.finish_bounded (s : NumberState) (position : Nat) :
    ∀ t ∈ (s.finish position).1, t.token.Bounded := by
  have stray : Token.stray.Bounded := by simp [Token.Bounded]
  unfold finish
  split <;> simp [token_bounded, stray]

theorem openToken_bounded (position : Nat) (c : Char) : (openToken position c).Bounded := by
  unfold openToken
  split
  · constructor <;> simp [CutState.Bounded]
  · split
    case h_14 => split <;> constructor <;> simp [Token.Bounded, CutState.Bounded]
    all_goals constructor <;> simp [Token.Bounded, CutState.Bounded]

theorem TextState.plain_bounded (s : TextState) (position : Nat) (c : Char) :
    (s.plain position c).Bounded := by
  unfold plain broken
  split
  · constructor <;> simp [Token.Bounded, CutState.Bounded]
  · split
    · constructor <;> simp [CutState.Bounded]
    · split <;> constructor <;> simp [Token.Bounded, CutState.Bounded]

theorem TextState.next_bounded (s : TextState) (position : Nat) (c : Char) :
    (s.next position c).Bounded := by
  unfold next broken
  cases s.escape with
  | none => exact s.plain_bounded position c
  | complete => exact s.plain_bounded position c
  | opened backslash =>
    dsimp only
    split
    · constructor <;> simp [CutState.Bounded]
    · split <;> constructor <;> simp [Token.Bounded, CutState.Bounded]
  | digits mark count code =>
    dsimp only
    split
    · constructor <;> simp [Token.Bounded]
    · split <;> constructor <;> simp [CutState.Bounded]

theorem cut_bounded (position : Nat) (c : Char) {state : CutState} (bounded : state.Bounded) :
    (cut position c state).Bounded := by
  cases state with
  | between => exact openToken_bounded position c
  | text s => exact s.next_bounded position c
  | word start rest v =>
    have within := bounded start rest v rfl
    unfold cut
    dsimp only
    split
    · constructor <;> simp [Token.Bounded]
    · split <;> constructor <;> simp [Token.Bounded, CutState.Bounded, within]
    · split <;> constructor <;> simp [Token.Bounded, CutState.Bounded, within]
  | number s =>
    unfold cut
    dsimp only
    split
    · constructor <;> simp [CutState.Bounded]
    · constructor <;> simp [CutState.Bounded]
    · have ended := s.finish_bounded position
      split
      · constructor
        · intro t member
          rcases List.mem_append.mp member with before | after
          · exact ended t before
          · exact (openToken_bounded position _).tokens t after
        · exact (openToken_bounded position _).next
      · exact ⟨ended, nofun⟩

theorem cutEnd_bounded (position : Nat) (state : CutState) :
    ∀ t ∈ cutEnd position state, t.token.Bounded := by
  cases state with
  | between => simp [cutEnd, Token.Bounded]
  | text => simp [cutEnd, Token.Bounded]
  | word => simp [cutEnd, Token.Bounded]
  | number s =>
    have ended := s.finish_bounded position
    unfold cutEnd
    dsimp only
    split
    · intro t member
      rcases List.mem_append.mp member with before | last
      · exact ended t before
      · rw [List.mem_singleton.mp last]
        simp [Token.Bounded]
    · exact ended

theorem tokensFrom_bounded (position : Nat) {state : CutState} (bounded : state.Bounded)
    (text : List Char) : ∀ t ∈ tokensFrom position state text, t.token.Bounded := by
  induction text generalizing position state with
  | nil => exact cutEnd_bounded position state
  | cons c rest ih =>
    have made := cut_bounded position c bounded
    unfold tokensFrom
    dsimp only
    split
    · exact made.tokens
    next goesOn =>
      intro t member
      rcases List.mem_append.mp member with now | later
      · exact made.tokens t now
      · exact ih (position + 1) (made.next _ goesOn) t later

/-- What is read has the property, and a whole number that is refused is beyond the limit. -/
structure Reads (result : Except Failure α) (property : α → Prop) : Prop where
  ok : ∀ a, result = .ok a → property a
  refused : ∀ digits, result = .error (.tooManyDigits digits) → Text.longestWhole < digits

theorem reads_ok {a : α} {property : α → Prop} (holds : property a) :
    Reads (.ok a : Except Failure α) property :=
  ⟨fun _ same => by cases same; exact holds, nofun⟩

theorem reads_complain {problem : Problem} {position : Nat} {property : α → Prop} :
    Reads (complain problem position) property :=
  ⟨nofun, nofun⟩

def Frame.Bounded : Frame → Prop
  | .array items => ∀ v ∈ items, v.Bounded
  | .object fields _ => ∀ field ∈ fields, field.2.Bounded

def ReadState.Bounded : ReadState → Prop
  | .value open_ | .firstItem open_ | .firstName open_ => ∀ frame ∈ open_, frame.Bounded
  | .name open_ fields | .colon open_ fields _ =>
    (∀ frame ∈ open_, frame.Bounded) ∧ ∀ field ∈ fields, field.2.Bounded
  | .after open_ v => (∀ frame ∈ open_, frame.Bounded) ∧ v.Bounded

section
variable {open_ : List Frame} (frames : ∀ frame ∈ open_, frame.Bounded)
include frames

theorem readValue_bounded {t : Located} (bounded : t.token.Bounded) :
    Reads (readValue open_ t) ReadState.Bounded := by
  unfold readValue
  split
  next v scalar => exact reads_ok ⟨frames, bounded.1 v scalar⟩
  · exact reads_ok ⟨frames, Value.bounded_str _⟩
  · exact reads_ok frames
  · exact reads_ok frames
  · exact ⟨nofun, nofun⟩
  next digits long =>
    refine ⟨nofun, ?_⟩
    rintro _ ⟨⟩
    exact bounded.2 digits long
  · exact reads_complain

theorem readName_bounded {fields : Fields} (within : ∀ field ∈ fields, field.2.Bounded)
    (t : Located) : Reads (readName open_ fields t) ReadState.Bounded := by
  unfold readName
  split
  · exact reads_ok ⟨frames, within⟩
  · exact ⟨nofun, nofun⟩
  · exact reads_complain

end

theorem setField_bounded {fields : Fields} (within : ∀ field ∈ fields, field.2.Bounded) (name : String)
    {v : Value} (bounded : v.Bounded) : ∀ field ∈ setField name v fields, field.2.Bounded := by
  induction fields with
  | nil => exact List.forall_mem_singleton.mpr bounded
  | cons first rest ih =>
    obtain ⟨here, below⟩ := List.forall_mem_cons.mp within
    unfold setField
    split
    · exact List.forall_mem_cons.mpr ⟨bounded, below⟩
    · exact List.forall_mem_cons.mpr ⟨here, ih below⟩

theorem readAfter_bounded {open_ : List Frame} (frames : ∀ frame ∈ open_, frame.Bounded) {v : Value}
    (bounded : v.Bounded) (t : Located) : Reads (readAfter open_ v t) ReadState.Bounded := by
  unfold readAfter
  split
  · obtain ⟨here, outside⟩ := List.forall_mem_cons.mp frames
    have longer : (Frame.array (v :: _)).Bounded := List.forall_mem_cons.mpr ⟨bounded, here⟩
    exact reads_ok (List.forall_mem_cons.mpr ⟨longer, outside⟩)
  · obtain ⟨here, outside⟩ := List.forall_mem_cons.mp frames
    refine reads_ok ⟨outside, Value.bounded_arr.mpr fun w member => ?_⟩
    exact List.forall_mem_cons.mpr ⟨bounded, here⟩ w (List.mem_reverse.mp member)
  · obtain ⟨here, outside⟩ := List.forall_mem_cons.mp frames
    exact reads_ok ⟨outside, setField_bounded here _ bounded⟩
  · obtain ⟨here, outside⟩ := List.forall_mem_cons.mp frames
    exact reads_ok ⟨outside, Value.bounded_obj.mpr (setField_bounded here _ bounded)⟩
  · exact reads_ok ⟨nofun, bounded⟩
  · exact reads_complain
  · exact reads_complain

theorem step_bounded {state : ReadState} (within : state.Bounded) {t : Located}
    (bounded : t.token.Bounded) : Reads (step state t) ReadState.Bounded := by
  unfold step
  split
  · exact readValue_bounded within bounded
  · exact reads_ok ⟨within, by simp⟩
  · have opened : (Frame.array []).Bounded := nofun
    exact readValue_bounded (List.forall_mem_cons.mpr ⟨opened, within⟩) bounded
  · exact reads_ok ⟨within, by simp⟩
  · exact readName_bounded within (by simp) t
  · exact readName_bounded within.1 within.2 t
  next fields name _ =>
    have opened : (Frame.object fields name).Bounded := within.2
    exact reads_ok (List.forall_mem_cons.mpr ⟨opened, within.1⟩)
  · exact reads_complain
  · exact readAfter_bounded within.1 within.2 t

theorem steps_bounded {state : ReadState} (within : state.Bounded) {ts : List Located}
    (bounded : ∀ t ∈ ts, t.token.Bounded) : Reads (ts.foldlM step state) ReadState.Bounded := by
  induction ts generalizing state with
  | nil => exact reads_ok within
  | cons t rest ih =>
    simp only [List.mem_cons, forall_eq_or_imp] at bounded
    have first := step_bounded within bounded.1
    rw [List.foldlM_cons]
    cases stepped : step state t with
    | ok next => exact ih (first.ok next stepped) bounded.2
    | error failure =>
      refine ⟨nofun, ?_⟩
      rintro digits ⟨⟩
      exact first.refused digits stepped

/-- Every whole number in a value that is read has at most as many digits as are written, and a text
is refused for its digits only if it has more. -/
theorem read_bounded (text : List Char) : Reads (read text) Value.Bounded := by
  have start : (ReadState.value []).Bounded := nofun
  have between : CutState.between.Bounded := nofun
  have folded := steps_bounded start (tokensFrom_bounded 0 between text)
  unfold read
  split
  · exact reads_complain
  · split
    next v ended => exact reads_ok (folded.ok _ ended).2
    · exact reads_complain
    next failure ended =>
      refine ⟨nofun, ?_⟩
      rintro digits ⟨⟩
      exact folded.refused digits ended

end Json

/-- The ids that a folder lists can all be written in decimal. -/
theorem LevelSet.ids_bounded {read : FileReader} {path : String} {ids : List Value}
    (listed : (folder read path).ids = .ok ids) : ∀ id ∈ ids, id.Bounded := by
  unfold LevelSet.ids at listed
  cases loaded : loadFile read (indexPath path) with
  | error f => simp [loaded, Except.map] at listed
  | ok content =>
    simp only [loaded, Except.map, Except.ok.injEq] at listed
    subst listed
    unfold idsOfIndex
    split
    next first more =>
      obtain ⟨text, _, parsed⟩ := loadFile_value_iff.mp loaded
      exact Value.bounded_arr.mp ((Json.read_bounded text).ok _ parsed)
    · simp only [fallbackIds, List.forall_mem_map, Value.bounded_int]
      decide

namespace Text.Utf8

theorem bytes?_eq_none_iff {letter : Letter} : bytes? letter = none ↔
    ∃ offset : Fin 0x800, letter = .half offset ∧ ¬(0x480 ≤ offset.val ∧ offset.val < 0x500) := by
  cases letter with
  | char c => simp [bytes?]
  | half offset => simp [bytes?]

theorem encodeFrom_cons {letter : Letter} {bytes : List UInt8} (spelt : bytes? letter = some bytes)
    (position : Nat) (rest : List Letter) : encodeFrom position (letter :: rest) =
      (encodeFrom (position + 1) rest).map (bytes ++ ·) := by
  rw [encodeFrom, spelt]

theorem encodeFrom_lone {letter : Letter} (lone : bytes? letter = none) (position : Nat)
    (rest : List Letter) : encodeFrom position (letter :: rest) =
      .error ⟨letter.code, position, position + 1 + (rest.takeWhile Letter.isHalf).length⟩ := by
  rw [encodeFrom, lone]

/-- Encoding fails at the first half that stands for no byte, and takes in all halves that follow. -/
theorem encodeFrom_error_iff {position : Nat} {letters : List Letter} {failure : Unencodable} :
    encodeFrom position letters = .error failure ↔
      ∃ before half after, letters = before ++ half :: after ∧
        (∀ letter ∈ before, bytes? letter ≠ none) ∧ bytes? half = none ∧
        failure = ⟨half.code, position + before.length,
          position + before.length + 1 + (after.takeWhile Letter.isHalf).length⟩ := by
  induction letters generalizing position with
  | nil => simp [encodeFrom]
  | cons letter rest ih =>
    cases spelt : bytes? letter with
    | none =>
      rw [encodeFrom_lone spelt, Except.error.injEq]
      constructor
      · rintro rfl
        exact ⟨[], letter, rest, rfl, nofun, spelt, rfl⟩
      · rintro ⟨before, half, after, split, kept, lone, rfl⟩
        cases before with
        | nil => cases split; rfl
        | cons first more =>
          cases split
          exact absurd spelt (kept letter (List.mem_cons_self ..))
    | some bytes =>
      rw [encodeFrom_cons spelt, map_error_iff, ih]
      constructor
      · rintro ⟨before, half, after, rfl, kept, lone, rfl⟩
        refine ⟨letter :: before, half, after, rfl, ?_, lone, ?_⟩
        · exact List.forall_mem_cons.mpr ⟨by simp [spelt], kept⟩
        · simp only [List.length_cons, Unencodable.mk.injEq, true_and]
          omega
      · rintro ⟨before, half, after, split, kept, lone, rfl⟩
        cases before with
        | nil => cases split; rw [spelt] at lone; contradiction
        | cons first more =>
          cases split
          refine ⟨more, half, after, rfl, (List.forall_mem_cons.mp kept).2, lone, ?_⟩
          simp only [List.length_cons, Unencodable.mk.injEq, true_and]
          omega

/-- A text without halves can be spelt. -/
theorem encode_ofPlain (chars : List Char) :
    encode (ofPlain chars) = .ok (chars.flatMap String.utf8EncodeChar) := by
  have spelt (position : Nat) : encodeFrom position (chars.map .char) =
      .ok (chars.flatMap String.utf8EncodeChar) := by
    induction chars generalizing position with
    | nil => rfl
    | cons c rest ih =>
      rw [List.map_cons, encodeFrom_cons rfl, ih]
      rfl
  simpa [encode, ofPlain] using spelt 0

end Text.Utf8
end TilePuzzle
