import TilePuzzle.Level

/-! What breaks the reading of a level: a number that is infinite or none where a whole number is
asked for, conditions that cannot be walked through, a file that holds no text. Whatever else is
wrong is passed over, or there just is no such level. -/
namespace TilePuzzle

section
variable {α β : Type}

theorem map_error_iff {ε : Type} {result : Except ε α} {g : α → β} {f : ε} :
    result.map g = .error f ↔ result = .error f := by
  cases result <;> simp [Except.map]

theorem bind_error_iff {first : Except Fault α} {next : α → Except Fault β} {f : Fault} :
    (first >>= next) = .error f ↔
      first = .error f ∨ ∃ a, first = .ok a ∧ next a = .error f := by
  cases first <;> simp [bind, Except.bind]

variable {read : α → Except Fault β} {breaks : α → Fault → Prop}

/-- Items that are read in order break at the first one that cannot be read. -/
def FirstBreak (read : α → Except Fault β) (breaks : α → Fault → Prop) (items : List α) (f : Fault) :
    Prop :=
  ∃ before item after, items = before ++ item :: after ∧
    (∀ b ∈ before, ∃ result, read b = .ok result) ∧ breaks item f

theorem not_firstBreak_nil {f : Fault} : ¬FirstBreak read breaks [] f := by
  rintro ⟨before, item, after, split, _⟩
  cases before <;> cases split

theorem firstBreak_cons {item : α} {rest : List α} {f : Fault} :
    FirstBreak read breaks (item :: rest) f ↔
      breaks item f ∨ (∃ result, read item = .ok result) ∧ FirstBreak read breaks rest f := by
  constructor
  · rintro ⟨before, other, after, split, ahead, breaking⟩
    cases before with
    | nil =>
      obtain ⟨rfl, rfl⟩ := List.cons.inj split
      exact .inl breaking
    | cons first more =>
      obtain ⟨rfl, rfl⟩ := List.cons.inj split
      exact .inr ⟨ahead _ (List.mem_cons_self ..), more, other, after, rfl,
        fun b member => ahead b (List.mem_cons_of_mem _ member), breaking⟩
  · rintro (breaking | ⟨ok, before, other, after, rfl, ahead, breaking⟩)
    · exact ⟨[], item, rest, rfl, nofun, breaking⟩
    · refine ⟨item :: before, other, after, rfl, ?_, breaking⟩
      intro b member
      rcases List.mem_cons.mp member with rfl | later
      · exact ok
      · exact ahead b later

/-- A reader that goes from item to item fails just at the first break. -/
theorem readAll_error_iff (readAll : List α → Except Fault (List β))
    (nil : readAll [] = .ok [])
    (cons : ∀ item rest, readAll (item :: rest) = (do
      let first ← read item
      return first :: (← readAll rest)))
    (items : List α) (iff : ∀ item ∈ items, ∀ f, read item = .error f ↔ breaks item f)
    (f : Fault) : readAll items = .error f ↔ FirstBreak read breaks items f := by
  induction items with
  | nil => simp [nil, not_firstBreak_nil]
  | cons item rest ih =>
    have first := iff item (List.mem_cons_self ..) f
    have later := ih fun other member => iff other (List.mem_cons_of_mem _ member)
    rw [cons, firstBreak_cons, ← later, ← first]
    simp only [bind_error_iff, pure, Except.pure, reduceCtorEq, and_false, exists_false, or_false,
      exists_and_right]

end

theorem lookup_cons_if {κ ν : Type} [DecidableEq κ] (key other : κ) (v : ν)
    (rest : List (κ × ν)) :
    ((other, v) :: rest).lookup key = if key = other then some v else rest.lookup key := by
  by_cases same : key = other
  · simp [same]
  · have differs : (key == other) = false := beq_eq_false_iff_ne.mpr same
    simp [List.lookup_cons, differs, same]

theorem lookup_filter {κ ν : Type} [DecidableEq κ] (table : List (κ × ν)) (key : κ) (keep : κ → Bool) :
    (table.filter fun e => keep e.1).lookup key =
      if keep key = true then table.lookup key else none := by
  induction table with
  | nil => simp
  | cons e rest ih =>
    obtain ⟨other, v⟩ := e
    by_cases kept : keep other = true
    · simp only [List.filter_cons, kept, if_true, lookup_cons_if, ih]
      by_cases same : key = other
      · simp [same, kept]
      · simp [same]
    · simp only [List.filter_cons, if_neg kept, lookup_cons_if, ih]
      by_cases same : key = other
      · simp only [same, if_neg kept]
      · simp only [same, if_false]

namespace Value

theorem get_cons (name key : String) (v : Value) (rest : Fields) :
    get ((name, v) :: rest) key = if key = name then v else get rest key := by
  unfold get
  rw [lookup_cons_if]
  split <;> rfl

theorem sizeOf_get_lt (fields : Fields) (key : String) :
    sizeOf (get fields key) < sizeOf (Value.obj fields) := by
  induction fields with
  | nil => simp [get]
  | cons field rest ih =>
    obtain ⟨name, v⟩ := field
    rw [get_cons]
    simp only [obj.sizeOf_spec, List.cons.sizeOf_spec, Prod.mk.sizeOf_spec] at ih ⊢
    split <;> omega

end Value

namespace Condition

/-- What a value holds that cannot be read as a condition, and the fault in which reading it ends. -/
inductive Breaks : Value → Fault → Prop
  /-- A number of steps that is no whole number. -/
  | steps {fields : Fields} {x : Float} {f : Fault} :
      Kind.ofTag? (Value.get fields "type") = some .totalSteps →
      Value.get fields "steps" = .float x → exactFloat x = .error f → Breaks (.obj fields) f
  /-- Conditions that cannot be walked through. -/
  | conditions {fields : Fields} {kind : Kind} {f : Fault} :
      Kind.ofTag? (Value.get fields "type") = some kind → kind = .all ∨ kind = .any →
      (Value.get fields "conditions").isTruthy = true →
      (Value.get fields "conditions").items = .error f → Breaks (.obj fields) f
  /-- One of the conditions below cannot be read, and those before it can. -/
  | member {fields : Fields} {kind : Kind} {before after : List Value} {v : Value} {f : Fault} :
      Kind.ofTag? (Value.get fields "type") = some kind → kind = .all ∨ kind = .any →
      Value.get fields "conditions" = .arr (before ++ v :: after) →
      (∀ b ∈ before, ∃ condition, ofValue b = .ok condition) → Breaks v f → Breaks (.obj fields) f

def BreaksBelow (v : Value) (f : Fault) : Prop :=
  (v.isTruthy = true ∧ v.items = .error f) ∨
    ∃ items, v = .arr items ∧ FirstBreak ofValue Breaks items f

theorem breaks_obj {fields : Fields} {f : Fault} : Breaks (.obj fields) f ↔
    (Kind.ofTag? (Value.get fields "type") = some .totalSteps ∧
      ∃ x, Value.get fields "steps" = .float x ∧ exactFloat x = .error f) ∨
    (∃ kind, Kind.ofTag? (Value.get fields "type") = some kind ∧ (kind = .all ∨ kind = .any) ∧
      BreaksBelow (Value.get fields "conditions") f) := by
  constructor
  · intro breaks
    cases breaks with
    | steps tag number broken => exact .inl ⟨tag, _, number, broken⟩
    | conditions tag kinds truthy broken => exact .inr ⟨_, tag, kinds, .inl ⟨truthy, broken⟩⟩
    | member tag kinds listed ahead broken =>
      exact .inr ⟨_, tag, kinds, .inr ⟨_, listed, _, _, _, rfl, ahead, broken⟩⟩
  · rintro (⟨tag, x, number, broken⟩ | ⟨kind, tag, kinds, below⟩)
    · exact .steps tag number broken
    · rcases below with ⟨truthy, broken⟩ | ⟨_, listed, _, _, _, rfl, ahead, broken⟩
      · exact .conditions tag kinds truthy broken
      · exact .member tag kinds listed ahead broken

theorem belowOf_eq (fields : Fields) : belowOf fields = membersOf (Value.get fields "conditions") := by
  induction fields with
  | nil => rfl
  | cons field rest ih =>
    obtain ⟨name, v⟩ := field
    rw [belowOf, Value.get_cons, ih]
    by_cases here : name = "conditions"
    · simp [here]
    · simp [here, Ne.symm here]

/-- A number that is asked to be whole is so, unless its field holds an infinity or no number. -/
theorem numberField_trunc_error_iff {fields : Fields} {name : String} {default : Int} {f : Fault} :
    (numberField fields name default).trunc = .error f ↔
      ∃ x, Value.get fields name = .float x ∧ exactFloat x = .error f := by
  unfold numberField
  cases Value.get fields name with
  | float x =>
    simp only [Value.number?, Option.getD_some, Number.trunc, Value.float.injEq, exists_eq_left']
    cases exactFloat x <;> simp [Except.map]
  | null | bool | int | str | arr | obj => simp [Value.number?, Number.trunc]

theorem membersOf_error_iff {v : Value} {f : Fault}
    (iff : ∀ items, v = .arr items → ∀ item ∈ items, ∀ f, ofValue item = .error f ↔ Breaks item f) :
    membersOf v = .error f ↔ BreaksBelow v f := by
  cases v with
  | arr items =>
    have listed := readAll_error_iff listOf (by rw [listOf])
      (fun item rest => by rw [listOf]) items (iff items rfl) f
    simp [membersOf, BreaksBelow, Value.items, listed]
  | obj fields => simp [membersOf, BreaksBelow, Value.items]
  | str s => simp [membersOf, BreaksBelow, Value.items]
  | null | bool | int | float =>
    unfold membersOf BreaksBelow
    split <;> simp [*, Value.items]

/-- A condition can be read unless it breaks, and the break decides the fault. -/
theorem ofValue_error_iff (v : Value) (f : Fault) : ofValue v = .error f ↔ Breaks v f := by
  cases v with
  | obj fields =>
    have smaller := Value.sizeOf_get_lt fields "conditions"
    have below := membersOf_error_iff (v := Value.get fields "conditions") (f := f)
      (fun items listed item member g => ofValue_error_iff item g)
    rw [breaks_obj]
    unfold ofValue
    rw [belowOf_eq]
    split
    next kind tag =>
      cases kind <;> simp [ofKind, tag, map_error_iff, below, numberField_trunc_error_iff]
    next untagged => simp [untagged]
  | null | bool | int | float | str | arr =>
    unfold ofValue
    simp
    intro breaks
    cases breaks
termination_by sizeOf v
decreasing_by
  have := List.sizeOf_lt_of_mem member
  rw [listed] at smaller
  simp only [Value.arr.sizeOf_spec] at smaller
  omega

end Condition
namespace Effect

/-- What a value holds that cannot be read as an effect: a number where a whole one is asked for. -/
inductive Breaks : Value → Fault → Prop
  | column {fields : Fields} {x : Float} {f : Fault} :
      Kind.ofTag? (Value.get fields "type") = some .teleport →
      Value.get fields "target_col" = .float x → exactFloat x = .error f → Breaks (.obj fields) f
  | row {fields : Fields} {x : Float} {f : Fault} :
      Kind.ofTag? (Value.get fields "type") = some .teleport →
      (∃ col, wholeField fields "target_col" = .ok col) →
      Value.get fields "target_row" = .float x → exactFloat x = .error f → Breaks (.obj fields) f
  | duration {fields : Fields} {x : Float} {f : Fault} :
      Kind.ofTag? (Value.get fields "type") = some .showHint →
      Value.get fields "duration" = .float x → (x == 0) = false → exactFloat x = .error f →
      Breaks (.obj fields) f

theorem durationField_error_iff {fields : Fields} {f : Fault} :
    durationField fields = .error f ↔
      ∃ x, Value.get fields "duration" = .float x ∧ (x == 0) = false ∧ exactFloat x = .error f := by
  have broken := @Condition.numberField_trunc_error_iff fields "duration" 0 f
  simp only [durationField]
  split
  next zero =>
    simp only [reduceCtorEq, false_iff, not_exists]
    rintro x ⟨number, nonzero, _⟩
    simp only [Condition.numberField, number, Value.number?, Option.getD_some, Number.isZero] at zero
    rw [nonzero] at zero
    contradiction
  next nonzero =>
    rw [broken]
    constructor
    · rintro ⟨x, number, broken⟩
      simp only [Condition.numberField, number, Value.number?, Option.getD_some, Number.isZero,
        Bool.not_eq_true] at nonzero
      exact ⟨x, number, nonzero, broken⟩
    · rintro ⟨x, number, _, broken⟩
      exact ⟨x, number, broken⟩

theorem breaks_obj {fields : Fields} {f : Fault} : Breaks (.obj fields) f ↔
    (Kind.ofTag? (Value.get fields "type") = some .teleport ∧
      (wholeField fields "target_col" = .error f ∨
        (∃ col, wholeField fields "target_col" = .ok col) ∧
          wholeField fields "target_row" = .error f)) ∨
    (Kind.ofTag? (Value.get fields "type") = some .showHint ∧ durationField fields = .error f) := by
  simp only [wholeField, Condition.numberField_trunc_error_iff, durationField_error_iff]
  constructor
  · intro breaks
    cases breaks with
    | column tag number broken => exact .inl ⟨tag, .inl ⟨_, number, broken⟩⟩
    | row tag column number broken => exact .inl ⟨tag, .inr ⟨column, _, number, broken⟩⟩
    | duration tag number nonzero broken => exact .inr ⟨tag, _, number, nonzero, broken⟩
  · rintro (⟨tag, ⟨x, number, broken⟩ | ⟨column, x, number, broken⟩⟩ | ⟨tag, x, number, nonzero, broken⟩)
    · exact .column tag number broken
    · exact .row tag column number broken
    · exact .duration tag number nonzero broken

theorem ofValue_obj (fields : Fields) : ofValue (.obj fields) =
    match Kind.ofTag? (Value.get fields "type") with
    | some kind => ofKind kind fields
    | none => .ok (.unsupported (Value.get fields "type").text) := rfl

/-- An effect can be read unless it breaks, and the break decides the fault. -/
theorem ofValue_error_iff (v : Value) (f : Fault) : ofValue v = .error f ↔ Breaks v f := by
  cases v with
  | obj fields =>
    rw [ofValue_obj, breaks_obj]
    split
    next kind tag =>
      cases kind with
      | teleport => simp [tag, ofKind, bind_error_iff, pure, Except.pure]
      | showHint => simp [tag, ofKind, bind_error_iff, pure, Except.pure]
      | playSound => simp only [tag, ofKind]; split <;> simp
      | kill | win | stopSound => simp [tag, ofKind]
    next untagged => simp [untagged]
  | null | bool | int | float | str | arr =>
    simp only [ofValue, reduceCtorEq, false_iff]
    intro breaks
    cases breaks

end Effect

namespace Rule

def Breaks (fields : Fields) (f : Fault) : Prop :=
  Condition.Breaks (Value.get fields "condition") f ∨
    (∃ condition, Condition.ofValue (Value.get fields "condition") = .ok condition) ∧
      Effect.Breaks (Value.get fields "effect") f

theorem ofFields_error_iff (fields : Fields) (f : Fault) :
    ofFields fields = .error f ↔ Breaks fields f := by
  unfold ofFields Breaks
  rw [← Condition.ofValue_error_iff, ← Effect.ofValue_error_iff]
  simp [bind_error_iff, pure, Except.pure]

end Rule

def Blueprint.Breaks (b : Blueprint) (f : Fault) : Prop :=
  FirstBreak Rule.ofFields Rule.Breaks b.rules f

namespace Level

theorem build_error_iff (b : Blueprint) (f : Fault) : build b = .error f ↔ b.Breaks f := by
  have rules := readAll_error_iff (fun rules => Rule.ofItems (rules.map .obj)) rfl
    (fun _ _ => rfl) b.rules (fun fields _ => Rule.ofFields_error_iff fields) f
  unfold build Blueprint.Breaks
  rw [← rules]
  simp [bind_error_iff, pure, Except.pure]

/-- A value breaks as a level if it is a blueprint whose rules break. -/
def Breaks (v : Value) (f : Fault) : Prop := ∃ b, Blueprint.ofValue v = .ok b ∧ b.Breaks f

theorem ofAsked_error_iff (asked v : Value) (f : Fault) :
    ofAsked asked v = .error f ↔ Breaks v f := by
  unfold ofAsked ofValue Breaks
  rw [map_error_iff]
  cases Blueprint.ofValue v with
  | ok b => simp [map_error_iff, build_error_iff]
  | issues => simp

end Level

/-- A file holds a text if its path has bytes, they find a file, and it decodes to the text. -/
inductive HoldsText (read : FileReader) (path : String) : List Char → Prop
  | intro {name bytes : List UInt8} {chars : List Char} : pathBytes path = .ok name →
      read name = .ok bytes → Text.Utf8.decode bytes = .ok chars →
      HoldsText read path (Text.unifyNewlines chars)

/-- What breaks a file off: a path that cannot be spelt in bytes or has a null character, a file that
holds no text, a document with a whole number of too many digits. -/
inductive FileBreaks (read : FileReader) (path : String) : Fault → Prop
  | halves {failure : Text.Utf8.Unencodable} : Text.Utf8.encode path = .error failure →
      FileBreaks read path (.unencodable failure)
  | null {name : List UInt8} : Text.Utf8.encode path = .ok name → 0 ∈ name →
      FileBreaks read path .nullInPath
  | bytes {name bytes : List UInt8} {failure : Text.Utf8.Failure} : pathBytes path = .ok name →
      read name = .ok bytes → Text.Utf8.decode bytes = .error failure →
      FileBreaks read path (.undecodable failure)
  | digits {text : List Char} {digits : Nat} : HoldsText read path text →
      Json.read text = .error (.tooManyDigits digits) →
      FileBreaks read path (.tooManyDigits digits)

section
variable {read : FileReader} {path : String} {name : List UInt8} {text : List Char} {f : Fault}

theorem pathBytes_error_iff : pathBytes path = .error f ↔
    (∃ failure, Text.Utf8.encode path = .error failure ∧ f = .unencodable failure) ∨
    ∃ name, Text.Utf8.encode path = .ok name ∧ 0 ∈ name ∧ f = .nullInPath := by
  unfold pathBytes
  cases Text.Utf8.encode path with
  | error failure => simp [eq_comm]
  | ok bytes => by_cases null : 0 ∈ bytes <;> simp [null, eq_comm]

theorem decodeText_error_iff : decodeText text = .error f ↔
    ∃ digits, Json.read text = .error (.tooManyDigits digits) ∧ f = .tooManyDigits digits := by
  unfold decodeText
  split <;> simp [*, eq_comm]

theorem decodeText_value_iff {v : Value} : decodeText text = .ok (.ok v) ↔ Json.read text = .ok v := by
  unfold decodeText
  split <;> simp [*]

/-- Why a file is not decoded as a document, or the text that is. -/
theorem loadFile_cases (read : FileReader) (path : String) :
    (∃ f, pathBytes path = .error f ∧ loadFile read path = .error f) ∨
    (∃ problem, loadFile read path = .ok (.error (.unreadable problem))) ∨
    (∃ name bytes failure, pathBytes path = .ok name ∧ read name = .ok bytes ∧
      Text.Utf8.decode bytes = .error failure ∧
      loadFile read path = .error (.undecodable failure)) ∨
    ∃ text, HoldsText read path text ∧ loadFile read path = decodeText text := by
  unfold loadFile
  cases spelt : pathBytes path with
  | error f => exact .inl ⟨f, rfl, rfl⟩
  | ok name =>
    cases found : read name with
    | error problem => exact .inr (.inl ⟨problem, by simp only [found]⟩)
    | ok bytes =>
      simp only [found, decodeFile]
      cases decoded : Text.Utf8.decode bytes with
      | error failure => exact .inr (.inr (.inl ⟨name, bytes, failure, rfl, found, decoded, rfl⟩))
      | ok chars => exact .inr (.inr (.inr ⟨_, .intro spelt found decoded, rfl⟩))

theorem HoldsText.loadFile_eq (holds : HoldsText read path text) :
    loadFile read path = decodeText text := by
  obtain ⟨spelt, found, decoded⟩ := holds
  simp only [loadFile, spelt, found, decodeFile, decoded]

theorem loadFile_error_iff : loadFile read path = .error f ↔ FileBreaks read path f := by
  constructor
  · intro failed
    rcases loadFile_cases read path with
      ⟨g, spelt, ends⟩ | ⟨problem, ends⟩ | ⟨name, bytes, failure, spelt, found, decoded, ends⟩ |
      ⟨text, holds, ends⟩
    · rw [ends] at failed
      cases failed
      rcases pathBytes_error_iff.mp spelt with ⟨failure, halves, rfl⟩ | ⟨name, encoded, null, rfl⟩
      · exact .halves halves
      · exact .null encoded null
    · rw [ends] at failed
      cases failed
    · rw [ends] at failed
      cases failed
      exact .bytes spelt found decoded
    · rw [ends] at failed
      obtain ⟨digits, parsed, rfl⟩ := decodeText_error_iff.mp failed
      exact .digits holds parsed
  · intro breaks
    cases breaks with
    | halves halves =>
      simp only [loadFile, pathBytes_error_iff.mpr (.inl ⟨_, halves, rfl⟩)]
    | null encoded null =>
      simp only [loadFile, pathBytes_error_iff.mpr (.inr ⟨_, encoded, null, rfl⟩)]
    | bytes spelt found decoded => simp only [loadFile, spelt, found, decodeFile, decoded]
    | digits holds parsed =>
      rw [holds.loadFile_eq]
      exact decodeText_error_iff.mpr ⟨_, parsed, rfl⟩

theorem loadFile_value_iff {v : Value} : loadFile read path = .ok (.ok v) ↔
    ∃ text, HoldsText read path text ∧ Json.read text = .ok v := by
  constructor
  · intro loaded
    rcases loadFile_cases read path with
      ⟨g, _, ends⟩ | ⟨problem, ends⟩ | ⟨_, _, failure, _, _, _, ends⟩ | ⟨text, holds, ends⟩
    · rw [ends] at loaded; cases loaded
    · rw [ends] at loaded; cases loaded
    · rw [ends] at loaded; cases loaded
    · exact ⟨text, holds, decodeText_value_iff.mp (ends ▸ loaded)⟩
  · rintro ⟨text, holds, parsed⟩
    rw [holds.loadFile_eq]
    exact decodeText_value_iff.mpr parsed

end

/-- What breaks the level of an id: in a folder its file, or what the file holds; in a catalog an id
that is no key, or what stands under the key. -/
inductive LevelSet.Breaks : LevelSet → Value → Fault → Prop
  | file {read : FileReader} {path : String} {id : Value} {f : Fault} :
      FileBreaks read (levelPath path id) f → Breaks (folder read path) id f
  | level {read : FileReader} {path : String} {id v : Value} {text : List Char} {f : Fault} :
      HoldsText read (levelPath path id) text → Json.read text = .ok v → Level.Breaks v f →
      Breaks (folder read path) id f
  | key {c : Catalog} {id : Value} {f : Fault} : id.key = .error f → Breaks (catalog c) id f
  | entry {c : Catalog} {id v : Value} {key : Key} {f : Fault} :
      id.key = .ok key → c.entries.lookup key = some v → Level.Breaks v f →
      Breaks (catalog c) id f

namespace LevelSet

theorem folder_error_iff (read : FileReader) (path : String) (id : Value) (f : Fault) :
    (folder read path).load id = .error f ↔ (folder read path).Breaks id f := by
  constructor
  · intro failed
    simp only [load] at failed
    split at failed
    next g loaded => cases failed; exact .file (loadFile_error_iff.mp loaded)
    · contradiction
    next v loaded =>
      obtain ⟨text, holds, parsed⟩ := loadFile_value_iff.mp loaded
      exact .level holds parsed ((Level.ofAsked_error_iff id v f).mp failed)
  · intro breaks
    cases breaks with
    | file broken => simp only [load, loadFile_error_iff.mpr broken]
    | level holds parsed broken =>
      simp only [load, loadFile_value_iff.mpr ⟨_, holds, parsed⟩,
        (Level.ofAsked_error_iff id _ f).mpr broken]

theorem catalog_error_iff (c : Catalog) (id : Value) (f : Fault) :
    (catalog c).load id = .error f ↔ (catalog c).Breaks id f := by
  constructor
  · intro failed
    simp only [load, Catalog.load] at failed
    cases keyed : id.key with
    | error g =>
      simp only [keyed, Except.error.injEq] at failed
      exact failed ▸ .key keyed
    | ok key =>
      simp only [keyed] at failed
      cases found : c.entries.lookup key with
      | none => simp [found] at failed
      | some v =>
        simp only [found, Option.getD_some] at failed
        split at failed
        · cases failed
        · exact .entry keyed found ((Level.ofAsked_error_iff id _ f).mp failed)
  · intro breaks
    cases breaks with
    | key keyed => simp [load, Catalog.load, keyed]
    | entry keyed found broken =>
      have failed := (Level.ofAsked_error_iff id _ f).mpr broken
      simp only [load, Catalog.load, keyed, found, Option.getD_some]
      split
      · cases failed
      · exact failed

/-- The level of an id breaks just as its set says, whatever set it is. -/
theorem load_error_iff (set : LevelSet) (id : Value) (f : Fault) :
    set.load id = .error f ↔ set.Breaks id f := by
  cases set with
  | folder read path => exact folder_error_iff read path id f
  | catalog c => exact catalog_error_iff c id f

end LevelSet

namespace Catalog

theorem lookup_setEntry (key other : Key) (v : Value) (entries : List (Key × Value)) :
    (setEntry key v entries).lookup other =
      if other = key then some v else entries.lookup other := by
  induction entries with
  | nil => exact lookup_cons_if other key v []
  | cons entry rest ih =>
    obtain ⟨first, w⟩ := entry
    unfold setEntry
    by_cases here : first = key
    · rw [if_pos here, lookup_cons_if, lookup_cons_if, here]
      split <;> rfl
    · rw [if_neg here, lookup_cons_if, lookup_cons_if, ih]
      by_cases same : other = first
      · rw [if_pos same, if_pos same, same, if_neg here]
      · rw [if_neg same, if_neg same]

end Catalog

end TilePuzzle
