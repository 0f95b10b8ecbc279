import TilePuzzle.Proofs.Easing
import TilePuzzle.Proofs.Findings

/-! What rules can be read. Almost anything can: what is not known is kept as unsupported, and what has the
wrong kind counts as absent. There are two exceptions, and they matter however deep they are: a number of
steps, a target or a duration that is infinite or no number, and something in place of a list of conditions
that counts as true and cannot be walked through. A review ends just as the reading of the rules does. -/
namespace TilePuzzle

open Binary64

section
variable {α β : Type}

/-- A result fails just if there is a flaw, and what it tells is one of the flaws. -/
structure FailsBy (result : Except Fault α) (flaw : Fault → Prop) : Prop where
  tells : ∀ {f}, result = .error f → flaw f
  fails : ∀ {f}, flaw f → Fails result

namespace FailsBy

variable {first : Except Fault α} {next : α → Except Fault β} {p q : Fault → Prop}

theorem ok {a : α} (flawless : ∀ f, ¬p f) : FailsBy (.ok a) p where
  tells := nofun
  fails flaw := absurd flaw (flawless _)

theorem error {f : Fault} (only : ∀ g, p g ↔ g = f) : FailsBy (.error f : Except Fault α) p where
  tells told := (only _).mpr (Except.error.inj told).symm
  fails _ := fails_error f

theorem map (whole : FailsBy first p) (g : α → β) : FailsBy (first.map g) p where
  tells told := whole.tells (map_error_iff.mp told)
  fails flaw := fails_map.mpr (whole.fails flaw)

theorem bind (whole : FailsBy first p) (later : ∀ a, FailsBy (next a) q) :
    FailsBy (first >>= next) fun f => p f ∨ q f where
  tells told := by
    rcases bind_error_iff.mp told with now | ⟨a, _, behind⟩
    · exact .inl (whole.tells now)
    · exact .inr ((later a).tells behind)
  fails flaw := by
    apply fails_bind.mpr
    cases first with
    | error f => exact .inl (fails_error f)
    | ok a =>
      rcases flaw with now | behind
      · exact absurd (whole.fails now) (not_fails_ok a)
      · exact .inr ⟨a, rfl, (later a).fails behind⟩

theorem congr (whole : FailsBy first p) (same : ∀ f, p f ↔ q f) : FailsBy first q where
  tells told := (same _).mp (whole.tells told)
  fails flaw := whole.fails ((same _).mpr flaw)

theorem ok_iff (whole : FailsBy first p) : (∃ a, first = .ok a) ↔ ∀ f, ¬p f := by
  constructor
  · rintro ⟨a, rfl⟩ f flaw
    exact not_fails_ok a (whole.fails flaw)
  · intro flawless
    exact ok_of_not_fails fun ⟨f, told⟩ => flawless f (whole.tells told)

/-- What ends in the same faults has the same flaws. -/
theorem of_error_iff {second : Except Fault β} (whole : FailsBy first p)
    (same : ∀ f, second = .error f ↔ first = .error f) : FailsBy second p where
  tells told := whole.tells ((same _).mp told)
  fails flaw := (whole.fails flaw).imp fun f told => (same f).mpr told

/-- A reader that goes from item to item fails just if there is a flaw in one of them. -/
theorem each {read : α → Except Fault β} {flaw : α → Fault → Prop}
    (readAll : List α → Except Fault (List β)) (nil : readAll [] = .ok [])
    (cons : ∀ item rest, readAll (item :: rest) = (do
      let first ← read item
      return first :: (← readAll rest)))
    {items : List α} (one : ∀ item ∈ items, FailsBy (read item) (flaw item)) :
    FailsBy (readAll items) fun f => ∃ item ∈ items, flaw item f := by
  induction items with
  | nil =>
    rw [nil]
    exact ok (by simp)
  | cons item rest ih =>
    rw [List.forall_mem_cons] at one
    rw [cons]
    have behind (b : β) : FailsBy (do return b :: (← readAll rest)) fun f => ∃ item ∈ rest, flaw item f :=
      (ih one.2).map (b :: ·)
    refine (one.1.bind behind).congr fun f => ?_
    rw [List.exists_mem_cons_iff]

end FailsBy

theorem map_ok_iff {result : Except Fault α} {g : α → β} {b : β} :
    result.map g = .ok b ↔ ∃ a, result = .ok a ∧ g a = b := by
  cases result <;> simp [Except.map]

end

section
open Float.Model Float.Model.UnpackedFloat

/-- What is infinite or no number is not zero. -/
theorem Unbounded.nonzero {x : Float} (unbounded : Unbounded x) : (x == 0) = false := by
  let bits : BitVec Format.binary64.numBits := x.toModel.toBits.toBitVec
  have full : bits.toNat / twoTo 52 % 2048 = 2047 := by
    by_contra number
    change ¬x.toBits.toNat / twoTo 52 % 2048 = 2047 at number
    simp only [Unbounded, Binary64.ofFloat, Binary64.ofBits, if_neg number] at unbounded
    split at unbounded <;> simp at unbounded
  have top : unpackExponent bits = -1#_ :=
    BitVec.eq_of_toNat_eq ((unpackExponent_toNat bits).trans full)
  change UnpackedFloat.beq (UnpackedFloat.unpack Format.binary64 bits) (.zero .positive) = false
  rw [UnpackedFloat.unpack, if_pos top]
  split
  · cases Sign.ofBitVec (unpackSign bits) <;> rfl
  · rfl

end

namespace Value

/-- The name under which a value is kept that has no tag of a known kind: as it is shown, or, if it could have
one, the text of what is in its place. -/
def unknownTag {κ : Type} (ofTag? : Value → Option κ) : Value → Option String
  | .obj fields => if (ofTag? (get fields "type")).isSome then none else some (get fields "type").text
  | v => some v.shown

inductive Unwhole : Value → Fault → Prop
  | nan {x : Float} : ofFloat x = .nan → Unwhole (.float x) .wholeOfNan
  | infinite {x : Float} {negative : Bool} : ofFloat x = .infinite negative →
      Unwhole (.float x) .wholeOfInfinity

inductive Unlisted : Value → Fault → Prop
  | yes : Unlisted (.bool true) (.notIterable "bool")
  | int {n : Int} : n ≠ 0 → Unlisted (.int n) (.notIterable "int")
  | float {x : Float} : (x == 0) = false → Unlisted (.float x) (.notIterable "float")

theorem unwhole_iff {v : Value} {f : Fault} :
    v.Unwhole f ↔ ∃ x, v = .float x ∧ exactFloat x = .error f := by
  constructor
  · rintro (known | known)
    · exact ⟨_, rfl, exactFloat_error_iff.mpr (.inl ⟨known, rfl⟩)⟩
    · exact ⟨_, rfl, exactFloat_error_iff.mpr (.inr ⟨⟨_, known⟩, rfl⟩)⟩
  · rintro ⟨x, rfl, told⟩
    rcases exactFloat_error_iff.mp told with ⟨known, rfl⟩ | ⟨⟨negative, known⟩, rfl⟩
    · exact .nan known
    · exact .infinite known

theorem unlisted_iff {v : Value} {f : Fault} :
    v.Unlisted f ↔ v.isTruthy = true ∧ v.items = .error f := by
  constructor
  · rintro (_ | known | known)
    · exact ⟨rfl, rfl⟩
    · exact ⟨by simpa [isTruthy] using known, rfl⟩
    · exact ⟨by simpa [isTruthy] using known, rfl⟩
  · rintro ⟨truthy, told⟩
    cases v with
    | null => contradiction
    | bool b =>
      cases truthy
      cases told
      exact .yes
    | int n =>
      cases told
      exact .int (by simpa [isTruthy] using truthy)
    | float x =>
      cases told
      exact .float (by simpa [isTruthy] using truthy)
    | str s => contradiction
    | arr items => contradiction
    | obj fields => contradiction

end Value

namespace Condition

/-- A value is read when another one is: it is that one, or a member of its list of conditions, or below
such a member. -/
inductive Holds : Value → Value → Prop
  | self (v : Value) : Holds v v
  | member {fields : Fields} {kind : Kind} {items : List Value} {v w : Value} :
      Kind.ofTag? (Value.get fields "type") = some kind → kind = .all ∨ kind = .any →
      Value.get fields "conditions" = .arr items → v ∈ items → Holds v w → Holds (.obj fields) w

/-- What cannot be read of a value, apart from what is below it. -/
inductive Flawed : Value → Fault → Prop
  | steps {fields : Fields} {f : Fault} :
      Kind.ofTag? (Value.get fields "type") = some .totalSteps →
      (Value.get fields "steps").Unwhole f → Flawed (.obj fields) f
  | conditions {fields : Fields} {kind : Kind} {f : Fault} :
      Kind.ofTag? (Value.get fields "type") = some kind → kind = .all ∨ kind = .any →
      (Value.get fields "conditions").Unlisted f → Flawed (.obj fields) f

def Spoilt (v : Value) (f : Fault) : Prop := ∃ w, Holds v w ∧ Flawed w f

def SpoiltBelow (v : Value) (f : Fault) : Prop :=
  v.Unlisted f ∨ ∃ items, v = .arr items ∧ ∃ item ∈ items, Spoilt item f

theorem not_spoilt_of {v : Value} (other : ∀ fields, v ≠ .obj fields) (f : Fault) : ¬Spoilt v f := by
  rintro ⟨w, _ | _, flawed⟩
  · cases flawed <;> exact other _ rfl
  · exact other _ rfl

/-- An object is spoilt by its own number of steps, or by the conditions below it. -/
theorem spoilt_obj {fields : Fields} {f : Fault} : Spoilt (.obj fields) f ↔
    (Kind.ofTag? (Value.get fields "type") = some .totalSteps ∧ (Value.get fields "steps").Unwhole f) ∨
    (∃ kind, Kind.ofTag? (Value.get fields "type") = some kind ∧ (kind = .all ∨ kind = .any) ∧
      SpoiltBelow (Value.get fields "conditions") f) := by
  constructor
  · rintro ⟨w, _ | ⟨tag, kinds, listed, member, held⟩, flawed⟩
    · cases flawed with
      | steps tag unwhole => exact .inl ⟨tag, unwhole⟩
      | conditions tag kinds unlisted => exact .inr ⟨_, tag, kinds, .inl unlisted⟩
    · exact .inr ⟨_, tag, kinds, .inr ⟨_, listed, _, member, w, held, flawed⟩⟩
  · rintro (⟨tag, unwhole⟩ | ⟨kind, tag, kinds, unlisted | ⟨items, listed, item, member, w, held, flawed⟩⟩)
    · exact ⟨_, .self _, .steps tag unwhole⟩
    · exact ⟨_, .self _, .conditions tag kinds unlisted⟩
    · exact ⟨w, .member tag kinds listed member held, flawed⟩

theorem numberField_failsBy (fields : Fields) (name : String) (default : Int) :
    FailsBy (numberField fields name default).trunc (Value.get fields name).Unwhole where
  tells told := Value.unwhole_iff.mpr (numberField_trunc_error_iff.mp told)
  fails flaw := ⟨_, numberField_trunc_error_iff.mpr (Value.unwhole_iff.mp flaw)⟩

theorem membersOf_failsBy {v : Value}
    (member : ∀ items, v = .arr items → ∀ item ∈ items, FailsBy (ofValue item) (Spoilt item)) :
    FailsBy (membersOf v) (SpoiltBelow v) := by
  cases v with
  | arr items =>
    have each := FailsBy.each listOf (by rw [listOf]) (fun item rest => by rw [listOf])
      (member items rfl)
    rw [membersOf]
    refine each.congr fun f => ?_
    simp [SpoiltBelow, Value.unlisted_iff, Value.items]
  | obj fields =>
    rw [membersOf]
    exact .ok fun f => by simp [SpoiltBelow, Value.unlisted_iff, Value.items]
  | str s =>
    rw [membersOf]
    exact .ok fun f => by simp [SpoiltBelow, Value.unlisted_iff, Value.items]
  | null | bool | int | float =>
    unfold membersOf SpoiltBelow
    split
    next truthy => exact .error fun f => by simp [Value.unlisted_iff, Value.items, truthy, eq_comm]
    next falsy => exact .ok fun f => by simp [Value.unlisted_iff, falsy]

/-- A condition can be read unless there is a flaw in it, however deep. -/
theorem ofValue_failsBy (v : Value) : FailsBy (ofValue v) (Spoilt v) := by
  cases v with
  | obj fields =>
    have smaller := Value.sizeOf_get_lt fields "conditions"
    have below : FailsBy (membersOf (Value.get fields "conditions"))
        (SpoiltBelow (Value.get fields "conditions")) :=
      membersOf_failsBy fun items listed item member => ofValue_failsBy item
    rw [ofValue, belowOf_eq]
    cases tag : Kind.ofTag? (Value.get fields "type") with
    | none => exact .ok fun f => by simp [spoilt_obj, tag]
    | some kind =>
      cases kind with
      | totalSteps =>
        refine ((numberField_failsBy fields "steps" (-1)).map _).congr fun f => ?_
        simp [spoilt_obj, tag]
      | all | any =>
        refine (below.map _).congr fun f => ?_
        simp [spoilt_obj, tag]
      | touchTile | touchColor | reachExit | repeated | repeatedSolid | patternBreak | sequenceViolates
      | idleSeconds | musicPlaying | custom => exact .ok fun f => by simp [spoilt_obj, tag]
  | null | bool | int | float | str | arr =>
    rw [ofValue]
    · exact .ok (not_spoilt_of (by simp))
    · nofun
termination_by sizeOf v
decreasing_by
  have := List.sizeOf_lt_of_mem member
  rw [listed] at smaller
  simp only [Value.arr.sizeOf_spec] at smaller
  omega

/-- A condition is kept as unsupported just if its kind is not known; whatever is wrong with its other fields,
it is of its kind. -/
theorem ofValue_unsupported_iff (v : Value) (name : String) :
    ofValue v = .ok (.unsupported name) ↔ v.unknownTag Kind.ofTag? = some name := by
  cases v with
  | obj fields =>
    rw [ofValue, Value.unknownTag]
    cases Kind.ofTag? (Value.get fields "type") with
    | none => simp
    | some kind => cases kind <;> simp [ofKind, map_ok_iff]
  | null | bool | int | float | str | arr => simp [ofValue, Value.unknownTag]

/-- A truth value in place of conditions, one level down. -/
example : ofValue (.obj [("type", .str "OR"), ("conditions", .arr [.null, .obj [("type", .str "AND"),
    ("conditions", .bool true)]])]) = .error (.notIterable "bool") := rfl

end Condition

namespace Effect

inductive Flawed : Value → Fault → Prop
  | column {fields : Fields} {f : Fault} : Kind.ofTag? (Value.get fields "type") = some .teleport →
      (Value.get fields "target_col").Unwhole f → Flawed (.obj fields) f
  | row {fields : Fields} {f : Fault} : Kind.ofTag? (Value.get fields "type") = some .teleport →
      (Value.get fields "target_row").Unwhole f → Flawed (.obj fields) f
  | duration {fields : Fields} {f : Fault} : Kind.ofTag? (Value.get fields "type") = some .showHint →
      (Value.get fields "duration").Unwhole f → Flawed (.obj fields) f

theorem flawed_obj {fields : Fields} {f : Fault} : Flawed (.obj fields) f ↔
    (Kind.ofTag? (Value.get fields "type") = some .teleport ∧
      ((Value.get fields "target_col").Unwhole f ∨ (Value.get fields "target_row").Unwhole f)) ∨
    (Kind.ofTag? (Value.get fields "type") = some .showHint ∧ (Value.get fields "duration").Unwhole f) := by
  constructor
  · rintro (⟨tag, flaw⟩ | ⟨tag, flaw⟩ | ⟨tag, flaw⟩)
    · exact .inl ⟨tag, .inl flaw⟩
    · exact .inl ⟨tag, .inr flaw⟩
    · exact .inr ⟨tag, flaw⟩
  · rintro (⟨tag, flaw | flaw⟩ | ⟨tag, flaw⟩)
    · exact .column tag flaw
    · exact .row tag flaw
    · exact .duration tag flaw

theorem not_flawed_of {v : Value} (other : ∀ fields, v ≠ .obj fields) (f : Fault) : ¬Flawed v f := by
  intro flawed
  cases flawed <;> exact other _ rfl

theorem durationField_failsBy (fields : Fields) :
    FailsBy (durationField fields) (Value.get fields "duration").Unwhole where
  tells told := by
    obtain ⟨x, known, _, broken⟩ := durationField_error_iff.mp told
    exact Value.unwhole_iff.mpr ⟨x, known, broken⟩
  fails {f} flaw := by
    obtain ⟨x, known, broken⟩ := Value.unwhole_iff.mp flaw
    have nonzero : (x == 0) = false := Unbounded.nonzero (exactFloat_fails_iff.mp ⟨f, broken⟩)
    exact ⟨f, durationField_error_iff.mpr ⟨x, known, nonzero, broken⟩⟩

theorem ofKind_playSound (fields : Fields) :
    ∃ sound, ofKind .playSound fields = .ok (.playSound sound) := by
  cases sound : Value.get fields "sound_id" <;> simp [ofKind, sound]

/-- An effect is kept as unsupported just if its kind is not known. -/
theorem ofValue_unsupported_iff (v : Value) (name : String) :
    ofValue v = .ok (.unsupported name) ↔ v.unknownTag Kind.ofTag? = some name := by
  cases v with
  | obj fields =>
    rw [ofValue, Value.unknownTag]
    cases Kind.ofTag? (Value.get fields "type") with
    | none => simp
    | some kind =>
      cases kind with
      | teleport | showHint => simp [ofKind, bind_ok_iff, pure, Except.pure]
      | playSound =>
        obtain ⟨sound, read⟩ := ofKind_playSound fields
        simp [read]
      | kill | win | stopSound => simp [ofKind]
  | null | bool | int | float | str | arr => simp [ofValue, Value.unknownTag]

/-- An effect can be read unless there is a flaw in it. -/
theorem ofValue_failsBy (v : Value) : FailsBy (ofValue v) (Flawed v) := by
  cases v with
  | obj fields =>
    rw [ofValue_obj]
    cases tag : Kind.ofTag? (Value.get fields "type") with
    | none => exact .ok fun f => by simp [flawed_obj, tag]
    | some kind =>
      cases kind with
      | teleport =>
        have column := Condition.numberField_failsBy fields "target_col" 0
        have row := Condition.numberField_failsBy fields "target_row" 0
        refine (column.bind fun col => row.map fun row => teleport col row).congr fun f => ?_
        simp [flawed_obj, tag]
      | showHint =>
        refine ((durationField_failsBy fields).map _).congr fun f => ?_
        simp [flawed_obj, tag]
      | playSound =>
        obtain ⟨sound, read⟩ := ofKind_playSound fields
        simp only [read]
        exact .ok fun f => by simp [flawed_obj, tag]
      | kill | win | stopSound => exact .ok fun f => by simp [flawed_obj, tag]
  | null | bool | int | float | str | arr => exact .ok (not_flawed_of (by simp))

end Effect

def Rule.Flawed (fields : Fields) (f : Fault) : Prop :=
  Condition.Spoilt (Value.get fields "condition") f ∨ Effect.Flawed (Value.get fields "effect") f

theorem Rule.ofFields_failsBy (fields : Fields) : FailsBy (ofFields fields) (Rule.Flawed fields) := by
  refine (Condition.ofValue_failsBy _).bind fun condition => ?_
  exact (Effect.ofValue_failsBy _).map (Rule.mk condition)

theorem Rule.ofItems_failsBy (items : List Fields) :
    FailsBy (ofItems (items.map .obj)) fun f => ∃ fields ∈ items, Rule.Flawed fields f :=
  FailsBy.each (fun items => ofItems (items.map .obj)) rfl (fun _ _ => rfl)
    fun fields _ => ofFields_failsBy fields

def Blueprint.Flawed (b : Blueprint) (f : Fault) : Prop := ∃ fields ∈ b.rules, Rule.Flawed fields f

namespace Review

/-- A review fails just if the rules cannot be read, and in the same fault. -/
theorem ofBlueprint_error_iff (b : Blueprint) (known : List String) (f : Fault) :
    ofBlueprint b known = .error f ↔ Rule.ofItems (b.rules.map .obj) = .error f := by
  cases read : Rule.ofItems (b.rules.map .obj) with
  | ok rules => simp [ofBlueprint_eq b known read]
  | error g =>
    rw [ofBlueprint, ofRules_eq, read]
    simp [Except.map, bind, Except.bind]

/-- Conditions, effects and rules can be read, and levels reviewed, unless there is a flaw: a number of steps,
a target or a duration that is infinite or no number, or a truth value or a number in place of conditions,
as deep as they may be. The fault is that of a flaw, and a review ends in the one in which the rules do. What
is read is unsupported just if its kind is not known. Whole numbers can be written wherever the text of a value
is asked for, because no document gives one of more digits than are written (`Json.read_bounded`). -/
theorem ofBlueprint_tolerates (v : Value) (b : Blueprint) (known : List String) :
    FailsBy (Condition.ofValue v) (Condition.Spoilt v) ∧
    (∀ name, Condition.ofValue v = .ok (.unsupported name) ↔
      v.unknownTag Condition.Kind.ofTag? = some name) ∧
    FailsBy (Effect.ofValue v) (Effect.Flawed v) ∧
    (∀ name, Effect.ofValue v = .ok (.unsupported name) ↔ v.unknownTag Effect.Kind.ofTag? = some name) ∧
    FailsBy (Rule.ofItems (b.rules.map .obj)) b.Flawed ∧
    (∀ f, ofBlueprint b known = .error f ↔ Rule.ofItems (b.rules.map .obj) = .error f) ∧
    ((∃ review, ofBlueprint b known = .ok review) ↔ ∀ f, ¬b.Flawed f) := by
  have same := ofBlueprint_error_iff b known
  have read : FailsBy (Rule.ofItems (b.rules.map .obj)) b.Flawed := Rule.ofItems_failsBy b.rules
  exact ⟨Condition.ofValue_failsBy v, Condition.ofValue_unsupported_iff v, Effect.ofValue_failsBy v,
    Effect.ofValue_unsupported_iff v, read, same, (read.of_error_iff same).ok_iff⟩

end Review
end TilePuzzle
