import Mathlib.Data.List.Forall2
import TilePuzzle.Proofs.Reading

/-! The canonical form of a level. Whatever spelling an author chooses for a field, reading settles it, and
writing the level out again gives a value with every field in its plain form. Such a value is read as the
same level, and the fields that are not known here stay what they were, at every depth. -/
namespace TilePuzzle

namespace Checked
variable {α β : Type}

theorem map_eq_ok_iff {f : α → β} {x : Checked α} {b : β} :
    f <$> x = .ok b ↔ ∃ a, x = .ok a ∧ f a = b := by
  cases x <;> simp [Functor.map, Checked.map]

theorem seq_eq_ok_iff {f : Checked (α → β)} {x : Checked α} {b : β} :
    f <*> x = .ok b ↔ ∃ g a, f = .ok g ∧ x = .ok a ∧ g a = b := by
  cases f <;> cases x <;> simp [Seq.seq, Checked.seq]

theorem under_eq_ok_iff {step : Step} {x : Checked α} {a : α} : x.under step = .ok a ↔ x = .ok a := by
  cases x <;> simp [under]

end Checked

namespace Schema
variable {α : Type} {read : Value → Checked α} {write : α → Value}

theorem fieldOr_of_lookup {fields : Fields} {name : String} {v : Value} {default a : α}
    (found : fields.lookup name = some v) (reads : read v = .ok a) :
    fieldOr read default name fields = .ok a := by
  simp [fieldOr, found, reads, Checked.under]

theorem required_of_lookup {fields : Fields} {name : String} {v : Value} {a : α}
    (found : fields.lookup name = some v) (reads : read v = .ok a) :
    required read name fields = .ok a := by
  simp [required, found, reads, Checked.under]

/-- What may be absent is written so that it is read again, if null is not written for anything else. -/
theorem optional_restores (plain : ∀ a, write a ≠ .null) (restores : ∀ a, read (write a) = .ok a)
    (a : Option α) : optional read (Value.optional write a) = .ok a := by
  cases a with
  | none => rfl
  | some a =>
    have written := plain a
    have again := restores a
    simp only [Value.optional] at again ⊢
    cases found : write a with
    | null => contradiction
    | bool | int | float | str | arr | obj =>
      rw [found] at again
      simp only [optional, again]
      rfl

theorem listFrom_eq_ok_iff {i : Nat} {items : List Value} {as : List α} :
    listFrom read i items = .ok as ↔ List.Forall₂ (fun item a => read item = .ok a) items as := by
  induction items generalizing i as with
  | nil => cases as <;> simp [listFrom]
  | cons item rest ih =>
    simp only [listFrom, Checked.seq_eq_ok_iff, Checked.map_eq_ok_iff, Checked.under_eq_ok_iff, ih]
    cases as with
    | nil => simp
    | cons a more => simp

def itemsAt (fields : Fields) (name : String) : List Value :=
  match fields.lookup name with
  | some (.arr items) => items
  | _ => []

theorem fieldOr_list_reads {fields : Fields} {name : String} {as : List α}
    (reads : fieldOr (list read) [] name fields = .ok as) :
    List.Forall₂ (fun item a => read item = .ok a) (itemsAt fields name) as := by
  unfold fieldOr at reads
  unfold itemsAt
  split at reads
  next v found =>
    rw [Checked.under_eq_ok_iff] at reads
    cases v with
    | arr items => simpa [found] using listFrom_eq_ok_iff.mp reads
    | null | bool | int | float | str | obj => cases reads
  next absent =>
    cases reads
    simp [absent]

/-- A field that is not known is found among the extra ones. -/
theorem get_extras {known : List String} {fields : Fields} {name : String} (unknown : name ∉ known) :
    Value.get (extras known fields) name = Value.get fields name := by
  have found := lookup_filter fields name fun key => !known.contains key
  rw [if_pos (by simp [unknown])] at found
  rw [Value.get, Value.get, ← found]
  rfl

/-- Of known fields with unknown ones after them just these are unknown. -/
theorem extras_append {known : List String} {first second fields : Fields} (none : extras known first = [])
    (unknown : second = extras known fields) : extras known (first ++ second) = second := by
  have kept : extras known second = second := by
    rw [unknown]
    simp [extras]
  rw [extras, List.filter_append]
  change extras known first ++ extras known second = second
  rw [none, kept, List.nil_append]

/-- Two objects with the same fields beside the known ones. -/
def KeepsUnknown (known : List String) (x y : Value) : Prop :=
  ∃ fields written, x = .obj fields ∧ y = .obj written ∧ extras known written = extras known fields

/-- Whatever is read is written so that the same is read again, beside the same unknown fields. -/
def Rewrites (known : List String) (read : Fields → Checked α) (write : α → Value) : Prop :=
  ∀ {fields : Fields} {a : α}, read fields = .ok a →
    ∃ written, write a = .obj written ∧ read written = .ok a ∧ extras known written = extras known fields

end Schema

namespace Blueprint
open Schema

theorem ident_restores (id : Ident) : ident id.value = .ok id := by
  cases id <;> rfl

theorem place_restores (p : Place) : place (placeValue p) = .ok p := rfl

theorem side_restores (b : Blueprint) :
    side (.int b.size) = .ok ⟨b.size, b.size_pos, b.size_le⟩ := by
  have low : (1 : Int) ≤ b.size := by exact_mod_cast b.size_pos
  have high : (b.size : Int) ≤ 64 := by exact_mod_cast b.size_le
  simp [side, Schema.int, verdict, intResult, boundedSize, low, high]

section
variable {α : Type} {label : String} {known : List String} {read : Fields → Checked α} {write : α → Value}

theorem ofObject_eq_ok_iff {v : Value} {a : α} : ofObject label known read v = .ok a ↔
    ∃ fields, v = .obj fields ∧ unspelt? known fields = none ∧ read fields = .ok a := by
  cases v with
  | obj fields => cases spelt : unspelt? known fields <;> simp [ofObject, Checked.fail, spelt]
  | null | bool | int | float | str | arr => simp [ofObject, Checked.fail]

/-- What is written with the same unknown fields is read again. -/
theorem ofObject_rewrites (rewrites : Rewrites known read write) {v : Value} {a : α}
    (reads : ofObject label known read v = .ok a) :
    ofObject label known read (write a) = .ok a ∧ KeepsUnknown known v (write a) := by
  obtain ⟨fields, rfl, spelt, found⟩ := ofObject_eq_ok_iff.mp reads
  obtain ⟨written, writes, again, unknown⟩ := rewrites found
  have same : unspelt? known written = none := by rw [unspelt?, unknown]; exact spelt
  exact ⟨ofObject_eq_ok_iff.mpr ⟨written, writes, same, again⟩, fields, written, rfl, writes, unknown⟩

/-- Objects that are rewritten one by one are read again as a list. -/
theorem list_rewrites (rewrites : Rewrites known read write) {items : List Value} {as : List α}
    (reads : List.Forall₂ (fun item a => ofObject label known read item = .ok a) items as) :
    list (ofObject label known read) (.arr (as.map write)) = .ok as ∧
      List.Forall₂ (KeepsUnknown known) items (as.map write) := by
  simp only [list, listFrom_eq_ok_iff]
  induction reads with
  | nil => exact ⟨.nil, .nil⟩
  | cons first _ ih =>
    obtain ⟨again, keeps⟩ := ofObject_rewrites rewrites first
    exact ⟨.cons again ih.1, .cons keeps ih.2⟩

end

theorem optional_ident_restores (id : Option Ident) :
    optional ident (Ident.optionalValue id) = .ok id :=
  optional_restores (by rintro (_ | _) <;> nofun) ident_restores id

theorem optional_string_restores (s : Option String) :
    optional string (Value.optional .str s) = .ok s :=
  @optional_restores String string .str nofun (fun _ => rfl) s

theorem optional_int_restores (n : Option Int) : optional Schema.int (Value.optional .int n) = .ok n :=
  @optional_restores Int Schema.int .int nofun (fun _ => rfl) n

theorem optional_place_restores (p : Option Place) :
    optional place (Value.optional placeValue p) = .ok p :=
  optional_restores nofun place_restores p

structure TileReads (fields : Fields) (t : TileEntry) : Prop where
  place : required place "position" fields = .ok t.place
  id : fieldOr (optional ident) none "id" fields = .ok t.id
  mechanic : fieldOr (optional string) none "mechanic" fields = .ok t.mechanic
  params : fieldOr object [] "mechanic_params" fields = .ok t.params
  joker : fieldOr bool false "joker" fields = .ok t.joker
  extra : extras tileNames fields = t.extra

theorem tileOfFields_eq_ok_iff {fields : Fields} {t : TileEntry} :
    tileOfFields fields = .ok t ↔ TileReads fields t := by
  constructor
  · intro read
    simp only [tileOfFields, Checked.seq_eq_ok_iff, Checked.map_eq_ok_iff] at read
    obtain ⟨_, _, ⟨_, _, ⟨_, _, ⟨_, _, ⟨_, _, ⟨_, place, rfl⟩, id, rfl⟩, mechanic, rfl⟩, params, rfl⟩,
      joker, rfl⟩, ⟨⟩, rfl⟩ := read
    exact ⟨place, id, mechanic, params, joker, rfl⟩
  · rintro ⟨place, id, mechanic, params, joker, extra⟩
    rw [tileOfFields, place, id, mechanic, params, joker, extra]
    rfl

theorem tile_rewrites : Rewrites tileNames tileOfFields tileValue := by
  intro fields t read
  have unknown := (tileOfFields_eq_ok_iff.mp read).extra.symm
  refine ⟨_, rfl, tileOfFields_eq_ok_iff.mpr ?_, ?_⟩
  · exact {
      place := required_of_lookup rfl (place_restores _)
      id := fieldOr_of_lookup rfl (optional_ident_restores _)
      mechanic := fieldOr_of_lookup rfl (optional_string_restores _)
      params := fieldOr_of_lookup rfl rfl
      joker := fieldOr_of_lookup rfl rfl
      extra := extras_append rfl unknown }
  · exact (extras_append rfl unknown).trans unknown

structure HintReads (fields : Fields) (h : HintEntry) : Prop where
  trigger : fieldOr string "death_count" "trigger" fields = .ok h.trigger
  threshold : fieldOr Schema.int 0 "threshold" fields = .ok h.threshold
  text : fieldOr string "" "text" fields = .ok h.text
  duration : fieldOr (optional Schema.int) none "duration" fields = .ok h.duration
  extra : extras hintNames fields = h.extra

theorem hintOfFields_eq_ok_iff {fields : Fields} {h : HintEntry} :
    hintOfFields fields = .ok h ↔ HintReads fields h := by
  constructor
  · intro read
    simp only [hintOfFields, Checked.seq_eq_ok_iff, Checked.map_eq_ok_iff] at read
    obtain ⟨_, _, ⟨_, _, ⟨_, _, ⟨_, _, ⟨_, trigger, rfl⟩, threshold, rfl⟩, text, rfl⟩, duration, rfl⟩, ⟨⟩,
      rfl⟩ := read
    exact ⟨trigger, threshold, text, duration, rfl⟩
  · rintro ⟨trigger, threshold, text, duration, extra⟩
    rw [hintOfFields, trigger, threshold, text, duration, extra]
    rfl

theorem hint_rewrites : Rewrites hintNames hintOfFields hintValue := by
  intro fields h read
  have unknown := (hintOfFields_eq_ok_iff.mp read).extra.symm
  refine ⟨_, rfl, hintOfFields_eq_ok_iff.mpr ?_, ?_⟩
  · exact {
      trigger := fieldOr_of_lookup rfl rfl
      threshold := fieldOr_of_lookup rfl rfl
      text := fieldOr_of_lookup rfl rfl
      duration := fieldOr_of_lookup rfl (optional_int_restores _)
      extra := extras_append rfl unknown }
  · exact (extras_append rfl unknown).trans unknown

structure CueReads (fields : Fields) (c : CueEntry) : Prop where
  kind : required string "type" fields = .ok c.kind
  delay : fieldOr Schema.int 0 "delay" fields = .ok c.delay
  extra : extras cueNames fields = c.extra

theorem cueOfFields_eq_ok_iff {fields : Fields} {c : CueEntry} :
    cueOfFields fields = .ok c ↔ CueReads fields c := by
  constructor
  · intro read
    simp only [cueOfFields, Checked.seq_eq_ok_iff, Checked.map_eq_ok_iff] at read
    obtain ⟨_, _, ⟨_, _, ⟨_, kind, rfl⟩, delay, rfl⟩, ⟨⟩, rfl⟩ := read
    exact ⟨kind, delay, rfl⟩
  · rintro ⟨kind, delay, extra⟩
    rw [cueOfFields, kind, delay, extra]
    rfl

theorem cue_rewrites : Rewrites cueNames cueOfFields cueValue := by
  intro fields c read
  have unknown := (cueOfFields_eq_ok_iff.mp read).extra.symm
  refine ⟨_, rfl, cueOfFields_eq_ok_iff.mpr ?_, ?_⟩
  · exact {
      kind := required_of_lookup rfl rfl
      delay := fieldOr_of_lookup rfl rfl
      extra := extras_append rfl unknown }
  · exact (extras_append rfl unknown).trans unknown

/-- The fields of a level, each as it is read. -/
structure Reads (fields : Fields) (b : Blueprint) : Prop where
  id : fieldOr (optional ident) none "id" fields = .ok b.id
  title : fieldOr string "" "title" fields = .ok b.title
  size : fieldOr side Size.default "grid_size" fields = .ok ⟨b.size, b.size_pos, b.size_le⟩
  start : fieldOr (optional place) none "start" fields = .ok b.start
  exit : fieldOr (optional place) none "exit" fields = .ok b.exit
  tiles : fieldOr (list (ofObject "CellEntry" tileNames tileOfFields)) [] "cells" fields = .ok b.tiles
  rules : fieldOr (list object) [] "rules" fields = .ok b.rules
  hints : fieldOr (list (ofObject "HintEntry" hintNames hintOfFields)) [] "hints" fields = .ok b.hints
  border : fieldOr (optional string) (some "kill") "border_behavior" fields = .ok b.border
  cues : fieldOr (list (ofObject "StartEventEntry" cueNames cueOfFields)) [] "on_start" fields = .ok b.cues
  patterns : fieldOr object [] "music_patterns" fields = .ok b.patterns
  wallHint : fieldOr (optional string) none "wall_hint" fields = .ok b.wallHint
  deathMessage : fieldOr string "You fell." "death_message" fields = .ok b.deathMessage
  winMessage : fieldOr string "Pattern understood." "win_message" fields = .ok b.winMessage
  extra : extras names fields = b.extra

theorem ofFields_eq_ok_iff {fields : Fields} {b : Blueprint} :
    ofFields fields = .ok b ↔ Reads fields b := by
  constructor
  · intro read
    simp only [ofFields, Checked.seq_eq_ok_iff, Checked.map_eq_ok_iff] at read
    obtain ⟨_, _, ⟨_, _, ⟨_, _, ⟨_, _, ⟨_, _, ⟨_, _, ⟨_, _, ⟨_, _, ⟨_, _, ⟨_, _, ⟨_, _, ⟨_, _, ⟨_, _,
      ⟨_, _, ⟨_, id, rfl⟩, title, rfl⟩, size, rfl⟩, start, rfl⟩, exit, rfl⟩, tiles, rfl⟩, rules, rfl⟩,
      hints, rfl⟩, border, rfl⟩, cues, rfl⟩, patterns, rfl⟩, wallHint, rfl⟩, deathMessage, rfl⟩,
      winMessage, rfl⟩, ⟨⟩, rfl⟩ := read
    exact ⟨id, title, size, start, exit, tiles, rules, hints, border, cues, patterns, wallHint,
      deathMessage, winMessage, rfl⟩
  · intro reads
    rw [ofFields, reads.id, reads.title, reads.size, reads.start, reads.exit, reads.tiles, reads.rules,
      reads.hints, reads.border, reads.cues, reads.patterns, reads.wallHint, reads.deathMessage,
      reads.winMessage, reads.extra]
    rfl

theorem rules_restore (rules : List Fields) : list object (.arr (rules.map .obj)) = .ok rules := by
  simp only [list, listFrom_eq_ok_iff, List.forall₂_map_left_iff, List.forall₂_same]
  exact fun _ _ => rfl

theorem blueprint_rewrites : Rewrites names ofFields value := by
  intro fields b read
  have reads := ofFields_eq_ok_iff.mp read
  have unknown := reads.extra.symm
  refine ⟨_, rfl, ofFields_eq_ok_iff.mpr ?_, ?_⟩
  · exact {
      id := fieldOr_of_lookup rfl (optional_ident_restores _)
      title := fieldOr_of_lookup rfl rfl
      size := fieldOr_of_lookup rfl (side_restores b)
      start := fieldOr_of_lookup rfl (optional_place_restores _)
      exit := fieldOr_of_lookup rfl (optional_place_restores _)
      tiles := fieldOr_of_lookup rfl (list_rewrites tile_rewrites (fieldOr_list_reads reads.tiles)).1
      rules := fieldOr_of_lookup rfl (rules_restore _)
      hints := fieldOr_of_lookup rfl (list_rewrites hint_rewrites (fieldOr_list_reads reads.hints)).1
      border := fieldOr_of_lookup rfl (optional_string_restores _)
      cues := fieldOr_of_lookup rfl (list_rewrites cue_rewrites (fieldOr_list_reads reads.cues)).1
      patterns := fieldOr_of_lookup rfl rfl
      wallHint := fieldOr_of_lookup rfl (optional_string_restores _)
      deathMessage := fieldOr_of_lookup rfl rfl
      winMessage := fieldOr_of_lookup rfl rfl
      extra := extras_append rfl unknown }
  · exact (extras_append rfl unknown).trans unknown

end Blueprint

namespace Level

/-- What is read as a level is read the same after it is written out: the same level, or the same fault. -/
theorem ofValue_written {v : Value} {b : Blueprint} (read : Blueprint.ofValue v = .ok b)
    (again : Blueprint.ofValue b.value = .ok b) : ofValue b.value = ofValue v := by
  simp only [ofValue, read, again]

end Level

open Schema in
/-- Reading settles a value: what is read as a level, however it was spelled, is written as a value that is
read as the very same level. Nothing that is not known here is lost on the way, neither of the level nor of
its tiles, hints and cues, entry by entry; and the two values make the same playable level, or end in the
same fault, whatever id they were asked for by. -/
theorem Blueprint.ofValue_value {v : Value} {b : Blueprint} (read : ofValue v = .ok b) :
    ofValue b.value = .ok b ∧
    (∃ fields written, v = .obj fields ∧ b.value = .obj written ∧
      extras names written = extras names fields ∧
      List.Forall₂ (KeepsUnknown tileNames) (itemsAt fields "cells") (itemsAt written "cells") ∧
      List.Forall₂ (KeepsUnknown hintNames) (itemsAt fields "hints") (itemsAt written "hints") ∧
      List.Forall₂ (KeepsUnknown cueNames) (itemsAt fields "on_start") (itemsAt written "on_start")) ∧
    Level.ofValue b.value = Level.ofValue v ∧
    ∀ asked, Level.ofAsked asked b.value = Level.ofAsked asked v := by
  obtain ⟨again, fields, written, rfl, writes, unknown⟩ := ofObject_rewrites blueprint_rewrites read
  obtain ⟨_, ⟨⟩, _, found⟩ := ofObject_eq_ok_iff.mp read
  have before := ofFields_eq_ok_iff.mp found
  have same := Level.ofValue_written read again
  refine ⟨again, ⟨fields, _, rfl, rfl, ?_, ?_, ?_, ?_⟩, same, fun asked => ?_⟩
  · cases writes
    exact unknown
  · exact (list_rewrites tile_rewrites (fieldOr_list_reads before.tiles)).2
  · exact (list_rewrites hint_rewrites (fieldOr_list_reads before.hints)).2
  · exact (list_rewrites cue_rewrites (fieldOr_list_reads before.cues)).2
  · rw [Level.ofAsked, Level.ofAsked, same]

/-- A level in many spellings: a truth value for an id, texts and a float for numbers, a number for yes. -/
theorem Blueprint.ofValue_value_spellings :
    let loose : Value := .obj [("mood", .str "calm"), ("id", .bool true), ("grid_size", .str " +1_0.0 "),
      ("start", .arr [.bool false, .str "2"]),
      ("cells", .arr [.obj [("note", .null), ("position", .arr [.float 3, .int 1]), ("joker", .int 1)]]),
      ("on_start", .arr [.obj [("type", .str "show_hint"), ("delay", .str "5"), ("hint_text", .str "Go")]])]
    let plain : Value := .obj [("id", .int 1), ("title", .str ""), ("grid_size", .int 10),
      ("start", .arr [.int 0, .int 2]), ("exit", .null),
      ("cells", .arr [.obj [("position", .arr [.int 3, .int 1]), ("id", .null), ("mechanic", .null),
        ("mechanic_params", .obj []), ("joker", .bool true), ("note", .null)]]),
      ("rules", .arr []), ("hints", .arr []), ("border_behavior", .str "kill"),
      ("on_start", .arr [.obj [("type", .str "show_hint"), ("delay", .int 5), ("hint_text", .str "Go")]]),
      ("music_patterns", .obj []), ("wall_hint", .null), ("death_message", .str "You fell."),
      ("win_message", .str "Pattern understood."), ("mood", .str "calm")]
    ∃ b : Blueprint, ofValue loose = .ok b ∧ b.value = plain ∧ ofValue plain = .ok b ∧
      Level.ofValue plain = Level.ofValue loose := by
  intro loose plain
  have read : ofValue loose = .ok (.build (some (.int 1)) "" ⟨10, by decide, by decide⟩ (some ⟨0, 2⟩) none
      [⟨⟨3, 1⟩, none, none, [], true, [("note", .null)]⟩] [] [] (some "kill")
      [⟨"show_hint", 5, [("hint_text", .str "Go")]⟩] [] none "You fell." "Pattern understood."
      [("mood", .str "calm")]) := by
    rfl
  obtain ⟨again, _, same, _⟩ := ofValue_value read
  exact ⟨_, read, rfl, again, same⟩

end TilePuzzle
