import TilePuzzle.Proofs.Canonical
import TilePuzzle.Proofs.Ticking

/-! What becomes of the name of a sound. An effect of a rule takes the text of whatever it is given, and
looks no pattern up for an empty name; a cue keeps what it is given, and has no event at all for what
cannot be a key. So the two play the same sound for null and for texts, unless a level has a pattern under
the empty name, and for nothing else. -/
namespace TilePuzzle

namespace Effect

def soundOf : Value → Option String
  | .null => none
  | v => some v.text

theorem ofValue_playSound {fields : Fields} (tag : Value.get fields "type" = .str "play_sound") :
    ofValue (.obj fields) = .ok (.playSound (soundOf (Value.get fields "sound_id"))) := by
  rw [ofValue_obj, tag]
  change ofKind .playSound fields = _
  cases sound : Value.get fields "sound_id" <;> simp [ofKind, sound, soundOf]

end Effect

namespace Cue

/-- What a cue comes to that plays a sound. Only a text finds a pattern, and a container breaks it. -/
def soundEvent (patterns : Fields) : Value → Except Fault Event
  | .str s => .ok (.soundStarted (.str s) (Value.get patterns s))
  | .arr items => .error (.unhashable (Value.arr items).kind)
  | .obj fields => .error (.unhashable (Value.obj fields).kind)
  | v => .ok (.soundStarted v .null)

theorem event_playSound {patterns : Fields} {cue : Cue} (kind : cue.kind = "play_sound") :
    cue.event patterns = (soundEvent patterns (Value.get cue.params "sound_id")).map some := by
  simp only [event, kind]
  cases Value.get cue.params "sound_id" <;> rfl

end Cue

namespace Blueprint
open Schema

/-- A cue entry of this kind is a cue that plays the sound of the entry. -/
theorem cueOf_playSound {fields : Fields} {entry : CueEntry} (read : cueOfFields fields = .ok entry)
    (tag : Value.get fields "type" = .str "play_sound") :
    (Level.cueOf entry).kind = "play_sound" ∧
      Value.get (Level.cueOf entry).params "sound_id" = Value.get fields "sound_id" := by
  have reads := cueOfFields_eq_ok_iff.mp read
  constructor
  · have kind := reads.kind
    unfold required at kind
    split at kind
    next v found =>
      have same : v = .str "play_sound" := by rw [← tag, Value.get, found]; rfl
      subst same
      exact (Checked.ok.inj kind).symm
    next => cases kind
  · change Value.get entry.extra "sound_id" = _
    rw [← reads.extra]
    exact get_extras (by decide)

end Blueprint

/-- An effect and a cue play the same sound just for null and for texts, the empty one only as long as the
level has no pattern under it. -/
theorem Cue.soundEvent_eq_iff (patterns : Fields) (v : Value) :
    soundEvent patterns v = .ok (Referee.soundEvent patterns (Effect.soundOf v)) ↔
      v = .null ∨ ∃ s, v = .str s ∧ (s = "" → Value.get patterns "" = .null) := by
  cases v with
  | null => simp [soundEvent, Effect.soundOf, Referee.soundEvent]
  | str s =>
    by_cases empty : s = ""
    · simp [soundEvent, Effect.soundOf, Referee.soundEvent, Value.text, empty]
    · simp [soundEvent, Effect.soundOf, Referee.soundEvent, Value.text, empty]
  | bool | int | float | arr | obj => simp [soundEvent, Effect.soundOf, Referee.soundEvent]

namespace Game

/-- A sound in a rule and in a cue of a level that is being played, whatever the level gives as its name and
whatever was done before. The effect always has its one event: with the text of the name, and with the
pattern that the level has under it, none under an empty one. The cue has its event with the name as it is
given, and with the pattern if that is a text; it breaks on a container. Both are one event just for null
and for texts, an empty one as long as the level has no pattern under it. -/
theorem play_sounds {lobby after : Lobby} {levels : LevelSet} {predicates : Predicates} {now : Number}
    {id : String} {session : Session}
    (created : lobby.create levels predicates now = (.ok (id, session), after))
    (listeners : Nat) (ops : List Op) {level : Level}
    (here : ((ofSession session listeners).play ops).session.level = some level)
    {said scheduled : Fields} {entry : CueEntry} (effect : Value.get said "type" = .str "play_sound")
    (cue : Value.get scheduled "type" = .str "play_sound")
    (read : Blueprint.cueOfFields scheduled = .ok entry)
    (same : Value.get scheduled "sound_id" = Value.get said "sound_id") :
    let sound := Value.get said "sound_id"
    let patterns := level.blueprint.patterns
    ∃ e, Effect.ofValue (.obj said) = .ok e ∧
      (∀ r, ((ofSession session listeners).play ops).session.referee.Keeps r →
        (r.execute e).1 = [Referee.soundEvent patterns (Effect.soundOf sound)]) ∧
      (Level.cueOf entry).event patterns = (Cue.soundEvent patterns sound).map some ∧
      (Fails ((Level.cueOf entry).event patterns) ↔
        (∃ items, sound = .arr items) ∨ ∃ fields, sound = .obj fields) ∧
      (Cue.soundEvent patterns sound = .ok (Referee.soundEvent patterns (Effect.soundOf sound)) ↔
        sound = .null ∨ ∃ s, sound = .str s ∧ (s = "" → Value.get patterns "" = .null)) := by
  intro sound patterns
  obtain ⟨made, _, _⟩ := Lobby.create_ok created
  have coherent := play_keeps perform_coherent (P := fun g => g.session.Coherent)
    (g := ofSession session listeners) (Session.create_coherent made) ops
  have known := (coherent.inPlace level here).patterns
  obtain ⟨kind, name⟩ := Blueprint.cueOf_playSound read cue
  have event : (Level.cueOf entry).event patterns = (Cue.soundEvent patterns sound).map some := by
    rw [Cue.event_playSound kind, name, same]
  refine ⟨_, Effect.ofValue_playSound effect, fun r keeps => ?_, event, ?_, Cue.soundEvent_eq_iff _ _⟩
  · rw [Referee.execute, keeps.patterns, known]
  · rw [event, fails_map]
    cases sound <;> simp [Cue.soundEvent]

/-- A number for a name: the effect plays the pattern that the level has under its text, the cue nothing. A
list for a name: the effect plays its text, the cue breaks. -/
theorem play_sounds_number :
    let named (sound : Value) : Fields := [("type", .str "play_sound"), ("sound_id", sound)]
    let level : Value := .obj [("music_patterns", .obj [("5", .str "tune")])]
    let levels : LevelSet := .catalog ⟨[(.int 1, level)], [.int 1]⟩
    ∃ session after, ({} : Lobby).create levels [] (.int 0) = (.ok ("s0", session), after) ∧
      let g := (ofSession session 0).play [.load 0]
      ∃ level e entry, g.session.level = some level ∧
        Effect.ofValue (.obj (named (.int 5))) = .ok e ∧
        (g.session.referee.execute e).1 = [.soundStarted (.str "5") (.str "tune")] ∧
        Blueprint.cueOfFields (named (.int 5)) = .ok entry ∧
        (Level.cueOf entry).event level.blueprint.patterns = .ok (some (.soundStarted (.int 5) .null)) ∧
        ∃ other, Blueprint.cueOfFields (named (.arr [.int 5])) = .ok other ∧
          Fails ((Level.cueOf other).event level.blueprint.patterns) := by
  intro named level levels
  refine ⟨_, _, rfl, ?_⟩
  intro g
  let entry (sound : Value) : CueEntry := ⟨"play_sound", 0, [("sound_id", sound)]⟩
  have read (sound : Value) : Blueprint.cueOfFields (named sound) = .ok (entry sound) := rfl
  obtain ⟨e, effect, ruled, cued, _, _⟩ := @play_sounds {} _ levels [] (.int 0) "s0" _ rfl 0 [.load 0] _ rfl
    (named (.int 5)) (named (.int 5)) _ rfl rfl (read _) rfl
  obtain ⟨_, _, _, _, breaks, _⟩ := @play_sounds {} _ levels [] (.int 0) "s0" _ rfl 0 [.load 0] _ rfl
    (named (.arr [.int 5])) (named (.arr [.int 5])) _ rfl rfl (read _) rfl
  exact ⟨_, e, _, rfl, effect, ruled _ (.refl _), read _, cued, _, read _, breaks.mpr (.inl ⟨_, rfl⟩)⟩

end Game
end TilePuzzle
