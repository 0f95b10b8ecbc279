import TilePuzzle.Rule.Condition

/-! The effects of rules and how they are read from data. -/
namespace TilePuzzle

inductive Effect
  | kill
  | win
  | teleport (col row : Int)
  | showHint (text : String) (duration : Int)
  | playSound (sound : Option String)
  | stopSound
  | unsupported (typeName : String)
  deriving DecidableEq

namespace Effect

inductive Kind
  | kill
  | win
  | teleport
  | showHint
  | playSound
  | stopSound
  deriving DecidableEq

def Kind.ofName? : String → Option Kind
  | "kill" => some kill
  | "win" => some win
  | "teleport" => some teleport
  | "show_hint" => some showHint
  | "play_sound" => some playSound
  | "stop_sound" => some stopSound
  | _ => none

def Kind.ofTag? : Value → Option Kind
  | .str s => ofName? s
  | _ => none

def wholeField (fields : Fields) (name : String) : Except Fault Int :=
  (Condition.numberField fields name 0).trunc

/-- How long a hint shows; zero or no number is three seconds. -/
def durationField (fields : Fields) : Except Fault Int :=
  let n := Condition.numberField fields "duration" 0
  if n.isZero then .ok 3000 else n.trunc

def ofKind (kind : Kind) (fields : Fields) : Except Fault Effect :=
  match kind with
  | .kill => .ok .kill
  | .win => .ok .win
  | .teleport => do
    let col ← wholeField fields "target_col"
    let row ← wholeField fields "target_row"
    return .teleport col row
  | .showHint => do
    let duration ← durationField fields
    return .showHint (Condition.textField fields "hint_text") duration
  | .playSound =>
    match Value.get fields "sound_id" with
    | .null => .ok (.playSound none)
    | v => .ok (.playSound (some v.text))
  | .stopSound => .ok .stopSound

def ofValue : Value → Except Fault Effect
  | .obj fields =>
    match Kind.ofTag? (Value.get fields "type") with
    | some kind => ofKind kind fields
    | none => .ok (.unsupported (Value.get fields "type").text)
  | v => .ok (.unsupported v.shown)

end Effect
end TilePuzzle
