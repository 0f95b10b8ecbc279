import TilePuzzle.Direction

/-! What happens during a simulation, for those who watch it. -/
namespace TilePuzzle

inductive Event
  | landed (place : Place)
  | borderHit (direction : Direction)
  | killed
  | won
  | teleported (place : Place)
  | hintShown (text duration : Value)
  | soundStarted (sound pattern : Value)
  | soundStopped
  | sequenceShown (colors : List Value) (duration label : Value)
  | levelStarted (id : Value) (title : String) (wallHint : Option String)

namespace Event

def name : Event → String
  | landed _ => "landed"
  | borderHit _ => "border_hit"
  | killed => "killed"
  | won => "won"
  | teleported _ => "teleported"
  | hintShown .. => "hint_shown"
  | soundStarted .. => "sound_started"
  | soundStopped => "sound_stopped"
  | sequenceShown .. => "sequence_shown"
  | levelStarted .. => "level_started"

def placeFields (place : Place) : Fields := [("col", .int place.col), ("row", .int place.row)]

def fields : Event → Fields
  | landed place | teleported place => placeFields place
  | borderHit direction => [("direction", .str direction.name)]
  | killed | won | soundStopped => []
  | hintShown text duration => [("text", text), ("duration_ms", duration)]
  | soundStarted sound pattern => [("sound_id", sound), ("pattern", pattern)]
  | sequenceShown colors duration label =>
    [("colors", .arr colors), ("duration_ms", duration), ("label", label)]
  | levelStarted id title wallHint =>
    [("level_id", id), ("title", .str title), ("wall_hint", Value.optional .str wallHint)]

end Event
end TilePuzzle
