import TilePuzzle.Rule.Effect

/-! Rules, hints and cues: what a level does in answer to the player, to repeated failure and to
the time since it started. -/
namespace TilePuzzle

structure Rule where
  condition : Condition
  effect : Effect

/-- A hint for those who died at least `threshold` times on a level. -/
structure Hint where
  threshold : Int
  text : Value
  duration : Value

/-- Something to show or play `delay` milliseconds after a level starts. -/
structure Cue where
  kind : String
  delay : Int
  params : Fields

def Rule.ofFields (fields : Fields) : Except Fault Rule := do
  let condition ← Condition.ofValue (Value.get fields "condition")
  let effect ← Effect.ofValue (Value.get fields "effect")
  return ⟨condition, effect⟩

def Rule.ofItems : List Value → Except Fault (List Rule)
  | [] => .ok []
  | .obj fields :: rest => do
    let first ← Rule.ofFields fields
    return first :: (← Rule.ofItems rest)
  | _ :: rest => Rule.ofItems rest

/-- Reads rules from whatever was authored; what counts as false has none. -/
def Rule.ofValue (v : Value) : Except Fault (List Rule) :=
  if v.isTruthy then v.items.bind Rule.ofItems else .ok []

end TilePuzzle
