import TilePuzzle.Proofs.Player
import TilePuzzle.Referee

/-! What a referee leaves alone while it judges: the level it was given. Its effects send the token
only to places on the board of that level. -/
namespace TilePuzzle

def Event.Within (event : Event) (size : Nat) : Prop :=
  ∀ place, event.place? = some place → place.within size = true

namespace Referee

/-- The same level, judged by the same predicates; only what is remembered may differ. -/
structure Keeps (r after : Referee) : Prop where
  config : after.config = r.config
  predicates : after.predicates = r.predicates
  rules : after.rules = r.rules
  board : after.board = r.board
  patterns : after.patterns = r.patterns

theorem Keeps.refl (r : Referee) : r.Keeps r := ⟨rfl, rfl, rfl, rfl, rfl⟩

theorem Keeps.trans {r s t : Referee} (first : r.Keeps s) (second : s.Keeps t) : r.Keeps t where
  config := second.config.trans first.config
  predicates := second.predicates.trans first.predicates
  rules := second.rules.trans first.rules
  board := second.board.trans first.board
  patterns := second.patterns.trans first.patterns

theorem keeps_memory (r : Referee) (memory : Memory) (asked : List String) :
    r.Keeps { r with memory, asked } := ⟨rfl, rfl, rfl, rfl, rfl⟩

theorem execute_keeps (r : Referee) (effect : Effect) : r.Keeps (r.execute effect).2 := by
  cases effect with
  | teleport col row =>
    simp only [execute]
    split <;> exact .refl r
  | win | showHint | unsupported => exact .refl r
  | kill | playSound | stopSound => exact keeps_memory r _ _

/-- An effect sends the token to places on the board only. -/
theorem execute_within {r : Referee} {board : Board} (judged : r.board = some board)
    (effect : Effect) : ∀ event ∈ (r.execute effect).1, event.Within board.size := by
  intro event member place carried
  cases effect with
  | teleport col row =>
    simp only [execute, judged] at member
    split at member
    next inside =>
      obtain rfl := List.mem_singleton.mp member
      cases carried
      exact inside
    next => cases member
  | playSound sound =>
    cases sound <;> obtain rfl := List.mem_singleton.mp member <;> cases carried
  | unsupported => cases member
  | kill | win | showHint | stopSound =>
    obtain rfl := List.mem_singleton.mp member
    cases carried

theorem executeIfAny_keeps (r : Referee) (effect : Option Effect) :
    r.Keeps (r.executeIfAny effect).2 := by
  cases effect with
  | none => exact .refl r
  | some effect => exact execute_keeps r effect

theorem executeIfAny_within {r : Referee} {board : Board} (judged : r.board = some board)
    (effect : Option Effect) :
    ∀ event ∈ (r.executeIfAny effect).1, event.Within board.size := by
  cases effect with
  | none => exact nofun
  | some effect => exact execute_within judged effect

/-- A landing is judged in two parts: it is remembered, then the first rule that holds takes
effect. -/
theorem land_cases (r : Referee) (place : Place) :
    let recorded := record r.memory r.config.capacity.toNat (r.tileAt place)
    ∃ asked, let judged := { r with memory := recorded, asked }
      (∃ f, r.land place = (.error f, judged)) ∨
      (∃ effect, r.land place =
        (.ok (judged.executeIfAny effect).1, (judged.executeIfAny effect).2)) := by
  simp only [land]
  generalize firstMatch _ _ _ = found
  obtain ⟨asked, effect⟩ := found
  refine ⟨r.asked ++ asked, ?_⟩
  cases effect with
  | error f => exact .inl ⟨f, rfl⟩
  | ok effect => exact .inr ⟨effect, rfl⟩

theorem land_keeps (r : Referee) (place : Place) : r.Keeps (r.land place).2 := by
  obtain ⟨asked, ⟨f, failed⟩ | ⟨effect, landed⟩⟩ := r.land_cases place
  · rw [failed]; exact keeps_memory r _ asked
  · rw [landed]; exact (keeps_memory r _ asked).trans (executeIfAny_keeps _ effect)

theorem land_within {r after : Referee} {board : Board} {place : Place} {events : List Event}
    (judged : r.board = some board) (landed : r.land place = (.ok events, after)) :
    ∀ event ∈ events, event.Within board.size := by
  obtain ⟨asked, ⟨f, failed⟩ | ⟨effect, executed⟩⟩ := r.land_cases place
  · rw [failed] at landed; cases landed
  · rw [executed] at landed
    cases landed
    exact executeIfAny_within ((keeps_memory r _ asked).board.trans judged) effect

/-- A tick changes the idle time, and at most one idle rule takes effect. -/
theorem tick_cases (r : Referee) (moving : Bool) :
    ∃ idle, let judged := { r with memory := { r.memory with idle } }
      (∃ f, r.tick moving = (.error f, judged)) ∨
      (∃ effect, r.tick moving =
        (.ok (judged.executeIfAny effect).1, (judged.executeIfAny effect).2)) := by
  let passed : Int := if moving then 0 else r.memory.idle + 1
  simp only [tick]
  split
  next f _ => exact ⟨passed, .inl ⟨f, rfl⟩⟩
  next => exact ⟨passed, .inr ⟨none, rfl⟩⟩
  next effect _ => exact ⟨0, .inr ⟨some effect, rfl⟩⟩

theorem tick_keeps (r : Referee) (moving : Bool) : r.Keeps (r.tick moving).2 := by
  obtain ⟨idle, ⟨f, failed⟩ | ⟨effect, passed⟩⟩ := r.tick_cases moving
  · rw [failed]; exact keeps_memory r _ r.asked
  · rw [passed]; exact (keeps_memory r _ r.asked).trans (executeIfAny_keeps _ effect)

theorem tick_within {r after : Referee} {board : Board} {moving : Bool} {events : List Event}
    (judged : r.board = some board) (passed : r.tick moving = (.ok events, after)) :
    ∀ event ∈ events, event.Within board.size := by
  obtain ⟨idle, ⟨f, failed⟩ | ⟨effect, executed⟩⟩ := r.tick_cases moving
  · rw [failed] at passed; cases passed
  · rw [executed] at passed
    cases passed
    exact executeIfAny_within ((keeps_memory r _ r.asked).board.trans judged) effect

theorem borderHit_keeps (r : Referee) (border : Border) : r.Keeps (r.borderHit border).2 := by
  cases border with
  | kill | exit => exact execute_keeps r _
  | block | wrap => exact .refl r

theorem borderHit_within {r : Referee} {board : Board} (judged : r.board = some board)
    (border : Border) : ∀ event ∈ (r.borderHit border).1, event.Within board.size := by
  cases border with
  | kill | exit => exact execute_within judged _
  | block | wrap => exact nofun

theorem hints_place (r : Referee) (hints : List Hint) :
    ∀ event ∈ r.hints hints, event.place? = none := by
  intro event member
  obtain ⟨hint, _, rfl⟩ := List.mem_map.mp member
  rfl

end Referee
end TilePuzzle
