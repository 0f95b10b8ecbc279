import TilePuzzle.Player
import TilePuzzle.Proofs.Board

/-! The token stays on the board. Its place lies on the board at all times, and so does the place
that a move under way leads to; what an update reports is the place where the token then stands. -/
namespace TilePuzzle

def Event.place? : Event → Option Place
  | .landed place | .teleported place => some place
  | _ => none

namespace Player

/-- A token on a board of some side. A move under way starts where the token stands. -/
structure Within (p : Player) (size : Nat) : Prop where
  place : p.place.within size = true
  origin : p.phase = .moving → p.origin = p.place
  target : p.phase = .moving → p.target.within size = true

/-- Showing a token moves nothing but its picture. -/
theorem showAt_frame (p : Player) (col row : Except Fault Float) :
    ∃ x y, (p.showAt col row).2 = { p with visualCol := x, visualRow := y } := by
  unfold showAt
  cases col with
  | error f => exact ⟨p.visualCol, p.visualRow, rfl⟩
  | ok x =>
    cases row with
    | error f => exact ⟨x, p.visualRow, rfl⟩
    | ok y => exact ⟨x, y, rfl⟩

/-- A token that is put on a place rests there, unless it cannot be shown there. -/
theorem reset_frame (p : Player) (place : Place) : ∃ x y,
    (p.reset place).2 = { p with
      place, origin := place, target := place, visualCol := x, visualRow := y } ∨
    (p.reset place).2 = { p with
      place, origin := place, target := place, visualCol := x, visualRow := y, phase := .idle,
      elapsed := 0 } := by
  obtain ⟨x, y, frame⟩ := showAt_frame { p with place, origin := place, target := place }
    (floatOfInt place.col) (floatOfInt place.row)
  refine ⟨x, y, ?_⟩
  simp only [reset]
  generalize showAt _ _ _ = shown at frame ⊢
  obtain ⟨result, after⟩ := shown
  subst frame
  cases result with
  | error f => exact .inl rfl
  | ok _ => exact .inr rfl

/-- A tick of a move is the last one, which ends it where it leads to, or leaves it under way. -/
theorem advance_frame (p : Player) : ∃ x y,
    p.advance.2 = { p with
      elapsed := p.elapsed + 1, phase := .idle, place := p.target, visualCol := x, visualRow := y } ∨
    p.advance.2 = { p with elapsed := p.elapsed + 1, visualCol := x, visualRow := y } := by
  simp only [advance]
  split
  · obtain ⟨x, y, frame⟩ := showAt_frame
      { p with elapsed := p.elapsed + 1, phase := .idle, place := p.target }
      (floatOfInt p.target.col) (floatOfInt p.target.row)
    refine ⟨x, y, .inl ?_⟩
    generalize showAt _ _ _ = shown at frame ⊢
    obtain ⟨result, after⟩ := shown
    subst frame
    cases result <;> rfl
  · generalize eased _ _ _ = col
    generalize eased _ _ _ = row
    obtain ⟨x, y, frame⟩ := showAt_frame { p with elapsed := p.elapsed + 1 } col row
    refine ⟨x, y, .inr ?_⟩
    generalize showAt _ _ _ = shown at frame ⊢
    obtain ⟨result, after⟩ := shown
    subst frame
    cases result <;> rfl

/-- A token that tries to move sets out or stays as it is. -/
theorem tryMove_frame (p : Player) (direction : Direction) (size : Int) (border : Border) :
    (p.tryMove direction size border).2 = p ∨
    ∃ target, (p.tryMove direction size border).2 = p.startMove target := by
  simp only [tryMove]
  split
  · exact .inr ⟨_, rfl⟩
  · cases border with
    | kill | exit | block => exact .inl rfl
    | wrap =>
      cases wrapped (p.place.step direction) size with
      | error f => exact .inl rfl
      | ok target => exact .inr ⟨target, rfl⟩

theorem reset_places (p : Player) (place : Place) :
    (p.reset place).2.place = place ∧ (p.reset place).2.origin = place ∧
    (p.reset place).2.target = place := by
  obtain ⟨x, y, frame | frame⟩ := p.reset_frame place <;> rw [frame] <;> exact ⟨rfl, rfl, rfl⟩

theorem reset_within (p : Player) {place : Place} {size : Nat}
    (inside : place.within size = true) : (p.reset place).2.Within size := by
  obtain ⟨stands, starts, leads⟩ := p.reset_places place
  constructor
  · rw [stands]; exact inside
  · intro _; rw [starts, stands]
  · intro _; rw [leads]; exact inside

theorem die_within {p : Player} {size : Nat} (within : p.Within size) : p.die.Within size where
  place := within.place
  origin := nofun
  target := nofun

theorem hover_within {p : Player} {size : Nat} (within : p.Within size) :
    p.hover.Within size where
  place := within.place
  origin := within.origin
  target := within.target

theorem startMove_within {p : Player} {target : Place} {size : Nat} (within : p.Within size)
    (inside : target.within size = true) : (p.startMove target).Within size where
  place := within.place
  origin := fun _ => rfl
  target := fun _ => inside

theorem wrapped_within {p target : Place} {size : Nat} (wraps : wrapped p size = .ok target) :
    target.within size = true := by
  unfold wrapped at wraps
  split at wraps
  · contradiction
  next nonzero =>
    cases wraps
    have positive : (0 : Int) < size := by omega
    rw [Place.within_iff]
    exact ⟨Int.fmod_nonneg_of_pos _ positive, Int.fmod_lt_of_pos _ positive,
      Int.fmod_nonneg_of_pos _ positive, Int.fmod_lt_of_pos _ positive⟩

theorem tryMove_within {p : Player} {size : Nat} (within : p.Within size)
    (direction : Direction) (border : Border) :
    (p.tryMove direction size border).2.Within size := by
  by_cases inside : (p.place.step direction).within size = true
  · simpa only [tryMove, if_pos inside] using startMove_within within inside
  · simp only [tryMove, if_neg inside]
    cases border with
    | kill | exit | block => exact within
    | wrap =>
      cases wraps : wrapped (p.place.step direction) size with
      | error f => exact within
      | ok target => exact startMove_within within (wrapped_within wraps)

/-- A tick of a move keeps the token where it was or puts it where the move leads. -/
theorem advance_within {p : Player} {size : Nat} (within : p.Within size)
    (moving : p.phase = .moving) : p.advance.2.Within size := by
  obtain ⟨x, y, frame | frame⟩ := p.advance_frame
  · rw [frame]
    exact ⟨within.target moving, nofun, nofun⟩
  · rw [frame]
    exact ⟨within.place, within.origin, within.target⟩

theorem update_within {p : Player} {size : Nat} (within : p.Within size)
    (intent : Except Fault (Option Direction)) (border : Border) :
    (p.update intent size border).2.Within size := by
  unfold update
  split
  · exact within
  next moving => exact advance_within (hover_within within) moving
  · split
    · exact hover_within within
    · exact hover_within within
    · exact tryMove_within (hover_within within) _ _

theorem advance_events {p after : Player} {events : List Event}
    (advanced : p.advance = (.ok events, after)) :
    events = [] ∨ events = [.landed after.place] := by
  simp only [advance] at advanced
  split at advanced <;> split at advanced <;> cases advanced
  · exact .inr rfl
  · exact .inl rfl

theorem tryMove_events {p after : Player} {direction : Direction} {size : Int} {border : Border}
    {events : List Event} (tried : p.tryMove direction size border = (.ok events, after)) :
    events = [] ∨ events = [.borderHit direction] := by
  simp only [tryMove] at tried
  split at tried
  · cases tried; exact .inl rfl
  · cases border with
    | kill | exit => cases tried; exact .inr rfl
    | block => cases tried; exact .inl rfl
    | wrap =>
      cases wraps : wrapped (p.place.step direction) size with
      | error f => rw [wraps] at tried; cases tried
      | ok target => rw [wraps] at tried; cases tried; exact .inl rfl

/-- A tick reports nothing, a border that was met, or the landing on the place where the token
then stands. -/
theorem update_events {p after : Player} {intent : Except Fault (Option Direction)}
    {size : Int} {border : Border} {events : List Event}
    (updated : p.update intent size border = (.ok events, after)) :
    events = [] ∨ (∃ direction, events = [.borderHit direction]) ∨
      events = [.landed after.place] := by
  unfold update at updated
  split at updated
  · cases updated; exact .inl rfl
  · rcases advance_events updated with none | landing
    · exact .inl none
    · exact .inr (.inr landing)
  · split at updated
    · cases updated
    · cases updated; exact .inl rfl
    next direction =>
      rcases tryMove_events updated with none | border
      · exact .inl none
      · exact .inr (.inl ⟨direction, border⟩)

end Player
end TilePuzzle
