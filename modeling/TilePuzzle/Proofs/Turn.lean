import Mathlib.Logic.Relation
import TilePuzzle.Game
import TilePuzzle.Proofs.Referee

/-! A frame, taken apart. The player moves; then rules and hints act on the turn in small steps, of
which there are five; then the tiles are animated. What every small step keeps, a frame keeps. -/
namespace TilePuzzle

open Relation (ReflTransGen)

namespace Turn

/-- What rules and hints can do to a turn, one thing at a time, on a board with this side. -/
inductive Step (size : Nat) : Turn → Turn → Prop
  | emit (t : Turn) (event : Event) : event.Within size → Step size t (t.emit event)
  | judge (t : Turn) (referee : Referee) : t.session.referee.Keeps referee →
      Step size t { t with session := { t.session with referee } }
  | die (t : Turn) : t.session.isActive = true →
      Step size t { t with session := { t.session with
        stage := .dead, player := t.session.player.die, intents := t.session.intents.flush } }
  | win (t : Turn) : t.session.isActive = true →
      Step size t { t with session := { t.session with
        stage := .won, intents := t.session.intents.flush } }
  | teleport (t : Turn) (place : Place) : place.within size = true →
      Step size t { t with session := { t.session with
        player := (t.session.player.teleport place).2 } }

abbrev Steps (size : Nat) : Turn → Turn → Prop := ReflTransGen (Step size)

theorem Steps.keeps {size : Nat} {t u : Turn} (steps : Steps size t u) :
    t.session.referee.Keeps u.session.referee := by
  induction steps with
  | refl => exact .refl _
  | tail _ step ih =>
    cases step with
    | judge _ keeps => exact ih.trans keeps
    | emit | die | win | teleport => exact ih

end Turn

structure Session.Stays (s after : Session) : Prop where
  levels : after.levels = s.levels
  createdAt : after.createdAt = s.createdAt
  config : after.config = s.config
  levelIds : after.levelIds = s.levelIds
  levelIndex : after.levelIndex = s.levelIndex
  level : after.level = s.level
  frame : after.frame = s.frame
  clock : after.clock = s.clock

namespace Turn

theorem Steps.stays {size : Nat} {t u : Turn} (steps : Steps size t u) :
    t.session.Stays u.session := by
  induction steps with
  | refl => exact ⟨rfl, rfl, rfl, rfl, rfl, rfl, rfl, rfl⟩
  | tail _ step ih =>
    obtain ⟨levels, createdAt, config, levelIds, levelIndex, level, frame, clock⟩ := ih
    cases step <;> exact ⟨levels, createdAt, config, levelIds, levelIndex, level, frame, clock⟩

theorem Steps.notLoading {size : Nat} {t u : Turn} (steps : Steps size t u)
    (stage : t.session.stage ≠ .loading) : u.session.stage ≠ .loading := by
  induction steps with
  | refl => exact stage
  | tail _ step ih =>
    cases step with
    | emit | judge | teleport => exact ih
    | die | win => exact nofun

theorem kill_steps (size : Nat) (t : Turn) : Steps size t t.kill := by
  unfold kill
  split
  next active => exact (ReflTransGen.single (.die t active)).tail (.emit _ .killed nofun)
  next => exact .refl

theorem win_steps (size : Nat) (t : Turn) : Steps size t t.win := by
  unfold win
  split
  next active => exact (ReflTransGen.single (.win t active)).tail (.emit _ .won nofun)
  next => exact .refl

theorem applyOne_steps {size : Nat} {event : Event} (within : event.Within size) (t : Turn) :
    Steps size t (t.applyOne event) := by
  cases event with
  | killed => exact kill_steps size t
  | won => exact win_steps size t
  | teleported place =>
    exact (ReflTransGen.single (.teleport t place (within place rfl))).tail (.emit _ _ within)
  | landed | borderHit | hintShown | soundStarted | soundStopped | sequenceShown | levelStarted =>
    exact .single (.emit t _ within)

theorem apply_steps {size : Nat} {events : List Event}
    (within : ∀ event ∈ events, event.Within size) (t : Turn) : Steps size t (t.apply events) := by
  induction events generalizing t with
  | nil => exact .refl
  | cons event rest ih =>
    have first := applyOne_steps (within event (List.mem_cons_self ..)) t
    exact first.trans (ih (fun e member => within e (List.mem_cons_of_mem _ member)) _)

/-- An operation of the referee that keeps the level and gives places on its board. -/
theorem applyResult_steps {size : Nat} (t : Turn) {result : Except Fault (List Event) × Referee}
    (keeps : t.session.referee.Keeps result.2)
    (within : ∀ events, result.1 = .ok events → ∀ event ∈ events, event.Within size) :
    Steps size t (t.applyResult result).2 := by
  obtain ⟨outcome, referee⟩ := result
  have judged : Steps size t { t with session := { t.session with referee } } :=
    .single (.judge t referee keeps)
  cases outcome with
  | error f => exact judged
  | ok events => exact judged.trans (apply_steps (within events rfl) _)

section
variable {board : Board}

theorem land_steps (t : Turn) (judged : t.session.referee.board = some board) (place : Place) :
    Steps board.size t (t.applyResult (t.session.referee.land place)).2 :=
  t.applyResult_steps (Referee.land_keeps _ place) fun _ given =>
    Referee.land_within judged (Prod.ext given rfl)

theorem border_steps (t : Turn) (judged : t.session.referee.board = some board)
    (border : Border) :
    Steps board.size t ({ t with session := { t.session with
      referee := (t.session.referee.borderHit border).2 } }.apply
        (t.session.referee.borderHit border).1) :=
  (ReflTransGen.single (.judge t _ (Referee.borderHit_keeps _ border))).trans
    (apply_steps (Referee.borderHit_within judged border) _)

theorem passTime_steps (t : Turn) (judged : t.session.referee.board = some board) :
    Steps board.size t t.passTime.2 := by
  unfold passTime
  split
  · exact t.applyResult_steps (Referee.tick_keeps _ _) fun _ given =>
      Referee.tick_within judged (Prod.ext given rfl)
  · exact .refl

theorem hints_steps (size : Nat) (t : Turn) (hints : List Hint) :
    Steps size t (t.apply (t.session.referee.hints hints)) := by
  apply apply_steps
  intro event member place carried
  rw [Referee.hints_place _ _ event member] at carried
  cases carried

theorem answer_steps (t : Turn) (level : Level) (judged : t.session.referee.board = some board)
    {event : Event} (within : event.Within board.size) :
    Steps board.size t (t.answer level event).2 := by
  have shown : Steps board.size t (t.emit event) := .single (.emit t event within)
  cases event with
  | landed place =>
    have landed := land_steps (t.emit (.landed place)) judged place
    simp only [answer]
    generalize applyResult _ _ = outcome at landed ⊢
    obtain ⟨result, after⟩ := outcome
    cases result with
    | error f => exact shown.trans landed
    | ok _ => exact (shown.trans landed).trans (hints_steps _ _ _)
  | borderHit direction =>
    have hit := border_steps (t.emit (.borderHit direction)) judged level.border
    exact shown.trans hit
  | killed | won | teleported | hintShown | soundStarted | soundStopped | sequenceShown
  | levelStarted => exact shown

theorem answerAll_steps (level : Level) (t : Turn)
    (judged : t.session.referee.board = some board) {events : List Event}
    (within : ∀ event ∈ events, event.Within board.size) :
    Steps board.size t (t.answerAll level events).2 := by
  induction events generalizing t with
  | nil => exact .refl
  | cons event rest ih =>
    have first := answer_steps t level judged (within event (List.mem_cons_self ..))
    simp only [answerAll]
    generalize answer _ _ _ = outcome at first ⊢
    obtain ⟨result, after⟩ := outcome
    cases result with
    | error f => exact first
    | ok _ =>
      have board := first.keeps.board.trans judged
      exact first.trans (ih _ board fun e member => within e (List.mem_cons_of_mem _ member))

end

def offered (s : Session) : Option Direction × Intents :=
  if s.player.phase = .idle then s.intents.take else (none, s.intents)

def stride (s : Session) (level : Level) : Except Fault (List Event) × Player :=
  s.player.update (.ok (offered s).1) level.board.size level.border

def moved (t : Turn) (level : Level) : Turn :=
  { t with session := { t.session with
      intents := (offered t.session).2, player := (stride t.session level).2 } }

theorem movePlayer_eq (t : Turn) (level : Level) :
    t.movePlayer level = match (stride t.session level).1 with
      | .error f => (.error f, t.moved level)
      | .ok events => (t.moved level).answerAll level events := rfl

/-- The token is updated once; everything after it is small steps. -/
theorem movePlayer_steps (t : Turn) (level : Level)
    (judged : t.session.referee.board = some level.board)
    (within : (stride t.session level).2.Within level.board.size) :
    Steps level.board.size (t.moved level) (t.movePlayer level).2 := by
  rw [movePlayer_eq]
  cases result : (stride t.session level).1 with
  | error f => exact .refl
  | ok events =>
    apply answerAll_steps level (t.moved level) judged
    intro event member place carried
    rcases Player.update_events (Prod.ext result rfl) with none | ⟨direction, met⟩ | landed
    · rw [none] at member; cases member
    · rw [met] at member; obtain rfl := List.mem_singleton.mp member; cases carried
    · rw [landed] at member; obtain rfl := List.mem_singleton.mp member
      cases carried
      exact within.place

def animated (t : Turn) (level : Level) (board : Board) : Turn :=
  { t with session := { t.session with
      clock := t.session.clock + 1
      level := some { level with board }
      referee := t.session.referee.withBoard board } }

theorem animate_eq (t : Turn) (level : Level) :
    t.animate level = ((level.board.refresh (t.session.clock + 1 : Nat)).1,
      t.animated level (level.board.refresh (t.session.clock + 1 : Nat)).2) := rfl

end Turn

namespace Game

def opening (session : Session) : Turn :=
  { session := { session with frame := session.frame + 1 } }

/-- A frame is one update of the token, then small steps, then the animation, unless a fault kept
it from getting there. -/
theorem simulate_cases (session : Session) (level : Level)
    (judged : session.referee.board = some level.board)
    (within : session.player.Within level.board.size) :
    ∃ t, Turn.Steps level.board.size ((opening session).moved level) t ∧
      ((∃ f, simulate session level = (.error f, t)) ∨
        simulate session level = t.animate level) := by
  have still : (Turn.stride (opening session).session level).2.Within level.board.size :=
    Player.update_within within _ _
  have moves := Turn.movePlayer_steps (opening session) level judged still
  have unfolded : simulate session level = andThen
      (andThen ((opening session).movePlayer level) Turn.passTime) fun t => t.animate level := rfl
  rw [unfolded]
  generalize (opening session).movePlayer level = first at moves ⊢
  obtain ⟨result, t⟩ := first
  cases result with
  | error f => exact ⟨t, moves, .inl ⟨f, rfl⟩⟩
  | ok _ =>
    have passes := Turn.passTime_steps t (moves.keeps.board.trans judged)
    simp only [andThen]
    generalize t.passTime = second at passes ⊢
    obtain ⟨result, u⟩ := second
    cases result with
    | error f => exact ⟨u, moves.trans passes, .inl ⟨f, rfl⟩⟩
    | ok _ => exact ⟨u, moves.trans passes, .inr rfl⟩

end Game
end TilePuzzle
