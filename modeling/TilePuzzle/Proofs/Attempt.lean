import TilePuzzle.Proofs.Frame
import TilePuzzle.Proofs.Pace

/-! Attempts. A frame goes on with the attempt or ends it, by one event that is the last of its rules;
what ends it takes the intents with it, and the deaths are counted just when one is told. -/
namespace TilePuzzle

namespace Event

def isFinal : Event → Bool
  | killed | won => true
  | _ => false

def isPlain : Event → Bool
  | killed | won | levelStarted .. => false
  | _ => true

def isKilled : Event → Bool
  | killed => true
  | _ => false

/-- An event that rules bring about, and that ends nothing. -/
def isRuling : Event → Bool
  | teleported _ | hintShown .. | soundStarted .. | soundStopped | sequenceShown .. => true
  | _ => false

theorem plain_of_ruling {event : Event} (ruling : event.isRuling = true) : event.isPlain = true := by
  cases event <;> first | rfl | contradiction

theorem Shown.plain {event : Event} (shown : event.Shown) : event.isPlain = true := by
  cases shown <;> rfl

theorem not_final_of_plain {e : Event} (plain : e.isPlain = true) : e.isFinal = false := by
  cases e <;> first | rfl | contradiction

end Event

namespace Referee

/-- What a referee comes to say: at most one event, and deaths are counted with what is told. -/
inductive Rules (r : Referee) : List Event → Referee → Prop
  | silent {after : Referee} : after.memory.deaths = r.memory.deaths → Rules r [] after
  | plain {event : Event} {after : Referee} : event.isRuling = true →
      after.memory.deaths = r.memory.deaths → Rules r [event] after
  | death {after : Referee} : after.memory.deaths = r.memory.deaths + 1 → Rules r [.killed] after
  | victory {after : Referee} : after.memory.deaths = r.memory.deaths → Rules r [.won] after

theorem execute_rules (r : Referee) (effect : Effect) :
    r.Rules (r.execute effect).1 (r.execute effect).2 := by
  cases effect with
  | kill => exact .death rfl
  | win => exact .victory rfl
  | teleport col row =>
    simp only [execute]
    split
    · split
      · exact .plain rfl rfl
      · exact .silent rfl
    · exact .plain rfl rfl
  | showHint => exact .plain rfl rfl
  | playSound sound =>
    cases sound <;> exact .plain rfl rfl
  | stopSound => exact .plain rfl rfl
  | unsupported => exact .silent rfl

theorem executeIfAny_rules (r : Referee) (effect : Option Effect) :
    r.Rules (r.executeIfAny effect).1 (r.executeIfAny effect).2 := by
  cases effect with
  | none => exact .silent rfl
  | some effect => exact execute_rules r effect

/-- The ruling is the same for referees that count the same deaths. -/
theorem Rules.of_deaths {r s after : Referee} {events : List Event} (rules : r.Rules events after)
    (same : r.memory.deaths = s.memory.deaths) : s.Rules events after := by
  cases rules with
  | silent deaths => exact .silent (deaths.trans same)
  | plain event deaths => exact .plain event (deaths.trans same)
  | death deaths => exact .death (by rw [deaths, same])
  | victory deaths => exact .victory (deaths.trans same)

theorem record_deaths (m : Memory) (capacity : Nat) (tile : Option Tile) :
    (record m capacity tile).deaths = m.deaths := by
  unfold record
  simp only
  split
  · rfl
  · split <;> rfl

theorem land_rules {r after : Referee} {place : Place} {events : List Event}
    (landed : r.land place = (.ok events, after)) : r.Rules events after := by
  obtain ⟨asked, ⟨f, failed⟩ | ⟨effect, executed⟩⟩ := r.land_cases place
  · rw [failed] at landed; cases landed
  · rw [executed] at landed
    cases landed
    exact (executeIfAny_rules _ effect).of_deaths (record_deaths _ _ _)

theorem tick_rules {r after : Referee} {moving : Bool} {events : List Event}
    (passed : r.tick moving = (.ok events, after)) : r.Rules events after := by
  obtain ⟨idle, ⟨f, failed⟩ | ⟨effect, executed⟩⟩ := r.tick_cases moving
  · rw [failed] at passed; cases passed
  · rw [executed] at passed
    cases passed
    exact (executeIfAny_rules _ effect).of_deaths rfl

theorem borderHit_rules (r : Referee) (border : Border) :
    r.Rules (r.borderHit border).1 (r.borderHit border).2 := by
  cases border with
  | kill => exact execute_rules r .kill
  | exit => exact execute_rules r .win
  | block | wrap => exact .silent rfl

end Referee

namespace Player

theorem reset_alive {p : Player} (alive : p.phase ≠ .dead) (place : Place) :
    (p.reset place).2.phase ≠ .dead := by
  obtain ⟨x, y, frame | frame⟩ := p.reset_frame place
  · rw [frame]
    exact alive
  · rw [frame]
    exact Phase.noConfusion

theorem advance_alive {p : Player} (alive : p.phase ≠ .dead) : p.advance.2.phase ≠ .dead := by
  obtain ⟨x, y, frame | frame⟩ := p.advance_frame
  · rw [frame]
    exact Phase.noConfusion
  · rw [frame]
    exact alive

theorem tryMove_alive {p : Player} (alive : p.phase ≠ .dead) (direction : Direction) (size : Int)
    (border : Border) : (p.tryMove direction size border).2.phase ≠ .dead := by
  rcases p.tryMove_frame direction size border with frame | ⟨target, frame⟩
  · rw [frame]
    exact alive
  · rw [frame]
    exact Phase.noConfusion

/-- On a board every place can be shown, so the token rests there. -/
theorem reset_idle (p : Player) {place : Place} {size : Nat} (inside : place.within size = true)
    (most : size ≤ 64) : (p.reset place).2.phase = .idle := by
  obtain ⟨⟨x, across⟩, y, down⟩ := place_ok inside most
  simp only [reset, showAt_ok _ across down]

/-- Moving kills nobody; only the rules do. -/
theorem update_alive {p : Player} (alive : p.phase ≠ .dead)
    (intent : Except Fault (Option Direction)) (size : Int) (border : Border) :
    (p.update intent size border).2.phase ≠ .dead := by
  unfold update
  split
  next dead => exact absurd dead alive
  · exact advance_alive (p := p.hover) alive
  · split
    · exact alive
    · exact alive
    · exact tryMove_alive (p := p.hover) alive _ _ _

end Player

namespace Turn

/-- The attempt goes on, and nobody was told of a beginning or an end. -/
structure Open (t : Turn) (deaths : Int) : Prop where
  active : t.session.isActive = true
  alive : t.session.player.phase ≠ .dead
  deaths : t.session.deaths = deaths
  plain : ∀ event ∈ t.events, event.isPlain = true

end Turn

/-- What a session looks like once an attempt ended with an event, that began with these deaths. -/
inductive Session.Ending (s : Session) (deaths : Int) : Event → Prop
  | death : s.stage = .dead → s.player.phase = .dead → s.deaths = deaths + 1 → Ending s deaths .killed
  | victory : s.stage = .won → s.deaths = deaths → Ending s deaths .won

namespace Turn

structure Ended (t : Turn) (deaths : Int) (final : Event) (later : List Event) : Prop where
  told : ∃ earlier, t.events = earlier ++ final :: later ∧
    ∀ event ∈ earlier ++ later, event.isPlain = true
  ending : t.session.Ending deaths final
  waiting : t.session.intents.waiting = []

theorem Ended.inactive {t : Turn} {deaths : Int} {final : Event} {later : List Event}
    (ended : t.Ended deaths final later) : t.session.isActive = false := by
  have stage : t.session.stage ≠ .active := by
    cases ended.ending with
    | death stage => rw [stage]; decide
    | victory stage => rw [stage]; decide
  simpa [Session.isActive] using stage

/-- An event that is plain is told; at most it takes the player elsewhere, alive. -/
theorem applyOne_plain (t : Turn) {event : Event} (plain : event.isPlain = true) :
    ∃ player, t.applyOne event = ({ t with session := { t.session with player } }).emit event ∧
      (t.session.player.phase ≠ .dead → player.phase ≠ .dead) := by
  cases event with
  | killed | won | levelStarted => contradiction
  | teleported place => exact ⟨_, rfl, fun alive => Player.reset_alive alive place⟩
  | landed | borderHit | hintShown | soundStarted | soundStopped | sequenceShown =>
    exact ⟨t.session.player, rfl, id⟩

theorem hints_plain (r : Referee) (hints : List Hint) :
    ∀ event ∈ r.hints hints, event.isPlain = true := by
  intro event member
  obtain ⟨hint, _, rfl⟩ := List.mem_map.mp member
  rfl

section
variable {t : Turn} {deaths : Int} {after : Referee} {events : List Event}

theorem ruled_plain (t : Turn) (after : Referee) {event : Event} (plain : event.isPlain = true) :
    ∃ player, t.ruled after [event] =
      ({ t with session := { t.session with player, referee := after } }).emit event ∧
      (t.session.player.phase ≠ .dead → player.phase ≠ .dead) :=
  applyOne_plain { t with session := { t.session with referee := after } } plain

theorem ruled_killed (after : Referee) (active : t.session.isActive = true) :
    t.ruled after [.killed] =
      ({ t with session := { t.session with
          stage := .dead, player := t.session.player.die, intents := t.session.intents.flush,
          referee := after } }).emit .killed :=
  if_pos active

theorem ruled_won (after : Referee) (active : t.session.isActive = true) :
    t.ruled after [.won] =
      ({ t with session := { t.session with
          stage := .won, intents := t.session.intents.flush, referee := after } }).emit .won :=
  if_pos active

/-- While the attempt goes on all that the rules say is told. -/
theorem ruled_told (active : t.session.isActive = true)
    (rules : t.session.referee.Rules events after) :
    (t.ruled after events).events = t.events ++ events ∧
    (t.ruled after events).session.referee = after := by
  cases rules with
  | silent => exact ⟨(List.append_nil _).symm, rfl⟩
  | plain plain =>
    obtain ⟨player, same, _⟩ := t.ruled_plain after (Event.plain_of_ruling plain)
    rw [same]
    exact ⟨rfl, rfl⟩
  | death => rw [ruled_killed after active]; exact ⟨rfl, rfl⟩
  | victory => rw [ruled_won after active]; exact ⟨rfl, rfl⟩

/-- The rules let the attempt go on, or end it with the last thing they say. -/
theorem Open.ruled (opened : t.Open deaths) (rules : t.session.referee.Rules events after) :
    (t.ruled after events).Open deaths ∨ ∃ final, (t.ruled after events).Ended deaths final [] := by
  obtain ⟨active, alive, counted, plain⟩ := opened
  cases rules with
  | silent same => exact .inl ⟨active, alive, same.trans counted, plain⟩
  | plain event same =>
    have event := Event.plain_of_ruling event
    obtain ⟨player, ruling, lives⟩ := t.ruled_plain after event
    rw [ruling]
    refine .inl ⟨active, lives alive, same.trans counted, ?_⟩
    intro e member
    rcases List.mem_append.mp member with before | new
    · exact plain e before
    · rw [List.mem_singleton.mp new]; exact event
  | death more =>
    rw [ruled_killed after active]
    exact .inr ⟨.killed, ⟨t.events, rfl, by simpa using plain⟩,
      .death rfl rfl (more.trans (congrArg (· + 1) counted)), rfl⟩
  | victory same =>
    rw [ruled_won after active]
    exact .inr ⟨.won, ⟨t.events, rfl, by simpa using plain⟩, .victory rfl (same.trans counted), rfl⟩

theorem Open.emit (opened : t.Open deaths) {event : Event} (plain : event.isPlain = true) :
    (t.emit event).Open deaths := by
  refine ⟨opened.active, opened.alive, opened.deaths, ?_⟩
  intro e member
  rcases List.mem_append.mp member with before | new
  · exact opened.plain e before
  · rw [List.mem_singleton.mp new]; exact plain

/-- The events of an attempt that goes on, with more that end nothing. -/
theorem Open.tell (opened : t.Open deaths) {more : List Event}
    (plain : ∀ event ∈ more, event.isPlain = true) :
    ({ t with events := t.events ++ more } : Turn).Open deaths := by
  refine ⟨opened.active, opened.alive, opened.deaths, ?_⟩
  intro e member
  rcases List.mem_append.mp member with before | new
  · exact opened.plain e before
  · exact plain e new

theorem Open.hinted (opened : t.Open deaths) (hints : List Hint) : (t.hinted hints).Open deaths := by
  rw [hinted_eq]
  exact opened.tell (hints_plain _ hints)

theorem Ended.hinted {final : Event} (ended : t.Ended deaths final []) (hints : List Hint) :
    (t.hinted hints).Ended deaths final (t.session.referee.hints hints) := by
  obtain ⟨⟨earlier, told, plain⟩, ending, waiting⟩ := ended
  rw [hinted_eq]
  refine ⟨⟨earlier, by simp [told], ?_⟩, ending, waiting⟩
  intro event member
  rcases List.mem_append.mp member with before | hint
  · exact plain event (by simpa using before)
  · exact hints_plain _ hints event hint

end

/-- The frame lets the attempt go on, or ended it; then at most hints of the level were told. -/
def Closes (t : Turn) (level : Level) (deaths : Int) : Prop :=
  t.Open deaths ∨ ∃ final later, t.Ended deaths final later ∧
    (later = [] ∨ later = t.session.referee.hints level.hints)

section
variable {t u : Turn} {level : Level} {deaths : Int}

theorem Open.moved (opened : t.Open deaths) (level : Level) : (t.moved level).Open deaths :=
  ⟨opened.active, Player.update_alive opened.alive _ _ _, opened.deaths, opened.plain⟩

theorem Moves.closes (moves : t.Moves level u) (opened : t.Open deaths) :
    u.Closes level deaths := by
  have moved := opened.moved level
  cases moves with
  | quiet => exact .inl moved
  | @met direction =>
    have shown : ((t.moved level).emit (.borderHit direction)).Open deaths := moved.emit rfl
    rcases shown.ruled (Referee.borderHit_rules _ level.border) with goes | ⟨final, ended⟩
    · exact .inl goes
    · exact .inr ⟨final, [], ended, .inl rfl⟩
  | @landed place events after _ lands =>
    have shown : ((t.moved level).emit (.landed place)).Open deaths := moved.emit rfl
    rcases shown.ruled (Referee.land_rules lands) with goes | ⟨final, ended⟩
    · exact .inl (goes.hinted level.hints)
    · refine .inr ⟨final, _, ended.hinted level.hints, .inr ?_⟩
      rw [hinted_eq]

theorem Passes.closes (passes : t.Passes u) (closes : t.Closes level deaths) :
    u.Closes level deaths := by
  rcases closes with opened | ⟨final, later, ended, hints⟩
  · cases passes with
    | past inactive => rw [opened.active] at inactive; contradiction
    | judged _ passed =>
      rcases opened.ruled (Referee.tick_rules passed) with goes | ⟨final, ended⟩
      · exact .inl goes
      · exact .inr ⟨final, [], ended, .inl rfl⟩
  · cases passes with
    | past => exact .inr ⟨final, later, ended, hints⟩
    | judged active => rw [ended.inactive] at active; contradiction

theorem animated_closes (closes : t.Closes level deaths) (board : Board) :
    (t.animated level board).Closes level deaths := by
  rcases closes with ⟨active, alive, counted, plain⟩ | ⟨final, later, ⟨told, ending, waiting⟩, hints⟩
  · exact .inl ⟨active, alive, counted, plain⟩
  · refine .inr ⟨final, later, ⟨told, ?_, waiting⟩, hints⟩
    cases ending with
    | death stage phase more => exact .death stage phase more
    | victory stage same => exact .victory stage same

theorem Shows.closes {cues left : List (Int × Cue)} (shows : t.Shows level cues u left)
    (closes : t.Closes level deaths) : u.Closes level deaths := by
  cases shows with
  | past => exact closes
  | due active shown =>
    rcases closes with opened | ⟨_, _, ended, _⟩
    · refine .inl (opened.tell fun event member => ?_)
      have among := Cue.eventsOf_shown level.blueprint.patterns _ event (by rw [shown]; exact member)
      exact among.plain
    · rw [ended.inactive] at active; contradiction

end

end Turn

namespace Game

/-- A frame of an attempt that goes on lets it go on, or ends it. -/
theorem Frame.closes {s : Session} {level : Level} {cues left : List (Int × Cue)} {t : Turn}
    (frame : Frame s level cues t left) (active : s.isActive = true)
    (alive : s.player.phase ≠ .dead) : t.Closes level s.deaths := by
  obtain ⟨u, v, board, moves, passes, _, shows⟩ := frame.steps
  have opened : (opening s).Open s.deaths := ⟨active, alive, rfl, nofun⟩
  exact shows.closes (Turn.animated_closes (passes.closes (moves.closes opened)) board)

end Game
end TilePuzzle
