import TilePuzzle.Proofs.Constants
import TilePuzzle.Proofs.Tabletop

/-! Playing with ticks refines playing on a table. A move takes a tick to set out and the ticks of its
way, a blocked one a tick; in between nothing is told and nothing changes that the table shows. So a
playthrough with enough ticks tells what the table tells and ends where the table ends. -/
namespace TilePuzzle

def Condition.isIdle : Condition → Bool
  | idleSeconds _ => true
  | _ => false

/-- A level that nothing changes but the token: its tiles are static, it has no cues, and none of its
rules is about idle time alone. -/
structure Level.Static (level : Level) : Prop where
  tiles : ∀ t ∈ level.board.tiles, t.isStatic = true
  uncued : level.cues = []
  patient : ∀ rule ∈ level.rules, rule.condition.isIdle = false

instance (level : Level) : Decidable level.Static :=
  decidable_of_iff (level.board.tiles.all Tile.isStatic = true ∧ level.cues.isEmpty = true ∧
      level.rules.all (fun rule => !rule.condition.isIdle) = true) <| by
    simp only [List.all_eq_true, List.isEmpty_iff, Bool.not_eq_true']
    exact ⟨fun ⟨tiles, uncued, patient⟩ => ⟨tiles, uncued, patient⟩,
      fun ⟨tiles, uncued, patient⟩ => ⟨tiles, uncued, patient⟩⟩

theorem Level.Static.idleRules {level : Level} (static : level.Static) :
    Referee.idleRules level.rules = [] := by
  refine List.filterMap_eq_nil_iff.mpr fun rule member => ?_
  have patient := static.patient rule member
  generalize rule.condition = condition at patient
  cases condition <;> first | rfl | contradiction

/-- Tiles stay static, however they look. -/
theorem Level.Static.board {level : Level} (static : level.Static) {board : Board}
    (same : board.bare = level.board.bare) : ∀ t ∈ board.tiles, t.isStatic = true := by
  intro t member
  obtain ⟨twin, built, bare⟩ := Board.mem_of_bare same member
  have staying := static.tiles twin built
  change twin.bare.isStatic = true at staying
  rw [bare] at staying
  exact staying

structure Session.Seated (s : Session) (config : Config) : Prop where
  constants : s.referee.config = config
  unnamed : s.referee.predicates = []
  limit : s.intents.limit = .int config.maxPending
  ticks : s.player.moveTicks = config.moveTicks

theorem Session.seated_iff {s : Session} {config : Config} :
    s.Seated config ↔ s.Equipped config [] :=
  ⟨fun ⟨constants, unnamed, limit, ticks⟩ => ⟨constants, unnamed, limit, ticks⟩,
    fun ⟨constants, named, limit, ticks⟩ => ⟨constants, named, limit, ticks⟩⟩

structure Session.Rests (s : Session) : Prop where
  idle : s.isActive = true → s.player.phase = .idle
  waiting : s.intents.waiting = []

namespace Turn

theorem Steps.seated {size : Nat} {config : Config} {t u : Turn} (steps : Steps size t u)
    (seated : t.session.Seated config) : u.session.Seated config :=
  Session.seated_iff.mpr (steps.equipped (Session.seated_iff.mp seated))

theorem moved_seated {config : Config} {t : Turn} (seated : t.session.Seated config)
    (level : Level) : (t.moved level).session.Seated config :=
  Session.seated_iff.mpr (moved_equipped (Session.seated_iff.mp seated) level)

theorem movePlayer_quiet {t : Turn} {level : Level}
    (strides : (stride t.session level).1 = .ok []) :
    t.movePlayer level = (.ok (), t.moved level) := by
  rw [movePlayer_eq, strides]
  rfl

/-- Where nothing is under way, an effect puts nothing under way. -/
theorem ruled_rests {t : Turn} {r : Referee} {board : Board} (active : t.session.isActive = true)
    (judged : r.board = some board) (most : board.size ≤ 64) (rests : t.session.Rests)
    (effect : Effect) : (t.ruled (r.execute effect).2 (r.execute effect).1).session.Rests := by
  have idle := rests.idle active
  have waiting := rests.waiting
  cases effect with
  | kill =>
    change (t.ruled _ [.killed]).session.Rests
    rw [ruled_killed _ active]
    exact ⟨nofun, rfl⟩
  | win =>
    change (t.ruled _ [.won]).session.Rests
    rw [ruled_won _ active]
    exact ⟨nofun, rfl⟩
  | teleport col row =>
    simp only [Referee.execute, judged]
    split
    next inside => exact ⟨fun _ => Player.reset_idle _ inside most, waiting⟩
    next => exact ⟨fun _ => idle, waiting⟩
  | playSound sound => cases sound <;> exact ⟨fun _ => idle, waiting⟩
  | showHint | stopSound | unsupported => exact ⟨fun _ => idle, waiting⟩

theorem ruledIfAny_rests {t : Turn} {r : Referee} {board : Board}
    (active : t.session.isActive = true) (judged : r.board = some board) (most : board.size ≤ 64)
    (rests : t.session.Rests) (effect : Option Effect) :
    (t.ruled (r.executeIfAny effect).2 (r.executeIfAny effect).1).session.Rests := by
  cases effect with
  | none => exact ⟨rests.idle, rests.waiting⟩
  | some effect => exact ruled_rests active judged most rests effect

def paused (t : Turn) (idle : Int) : Turn :=
  { t with session := { t.session with
      referee := { t.session.referee with memory := { t.session.referee.memory with idle } } } }

theorem passTime_patient {t : Turn} (patient : Referee.idleRules t.session.referee.rules = []) :
    ∃ idle, t.passTime = (.ok (), t.paused idle) := by
  unfold passTime
  split
  · obtain ⟨idle, passed⟩ := Referee.tick_patient patient (t.session.player.phase = .moving)
    rw [passed]
    exact ⟨idle, rfl⟩
  · exact ⟨t.session.referee.memory.idle, rfl⟩

end Turn

namespace Game

/-- Without idle rules and cues a frame is what its move comes to. -/
theorem playFrame_patient {s : Session} {level : Level} {u : Turn} {board : Board}
    (moves : (opening s).movePlayer level = (.ok (), u))
    (patient : Referee.idleRules u.session.referee.rules = [])
    (refreshes : level.board.refresh (u.session.clock + 1 : Nat) = (.ok (), board)) :
    ∃ idle, playFrame s level [] = (.ok (), (u.paused idle).animated level board, []) := by
  obtain ⟨idle, passes⟩ := Turn.passTime_patient patient
  refine ⟨idle, ?_⟩
  have unfolded : simulate s level = andThen
      (andThen ((opening s).movePlayer level) Turn.passTime) fun t => t.animate level := rfl
  have clock : (u.paused idle).session.clock = u.session.clock := rfl
  have shows (t : Turn) : emitDue [] level t = (.ok (), t, []) := by
    unfold emitDue
    split
    · simp [Cue.eventsOf]
    · rfl
  unfold playFrame
  simp only [unfolded, moves, andThen, passes, Turn.animate_eq, clock, refreshes, shows]

/-- A game on a static level, apart from what its rules remember and where its token is. -/
structure Hosts (g : Game) (level : Level) (config : Config) : Prop where
  shows : g.Shows
  here : ∃ board, g.session.level = some { level with board } ∧ board.bare = level.board.bare
  seated : g.session.Seated config
  uncued : g.backstage.cues = []

/-- A tick that comes to what the move of its frame comes to. -/
structure Ticks (g : Game) (u : Turn) (h : Game) : Prop where
  tick : g.tick = (.ok ⟨h.session.frame, h.session.stage, g.backstage.outbox ++ u.events⟩, h)
  player : h.session.player = u.session.player
  intents : h.session.intents = u.session.intents
  table : ∀ told, h.session.table told = u.session.table told
  delivered : h.backstage.outbox = []
  played : h.session.frame ≠ 0

theorem Ticks.active {g h : Game} {u : Turn} (ticks : g.Ticks u h) :
    h.session.isActive = u.session.isActive := by
  have stage : h.session.stage = u.session.stage := congrArg Tabletop.stage (ticks.table [])
  simp only [Session.isActive, stage]

theorem Ticks.rests {g h : Game} {u : Turn} (ticks : g.Ticks u h) (rests : u.session.Rests) :
    h.session.Rests := by
  constructor
  · intro active
    rw [ticks.player]
    exact rests.idle (ticks.active.symm.trans active)
  · rw [ticks.intents]
    exact rests.waiting

section
variable {g : Game} {level : Level} {config : Config} {board : Board}

theorem Hosts.plays (hosts : g.Hosts level config)
    (here : g.session.level = some { level with board }) :
    g.session.Plays { level with board } :=
  hosts.shows.coherent.inPlace _ here

theorem Hosts.tick (hosts : g.Hosts level config) (static : level.Static)
    (active : g.session.isActive = true) (here : g.session.level = some { level with board })
    {u : Turn} (moves : (opening g.session).movePlayer { level with board } = (.ok (), u)) :
    ∃ h, h.Hosts level config ∧ g.Ticks u h := by
  have plays := hosts.plays here
  obtain ⟨other, placed, bare⟩ := hosts.here
  obtain rfl : board = other := congrArg Level.board (Option.some.inj (here.symm.trans placed))
  have still : (Turn.stride (opening g.session).session { level with board }).2.Within board.size :=
    Player.update_within plays.player _ _
  have steps := Turn.movePlayer_steps (opening g.session) { level with board } plays.board still
  rw [moves] at steps
  have patient : Referee.idleRules u.session.referee.rules = [] := by
    rw [show u.session.referee.rules = level.rules from steps.keeps.rules.trans plays.rules]
    exact static.idleRules
  -- After the move only the animation could still fail, and that of static tiles does not.
  obtain ⟨after, refreshes⟩ :=
    Board.refresh_static (static.board bare) (u.session.clock + 1 : Nat)
  obtain ⟨idle, played⟩ := playFrame_patient moves patient refreshes
  have ticks : g.tick = (.ok ⟨u.session.frame, u.session.stage, g.backstage.outbox ++ u.events⟩,
      g.framed ((u.paused idle).animated { level with board } after) []) := by
    rw [tick_active here active, hosts.uncued, played]
    rfl
  have works : Op.tick.works g = true := by
    simp only [Op.works, Op.result, ticks]
    rfl
  have shows : (g.perform .tick).Shows := perform_shows works hosts.shows
  have performed : g.perform .tick =
      g.framed ((u.paused idle).animated { level with board } after) [] := congrArg Prod.snd ticks
  rw [performed] at shows
  have opened : (opening g.session).session.Seated config := { hosts.seated with }
  have seated : u.session.Seated config := steps.seated (Turn.moved_seated opened _)
  have kept : after.bare = board.bare := by
    have same := Board.refresh_bare (u.session.clock + 1 : Nat) board
    rw [show board.refresh (u.session.clock + 1 : Nat) = _ from refreshes] at same
    exact same
  refine ⟨_, ⟨shows, ⟨after, rfl, kept.trans bare⟩, ?_, rfl⟩, ticks, rfl, rfl, fun _ => rfl, rfl, ?_⟩
  · exact ⟨seated.constants, seated.unnamed, seated.limit, seated.ticks⟩
  · have frame : u.session.frame = g.session.frame + 1 := steps.stays.frame
    change u.session.frame ≠ 0
    rw [frame]
    exact Nat.succ_ne_zero _

end

/-- The token is on its way to a place, which it reaches in so many ticks. -/
structure Travels (g : Game) (level : Level) (config : Config) (place : Place) (left : Nat) : Prop where
  hosts : g.Hosts level config
  active : g.session.isActive = true
  moving : g.session.player.phase = .moving
  target : g.session.player.target = place
  least : 0 ≤ g.session.player.elapsed
  left : g.session.player.elapsed + left = config.moveTicks
  waiting : g.session.intents.waiting = []
  played : g.session.frame ≠ 0

/-- How the tick after a move was handed over leaves a game: the token sets out for the place where
the table lands it, or the move is over. -/
inductive Starts (g : Game) (level : Level) (config : Config) (direction : Direction) :
    List Event → Game → Prop
  | travels {h : Game} {place : Place} : h.Travels level config place config.moveTicks.toNat →
      (∀ told, h.session.table told = g.session.table told ∧
        (g.session.table told).move level config.capacity.toNat direction =
          (g.session.table told).land level config.capacity.toNat place) →
      Starts g level config direction [] h
  | stays {h : Game} {events : List Event} : h.Hosts level config → h.session.Rests →
      (∀ told, h.session.table (told ++ events) =
        (g.session.table told).move level config.capacity.toNat direction) →
      Starts g level config direction events h

section
variable {g : Game} {level : Level} {config : Config} {board : Board} {direction : Direction}

/-- In a tick in which the token tells nothing, and counts as standing where it stood, nothing changes
on the table. -/
theorem tick_quiet (hosts : g.Hosts level config) (static : level.Static)
    (active : g.session.isActive = true) (here : g.session.level = some { level with board })
    {player : Player} (strides : Turn.stride g.session { level with board } = (.ok [], player))
    (place : player.place = g.session.player.place) :
    ∃ h, h.Hosts level config ∧ g.Ticks ((opening g.session).moved { level with board }) h ∧
      h.session.player = player ∧ ∀ told, h.session.table told = g.session.table told := by
  have result : (Turn.stride (opening g.session).session { level with board }).1 = .ok [] :=
    congrArg Prod.fst strides
  obtain ⟨h, hosted, done⟩ := hosts.tick static active here (Turn.movePlayer_quiet result)
  refine ⟨h, hosted, done, done.player.trans (congrArg Prod.snd strides), fun told => ?_⟩
  rw [done.table]
  change ({ g.session.table told with
    place := (Turn.stride g.session { level with board }).2.place } : Tabletop) = _
  rw [strides, place]
  rfl

theorem offered_one {s : Session} (idle : s.player.phase = .idle)
    (waiting : s.intents.waiting = [direction]) :
    Turn.offered s = (some direction, { s.intents with waiting := [] }) := by
  simp only [Turn.offered, idle, if_true, Intents.take, waiting]

theorem stride_one {s : Session} (idle : s.player.phase = .idle)
    (waiting : s.intents.waiting = [direction]) (level : Level) :
    Turn.stride s level = s.player.hover.tryMove direction level.board.size level.border := by
  simp only [Turn.stride, offered_one idle waiting, Player.update, idle]

structure Expects (g : Game) (level : Level) (config : Config) (board : Board)
    (direction : Direction) : Prop where
  hosts : g.Hosts level config
  active : g.session.isActive = true
  idle : g.session.player.phase = .idle
  waiting : g.session.intents.waiting = [direction]
  here : g.session.level = some { level with board }
  size : board.size = level.board.size

theorem Expects.emptied (expects : g.Expects level config board direction) :
    (Turn.offered g.session).2.waiting = [] := by
  rw [offered_one expects.idle expects.waiting]

theorem Expects.strides (expects : g.Expects level config board direction) :
    Turn.stride g.session { level with board } =
      match level.way g.session.player.place direction with
      | .leads place => (.ok [], g.session.player.hover.startMove place)
      | .blocked => (.ok [], g.session.player.hover)
      | .met _ => (.ok [.borderHit direction], g.session.player.hover) := by
  have least : 1 ≤ level.board.size := expects.size ▸ (expects.hosts.plays expects.here).size.1
  rw [stride_one expects.idle expects.waiting]
  simp only [expects.size]
  exact g.session.player.hover.tryMove_way least direction

/-- A token whose way leads to a place sets out for it, and tells nothing. -/
theorem tick_setsOut (expects : g.Expects level config board direction) (static : level.Static)
    (ticks : 1 ≤ config.moveTicks) {place : Place}
    (way : level.way g.session.player.place direction = .leads place) :
    ∃ h, h.Travels level config place config.moveTicks.toNat ∧
      g.Ticks ((opening g.session).moved { level with board }) h ∧
      ∀ told, h.session.table told = g.session.table told := by
  have strides := expects.strides
  rw [way] at strides
  obtain ⟨h, hosted, done, player, table⟩ :=
    tick_quiet expects.hosts static expects.active expects.here strides rfl
  have total : (0 : Int) + config.moveTicks.toNat = config.moveTicks := by omega
  refine ⟨h, ?_, done, table⟩
  constructor
  case hosts => exact hosted
  case active => exact done.active.trans expects.active
  case waiting => rw [done.intents]; exact expects.emptied
  case played => exact done.played
  all_goals rw [player]
  case moving | target => rfl
  case least => exact Int.le_refl 0
  case left => exact total

/-- A token that is blocked stays where it is, and tells nothing. -/
theorem tick_blocked (expects : g.Expects level config board direction) (static : level.Static)
    (way : level.way g.session.player.place direction = .blocked) :
    ∃ h, h.Hosts level config ∧ h.session.Rests ∧
      g.Ticks ((opening g.session).moved { level with board }) h ∧
      ∀ told, h.session.table told = g.session.table told := by
  have strides := expects.strides
  rw [way] at strides
  obtain ⟨h, hosted, done, player, table⟩ :=
    tick_quiet expects.hosts static expects.active expects.here strides rfl
  refine ⟨h, hosted, ⟨fun _ => ?_, ?_⟩, done, table⟩
  · rw [player]
    exact expects.idle
  · rw [done.intents]
    exact expects.emptied

/-- A token that meets a border which rules about it is ruled about as on the table. -/
theorem tick_met (expects : g.Expects level config board direction) (static : level.Static)
    {effect : Effect} (way : level.way g.session.player.place direction = .met effect) :
    ∃ h u, h.Hosts level config ∧ h.session.Rests ∧ g.Ticks u h ∧ ∀ told,
      h.session.table (told ++ u.events) =
        ((g.session.table told).tell (.borderHit direction)).obey level effect := by
  have plays := expects.hosts.plays expects.here
  have strides := expects.strides
  rw [way] at strides
  have met : (Turn.stride (opening g.session).session { level with board }).1 =
    .ok [.borderHit direction] := congrArg Prod.fst strides
  let shown := ((opening g.session).moved { level with board }).emit (.borderHit direction)
  have moves : (opening g.session).movePlayer { level with board } =
      (.ok (), shown.ruled (g.session.referee.execute effect).2
        (g.session.referee.execute effect).1) := by
    rw [Turn.movePlayer_eq, met]
    simp only [Turn.answerAll_one]
    rw [← g.session.referee.borderHit_way way]
    rfl
  obtain ⟨h, hosted, done⟩ := expects.hosts.tick static expects.active expects.here moves
  have player : shown.session.player = g.session.player.hover := congrArg Prod.snd strides
  have rests : shown.session.Rests :=
    ⟨fun _ => by rw [player]; exact expects.idle, expects.emptied⟩
  refine ⟨h, _, hosted, ?_, done, fun told => ?_⟩
  · exact done.rests (Turn.ruled_rests expects.active plays.board plays.size.2 rests effect)
  · rw [done.table]
    refine (Turn.table_obey (t := shown) expects.active plays.board expects.size plays.patterns
      effect).trans (congrArg (Tabletop.obey level · effect) ?_)
    change Turn.table told (((opening g.session).moved { level with board }).emit _) = _
    rw [Turn.table_emit]
    change ({ g.session.table (told ++ []) with
      place := (Turn.stride g.session { level with board }).2.place } : Tabletop).tell _ = _
    rw [strides, List.append_nil]
    rfl

/-- A move that was handed over to a token at rest begins as the table has it. -/
theorem tick_starts (hosts : g.Hosts level config) (static : level.Static)
    (ticks : 1 ≤ config.moveTicks) (active : g.session.isActive = true)
    (idle : g.session.player.phase = .idle) (waiting : g.session.intents.waiting = [direction]) :
    ∃ events h, g.Starts level config direction events h ∧
      g.tick = (.ok ⟨h.session.frame, h.session.stage, g.backstage.outbox ++ events⟩, h) ∧
      h.backstage.outbox = [] := by
  obtain ⟨board, here, bare⟩ := hosts.here
  have expects : g.Expects level config board direction :=
    ⟨hosts, active, idle, waiting, here, Board.size_of_bare bare⟩
  have move (told : List Event) : (g.session.table told).move level config.capacity.toNat direction =
      match level.way g.session.player.place direction with
      | .leads place => (g.session.table told).land level config.capacity.toNat place
      | .blocked => g.session.table told
      | .met effect => ((g.session.table told).tell (.borderHit direction)).obey level effect := rfl
  cases way : level.way g.session.player.place direction with
  | leads place =>
    obtain ⟨h, travels, done, table⟩ := tick_setsOut expects static ticks way
    refine ⟨[], h, .travels travels fun told => ⟨table told, ?_⟩, done.tick, done.delivered⟩
    rw [move, way]
  | blocked =>
    obtain ⟨h, hosted, rests, done, table⟩ := tick_blocked expects static way
    refine ⟨[], h, .stays hosted rests fun told => ?_, done.tick, done.delivered⟩
    rw [move, way, List.append_nil, table]
  | met effect =>
    obtain ⟨h, u, hosted, rests, done, table⟩ := tick_met expects static way
    refine ⟨u.events, h, .stays hosted rests fun told => ?_, done.tick, done.delivered⟩
    rw [move, way, table]

theorem offered_none {s : Session} (moving : s.player.phase = .moving) :
    Turn.offered s = (none, s.intents) := by
  simp only [Turn.offered, moving, reduceCtorEq, if_false]

theorem stride_none {s : Session} (moving : s.player.phase = .moving) (level : Level) :
    Turn.stride s level = s.player.hover.advance := by
  simp only [Turn.stride, Player.update, moving]

theorem Travels.emptied {place : Place} {left : Nat} (travels : g.Travels level config place left) :
    (Turn.offered g.session).2.waiting = [] := by
  rw [offered_none travels.moving]
  exact travels.waiting

/-- Before the last tick of its way the token goes on, and counts as standing where it set out. -/
theorem Travels.strides {place : Place} {left : Nat}
    (travels : g.Travels level config place (left + 2))
    (here : g.session.level = some { level with board }) :
    ∃ x y, Turn.stride g.session { level with board } = (.ok [], { g.session.player.hover with
      elapsed := g.session.player.elapsed + 1, visualCol := x, visualRow := y }) := by
  have plays := travels.hosts.plays here
  have under : g.session.player.hover.elapsed + 1 < g.session.player.hover.moveTicks := by
    have total := travels.left
    have ticks := travels.hosts.seated.ticks
    change g.session.player.elapsed + 1 < g.session.player.moveTicks
    omega
  rw [stride_none travels.moving]
  exact Player.advance_travels (Player.hover_within plays.player) plays.size.2 travels.moving
    travels.least under

/-- In the last tick of its way the token lands. -/
theorem Travels.lands {place : Place} (travels : g.Travels level config place 1)
    (here : g.session.level = some { level with board }) :
    ∃ player, Turn.stride g.session { level with board } = (.ok [.landed place], player) ∧
      player.place = place ∧ player.phase = .idle := by
  have plays := travels.hosts.plays here
  have last : g.session.player.hover.moveTicks ≤ g.session.player.hover.elapsed + 1 := by
    have total := travels.left
    have ticks := travels.hosts.seated.ticks
    change g.session.player.moveTicks ≤ g.session.player.elapsed + 1
    omega
  obtain ⟨x, y, advances⟩ := Player.advance_lands (Player.hover_within plays.player) plays.size.2
    travels.moving last
  have target : g.session.player.hover.target = place := travels.target
  rw [stride_none travels.moving, advances, target]
  exact ⟨_, rfl, rfl, rfl⟩

/-- On its way a token tells nothing. -/
theorem tick_travels {place : Place} {left : Nat} (static : level.Static)
    (travels : g.Travels level config place (left + 2)) :
    ∃ h, h.Travels level config place (left + 1) ∧
      g.tick = (.ok ⟨h.session.frame, h.session.stage, g.backstage.outbox⟩, h) ∧
      h.backstage.outbox = [] ∧ ∀ told, h.session.table told = g.session.table told := by
  obtain ⟨board, here, _⟩ := travels.hosts.here
  obtain ⟨x, y, strides⟩ := travels.strides here
  obtain ⟨h, hosted, done, player, table⟩ :=
    tick_quiet travels.hosts static travels.active here strides rfl
  have least := travels.least
  have total := travels.left
  have told := done.tick
  rw [show ((opening g.session).moved { level with board }).events = [] from rfl,
    List.append_nil] at told
  refine ⟨h, ?_, told, done.delivered, table⟩
  constructor
  case hosts => exact hosted
  case active => exact done.active.trans travels.active
  case waiting => rw [done.intents]; exact travels.emptied
  case played => exact done.played
  all_goals rw [player]
  case moving => exact travels.moving
  case target => exact travels.target
  case least =>
    change 0 ≤ g.session.player.elapsed + 1
    omega
  case left =>
    change g.session.player.elapsed + 1 + (left + 1 : Nat) = config.moveTicks
    omega

/-- A token that arrives lands as on the table. -/
theorem tick_arrives {place : Place} (static : level.Static)
    (travels : g.Travels level config place 1) :
    ∃ events h, h.Hosts level config ∧ h.session.Rests ∧
      g.tick = (.ok ⟨h.session.frame, h.session.stage, g.backstage.outbox ++ events⟩, h) ∧
      h.backstage.outbox = [] ∧ ∀ told, h.session.table (told ++ events) =
        (g.session.table told).land level config.capacity.toNat place := by
  have hosts := travels.hosts
  have active := travels.active
  obtain ⟨board, here, bare⟩ := hosts.here
  have plays := hosts.plays here
  obtain ⟨player, strides, stands, idle⟩ := travels.lands here
  have landed : (Turn.stride (opening g.session).session { level with board }).1 =
    .ok [.landed place] := congrArg Prod.fst strides
  let moved := (opening g.session).moved { level with board }
  have token : moved.session.player = player := congrArg Prod.snd strides
  have stands : moved.session.player.place = place := by rw [token, stands]
  have rests : moved.session.Rests := ⟨fun _ => by rw [token, idle], travels.emptied⟩
  have moves := Turn.answer_lands (t := moved) hosts.seated.unnamed { level with board } place
  rw [← Turn.answerAll_one] at moves
  obtain ⟨h, hosted, done⟩ := hosts.tick static active here
    ((Turn.movePlayer_eq _ _).trans (by rw [landed]; exact moves))
  refine ⟨_, h, hosted, done.rests ?_, done.tick, done.delivered, fun told => ?_⟩
  · rw [Turn.hinted_eq]
    exact Turn.ruledIfAny_rests (t := moved.emit (.landed place))
      (r := g.session.referee.noting place) active plays.board plays.size.2
      ⟨rests.idle, rests.waiting⟩ _
  · rw [done.table]
    -- A board gets its paint with the first frame, and a token that arrives has had one.
    have painted := (hosts.shows.looks _ here).painted travels.played (static.board bare)
    refine (Turn.table_lands (t := moved) active plays.board bare painted plays.rules plays.patterns
      stands).trans ?_
    have unmoved : moved.table told = { g.session.table (told ++ []) with place } := by
      rw [← stands]
      rfl
    have capacity : moved.session.referee.config.capacity = config.capacity :=
      congrArg Config.capacity hosts.seated.constants
    rw [unmoved, capacity, List.append_nil]
    rfl

end

end Game
end TilePuzzle
