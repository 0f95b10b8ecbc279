import TilePuzzle.Playthrough
import TilePuzzle.Proofs.Looks

/-! The game as it is played on a table: one move after the other, without ticks. A move is made at
once, its landing is judged by the colours that tiles always have, and the game stops with the
attempt. Judging and ruling on a frame come to the same. -/
namespace TilePuzzle

namespace Tile

def isStatic (t : Tile) : Bool :=
  match t.mechanic with
  | none | some .unsupported | some .solidColor => true
  | some _ => false

/-- The colour that a static tile has: start and exit keep their own, and a solid colour covers what
is below it. -/
def paint (t : Tile) : Option String :=
  if t.isStart || t.isExit then t.base
  else match t.mechanic with
    | some .solidColor => some (Mechanic.colorParam t.params "color" "#888")
    | _ => t.base

def painted (t : Tile) : Tile := { t with look := { color := t.paint } }

theorem look_static {t : Tile} (static : t.isStatic = true) (tick : Int)
    (unmarked : (t.isStart || t.isExit) = false) :
    Mechanic.look tick t.mechanic t.params t.base = .ok { color := t.paint } := by
  unfold isStatic at static
  unfold paint
  rw [unmarked]
  generalize t.mechanic = mechanic at static ⊢
  cases mechanic with
  | none => rfl
  | some mechanic =>
    cases mechanic with
    | solidColor | unsupported => rfl
    | blinking | rotatingCw | rotatingCcw | levitating | pulsing | multicolor | colorShift =>
      contradiction

theorem static_unbroken {t : Tile} (static : t.isStatic = true) (tick : Int) : ¬t.Breaks tick := by
  rintro ⟨start, exit, mechanic, named, breaks⟩
  have fails := (Mechanic.look_fails_iff tick t.mechanic t.params t.base).mpr ⟨_, named, breaks⟩
  rw [look_static static tick (by rw [start, exit]; rfl)] at fails
  exact not_fails_ok _ fails

end Tile

namespace Board

/-- Static tiles never break off their animation. -/
theorem refresh_static {b : Board} (static : ∀ t ∈ b.tiles, t.isStatic = true) (tick : Int) :
    ∃ after, b.refresh tick = (.ok (), after) := by
  have unbroken : ¬Fails (b.refresh tick).1 := by
    rw [refresh_fails_iff]
    rintro ⟨t, member, breaks⟩
    exact Tile.static_unbroken (static t member) tick breaks
  obtain ⟨_, done⟩ := ok_of_not_fails unbroken
  exact ⟨_, Prod.ext done rfl⟩

theorem tileAt_bare (b : Board) (p : Place) : b.bare.tileAt p = (b.tileAt p).map Tile.bare := by
  have contains : b.bare.contains p = b.contains p := rfl
  unfold tileAt
  rw [contains]
  split
  · cases row : b.rows[p.row.toNat]? <;> simp [bare, row]
  · rfl

theorem mem_of_tileAt {b : Board} {p : Place} {t : Tile} (found : b.tileAt p = some t) :
    t ∈ b.tiles := by
  unfold tileAt at found
  split at found
  · obtain ⟨row, listed, found⟩ := Option.bind_eq_some_iff.mp found
    exact List.mem_flatten.mpr ⟨row, List.mem_of_getElem? listed, List.mem_of_getElem? found⟩
  · contradiction

/-- On a board that has its paint, a place shows what is painted on the tile that was built there. -/
theorem tileAt_painted {b built : Board} (same : b.bare = built.bare)
    (painted : ∀ t ∈ b.tiles, t = t.painted) (p : Place) :
    b.tileAt p = (built.tileAt p).map Tile.painted := by
  have bare := b.tileAt_bare p
  rw [same, tileAt_bare] at bare
  cases found : b.tileAt p with
  | none =>
    rw [found, Option.map_none, Option.map_eq_none_iff] at bare
    rw [bare, Option.map_none]
  | some t =>
    rw [found, Option.map_some] at bare
    obtain ⟨u, there, twin⟩ := Option.map_eq_some_iff.mp bare
    have paint : u.painted = t.painted := by
      change u.bare.painted = t.bare.painted
      rw [twin]
    rw [there, Option.map_some, paint, ← painted t (mem_of_tileAt found)]

end Board

/-- From the first frame on static tiles have their paint. -/
theorem Session.Looks.painted {s : Session} {level : Level} (looks : s.Looks level)
    (played : s.frame ≠ 0) (static : ∀ t ∈ level.board.tiles, t.isStatic = true) :
    ∀ t ∈ level.board.tiles, t = t.painted := by
  intro t member
  have shown : t.look = { color := t.paint } := by
    cases marked : t.isStart || t.isExit with
    | true =>
      rw [looks.marked t member marked, Tile.paint, marked]
      rfl
    | false =>
      have animated := looks.animated played t member marked
      rw [Tile.look_static (static t member) _ marked] at animated
      exact (Except.ok.inj animated).symm
  change t = { t with look := { color := t.paint } }
  rw [← shown]

def Memory.timeless (m : Memory) : Memory := { m with idle := 0 }

namespace Condition

mutual
/-- Whether a condition holds of a landing. No time passes on a table, and nobody is asked. -/
def holds (m : Memory) (tile : Option Tile) : Condition → Bool
  | touchTile id => touches tile id
  | touchColor color => Color.key (shownColor tile) == Color.key color
  | reachExit => (tile.map (·.isExit)).getD false
  | repeated color => lastTwoAre m.colors color
  | repeatedSolid color => lastTwoAre m.solidColors color
  | patternBreak pattern => breaksPattern m.colors pattern
  | sequenceViolates sequence => leavesSequence m.colors sequence
  | musicPlaying => m.music
  | totalSteps steps => m.steps == steps
  | all conditions => allHold m tile conditions
  | any conditions => anyHolds m tile conditions
  | idleSeconds _ | custom _ | unsupported _ => false

def allHold (m : Memory) (tile : Option Tile) : List Condition → Bool
  | [] => true
  | c :: rest => holds m tile c && allHold m tile rest

def anyHolds (m : Memory) (tile : Option Tile) : List Condition → Bool
  | [] => false
  | c :: rest => holds m tile c || anyHolds m tile rest
end

mutual
theorem holds_timeless (m : Memory) (tile : Option Tile) :
    (c : Condition) → holds m.timeless tile c = holds m tile c
  | touchTile _ | touchColor _ | reachExit | repeated _ | repeatedSolid _ | patternBreak _
  | sequenceViolates _ | musicPlaying | totalSteps _ | unsupported _ | custom _ | idleSeconds _ => rfl
  | all conditions => (allHold_timeless m tile conditions).1
  | any conditions => (allHold_timeless m tile conditions).2

theorem allHold_timeless (m : Memory) (tile : Option Tile) : (conditions : List Condition) →
    allHold m.timeless tile conditions = allHold m tile conditions ∧
    anyHolds m.timeless tile conditions = anyHolds m tile conditions
  | [] => ⟨rfl, rfl⟩
  | c :: rest => by
    obtain ⟨all, any⟩ := allHold_timeless m tile rest
    simp only [allHold, anyHolds, holds_timeless m tile c, all, any, and_self]
end

section
variable {context : Context}

mutual
/-- Without named predicates a landing is judged by what holds. -/
theorem judge_holds (landing : context.onTick = false) : (c : Condition) →
    judge [] context c = .plain (c.holds context.memory context.tile)
  | touchTile _ | touchColor _ | reachExit | repeated _ | repeatedSolid _ | patternBreak _
  | sequenceViolates _ | musicPlaying | totalSteps _ | unsupported _ | custom _ => rfl
  | idleSeconds seconds => by simp [judge, isIdleFor, landing, holds, Verdict.plain]
  | all conditions => by
    obtain ⟨values, judged, all, _⟩ := judgeList_holds landing conditions
    simp only [judge, judged, Except.map, all, holds]
    rfl
  | any conditions => by
    obtain ⟨values, judged, _, any⟩ := judgeList_holds landing conditions
    simp only [judge, judged, Except.map, any, holds]
    rfl

theorem judgeList_holds (landing : context.onTick = false) : (conditions : List Condition) →
    ∃ values, judgeList [] context conditions = ([], .ok values) ∧
      values.all id = allHold context.memory context.tile conditions ∧
      values.any id = anyHolds context.memory context.tile conditions
  | [] => ⟨[], rfl, rfl, rfl⟩
  | c :: rest => by
    obtain ⟨values, judged, all, any⟩ := judgeList_holds landing rest
    refine ⟨c.holds context.memory context.tile :: values, ?_, ?_, ?_⟩
    · simp only [judgeList, judge_holds landing c, Verdict.plain, judged]
      rfl
    · simp only [List.all_cons, all, allHold, id]
    · simp only [List.any_cons, any, anyHolds, id]
end

end

end Condition

namespace Referee

def ruling? (rules : List Rule) (m : Memory) (tile : Option Tile) : Option Effect :=
  (rules.find? fun rule => rule.condition.holds m tile).map (·.effect)

theorem ruling_timeless (rules : List Rule) (m : Memory) (tile : Option Tile) :
    ruling? rules m.timeless tile = ruling? rules m tile := by
  simp only [ruling?, Condition.holds_timeless]

theorem record_timeless (m : Memory) (capacity : Nat) (tile : Option Tile) :
    record m.timeless capacity tile = (record m capacity tile).timeless := by
  unfold record
  cases trace? tile with
  | none => rfl
  | some key =>
    simp only
    split <;> rfl

theorem firstMatch_eq {context : Context} (landing : context.onTick = false) (rules : List Rule) :
    firstMatch [] context rules = ([], .ok (ruling? rules context.memory context.tile)) := by
  induction rules with
  | nil => rfl
  | cons rule rest ih =>
    simp only [firstMatch, Condition.judge_holds landing, Verdict.plain, ruling?, List.find?_cons]
    cases rule.condition.holds context.memory context.tile with
    | true => rfl
    | false => simp only [ih]; rfl

def noting (r : Referee) (place : Place) : Referee :=
  { r with memory := record r.memory r.config.capacity.toNat (r.tileAt place) }

def rulingOn (r : Referee) (place : Place) : List Event × Referee :=
  (r.noting place).executeIfAny (ruling? r.rules (r.noting place).memory (r.tileAt place))

/-- Without named predicates a landing is remembered, and the first rule that holds takes effect. -/
theorem land_eq {r : Referee} (unnamed : r.predicates = []) (place : Place) :
    r.land place = (.ok (r.rulingOn place).1, (r.rulingOn place).2) := by
  simp only [land, rulingOn, noting, unnamed]
  rw [firstMatch_eq rfl]
  simp only [List.append_nil]

/-- Without idle rules a tick only counts idle time. -/
theorem tick_patient {r : Referee} (patient : idleRules r.rules = []) (moving : Bool) :
    ∃ idle, r.tick moving = (.ok [], { r with memory := { r.memory with idle } }) := by
  simp only [tick, patient, firstDue]
  exact ⟨_, rfl⟩

end Referee

inductive Way
  | leads (place : Place)
  | blocked
  | met (effect : Effect)

/-- The way of a move from a place: to the next one, or what the border makes of it. -/
def Level.way (level : Level) (place : Place) (direction : Direction) : Way :=
  let target := place.step direction
  if level.board.contains target then .leads target
  else match level.border with
    | .block => .blocked
    | .kill => .met .kill
    | .exit => .met .win
    | .wrap => .leads ⟨target.col % level.board.size, target.row % level.board.size⟩

/-- A token tries the way that the level has for it. -/
theorem Player.tryMove_way (p : Player) {level : Level} (least : 1 ≤ level.board.size)
    (direction : Direction) :
    p.tryMove direction level.board.size level.border = match level.way p.place direction with
      | .leads place => (.ok [], p.startMove place)
      | .blocked => (.ok [], p)
      | .met _ => (.ok [.borderHit direction], p) := by
  have nonzero : (level.board.size : Int) ≠ 0 := by omega
  have nonneg : 0 ≤ (level.board.size : Int) := by omega
  by_cases inside : (p.place.step direction).within level.board.size = true
  · have contains : level.board.contains (p.place.step direction) = true := inside
    simp only [tryMove, Level.way, if_pos inside, if_pos contains]
  · have contains : ¬level.board.contains (p.place.step direction) = true := inside
    simp only [tryMove, Level.way, if_neg inside, if_neg contains]
    cases level.border with
    | block | kill | exit => rfl
    | wrap => simp only [wrapped, if_neg nonzero, Int.fmod_eq_emod_of_nonneg _ nonneg]

/-- A border that rules about a move has an effect. -/
theorem Referee.borderHit_way (r : Referee) {level : Level} {place : Place} {direction : Direction}
    {effect : Effect} (way : level.way place direction = .met effect) :
    r.borderHit level.border = r.execute effect := by
  simp only [Level.way] at way
  split at way
  · contradiction
  · generalize level.border = border at way ⊢
    cases border with
    | block | wrap => contradiction
    | kill | exit =>
      cases way
      rfl

/-- The game on a table: where the token stands, how the attempt stands, what the rules remember, and
all that was told. -/
structure Tabletop where
  place : Place
  stage : Stage := .active
  memory : Memory := {}
  events : List Event := []

namespace Tabletop

def tell (t : Tabletop) (event : Event) : Tabletop := { t with events := t.events ++ [event] }

def kill (t : Tabletop) : Tabletop :=
  ({ t with stage := .dead, memory := { t.memory with deaths := t.memory.deaths + 1 } }).tell .killed

def win (t : Tabletop) : Tabletop := ({ t with stage := .won }).tell .won

def obey (level : Level) (t : Tabletop) : Effect → Tabletop
  | .kill => t.kill
  | .win => t.win
  | .teleport col row =>
    if level.board.contains ⟨col, row⟩ then
      ({ t with place := ⟨col, row⟩ }).tell (.teleported ⟨col, row⟩)
    else t
  | .showHint text duration => t.tell (.hintShown (.str text) (.int duration))
  | .playSound sound =>
    ({ t with memory := { t.memory with music := true } }).tell
      (Referee.soundEvent level.blueprint.patterns sound)
  | .stopSound => ({ t with memory := { t.memory with music := false } }).tell .soundStopped
  | .unsupported _ => t

def obeyIfAny (level : Level) (t : Tabletop) : Option Effect → Tabletop
  | none => t
  | some effect => t.obey level effect

def remind (level : Level) (t : Tabletop) : Tabletop :=
  { t with events := t.events ++
      (level.hints.filter fun h => h.threshold ≤ t.memory.deaths).map fun h =>
        .hintShown h.text h.duration }

/-- A landing: its tile is remembered by its colour, the first rule that holds takes effect, and the
hints that are due are shown. -/
def land (level : Level) (capacity : Nat) (t : Tabletop) (place : Place) : Tabletop :=
  let tile := (level.board.tileAt place).map Tile.painted
  let memory := Referee.record t.memory capacity tile
  ((({ t with place, memory }).tell (.landed place)).obeyIfAny level
    (Referee.ruling? level.rules memory tile)).remind level

def move (level : Level) (capacity : Nat) (t : Tabletop) (direction : Direction) : Tabletop :=
  match level.way t.place direction with
  | .leads place => t.land level capacity place
  | .blocked => t
  | .met effect => (t.tell (.borderHit direction)).obey level effect

def play (level : Level) (capacity : Nat) (t : Tabletop) : List Direction → Tabletop
  | [] => t
  | direction :: rest =>
    if t.stage = .active then (t.move level capacity direction).play level capacity rest else t

/-- Once the attempt has ended no move is made. -/
theorem play_ended {level : Level} {capacity : Nat} {t : Tabletop} (ended : t.stage ≠ .active)
    (moves : List Direction) : t.play level capacity moves = t := by
  cases moves with
  | nil => rfl
  | cons => exact if_neg ended

end Tabletop

/-- The table that a session shows to those who have been told these events. Idle time is nothing
that a table knows. -/
def Session.table (s : Session) (told : List Event) : Tabletop where
  place := s.player.place
  stage := s.stage
  memory := s.referee.memory.timeless
  events := told

def Turn.table (before : List Event) (t : Turn) : Tabletop := t.session.table (before ++ t.events)

namespace Turn

section
variable {before : List Event} {t : Turn} {level : Level}

theorem table_emit (event : Event) : (t.emit event).table before = (t.table before).tell event := by
  simp only [table, emit, Session.table, Tabletop.tell, List.append_assoc]

theorem table_hinted : (t.hinted level.hints).table before = (t.table before).remind level := by
  rw [hinted_eq]
  simp only [table, Session.table, Tabletop.remind, Referee.hints, List.append_assoc]
  rfl

/-- What a referee has an effect do to a turn is what the table makes of it. -/
theorem table_obey {r : Referee} {board : Board} (active : t.session.isActive = true)
    (judged : r.board = some board) (size : board.size = level.board.size)
    (patterns : r.patterns = level.blueprint.patterns) (effect : Effect) :
    (t.ruled (r.execute effect).2 (r.execute effect).1).table before =
      (Turn.table before { t with session := { t.session with referee := r } }).obey level effect := by
  cases effect with
  | kill =>
    change (t.ruled _ [.killed]).table before = _
    rw [ruled_killed _ active, table_emit]
    rfl
  | win =>
    change (t.ruled _ [.won]).table before = _
    rw [ruled_won _ active, table_emit]
    rfl
  | teleport col row =>
    have inside : board.contains ⟨col, row⟩ = level.board.contains ⟨col, row⟩ := by
      simp only [Board.contains, size]
    simp only [Referee.execute, judged, inside, Tabletop.obey]
    split
    · refine (table_emit (.teleported ⟨col, row⟩)).trans ?_
      simp only [table, Session.table, (Player.reset_places _ _).1, Player.teleport]
    · rfl
  | showHint => exact table_emit _
  | playSound sound =>
    have same : (Turn.table before { t with session := { t.session with referee := r } }).obey level
        (.playSound sound) = (Turn.table before { t with session := { t.session with
          referee := { r with memory := { r.memory with music := true } } } }).tell
          (Referee.soundEvent r.patterns sound) := by
      rw [patterns]
      rfl
    rw [same]
    cases sound <;> exact table_emit _
  | stopSound => exact table_emit _
  | unsupported => rfl

theorem table_obeyIfAny {r : Referee} {board : Board} (active : t.session.isActive = true)
    (judged : r.board = some board) (size : board.size = level.board.size)
    (patterns : r.patterns = level.blueprint.patterns) (effect : Option Effect) :
    (t.ruled (r.executeIfAny effect).2 (r.executeIfAny effect).1).table before =
      (Turn.table before { t with session := { t.session with referee := r } }).obeyIfAny level
        effect := by
  cases effect with
  | none => rfl
  | some effect => exact table_obey active judged size patterns effect

theorem answer_lands (unnamed : t.session.referee.predicates = []) (level : Level) (place : Place) :
    t.answer level (.landed place) = (.ok (), ((t.emit (.landed place)).ruled
      (t.session.referee.rulingOn place).2 (t.session.referee.rulingOn place).1).hinted
        level.hints) := by
  have referee : (t.emit (.landed place)).session.referee = t.session.referee := rfl
  simp only [answer, referee, Referee.land_eq unnamed]
  rfl

/-- A landing on a board that has its paint is judged as on the table. -/
theorem table_lands {board : Board} {place : Place} (active : t.session.isActive = true)
    (judged : t.session.referee.board = some board) (same : board.bare = level.board.bare)
    (painted : ∀ tile ∈ board.tiles, tile = tile.painted)
    (rules : t.session.referee.rules = level.rules)
    (patterns : t.session.referee.patterns = level.blueprint.patterns)
    (stands : t.session.player.place = place) :
    (((t.emit (.landed place)).ruled (t.session.referee.rulingOn place).2
      (t.session.referee.rulingOn place).1).hinted level.hints).table before =
    (t.table before).land level t.session.referee.config.capacity.toNat place := by
  have tile : t.session.referee.tileAt place = (level.board.tileAt place).map Tile.painted := by
    simp only [Referee.tileAt, judged, Option.bind_some]
    exact Board.tileAt_painted same painted place
  have noted : (t.table before).memory = t.session.referee.memory.timeless := rfl
  -- The landing is told before it is noted; on the table both come at once.
  let noting : Turn :=
    { t with session := { t.session with referee := t.session.referee.noting place } }
  have shown : (noting.emit (.landed place)).table before = ({ t.table before with
      place, memory := (t.session.referee.noting place).memory.timeless }).tell (.landed place) := by
    subst stands
    exact table_emit _
  calc (((t.emit (.landed place)).ruled (t.session.referee.rulingOn place).2
        (t.session.referee.rulingOn place).1).hinted level.hints).table before
      = ((((t.emit (.landed place)).ruled (t.session.referee.rulingOn place).2
          (t.session.referee.rulingOn place).1)).table before).remind level := table_hinted
    _ = (((noting.emit (.landed place)).table before).obeyIfAny level (Referee.ruling?
          t.session.referee.rules (t.session.referee.noting place).memory
            (t.session.referee.tileAt place))).remind level :=
        congrArg _ (table_obeyIfAny (t := t.emit (.landed place))
          (r := t.session.referee.noting place) active judged (Board.size_of_bare same) patterns _)
    _ = (t.table before).land level t.session.referee.config.capacity.toNat place := by
        simp only [Tabletop.land, noted, Referee.record_timeless, Referee.ruling_timeless, ← tile,
          ← rules, shown]
        rfl

end

end Turn
end TilePuzzle
