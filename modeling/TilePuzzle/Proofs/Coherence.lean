import TilePuzzle.Campaign
import TilePuzzle.Proofs.Run

/-! Coherence: whatever is done to a game, token, rules and position always are those of the level in
place, and nobody is told of a place that is not on its board. -/
namespace TilePuzzle

theorem Level.build_fresh {b : Blueprint} {level : Level} (built : Level.build b = .ok level) :
    level.blueprint = b ∧ level.board = Board.build b := by
  unfold Level.build at built
  cases read : Rule.ofItems (b.rules.map .obj) with
  | error f => rw [read] at built; cases built
  | ok rules => rw [read] at built; cases built; exact ⟨rfl, rfl⟩

/-- The name that a level takes is all that the id it was asked for by changes. -/
theorem Level.named_eq (level : Level) (asked : Value) : ∃ id, level.named asked = { level with id } := by
  unfold Level.named
  split
  · exact ⟨asked, rfl⟩
  · exact ⟨level.id, rfl⟩

theorem Level.ofAsked_built {asked v : Value} {level : Level}
    (read : Level.ofAsked asked v = .ok (some level)) :
    ∃ b fresh, Level.build b = .ok fresh ∧ level = fresh.named asked := by
  unfold Level.ofAsked Level.ofValue at read
  cases described : Blueprint.ofValue v with
  | issues first more => rw [described] at read; cases read
  | ok b =>
    rw [described] at read
    cases built : Level.build b with
    | error f => simp [built, Except.map] at read
    | ok fresh =>
      simp only [built, Except.map, Option.map_some, Except.ok.injEq, Option.some.injEq] at read
      exact ⟨b, fresh, built, read.symm⟩

/-- Every level that is loaded has been built of a blueprint. -/
theorem LevelSet.load_built {set : LevelSet} {id : Value} {level : Level}
    (loaded : set.load id = .ok (some level)) :
    ∃ b fresh, Level.build b = .ok fresh ∧ level = fresh.named id := by
  cases set with
  | folder read path =>
    simp only [LevelSet.load] at loaded
    split at loaded
    · cases loaded
    · cases loaded
    · exact Level.ofAsked_built loaded
  | catalog c =>
    simp only [LevelSet.load, Catalog.load] at loaded
    split at loaded
    · cases loaded
    · split at loaded
      · cases loaded
      · exact Level.ofAsked_built loaded

theorem LevelSet.load_fresh {set : LevelSet} {id : Value} {level : Level}
    (loaded : set.load id = .ok (some level)) : level.board = Board.build level.blueprint := by
  obtain ⟨b, fresh, built, rfl⟩ := LevelSet.load_built loaded
  obtain ⟨same, board⟩ := Level.build_fresh built
  obtain ⟨_, named⟩ := fresh.named_eq id
  rw [named, board, same]

namespace Session

theorem isActive_iff (s : Session) : s.isActive = true ↔ s.stage = .active := by
  simp [isActive]

/-- Everything in the session is about this level: the token is on its board, its rules are judged
on that board, and it stands at a position of the set. -/
structure Plays (s : Session) (level : Level) : Prop where
  player : s.player.Within level.board.size
  rules : s.referee.rules = level.rules
  board : s.referee.board = some level.board
  patterns : s.referee.patterns = level.blueprint.patterns
  authored : level.board.bare = (Board.build level.blueprint).bare
  index : s.levelIndex < s.levelIds.length

theorem Plays.size {s : Session} {level : Level} (plays : s.Plays level) :
    1 ≤ level.board.size ∧ level.board.size ≤ 64 := by
  have size : level.board.size = level.blueprint.size := by
    rw [Board.size_of_bare plays.authored, Board.build_size]
  rw [size]
  exact ⟨level.blueprint.size_pos, level.blueprint.size_le⟩

/-- A session is about the level in place, and only a session with one is active. -/
structure Coherent (s : Session) : Prop where
  inPlace : ∀ level, s.level = some level → s.Plays level
  active : s.isActive = true → ∃ level, s.level = some level

end Session

namespace Turn

/-- A turn on this level: it stays in place, and all that was told so far is on its board. -/
structure Sound (t : Turn) (level : Level) : Prop where
  here : t.session.level = some level
  plays : t.session.Plays level
  events : ∀ event ∈ t.events, event.Within level.board.size

theorem Step.sound {level : Level} {t u : Turn} (step : Step level.board.size t u)
    (sound : t.Sound level) : u.Sound level := by
  obtain ⟨here, plays, events⟩ := sound
  cases step with
  | emit event within =>
    refine ⟨here, plays, ?_⟩
    intro e member
    rcases List.mem_append.mp member with before | new
    · exact events e before
    · rw [List.mem_singleton.mp new]; exact within
  | judge referee keeps =>
    exact ⟨here, { plays with
      rules := keeps.rules.trans plays.rules
      board := keeps.board.trans plays.board
      patterns := keeps.patterns.trans plays.patterns }, events⟩
  | die => exact ⟨here, { plays with player := Player.die_within plays.player }, events⟩
  | win => exact ⟨here, { plays with }, events⟩
  | teleport place inside =>
    exact ⟨here, { plays with player := Player.reset_within _ inside }, events⟩

theorem Steps.sound {level : Level} {t u : Turn} (steps : Steps level.board.size t u)
    (sound : t.Sound level) : u.Sound level := by
  induction steps with
  | refl => exact sound
  | tail _ step ih => exact step.sound ih

theorem moved_sound {level : Level} {t : Turn} (sound : t.Sound level) :
    (t.moved level).Sound level :=
  ⟨sound.here, { sound.plays with player := Player.update_within sound.plays.player _ _ },
    sound.events⟩

theorem animated_sound {level : Level} {t : Turn} (sound : t.Sound level) {board : Board}
    (same : board.bare = level.board.bare) :
    (t.animated level board).Sound { level with board } := by
  have size : board.size = level.board.size := Board.size_of_bare same
  obtain ⟨_, plays, events⟩ := sound
  refine ⟨rfl, { plays with player := ?_, board := rfl, authored := same.trans plays.authored }, ?_⟩
  · change t.session.player.Within board.size
    rw [size]; exact plays.player
  · change ∀ event ∈ t.events, event.Within board.size
    rw [size]; exact events

end Turn

inductive Event.Shown : Event → Prop
  | hint (text duration : Value) : Shown (.hintShown text duration)
  | sequence (colors : List Value) (duration label : Value) :
      Shown (.sequenceShown colors duration label)
  | sound (sound pattern : Value) : Shown (.soundStarted sound pattern)

theorem Event.Shown.placeless {event : Event} (shown : event.Shown) : event.place? = none := by
  cases shown <;> rfl

theorem Cue.event_shown {patterns : Fields} {cue : Cue} {event : Event}
    (shown : cue.event patterns = .ok (some event)) : event.Shown := by
  simp only [Cue.event] at shown
  split at shown
  · cases shown; exact .hint _ _
  · split at shown
    · cases colors : Cue.itemsOf (Value.get cue.params "colors") with
      | error f => rw [colors] at shown; cases shown
      | ok items => rw [colors] at shown; cases shown; exact .sequence _ _ _
    · split at shown
      · cases pattern : Cue.patternOf patterns (Value.get cue.params "sound_id") with
        | error f => rw [pattern] at shown; cases shown
        | ok found => rw [pattern] at shown; cases shown; exact .sound _ _
      · cases shown

theorem Cue.eventsOf_shown (patterns : Fields) (cues : List Cue) :
    ∀ event ∈ (Cue.eventsOf patterns cues).2, event.Shown := by
  induction cues with
  | nil => exact nofun
  | cons cue rest ih =>
    intro event member
    simp only [Cue.eventsOf] at member
    cases shown : cue.event patterns with
    | error f => rw [shown] at member; cases member
    | ok first =>
      simp only [shown, List.mem_append, Option.mem_toList] at member
      rcases member with new | later
      · subst new
        exact Cue.event_shown shown
      · exact ih event later

namespace Session

/-- What a session is about does not depend on how far it has come, nor on what waits. -/
theorem Coherent.mono {s after : Session} (coherent : s.Coherent)
    (level : after.level = s.level) (player : after.player = s.player)
    (rules : after.referee.rules = s.referee.rules) (board : after.referee.board = s.referee.board)
    (patterns : after.referee.patterns = s.referee.patterns)
    (index : after.levelIndex = s.levelIndex) (ids : after.levelIds = s.levelIds)
    (active : after.isActive = true → s.isActive = true) : after.Coherent where
  inPlace := by
    intro here placed
    obtain plays := coherent.inPlace here (level ▸ placed)
    constructor
    · rw [player]; exact plays.player
    · rw [rules]; exact plays.rules
    · rw [board]; exact plays.board
    · rw [patterns]; exact plays.patterns
    · exact plays.authored
    · rw [index, ids]; exact plays.index
  active := fun playing => level ▸ coherent.active (active playing)

theorem coherent_of_none {s : Session} (none : s.level = none) (inactive : s.stage ≠ .active) :
    s.Coherent where
  inPlace := by
    intro level here
    rw [none] at here
    contradiction
  active := fun playing => absurd (s.isActive_iff.mp playing) inactive

theorem create_fresh {config : Config} {levels : LevelSet} {predicates : Predicates}
    {now : Number} {s : Session} (created : create config levels predicates now = .ok s) :
    s.levelIndex = 0 ∧ s.stage = .created ∧ s.level = none ∧ s.config = config ∧
    s.levels = levels ∧ s.createdAt = now := by
  unfold create at created
  cases listed : levels.ids with
  | error f => rw [listed] at created; cases created
  | ok ids =>
    cases appointed : Referee.create config predicates with
    | error f => rw [listed, appointed] at created; cases created
    | ok referee =>
      rw [listed, appointed] at created
      cases created
      exact ⟨rfl, rfl, rfl, rfl, rfl, rfl⟩

theorem create_coherent {config : Config} {levels : LevelSet} {predicates : Predicates}
    {now : Number} {s : Session} (created : create config levels predicates now = .ok s) :
    s.Coherent := by
  obtain ⟨_, stage, none, _⟩ := create_fresh created
  exact coherent_of_none none (by rw [stage]; nofun)

end Session

/-- What the lobby hands out is a new session under the next id. -/
theorem Lobby.create_ok {lobby after : Lobby} {levels : LevelSet} {predicates : Predicates}
    {now : Number} {id : String} {session : Session}
    (created : lobby.create levels predicates now = (.ok (id, session), after)) :
    Session.create lobby.config levels predicates now = .ok session ∧ id = idOf lobby.issued ∧
    after = { lobby with
      sessions := lobby.sessions ++ [(id, session)], issued := lobby.issued + 1 } := by
  simp only [create] at created
  cases made : Session.create lobby.config levels predicates now with
  | error f => rw [made] at created; cases created
  | ok s =>
    rw [made] at created
    cases created
    exact ⟨rfl, rfl, rfl⟩

namespace Game

theorem install_plays (g : Game) {level : Level} {index : Nat}
    (fresh : level.board = Board.build level.blueprint)
    (inside : index < g.session.levelIds.length) : (g.install level index).session.Plays level where
  player := by
    apply Player.reset_within
    rw [fresh, Board.build_size]
    exact Board.startPlace_within level.blueprint
  rules := rfl
  board := rfl
  patterns := rfl
  authored := congrArg Board.bare fresh
  index := inside

theorem install_coherent (g : Game) {level : Level} {index : Nat}
    (fresh : level.board = Board.build level.blueprint)
    (inside : index < g.session.levelIds.length) : (g.install level index).session.Coherent where
  inPlace := by
    rintro _ ⟨⟩
    exact g.install_plays fresh inside
  active := fun _ => ⟨level, rfl⟩

theorem setStage_coherent {g : Game} {stage : Stage} (coherent : g.session.Coherent)
    (placed : stage = .active → ∃ level, g.session.level = some level) :
    (g.setStage stage).session.Coherent where
  inPlace := fun level here => { coherent.inPlace level here with }
  active := fun playing => placed (by simpa [Session.isActive, setStage] using playing)

theorem beginLoading_coherent {g : Game} (coherent : g.session.Coherent) :
    g.beginLoading.session.Coherent :=
  coherent.mono rfl rfl rfl rfl rfl rfl rfl fun playing => by
    rw [Session.isActive_iff] at playing
    contradiction

theorem resetDeaths_coherent {g : Game} (coherent : g.session.Coherent) :
    g.resetDeaths.session.Coherent :=
  coherent.mono rfl rfl rfl rfl rfl rfl rfl id

theorem loadId_coherent {g : Game} (coherent : g.session.Coherent) (id : Value) {index : Nat}
    (inside : index < g.session.levelIds.length) {finish : Game → Level → Except Fault Unit × Game}
    (installs : ∀ level, (finish g level).2.session = (g.install level index).session) :
    (g.loadId id finish).2.session.Coherent := by
  refine loadId_keeps (P := fun g => g.session.Coherent) coherent
    (setStage_coherent coherent nofun) fun level found => ?_
  have after : (finish g level).2.session.Coherent := by
    rw [installs]
    exact g.install_coherent (LevelSet.load_fresh found) inside
  refine ⟨after, setStage_coherent after fun _ => ⟨level, ?_⟩⟩
  rw [installs]
  rfl

theorem load_coherent {g : Game} (coherent : g.session.Coherent) (index : Int) :
    (g.load index).2.session.Coherent := by
  rcases g.load_cases index with refused | ⟨position, id, rfl, listed, loads⟩
  · rw [refused]; exact coherent
  · rw [loads]
    exact loadId_coherent (beginLoading_coherent coherent) id (List.getElem?_eq_some_iff.mp listed).1
      (openLevel_session position _)

theorem retry_coherent {g : Game} (coherent : g.session.Coherent) :
    g.retry.2.session.Coherent := by
  rcases g.retry_cases with refused | ⟨id, listed, loads⟩
  · rw [refused]; exact beginLoading_coherent coherent
  · rw [loads]
    exact loadId_coherent (beginLoading_coherent coherent) id (List.getElem?_eq_some_iff.mp listed).1
      (reopenLevel_session _)

theorem jump_coherent {g : Game} (coherent : g.session.Coherent) (index : Int) :
    (g.jump index).2.session.Coherent := by
  rcases g.jump_cases index with refused | loads
  · rw [refused]; exact coherent
  · rw [loads]; exact load_coherent (resetDeaths_coherent coherent) index

/-- What a frame leaves: the same level with other looks, and everything told was on its board. -/
theorem playFrame_sound {session : Session} {level : Level} (here : session.level = some level)
    (plays : session.Plays level) (cues : List (Int × Cue)) :
    ∃ board : Board, board.bare = level.board.bare ∧
      (playFrame session level cues).2.1.Sound { level with board } := by
  have opened : (opening session).Sound level := ⟨here, { plays with }, nofun⟩
  obtain ⟨t, steps, ends⟩ := playFrame_cases session level cues plays.board plays.player
  have sound : t.Sound level := steps.sound (Turn.moved_sound opened)
  have animated := Turn.animated_sound sound
    (Board.refresh_bare (t.session.clock + 1 : Nat) level.board)
  rcases ends with ⟨f, failed⟩ | ⟨f, _, failed⟩ | ⟨_, played⟩
  · exact ⟨level.board, rfl, by rw [failed]; exact sound⟩
  · exact ⟨_, Board.refresh_bare _ _, by rw [failed, Turn.animate_eq]; exact animated⟩
  · refine ⟨_, Board.refresh_bare (t.session.clock + 1 : Nat) level.board, ?_⟩
    rw [played, Turn.animate_eq]
    unfold emitDue
    split
    · refine ⟨animated.here, animated.plays, ?_⟩
      intro event member
      rcases List.mem_append.mp member with before | cue
      · exact animated.events event before
      · intro place carried
        rw [(Cue.eventsOf_shown _ _ event cue).placeless] at carried
        cases carried
    · exact animated

theorem playFrame_set {session : Session} {level : Level} (plays : session.Plays level)
    (cues : List (Int × Cue)) :
    (playFrame session level cues).2.1.session.config = session.config ∧
    (playFrame session level cues).2.1.session.createdAt = session.createdAt ∧
    (playFrame session level cues).2.1.session.levelIds = session.levelIds ∧
    (playFrame session level cues).2.1.session.levelIndex = session.levelIndex := by
  obtain ⟨t, steps, ends⟩ := playFrame_cases session level cues plays.board plays.player
  obtain ⟨_, createdAt, config, levelIds, levelIndex, _, _, _⟩ := steps.stays
  rcases ends with ⟨f, failed⟩ | ⟨f, _, failed⟩ | ⟨_, played⟩
  · rw [failed]; exact ⟨config, createdAt, levelIds, levelIndex⟩
  · rw [failed]; exact ⟨config, createdAt, levelIds, levelIndex⟩
  · rw [played]
    unfold emitDue
    split <;> exact ⟨config, createdAt, levelIds, levelIndex⟩

theorem tick_coherent {g : Game} (coherent : g.session.Coherent) :
    g.tick.2.session.Coherent := by
  cases here : g.session.level with
  | none => rw [tick_idle (.inl here)]; exact coherent
  | some level =>
    cases active : g.session.isActive with
    | false => rw [tick_idle (.inr active)]; exact coherent
    | true =>
      obtain ⟨board, _, sound⟩ :=
        playFrame_sound here (coherent.inPlace level here) g.backstage.cues
      rw [tick_active here active]
      refine ⟨?_, fun _ => ⟨_, sound.here⟩⟩
      intro other placed
      have same : other = { level with board } :=
        Option.some.inj (Eq.trans placed.symm sound.here)
      rw [same]
      exact sound.plays

theorem perform_coherent (g : Game) (op : Op) (coherent : g.session.Coherent) :
    (g.perform op).session.Coherent := by
  cases op with
  | load index => exact load_coherent coherent index
  | retry => exact retry_coherent coherent
  | advance =>
    unfold perform
    rw [advance_eq]
    exact load_coherent (resetDeaths_coherent coherent) _
  | jump index => exact jump_coherent coherent index
  | push v => exact coherent.mono rfl rfl rfl rfl rfl rfl rfl id
  | tick => exact tick_coherent coherent
  | finish =>
    exact Session.coherent_of_none rfl nofun
  | rewrite read => exact coherent.mono rfl rfl rfl rfl rfl rfl rfl id

/-- Between the two games everybody was told the same, and nothing of a place. -/
def Quiet (g after : Game) : Prop :=
  ∃ events, after.backstage.heard = g.backstage.heard.map (· ++ events) ∧
    ∀ event ∈ events, event.place? = none

theorem quiet_of_same {g after : Game} (same : after.backstage.heard = g.backstage.heard) :
    g.Quiet after :=
  ⟨[], by simp [same], nofun⟩

theorem Quiet.trans {g h k : Game} (first : g.Quiet h) (second : h.Quiet k) : g.Quiet k := by
  obtain ⟨earlier, told, placeless⟩ := first
  obtain ⟨later, toldAfter, placelessAfter⟩ := second
  refine ⟨earlier ++ later, by simp [toldAfter, told], ?_⟩
  intro event member
  rcases List.mem_append.mp member with before | after
  · exact placeless event before
  · exact placelessAfter event after

theorem post_quiet (g : Game) {events : List Event}
    (placeless : ∀ event ∈ events, event.place? = none) : g.Quiet (g.post events) :=
  ⟨events, rfl, placeless⟩

theorem install_quiet (g : Game) (level : Level) (index : Nat) : g.Quiet (g.install level index) := by
  apply Quiet.trans (quiet_of_same (g := g) rfl) (post_quiet _ _)
  intro event member
  rw [List.mem_singleton.mp member]
  rfl

theorem openLevel_quiet (index : Nat) (g : Game) (level : Level) :
    g.Quiet (openLevel index g level).2 := by
  have installed := g.install_quiet level index
  unfold openLevel
  simp only
  split
  · exact installed
  · exact installed.trans (quiet_of_same rfl)

theorem reopenLevel_quiet (g : Game) (level : Level) : g.Quiet (reopenLevel g level).2 :=
  (g.install_quiet level _).trans (post_quiet _ (Referee.hints_place _ _))

theorem loadId_quiet (g : Game) (id : Value) {finish : Game → Level → Except Fault Unit × Game}
    (quiet : ∀ level, g.Quiet (finish g level).2) : g.Quiet (g.loadId id finish).2 :=
  loadId_keeps (quiet_of_same rfl) (quiet_of_same rfl) fun level _ =>
    ⟨quiet level, (quiet level).trans (quiet_of_same rfl)⟩

theorem load_quiet (g : Game) (index : Int) : g.Quiet (g.load index).2 := by
  have begun : g.Quiet g.beginLoading := quiet_of_same rfl
  rcases g.load_cases index with refused | ⟨position, id, rfl, _, loads⟩
  · rw [refused]; exact quiet_of_same rfl
  · rw [loads]; exact begun.trans (loadId_quiet _ _ (openLevel_quiet _ _))

theorem retry_quiet (g : Game) : g.Quiet g.retry.2 := by
  have begun : g.Quiet g.beginLoading := quiet_of_same rfl
  rcases g.retry_cases with refused | ⟨id, _, loads⟩
  · rw [refused]; exact begun
  · rw [loads]; exact begun.trans (loadId_quiet _ _ (reopenLevel_quiet _))

theorem perform_quiet (g : Game) {op : Op} (outside : op ≠ .tick) : g.Quiet (g.perform op) := by
  cases op with
  | load index => exact g.load_quiet index
  | retry => exact g.retry_quiet
  | advance =>
    unfold perform
    rw [advance_eq]
    exact Quiet.trans (quiet_of_same rfl) (load_quiet _ _)
  | jump index =>
    change g.Quiet (g.jump index).2
    rcases g.jump_cases index with refused | loads
    · rw [refused]; exact quiet_of_same rfl
    · rw [loads]; exact Quiet.trans (quiet_of_same rfl) (load_quiet _ _)
  | push | finish | rewrite => exact quiet_of_same rfl
  | tick => contradiction

/-- Somebody who listens from just before an operation hears exactly what it tells everybody. -/
theorem emitted_of_told {g : Game} {op : Op} {events : List Event}
    (told : (g.listen.perform op).backstage.heard = g.listen.backstage.heard.map (· ++ events)) :
    g.emitted op = events := by
  rw [emitted, told]
  simp [listen]

theorem emitted_idle {g : Game} (idle : g.session.level = none ∨ g.session.isActive = false) :
    g.emitted .tick = [] := by
  apply emitted_of_told
  change g.listen.tick.2.backstage.heard = _
  rw [tick_idle (g := g.listen) idle]
  simp

theorem emitted_active {g : Game} {level : Level} (here : g.session.level = some level)
    (active : g.session.isActive = true) :
    g.emitted .tick = (playFrame g.session level g.backstage.cues).2.1.events := by
  apply emitted_of_told
  change g.listen.tick.2.backstage.heard = _
  rw [tick_active (g := g.listen) here active]
  rfl

/-- Whoever listens to a frame hears only of places on the board of the level in place. -/
theorem emitted_within {g : Game} (coherent : g.session.Coherent) (op : Op) {event : Event}
    (member : event ∈ g.emitted op) {place : Place} (carried : event.place? = some place) :
    ∃ level, g.session.level = some level ∧ level.board.contains place = true := by
  by_cases outside : op = .tick
  · subst outside
    cases here : g.session.level with
    | none => rw [emitted_idle (.inl here)] at member; contradiction
    | some level =>
      refine ⟨level, rfl, ?_⟩
      cases active : g.session.isActive with
      | false => rw [emitted_idle (.inr active)] at member; contradiction
      | true =>
        obtain ⟨board, same, sound⟩ :=
          playFrame_sound here (coherent.inPlace level here) g.backstage.cues
        rw [emitted_active here active] at member
        have within := sound.events event member place carried
        rw [Board.size_of_bare same] at within
        exact within
  · obtain ⟨events, told, placeless⟩ := g.listen.perform_quiet outside
    rw [emitted_of_told told] at member
    rw [placeless event member] at carried
    contradiction

/-- A session that was created is coherent after any operations, and whatever comes next, nobody is
told of a place that is not on the board of the level in place. -/
theorem play_coherent {lobby after : Lobby} {levels : LevelSet} {predicates : Predicates}
    {now : Number} {id : String} {session : Session}
    (created : lobby.create levels predicates now = (.ok (id, session), after)) (listeners : Nat)
    (ops : List Op) :
    ((ofSession session listeners).play ops).session.Coherent ∧
    ∀ op, ∀ event ∈ ((ofSession session listeners).play ops).emitted op,
      ∀ place, event.place? = some place →
        ∃ level, ((ofSession session listeners).play ops).session.level = some level ∧
          level.board.contains place = true := by
  obtain ⟨made, _, _⟩ := Lobby.create_ok created
  have fresh : session.Coherent := Session.create_coherent made
  have coherent : ((ofSession session listeners).play ops).session.Coherent :=
    play_keeps perform_coherent (P := fun g => g.session.Coherent) fresh ops
  exact ⟨coherent, fun op event member place carried =>
    emitted_within coherent op member carried⟩

/-- A step to the right on the first level of the campaign: its last tick tells of the landing. -/
theorem play_coherent_campaign : ∃ session after,
    ({} : Lobby).create Campaign.levelSet [] (.int 0) = (.ok ("s0", session), after) ∧
    let g := (ofSession session 1).play (.load 0 :: .push (.str "right") :: .replicate 11 .tick)
    g.session.Coherent ∧ (g.emitted .tick).map Event.place? = [some ⟨1, 0⟩] :=
  ⟨_, _, rfl, (@play_coherent {} _ Campaign.levelSet [] (.int 0) _ _ rfl 1 _).1, by decide +kernel⟩

end Game
end TilePuzzle
