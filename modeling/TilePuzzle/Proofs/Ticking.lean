import TilePuzzle.Proofs.Coherence
import TilePuzzle.Proofs.Pace

/-! What breaks a tick. With the usual constants the player moves and the rules are judged without a
fault, so a tick breaks just when a tile of the level does, or a cue that is due. -/
namespace TilePuzzle

namespace Cue

inductive Breaks (cue : Cue) : Prop
  /-- Colours that cannot be walked through. -/
  | colors : cue.kind = "show_sequence" → (Value.get cue.params "colors").isTruthy = true →
      Fails (Value.get cue.params "colors").items → Breaks cue
  /-- A sound that is a container. -/
  | sound : cue.kind = "play_sound" → Fails (Value.get cue.params "sound_id").key → Breaks cue

theorem itemsOf_fails_iff {v : Value} : Fails (itemsOf v) ↔ v.isTruthy = true ∧ Fails v.items := by
  unfold itemsOf
  split <;> simp [*]

theorem patternOf_fails_iff {patterns : Fields} {sound : Value} :
    Fails (patternOf patterns sound) ↔ Fails sound.key := by
  cases sound <;> simp [patternOf, Value.key]

theorem event_fails_iff (patterns : Fields) (cue : Cue) :
    Fails (cue.event patterns) ↔ cue.Breaks := by
  have iff : cue.Breaks ↔ (cue.kind = "show_sequence" ∧
      (Value.get cue.params "colors").isTruthy = true ∧ Fails (Value.get cue.params "colors").items) ∨
      cue.kind = "play_sound" ∧ Fails (Value.get cue.params "sound_id").key := by
    constructor
    · intro breaks
      cases breaks with
      | colors kind truthy items => exact .inl ⟨kind, truthy, items⟩
      | sound kind key => exact .inr ⟨kind, key⟩
    · rintro (⟨kind, truthy, items⟩ | ⟨kind, key⟩)
      · exact .colors kind truthy items
      · exact .sound kind key
  rw [iff]
  simp only [event]
  split
  next kind => simp [kind]
  next =>
    split
    next kind => simp [kind, itemsOf_fails_iff]
    next =>
      split
      next kind => simp [kind, patternOf_fails_iff]
      next => simp [*]

theorem eventsOf_fails_iff {patterns : Fields} {cues : List Cue} :
    Fails (eventsOf patterns cues).1 ↔ ∃ cue ∈ cues, cue.Breaks := by
  induction cues with
  | nil => simp [eventsOf]
  | cons cue rest ih =>
    simp only [List.mem_cons, exists_eq_or_imp, eventsOf]
    rw [← ih, ← event_fails_iff patterns]
    cases cue.event patterns <;> simp

end Cue

/-- A session that is played at the usual pace: sixty ticks a second, eleven for a move. -/
structure Session.Paced (s : Session) : Prop where
  rate : s.referee.config.tickRate = 60
  player : s.player.Paced

namespace Turn

theorem Steps.paced {size : Nat} {t u : Turn} (steps : Steps size t u) (paced : t.session.Paced) :
    u.session.Paced := by
  induction steps with
  | refl => exact paced
  | tail _ step ih =>
    obtain ⟨rate, player⟩ := ih
    cases step with
    | emit | win => exact ⟨rate, player⟩
    | judge referee keeps => exact ⟨keeps.config ▸ rate, player⟩
    | die => exact ⟨rate, Player.die_paced player⟩
    | teleport place => exact ⟨rate, Player.reset_paced player place⟩

theorem answer_ok (t : Turn) (level : Level) (event : Event) :
    ∃ u, t.answer level event = (.ok (), u) := by
  cases event with
  | landed place =>
    obtain ⟨events, after, landed⟩ := (t.emit (.landed place)).session.referee.land_ok place
    simp only [answer, applyResult, landed]
    exact ⟨_, rfl⟩
  | borderHit | killed | won | teleported | hintShown | soundStarted | soundStopped | sequenceShown
  | levelStarted => exact ⟨_, rfl⟩

theorem answerAll_ok (level : Level) (t : Turn) (events : List Event) :
    ∃ u, t.answerAll level events = (.ok (), u) := by
  induction events generalizing t with
  | nil => exact ⟨t, rfl⟩
  | cons event rest ih =>
    obtain ⟨u, answered⟩ := t.answer_ok level event
    simp only [answerAll, answered]
    exact ih u

theorem stride_ok {s : Session} {level : Level} (plays : s.Plays level) (paced : s.Paced) :
    ∃ events after, stride s level = (.ok events, after) ∧ after.Paced :=
  Player.update_ok paced.player plays.player plays.size.1 plays.size.2 _ _

theorem movePlayer_ok {t : Turn} {level : Level} (plays : t.session.Plays level)
    (paced : t.session.Paced) : ∃ u, t.movePlayer level = (.ok (), u) := by
  obtain ⟨events, after, updated, _⟩ := stride_ok plays paced
  rw [movePlayer_eq, updated]
  exact answerAll_ok level _ events

theorem passTime_ok {t : Turn} (paced : t.session.Paced) : ∃ u, t.passTime = (.ok (), u) := by
  unfold passTime
  split
  · obtain ⟨events, after, passed⟩ :=
      t.session.referee.tick_ok paced.rate (t.session.player.phase = .moving)
    simp only [applyResult, passed]
    exact ⟨_, rfl⟩
  · exact ⟨t, rfl⟩

end Turn

namespace Game

theorem moved_paced {s : Session} {level : Level} (plays : s.Plays level) (paced : s.Paced) :
    ((opening s).moved level).session.Paced := by
  obtain ⟨events, after, updated, kept⟩ := Turn.stride_ok (s := (opening s).session)
    { plays with } ⟨paced.rate, paced.player⟩
  refine ⟨paced.rate, ?_⟩
  change (Turn.stride (opening s).session level).2.Paced
  rw [updated]
  exact kept

/-- With the usual constants a frame always gets to its animation. -/
theorem simulate_ok {s : Session} {level : Level} (plays : s.Plays level) (paced : s.Paced) :
    ∃ t, Turn.Steps level.board.size ((opening s).moved level) t ∧
      simulate s level = t.animate level := by
  have unfolded : simulate s level = andThen
      (andThen ((opening s).movePlayer level) Turn.passTime) fun t => t.animate level := rfl
  have still : (Turn.stride (opening s).session level).2.Within level.board.size :=
    Player.update_within plays.player _ _
  have moves := Turn.movePlayer_steps (opening s) level plays.board still
  obtain ⟨t, moved⟩ := Turn.movePlayer_ok (t := opening s) { plays with } ⟨paced.rate, paced.player⟩
  rw [moved] at moves
  have passes := Turn.passTime_steps t (moves.keeps.board.trans plays.board)
  obtain ⟨u, passed⟩ := Turn.passTime_ok (moves.paced (moved_paced plays paced))
  rw [passed] at passes
  refine ⟨u, moves.trans passes, ?_⟩
  rw [unfolded, moved]
  simp only [andThen, passed]

theorem playFrame_session (s : Session) (level : Level) (cues : List (Int × Cue)) :
    (playFrame s level cues).2.1.session = (simulate s level).2.session := by
  unfold playFrame
  generalize simulate s level = outcome
  obtain ⟨result, t⟩ := outcome
  cases result with
  | error f => rfl
  | ok _ =>
    simp only [emitDue]
    split <;> rfl

/-- A frame breaks at a tile of its level, or at a cue that is due while the session is active. -/
theorem playFrame_fails_iff {s : Session} {level : Level} (plays : s.Plays level) (paced : s.Paced)
    (cues : List (Int × Cue)) : Fails (playFrame s level cues).1 ↔
      (∃ tile ∈ (Board.build level.blueprint).tiles, tile.Breaks (s.clock + 1 : Nat)) ∨
      ((playFrame s level cues).2.1.session.isActive = true ∧
        ∃ c ∈ cues, c.1 ≤ (s.frame + 1 : Nat) ∧ c.2.Breaks) := by
  obtain ⟨t, steps, animates⟩ := simulate_ok plays paced
  have stays := steps.stays
  have clock : t.session.clock = s.clock := stays.clock
  have frame : t.session.frame = s.frame + 1 := stays.frame
  have tiles : (∃ tile ∈ (Board.build level.blueprint).tiles, tile.Breaks (s.clock + 1 : Nat)) ↔
      Fails (t.animate level).1 := by
    rw [Turn.animate_eq, Board.refresh_fails_iff, clock]
    exact ⟨Board.breaks_of_bare plays.authored.symm, Board.breaks_of_bare plays.authored⟩
  rw [playFrame_session, animates, tiles]
  unfold playFrame
  rw [animates]
  have session : (t.animate level).2.session.frame = s.frame + 1 := frame
  generalize t.animate level = outcome at session ⊢
  obtain ⟨result, u⟩ := outcome
  cases result with
  | error f => simp
  | ok _ =>
    simp only [not_fails_ok, false_or, emitDue]
    split
    next active =>
      rw [Cue.eventsOf_fails_iff, session]
      simp only [active, true_and, List.mem_map, List.mem_filter, decide_eq_true_eq]
      constructor
      · rintro ⟨_, ⟨c, ⟨member, due⟩, rfl⟩, breaks⟩
        exact ⟨c, member, due, breaks⟩
      · rintro ⟨c, member, due, breaks⟩
        exact ⟨c.2, ⟨c, ⟨member, due⟩, rfl⟩, breaks⟩
    next inactive => simp [inactive]

/-- A game at the usual pace, whose cues are those of the level in place. -/
structure Timed (g : Game) : Prop where
  paced : g.session.Paced
  cues : ∀ level, g.session.level = some level → ∀ c ∈ g.backstage.cues, c.2 ∈ level.cues

theorem schedule_cues {config : Config} {cues : List Cue} {scheduled : List (Int × Cue)}
    (done : schedule config cues = .ok scheduled) : ∀ c ∈ scheduled, c.2 ∈ cues := by
  induction cues generalizing scheduled with
  | nil =>
    cases done
    exact nofun
  | cons cue rest ih =>
    obtain ⟨due, _, done⟩ := bind_ok_iff.mp done
    obtain ⟨more, later, done⟩ := bind_ok_iff.mp done
    cases done
    intro c member
    rcases List.mem_cons.mp member with rfl | member
    · exact List.mem_cons_self ..
    · exact List.mem_cons_of_mem _ (ih later c member)

theorem timed_of_paced {g : Game} (paced : g.session.Paced) (none : g.backstage.cues = []) :
    g.Timed :=
  ⟨paced, fun _ _ c member => by rw [none] at member; contradiction⟩

theorem beginLoading_timed {g : Game} (timed : g.Timed) : g.beginLoading.Timed :=
  timed_of_paced ⟨timed.paced.rate, timed.paced.player⟩ rfl

theorem setStage_timed {g : Game} (timed : g.Timed) (stage : Stage) : (g.setStage stage).Timed :=
  ⟨⟨timed.paced.rate, timed.paced.player⟩, timed.cues⟩

theorem install_timed {g : Game} (timed : g.Timed) (none : g.backstage.cues = []) (level : Level)
    (index : Nat) : (g.install level index).Timed :=
  timed_of_paced ⟨timed.paced.rate, Player.reset_paced timed.paced.player _⟩ none

theorem openLevel_timed {g : Game} (timed : g.Timed) (none : g.backstage.cues = []) (index : Nat)
    (level : Level) : (openLevel index g level).2.Timed := by
  have installed := install_timed timed none level index
  unfold openLevel
  simp only
  split
  · exact installed
  next cues scheduled =>
    refine ⟨installed.paced, ?_⟩
    rintro _ ⟨⟩ c member
    exact schedule_cues scheduled c member

theorem reopenLevel_timed {g : Game} (timed : g.Timed) (none : g.backstage.cues = [])
    (level : Level) : (reopenLevel g level).2.Timed :=
  timed_of_paced (install_timed timed none level g.session.levelIndex).paced none

theorem loadId_timed {g : Game} (timed : g.Timed) (id : Value)
    {finish : Game → Level → Except Fault Unit × Game} (finished : ∀ level, (finish g level).2.Timed) :
    (g.loadId id finish).2.Timed :=
  loadId_keeps timed (setStage_timed timed _) fun level _ =>
    ⟨finished level, setStage_timed (finished level) _⟩

theorem load_timed {g : Game} (timed : g.Timed) (index : Int) : (g.load index).2.Timed := by
  have begun := beginLoading_timed timed
  rcases g.load_cases index with refused | ⟨position, id, rfl, _, loads⟩
  · rw [refused]; exact timed
  · rw [loads]; exact loadId_timed begun id (openLevel_timed begun rfl position)

theorem retry_timed {g : Game} (timed : g.Timed) : g.retry.2.Timed := by
  have begun := beginLoading_timed timed
  rcases g.retry_cases with refused | ⟨id, _, loads⟩
  · rw [refused]; exact begun
  · rw [loads]; exact loadId_timed begun id (reopenLevel_timed begun rfl)

theorem resetDeaths_timed {g : Game} (timed : g.Timed) : g.resetDeaths.Timed :=
  ⟨⟨timed.paced.rate, timed.paced.player⟩, timed.cues⟩

/-- What a frame leaves keeps the pace, and no cue comes up that was not there. -/
theorem playFrame_timed {s : Session} {level : Level} (plays : s.Plays level) (paced : s.Paced)
    (cues : List (Int × Cue)) :
    (playFrame s level cues).2.1.session.Paced ∧
    (∃ board, (playFrame s level cues).2.1.session.level = some { level with board }) ∧
    ∀ c ∈ (playFrame s level cues).2.2, c ∈ cues := by
  obtain ⟨t, steps, animates⟩ := simulate_ok plays paced
  have kept := steps.paced (moved_paced plays paced)
  rw [playFrame_session, animates, Turn.animate_eq]
  refine ⟨⟨kept.rate, kept.player⟩, ⟨_, rfl⟩, ?_⟩
  unfold playFrame
  generalize simulate s level = outcome
  obtain ⟨result, u⟩ := outcome
  cases result with
  | error f => exact fun _ member => member
  | ok _ =>
    simp only [emitDue]
    split
    · exact fun _ member => (List.mem_filter.mp member).1
    · exact fun _ member => member

theorem tick_timed {g : Game} (coherent : g.session.Coherent) (timed : g.Timed) :
    g.tick.2.Timed := by
  cases here : g.session.level with
  | none => rw [tick_idle (.inl here)]; exact ⟨timed.paced, timed.cues⟩
  | some level =>
    cases active : g.session.isActive with
    | false => rw [tick_idle (.inr active)]; exact ⟨timed.paced, timed.cues⟩
    | true =>
      obtain ⟨paced, ⟨board, placed⟩, before⟩ :=
        playFrame_timed (coherent.inPlace level here) timed.paced g.backstage.cues
      rw [tick_active here active]
      refine ⟨paced, ?_⟩
      intro other others c member
      cases placed.symm.trans others
      exact timed.cues level here c (before c member)

theorem perform_timed {g : Game} (coherent : g.session.Coherent) (timed : g.Timed) (op : Op) :
    (g.perform op).Timed := by
  cases op with
  | load index => exact load_timed timed index
  | retry => exact retry_timed timed
  | advance =>
    change g.advance.2.Timed
    rw [advance_eq]
    exact load_timed (resetDeaths_timed timed) _
  | jump index =>
    change (g.jump index).2.Timed
    rcases g.jump_cases index with refused | loads
    · rw [refused]; exact timed
    · rw [loads]; exact load_timed (resetDeaths_timed timed) _
  | push v => exact ⟨⟨timed.paced.rate, timed.paced.player⟩, timed.cues⟩
  | tick => exact tick_timed coherent timed
  | finish =>
    have none : (g.perform .finish).session.level = none := rfl
    refine ⟨⟨timed.paced.rate, timed.paced.player⟩, ?_⟩
    intro level here
    rw [none] at here
    contradiction
  | rewrite read => exact ⟨⟨timed.paced.rate, timed.paced.player⟩, timed.cues⟩

theorem play_timed {g : Game} (coherent : g.session.Coherent) (timed : g.Timed) (ops : List Op) :
    (g.play ops).session.Coherent ∧ (g.play ops).Timed := by
  refine play_keeps (P := fun h => h.session.Coherent ∧ h.Timed) ?_ ⟨coherent, timed⟩ ops
  rintro h op ⟨still, paced⟩
  exact ⟨perform_coherent h op still, perform_timed still paced op⟩

theorem tick_fails_iff {g : Game} (coherent : g.session.Coherent) (timed : g.Timed) :
    Fails g.tick.1 ↔ ∃ level, g.session.level = some level ∧ g.session.isActive = true ∧
      ((∃ tile ∈ (Board.build level.blueprint).tiles, tile.Breaks (g.session.clock + 1 : Nat)) ∨
        (g.tick.2.session.isActive = true ∧ ∃ c ∈ g.backstage.cues, c.2 ∈ level.cues ∧
          c.1 ≤ (g.session.frame + 1 : Nat) ∧ c.2.Breaks)) := by
  cases here : g.session.level with
  | none => simp [tick_idle (.inl here)]
  | some level =>
    cases active : g.session.isActive with
    | false => simp [tick_idle (.inr active)]
    | true =>
      have listed (c : Int × Cue) : (c ∈ g.backstage.cues ∧ c.2 ∈ level.cues ∧
          c.1 ≤ (g.session.frame + 1 : Nat) ∧ c.2.Breaks) ↔
          c ∈ g.backstage.cues ∧ c.1 ≤ (g.session.frame + 1 : Nat) ∧ c.2.Breaks :=
        ⟨fun ⟨member, _, due⟩ => ⟨member, due⟩,
          fun ⟨member, due⟩ => ⟨member, timed.cues level here c member, due⟩⟩
      have frame := playFrame_fails_iff (coherent.inPlace level here) timed.paced g.backstage.cues
      simp only [Option.some.injEq, exists_eq_left', true_and, listed]
      rw [tick_active here active]
      exact fails_map.trans frame

end Game

namespace Session

theorem create_paced {levels : LevelSet} {predicates : Predicates} {now : Number} {s : Session}
    (created : create {} levels predicates now = .ok s) : s.Paced := by
  obtain ⟨ids, _, created⟩ := bind_ok_iff.mp created
  obtain ⟨referee, appointed, created⟩ := bind_ok_iff.mp created
  cases appointed
  cases created
  exact ⟨rfl, rfl, nofun⟩

end Session

namespace Game

/-- A session that was created with the usual constants, after any operations. A tick breaks just when
the level in place is being played and one of its tiles breaks at the next tick of the clock, or one
of its cues is due and breaks while the session stays active; any other tick gives its result. -/
theorem play_tick_fails_iff {lobby after : Lobby} {levels : LevelSet} {predicates : Predicates}
    {now : Number} {id : String} {session : Session}
    (created : lobby.create levels predicates now = (.ok (id, session), after))
    (usual : lobby.config = {}) (listeners : Nat) (ops : List Op) (g : Game)
    (here : g = (ofSession session listeners).play ops) :
    (∃ f, g.tick.1 = .error f) ↔
      ∃ level, g.session.level = some level ∧ g.session.isActive = true ∧
        ((∃ tile ∈ (Board.build level.blueprint).tiles, tile.Breaks (g.session.clock + 1 : Nat)) ∨
          (g.tick.2.session.isActive = true ∧ ∃ c ∈ g.backstage.cues, c.2 ∈ level.cues ∧
            c.1 ≤ (g.session.frame + 1 : Nat) ∧ c.2.Breaks)) := by
  obtain ⟨made, _, _⟩ := Lobby.create_ok created
  rw [usual] at made
  have coherent : (ofSession session listeners).session.Coherent := Session.create_coherent made
  have timed : (ofSession session listeners).Timed := timed_of_paced (Session.create_paced made) rfl
  obtain ⟨still, paced⟩ := play_timed coherent timed ops
  rw [← here] at still paced
  exact tick_fails_iff still paced

/-- A tile that blinks infinitely fast: the first tick of its level breaks. -/
theorem play_tick_fails_blinking :
    let params : Value := .obj [("speed", .float (Float.ofBits 0x7ff0000000000000))]
    let tile : Value := .obj [("position", .arr [.int 1, .int 0]), ("mechanic", .str "blinking"),
      ("mechanic_params", params)]
    let levels : LevelSet := .catalog ⟨[(.int 1, .obj [("cells", .arr [tile])])], [.int 1]⟩
    ∃ session after, ({} : Lobby).create levels [] (.int 0) = (.ok ("s0", session), after) ∧
      let g := (ofSession session 0).play [.load 0]
      (∃ f, g.tick.1 = .error f) ∧
      ∃ level, g.session.level = some level ∧ g.session.isActive = true ∧
        ((∃ tile ∈ (Board.build level.blueprint).tiles, tile.Breaks (g.session.clock + 1 : Nat)) ∨
          (g.tick.2.session.isActive = true ∧ ∃ c ∈ g.backstage.cues, c.2 ∈ level.cues ∧
            c.1 ≤ (g.session.frame + 1 : Nat) ∧ c.2.Breaks)) := by
  intro params tile levels
  refine ⟨_, _, rfl, ?_⟩
  intro g
  have broken : Fails g.tick.1 := fails_of_isOk (by decide +kernel)
  exact ⟨broken, (@play_tick_fails_iff {} _ levels [] (.int 0) "s0" _ rfl rfl 0 [.load 0] g rfl).mp
    broken⟩

end Game
end TilePuzzle
