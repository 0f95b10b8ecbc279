import TilePuzzle.Proofs.Outcome

/-! Loads and frames with their faults, and what all of them leave alone. A session keeps the constants
and the predicates it was created with, whatever is done to it and whatever breaks off on the way. -/
namespace TilePuzzle

namespace Player

theorem reset_moveTicks (p : Player) (place : Place) : (p.reset place).2.moveTicks = p.moveTicks := by
  obtain ⟨x, y, frame | frame⟩ := p.reset_frame place <;> rw [frame]

theorem advance_moveTicks (p : Player) : p.advance.2.moveTicks = p.moveTicks := by
  obtain ⟨x, y, frame | frame⟩ := p.advance_frame <;> rw [frame]

theorem tryMove_moveTicks (p : Player) (direction : Direction) (size : Int) (border : Border) :
    (p.tryMove direction size border).2.moveTicks = p.moveTicks := by
  rcases p.tryMove_frame direction size border with frame | ⟨target, frame⟩ <;> rw [frame]
  rfl

theorem update_moveTicks (p : Player) (intent : Except Fault (Option Direction)) (size : Int)
    (border : Border) : (p.update intent size border).2.moveTicks = p.moveTicks := by
  unfold update
  split
  · rfl
  · exact p.hover.advance_moveTicks
  · split
    · rfl
    · rfl
    · exact p.hover.tryMove_moveTicks _ _ _

end Player

/-- A session with the constants and the predicates that it was created with. -/
structure Session.Equipped (s : Session) (config : Config) (predicates : Predicates) : Prop where
  constants : s.referee.config = config
  named : s.referee.predicates = predicates
  limit : s.intents.limit = .int config.maxPending
  ticks : s.player.moveTicks = config.moveTicks

namespace Turn

@[simp] theorem offered_limit (s : Session) : (offered s).2.limit = s.intents.limit := by
  unfold offered Intents.take
  split
  · split <;> rfl
  · rfl

theorem moved_equipped {config : Config} {predicates : Predicates} {t : Turn}
    (equipped : t.session.Equipped config predicates) (level : Level) :
    (t.moved level).session.Equipped config predicates := by
  obtain ⟨constants, named, limit, ticks⟩ := equipped
  exact ⟨constants, named, (offered_limit _).trans limit, (Player.update_moveTicks _ _ _ _).trans ticks⟩

theorem Steps.equipped {size : Nat} {config : Config} {predicates : Predicates} {t u : Turn}
    (steps : Steps size t u) (equipped : t.session.Equipped config predicates) :
    u.session.Equipped config predicates := by
  induction steps with
  | refl => exact equipped
  | tail _ step ih =>
    obtain ⟨constants, named, limit, ticks⟩ := ih
    cases step with
    | emit | die | win => exact ⟨constants, named, limit, ticks⟩
    | judge referee keeps =>
      exact ⟨keeps.config.trans constants, keeps.predicates.trans named, limit, ticks⟩
    | teleport place =>
      exact ⟨constants, named, limit, (Player.reset_moveTicks _ place).trans ticks⟩

end Turn

namespace Game

/-- How a load ends that starts from a game, faults included. -/
inductive Loads (g : Game) : Except Fault Bool → Game → Prop
  /-- There is no such position, and nothing happens. -/
  | refused (f : Fault) : Loads g (.error f) g
  /-- The load breaks off before the level is there. -/
  | broken (f : Fault) : Loads g (.error f) g.beginLoading
  | missed : Loads g (.ok false) g.missed
  /-- The load breaks off when the level is in place. -/
  | stuck (f : Fault) (level : Level) (index : Nat) {after : Game} :
      after.session = (g.beginLoading.install level index).session → Loads g (.error f) after
  | opened (level : Level) (index : Nat) {after : Game} :
      after.session = ((g.beginLoading.install level index).setStage .active).session →
      Loads g (.ok true) after

/-- The load of a level by its id, from a game that has begun it. -/
theorem loadId_loads {g : Game} (id : Value) (index : Nat)
    {finish : Game → Level → Except Fault Unit × Game}
    (installs : ∀ level, (finish g.beginLoading level).2.session =
      (g.beginLoading.install level index).session) :
    g.Loads (g.beginLoading.loadId id finish).1 (g.beginLoading.loadId id finish).2 := by
  rcases g.beginLoading.loadId_cases id finish with
    ⟨f, _, ends⟩ | ⟨_, ends⟩ | ⟨level, _, ⟨f, _, ends⟩ | ⟨_, ends⟩⟩
  · rw [ends]; exact .broken f
  · rw [ends]; exact .missed
  · rw [ends]; exact .stuck f level index (installs level)
  · rw [ends]; exact .opened level index (by simp only [setStage, installs])

theorem load_loads (g : Game) (index : Int) : g.Loads (g.load index).1 (g.load index).2 := by
  rcases g.load_cases index with refused | ⟨position, id, _, _, loads⟩
  · rw [refused]; exact .refused _
  · rw [loads]; exact loadId_loads id position (openLevel_session position _)

theorem retry_loads (g : Game) : g.Loads g.retry.1 g.retry.2 := by
  rcases g.retry_cases with refused | ⟨id, _, loads⟩
  · rw [refused]; exact .broken _
  · rw [loads]; exact loadId_loads id _ (reopenLevel_session _)

/-- A load starts from the game as it is, or as it is without its deaths. -/
theorem perform_loads {g : Game} {op : Op} (load : op.isLoad = true) :
    g.Loads (op.result g) (g.perform op) ∨ g.resetDeaths.Loads (op.result g) (g.perform op) := by
  cases op with
  | load index => exact .inl (g.load_loads index)
  | retry => exact .inl g.retry_loads
  | advance =>
    simp only [Op.result, perform, advance_eq]
    exact .inr (load_loads _ _)
  | jump index =>
    simp only [Op.result, perform]
    rcases g.jump_cases index with refused | loads
    · rw [refused]; exact .inl (.refused _)
    · rw [loads]; exact .inr (load_loads _ _)
  | push | tick | finish | rewrite => contradiction

/-- A tick leaves the session as it is, or takes small steps from where the token was moved; the tiles
may be animated after them. -/
theorem tick_settles {g : Game} (coherent : g.session.Coherent) :
    ((g.session.level = none ∨ g.session.isActive = false) ∧ g.tick.2.session = g.session) ∨
    ∃ level t, g.session.level = some level ∧ g.session.isActive = true ∧
      Turn.Steps level.board.size ((opening g.session).moved level) t ∧
      (g.tick.2.session = t.session ∨ ∃ board, g.tick.2.session = (t.animated level board).session) := by
  cases here : g.session.level with
  | none => exact .inl ⟨.inl rfl, by rw [tick_idle (.inl here)]⟩
  | some level =>
    cases active : g.session.isActive with
    | false => exact .inl ⟨.inr rfl, by rw [tick_idle (.inr active)]⟩
    | true =>
      have plays := coherent.inPlace level here
      obtain ⟨t, steps, ends⟩ :=
        playFrame_cases g.session level g.backstage.cues plays.board plays.player
      refine .inr ⟨level, t, rfl, rfl, steps, ?_⟩
      rw [tick_active here active]
      change (playFrame g.session level g.backstage.cues).2.1.session = _ ∨ ∃ board,
        (playFrame g.session level g.backstage.cues).2.1.session = _
      rcases ends with ⟨f, failed⟩ | ⟨f, _, failed⟩ | ⟨_, played⟩
      · rw [failed]; exact .inl rfl
      · rw [failed]; exact .inr ⟨_, rfl⟩
      · rw [played]
        unfold emitDue
        split <;> exact .inr ⟨_, rfl⟩

section
variable {config : Config} {predicates : Predicates}

theorem Loads.equipped {g after : Game} {result : Except Fault Bool} (loads : g.Loads result after)
    (equipped : g.session.Equipped config predicates) :
    after.session.Equipped config predicates := by
  obtain ⟨constants, named, limit, ticks⟩ := equipped
  have begun : g.beginLoading.session.Equipped config predicates := ⟨constants, named, limit, ticks⟩
  have installed (level : Level) (index : Nat) :
      (g.beginLoading.install level index).session.Equipped config predicates :=
    ⟨constants, named, limit, (Player.reset_moveTicks _ _).trans ticks⟩
  cases loads with
  | refused => exact ⟨constants, named, limit, ticks⟩
  | broken => exact begun
  | missed => exact { begun with }
  | stuck f level index same => rw [same]; exact installed level index
  | opened level index same => rw [same]; exact { installed level index with }

theorem tick_equipped {g : Game} (coherent : g.session.Coherent)
    (equipped : g.session.Equipped config predicates) :
    g.tick.2.session.Equipped config predicates := by
  rcases tick_settles coherent with ⟨_, same⟩ | ⟨level, t, _, _, steps, ends⟩
  · rw [same]; exact equipped
  · have opened : (opening g.session).session.Equipped config predicates := { equipped with }
    have kept := steps.equipped (Turn.moved_equipped opened level)
    rcases ends with same | ⟨board, same⟩
    · rw [same]; exact kept
    · rw [same]; exact { kept with }

theorem perform_equipped {g : Game} (coherent : g.session.Coherent)
    (equipped : g.session.Equipped config predicates) (op : Op) :
    (g.perform op).session.Equipped config predicates := by
  by_cases load : op.isLoad = true
  · rcases perform_loads load with loads | loads
    · exact loads.equipped equipped
    · exact loads.equipped { equipped with }
  · cases op with
    | load | retry | advance | jump => exact absurd rfl load
    | push v =>
      refine { equipped with limit := ?_ }
      change (g.session.intents.pushValue v).2.limit = _
      unfold Intents.pushValue Intents.push
      split
      · exact equipped.limit
      · split <;> exact equipped.limit
    | tick => exact tick_equipped coherent equipped
    | finish | rewrite => exact { equipped with }

theorem play_equipped {g : Game} (coherent : g.session.Coherent)
    (equipped : g.session.Equipped config predicates) (ops : List Op) :
    (g.play ops).session.Coherent ∧ (g.play ops).session.Equipped config predicates := by
  refine play_keeps (P := fun h => h.session.Coherent ∧ h.session.Equipped config predicates) ?_
    ⟨coherent, equipped⟩ ops
  rintro h op ⟨still, kept⟩
  exact ⟨perform_coherent h op still, perform_equipped still kept op⟩

end

end Game

theorem Session.create_equipped {config : Config} {levels : LevelSet} {predicates : Predicates}
    {now : Number} {s : Session} (created : create config levels predicates now = .ok s) :
    s.Equipped config predicates ∧ s.intents.waiting = [] ∧ s.referee.memory = {} := by
  unfold create at created
  cases listed : levels.ids with
  | error f => rw [listed] at created; cases created
  | ok ids =>
    rw [listed] at created
    by_cases negative : config.capacity < 0
    · simp only [Referee.create, negative, if_true] at created
      cases created
    · simp only [Referee.create, negative, if_false] at created
      cases created
      exact ⟨⟨rfl, rfl, rfl, rfl⟩, rfl, rfl⟩

end TilePuzzle
