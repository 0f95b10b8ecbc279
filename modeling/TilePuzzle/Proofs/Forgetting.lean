import TilePuzzle.Proofs.Constants
import TilePuzzle.Proofs.Ending
import TilePuzzle.Proofs.Loading

/-! What a load forgets, and what it keeps. Nothing of an attempt but its deaths reaches the next one:
two games that are retried with the same deaths cannot be told apart by anything that is done later. A
load that finds no level keeps the one before it, but for the deaths that leading on forgets. -/
namespace TilePuzzle

namespace Player

/-- A token that is put on a board forgets where it was, but for how it hovers. -/
theorem reset_forgets {p q : Player} (ticks : q.moveTicks = p.moveTicks) {place : Place} {size : Nat}
    (inside : place.within size = true) (most : size ≤ 64) :
    (p.reset place).2.Twin (q.reset place).2 := by
  obtain ⟨⟨x, across⟩, y, down⟩ := place_ok inside most
  refine ⟨q.hoverPhase, q.hoverHeight, ?_⟩
  simp only [reset, showAt_ok _ across down, ticks]

end Player

namespace Game

inductive Reply
  | done (value : Bool)
  | ticked (result : TickResult)
  /-- There is nothing to reply. -/
  | nothing

def Op.reply (g : Game) : Op → Except Fault Reply
  | .load index => (g.load index).1.map .done
  | .retry => g.retry.1.map .done
  | .advance => g.advance.1.map .done
  | .jump index => (g.jump index).1.map .done
  | .push v => (g.push v).1.map .done
  | .tick => g.tick.1.map .ticked
  | .finish | .rewrite _ => .ok .nothing

def replies (g : Game) : List Op → List (Except Fault Reply)
  | [] => []
  | op :: rest => op.reply g :: (g.perform op).replies rest

theorem Twin.reply {g h : Game} (twin : g.Twin h) (op : Op) : op.reply h = op.reply g := by
  cases op with
  | load index => exact congrArg (Except.map Reply.done) (load_twin twin index).result
  | retry => exact congrArg (Except.map Reply.done) (retry_twin twin).result
  | advance => exact congrArg (Except.map Reply.done) (advance_twin twin).result
  | jump index => exact congrArg (Except.map Reply.done) (jump_twin twin index).result
  | push v => exact congrArg (Except.map Reply.done) (push_twin twin v).result
  | tick => exact congrArg (Except.map Reply.ticked) (tick_twin twin).result
  | finish | rewrite => rfl

theorem Twin.replies {g h : Game} (twin : g.Twin h) (ops : List Op) : h.replies ops = g.replies ops := by
  induction ops generalizing g h with
  | nil => rfl
  | cons op rest ih => exact congrArg₂ List.cons (twin.reply op) (ih (perform_twin twin op))

/-- What two games share that cannot be told apart once they are retried: the levels and the constants,
where they are, their deaths and what is still to be delivered. -/
structure Alike (g h : Game) (config : Config) (predicates : Predicates) : Prop where
  levels : h.session.levels = g.session.levels
  settings : h.session.config = g.session.config
  levelIds : h.session.levelIds = g.session.levelIds
  levelIndex : h.session.levelIndex = g.session.levelIndex
  deaths : h.session.deaths = g.session.deaths
  outbox : h.backstage.outbox = g.backstage.outbox
  first : g.session.Equipped config predicates
  second : h.session.Equipped config predicates

section
variable {config : Config} {predicates : Predicates} {g h : Game}

/-- Nothing but the deaths is left of what two referees remember once they have taken on a level. -/
theorem Alike.judges (alike : g.Alike h config predicates) (rules : List Rule) (board : Board)
    (patterns : Fields) : (g.session.referee.load rules board patterns).Twin
      (h.session.referee.load rules board patterns) := by
  have deaths : h.session.referee.memory.deaths = g.session.referee.memory.deaths := alike.deaths
  refine ⟨h.session.referee.asked, ?_⟩
  simp only [Referee.load, deaths, alike.first.constants, alike.second.constants, alike.first.named,
    alike.second.named]

/-- The level that is put in place again decides everything but the deaths. -/
theorem reopenLevel_forgets (alike : g.Alike h config predicates) (level : Level) :
    Agree Twin (reopenLevel g.beginLoading level) (reopenLevel h.beginLoading level) := by
  have resets : (g.session.player.reset level.start).2.Twin (h.session.player.reset level.start).2 :=
    Player.reset_forgets (alike.second.ticks.trans alike.first.ticks.symm)
      (Board.startPlace_within level.blueprint) level.blueprint.size_le
  have intents : h.session.intents.flush = g.session.intents.flush := by
    simp only [Intents.flush, alike.first.limit, alike.second.limit]
  have judges := alike.judges level.rules level.board level.blueprint.patterns
  have installs : (g.beginLoading.install level g.session.levelIndex).Twin
      (h.beginLoading.install level g.session.levelIndex) := by
    refine ⟨⟨h.session.createdAt, _, _, resets, judges, ?_⟩, congrArg (· ++ _) alike.outbox, rfl⟩
    simp only [install, post, hear, beginLoading, alike.levels, alike.settings, alike.levelIds, intents]
  have index : h.beginLoading.session.levelIndex = g.session.levelIndex := alike.levelIndex
  simp only [reopenLevel, index, installs.hints]
  exact ⟨rfl, post_twin installs _⟩

theorem retry_forgets (alike : g.Alike h config predicates) (retried : g.retry.1 = .ok true) :
    Agree Twin g.retry h.retry := by
  rcases g.retry_cases with refused | ⟨id, listed, loads⟩
  · rw [refused] at retried; cases retried
  · have also : h.session.levelIds[h.session.levelIndex]? = some id := by
      rw [alike.levelIds, alike.levelIndex]; exact listed
    have levels : h.beginLoading.session.levels = g.beginLoading.session.levels := alike.levels
    rw [retry_listed also, loads]
    rw [loads] at retried
    unfold loadId at retried ⊢
    rw [levels]
    cases found : g.beginLoading.session.levels.load id with
    | error f => rw [found] at retried; cases retried
    | ok outcome =>
      cases outcome with
      | none => rw [found] at retried; cases retried
      | some level =>
        obtain ⟨result, s, t, first, second, after⟩ := (reopenLevel_forgets alike level).parts
        simp only [first, second]
        cases result with
        | error f => exact ⟨rfl, after⟩
        | ok _ => exact ⟨rfl, setStage_twin after _⟩

end

theorem play_created {config : Config} {levels : LevelSet} {predicates : Predicates} {now : Number}
    {s : Session} (created : Session.create config levels predicates now = .ok s) (listeners : Nat)
    (ops : List Op) :
    ((ofSession s listeners).play ops).session.config = config ∧
    ((ofSession s listeners).play ops).session.Equipped config predicates := by
  have coherent := Session.create_coherent created
  obtain ⟨_, _, _, settings, _⟩ := Session.create_fresh created
  obtain ⟨_, same⟩ := play_sameSet (g := ofSession s listeners) coherent ops
  obtain ⟨_, equipped⟩ := play_equipped (g := ofSession s listeners) coherent
    (Session.create_equipped created).1 ops
  exact ⟨same.config.trans settings, equipped⟩

/-- A session that is retried gives the same replies from then on as any other that is retried at the
same level with the same deaths and the same pending, whatever was done to the two before. -/
theorem play_retry_forgets {config : Config} {levels others : LevelSet} {predicates : Predicates}
    {now later : Number} {s t : Session}
    (first : Session.create config levels predicates now = .ok s)
    (second : Session.create config others predicates later = .ok t) (listeners watchers : Nat)
    (before beside : List Op) {g h : Game} (here : g = (ofSession s listeners).play before)
    (there : h = (ofSession t watchers).play beside)
    (source : h.session.levels = g.session.levels)
    (levelIds : h.session.levelIds = g.session.levelIds)
    (levelIndex : h.session.levelIndex = g.session.levelIndex)
    (deaths : h.session.deaths = g.session.deaths)
    (outbox : h.backstage.outbox = g.backstage.outbox) (retried : g.retry.1 = .ok true) :
    h.retry.1 = .ok true ∧ ∀ more, h.retry.2.replies more = g.retry.2.replies more := by
  obtain ⟨settings, equipped⟩ := play_created first listeners before
  obtain ⟨others, alsoEquipped⟩ := play_created second watchers beside
  rw [← here] at settings equipped
  rw [← there] at others alsoEquipped
  have alike : g.Alike h config predicates :=
    ⟨source, others.trans settings.symm, levelIds, levelIndex, deaths, outbox, equipped, alsoEquipped⟩
  obtain ⟨results, after⟩ := retry_forgets alike retried
  exact ⟨results.trans retried, fun more => after.replies more⟩

/-- One session dies on its first move, the other after a pause and with a move left over. -/
theorem play_retry_forgets_deaths :
    let before : List Op := [.load 1, .push (.str "left"), .tick]
    let beside : List Op := [.jump 1, .tick, .push (.str "up"), .tick, .push (.str "down")]
    let more : List Op := [.tick, .push (.str "right"), .tick]
    ∃ s t, Session.create {} Campaign.levelSet [] (.int 0) = .ok s ∧
      Session.create {} Campaign.levelSet [] (.int 5) = .ok t ∧
      let g := (ofSession s 0).play before
      let h := (ofSession t 1).play beside
      g.session.deaths = 1 ∧ h.session.frame ≠ g.session.frame ∧
      h.session.intents.waiting ≠ g.session.intents.waiting ∧ h.retry.1 = .ok true ∧
      h.retry.2.replies more = g.retry.2.replies more := by
  intro before beside more
  refine ⟨_, _, rfl, rfl, ?_⟩
  intro g h
  have forgets := @play_retry_forgets {} Campaign.levelSet Campaign.levelSet [] (.int 0) (.int 5) _ _
    rfl rfl 0 1 before beside g h rfl rfl rfl rfl (by decide +kernel) (by decide +kernel) rfl
    (by decide +kernel)
  exact ⟨by decide +kernel, by decide +kernel, by decide +kernel, forgets.1, forgets.2 more⟩

/-- A load that finds no level leaves the game in place that it started from. -/
theorem perform_missed {g : Game} {op : Op} (load : op.isLoad = true)
    (misses : op.result g = .ok false) : g.perform op = (op.cleared g).missed := by
  have works : op.works g = true := by rw [Op.works, misses]; rfl
  have fails : op.opens g = false := by rw [Op.opens, misses, load]; rfl
  have leaves := perform_leaves works
  generalize g.perform op = after at leaves ⊢
  generalize g.emitted op = events at leaves
  cases leaves with
  | opened _ _ _ opens => rw [fails] at opens; contradiction
  | missed => rfl
  | pushed | waited | played | finished | rewritten => contradiction

/-- A retry that succeeds keeps the deaths. -/
theorem retry_deaths {g : Game} (retried : g.retry.1 = .ok true) :
    g.retry.2.session.deaths = g.session.deaths := by
  have loads := g.retry_loads
  rw [retried] at loads
  generalize g.retry.2 = after at loads ⊢
  cases loads with
  | opened level index same =>
    unfold Session.deaths
    rw [same]
    rfl

/-- A load that finds no level keeps the level in place and everything that belongs to it, and what is
still to be delivered. What was waiting and what was still to come is gone, and an operation that leads
on has forgotten the deaths: a retry of the level counts from zero then. -/
theorem failed_load_keeps {g : Game} {op : Op} (load : op.isLoad = true)
    (misses : op.result g = .ok false) :
    g.perform op = {
      session := { g.session with
        stage := .loadFailed
        intents := { g.session.intents with waiting := [] }
        referee := if op.leadsOn then
            { g.session.referee with memory := { g.session.referee.memory with deaths := 0 } }
          else g.session.referee }
      backstage := { g.backstage with cues := [] } } ∧
    ((g.perform op).retry.1 = .ok true →
      (g.perform op).retry.2.session.deaths = if op.leadsOn then 0 else g.session.deaths) := by
  have missed := perform_missed load misses
  refine ⟨?_, fun retried => ?_⟩
  · rw [missed]
    cases op <;> rfl
  · rw [retry_deaths retried, missed]
    cases op <;> rfl

/-- The level after the one in place has no side: leading on to it fails, and the one death is lost. -/
theorem failed_load_keeps_advance :
    let levels : LevelSet := .catalog ⟨[(.int 1, .obj [("border_behavior", .str "kill")]),
      (.int 2, .obj [("grid_size", .int 0)])], [.int 1, .int 2]⟩
    ∃ session, Session.create {} levels [] (.int 0) = .ok session ∧
      let g := (ofSession session 0).play [.load 0, .push (.str "up"), .tick]
      g.session.deaths = 1 ∧ Op.advance.result g = .ok false ∧
      (g.perform .advance).session.deaths = 0 ∧ (g.perform .advance).retry.1 = .ok true ∧
      (g.perform .advance).retry.2.session.deaths = 0 := by
  intro levels
  refine ⟨_, rfl, ?_⟩
  intro g
  obtain ⟨keeps, again⟩ := @failed_load_keeps g .advance rfl (by decide +kernel)
  refine ⟨by decide +kernel, by decide +kernel, ?_, by decide +kernel, again (by decide +kernel)⟩
  rw [keeps]
  rfl

end Game
end TilePuzzle
