import TilePuzzle.Proofs.Coherence
import TilePuzzle.Proofs.Twins

/-! What an operation that does not fail tells, and what it leaves of a game. A load opens a level or
finds none, a tick waits or plays a frame to its end, and everything else touches the intents, the
stage or the files alone. Runs in which nothing fails are made of these steps. -/
namespace TilePuzzle

def Level.announcement (level : Level) : Event :=
  .levelStarted level.id level.blueprint.title level.blueprint.wallHint

namespace Game

/-- What an operation gives; one that gives nothing counts as false. -/
def Op.result (g : Game) : Op → Except Fault Bool
  | .load index => (g.load index).1
  | .retry => g.retry.1
  | .advance => g.advance.1
  | .jump index => (g.jump index).1
  | .push v => (g.push v).1
  | .tick => g.tick.1.map fun _ => false
  | .finish | .rewrite _ => .ok false

def Op.isLoad : Op → Bool
  | .load _ | .retry | .advance | .jump _ => true
  | .push _ | .tick | .finish | .rewrite _ => false

/-- Whether nothing fails while the operation is performed. -/
def Op.works (g : Game) (op : Op) : Bool := (op.result g).isOk

def isTrue : Except Fault Bool → Bool
  | .ok done => done
  | .error _ => false

def Op.opens (g : Game) (op : Op) : Bool := op.isLoad && isTrue (op.result g)

/-- The game that an operation starts a load from: without deaths if it leads to another level. -/
def Op.cleared (g : Game) : Op → Game
  | .advance | .jump _ => g.resetDeaths
  | .load _ | .retry | .push _ | .tick | .finish | .rewrite _ => g

def Op.hints (g : Game) (level : Level) : Op → List Event
  | .retry => g.session.referee.hints level.hints
  | .load _ | .advance | .jump _ | .push _ | .tick | .finish | .rewrite _ => []

def faultless (g : Game) : List Op → Bool
  | [] => true
  | op :: rest => op.works g && (g.perform op).faultless rest

/-- What a run tells those who listen from just before it. -/
def told (g : Game) : List Op → List Event
  | [] => []
  | op :: rest => g.emitted op ++ (g.perform op).told rest

theorem play_keeps_faultless {P : Game → Prop}
    (keeps : ∀ g op, op.works g = true → P g → P (g.perform op)) {g : Game} (holds : P g)
    {ops : List Op} (sound : g.faultless ops = true) : P (g.play ops) := by
  induction ops generalizing g with
  | nil => exact holds
  | cons op rest ih =>
    obtain ⟨works, sound⟩ := (Bool.and_eq_true ..).mp sound
    exact ih (keeps g op works holds) sound

/-- The game once a level has been opened from it, with the hints that are shown at once and the cues
that are still to come. -/
def opened (g : Game) (level : Level) (index : Nat) (hints : List Event) (cues : List (Int × Cue)) :
    Game :=
  let posted := (g.beginLoading.install level index).post hints
  { posted with backstage := { posted.backstage with cues } }.setStage .active

def missed (g : Game) : Game := g.beginLoading.setStage .loadFailed

def waited (g : Game) : Game := { g with backstage := { g.backstage with outbox := [] } }

def framed (g : Game) (t : Turn) (cues : List (Int × Cue)) : Game :=
  ({ session := t.session, backstage := { g.backstage with outbox := [], cues } } : Game).hear t.events

/-- What an operation that does not fail tells, and how it leaves a game. -/
inductive Leaves (g : Game) : Op → List Event → Game → Prop
  | opened {op : Op} (level : Level) (index : Nat) (cues : List (Int × Cue)) : op.opens g = true →
      level.board = Board.build level.blueprint → index < g.session.levelIds.length →
      Leaves g op (level.announcement :: op.hints g level)
        ((op.cleared g).opened level index (op.hints g level) cues)
  | missed {op : Op} : op.isLoad = true → op.opens g = false → Leaves g op [] (op.cleared g).missed
  | pushed (v : Value) (intents : Intents) :
      Leaves g (.push v) [] { g with session := { g.session with intents } }
  | waited : g.session.level = none ∨ g.session.isActive = false → Leaves g .tick [] g.waited
  | played {level : Level} {t : Turn} {cues : List (Int × Cue)} :
      g.session.level = some level → g.session.isActive = true →
      playFrame g.session level g.backstage.cues = (.ok (), t, cues) →
      Leaves g .tick t.events (g.framed t cues)
  | finished : Leaves g .finish [] { g with session := g.session.finish }
  | rewritten (read : FileReader) : Leaves g (.rewrite read) []
      { g with session := { g.session with levels := g.session.levels.rewrite read } }

@[simp] theorem post_nil (g : Game) : g.post [] = g := by
  simp [post, hear]

theorem openLevel_ok {index : Nat} {g : Game} {level : Level} (done : (openLevel index g level).1 = .ok ()) :
    ∃ cues, (openLevel index g level).2 =
      { g.install level index with backstage := { (g.install level index).backstage with cues } } := by
  unfold openLevel at done ⊢
  simp only at done ⊢
  split at done
  · contradiction
  next cues scheduled => exact ⟨cues, rfl⟩

/-- A load from a game that has begun it, for a level that `finish` puts in place. -/
theorem loadId_ok {g : Game} {id : Value} {finish : Game → Level → Except Fault Unit × Game}
    (ok : (g.loadId id finish).1.isOk = true) :
    (isTrue (g.loadId id finish).1 = true ∧ ∃ level, level.board = Board.build level.blueprint ∧
      (finish g level).1 = .ok () ∧ (g.loadId id finish).2 = (finish g level).2.setStage .active) ∨
    (isTrue (g.loadId id finish).1 = false ∧ (g.loadId id finish).2 = g.setStage .loadFailed) := by
  rcases g.loadId_cases id finish with ⟨f, _, failed⟩ | ⟨_, absent⟩ | ⟨level, found, ends⟩
  · rw [failed] at ok; contradiction
  · rw [absent]; exact .inr ⟨rfl, rfl⟩
  · rcases ends with ⟨f, _, failed⟩ | ⟨done, loaded⟩
    · rw [failed] at ok; contradiction
    · rw [loaded]; exact .inl ⟨rfl, level, LevelSet.load_fresh found, done, rfl⟩

theorem load_leaves {g : Game} {index : Int} (ok : (g.load index).1.isOk = true) :
    (isTrue (g.load index).1 = true ∧ ∃ (level : Level) (position : Nat) (cues : List (Int × Cue)),
      level.board = Board.build level.blueprint ∧ position < g.session.levelIds.length ∧
      (g.load index).2 = g.opened level position [] cues) ∨
    (isTrue (g.load index).1 = false ∧ (g.load index).2 = g.missed) := by
  rcases g.load_cases index with refused | ⟨position, id, _, listed, loads⟩
  · rw [refused] at ok; contradiction
  · rw [loads] at ok ⊢
    rcases loadId_ok ok with ⟨opens, level, fresh, done, after⟩ | ⟨misses, after⟩
    · obtain ⟨cues, opened⟩ := openLevel_ok done
      refine .inl ⟨opens, level, position, cues, fresh, (List.getElem?_eq_some_iff.mp listed).1, ?_⟩
      rw [after, opened, Game.opened, post_nil]
    · exact .inr ⟨misses, after⟩

theorem retry_leaves {g : Game} (ok : g.retry.1.isOk = true) :
    (isTrue g.retry.1 = true ∧ ∃ (level : Level) (position : Nat) (cues : List (Int × Cue)),
      level.board = Board.build level.blueprint ∧ position < g.session.levelIds.length ∧
      g.retry.2 = g.opened level position (g.session.referee.hints level.hints) cues) ∨
    (isTrue g.retry.1 = false ∧ g.retry.2 = g.missed) := by
  rcases g.retry_cases with refused | ⟨id, listed, loads⟩
  · rw [refused] at ok; contradiction
  · rw [loads] at ok ⊢
    rcases loadId_ok ok with ⟨opens, level, fresh, done, after⟩ | ⟨misses, after⟩
    · exact .inl ⟨opens, level, g.session.levelIndex, [], fresh,
        (List.getElem?_eq_some_iff.mp listed).1, after⟩
    · exact .inr ⟨misses, after⟩

theorem tick_leaves {g : Game} (ok : g.tick.1.isOk = true) :
    ∃ events, g.Leaves .tick events g.tick.2 := by
  cases here : g.session.level with
  | none => rw [tick_idle (.inl here)]; exact ⟨[], .waited (.inl here)⟩
  | some level =>
    cases active : g.session.isActive with
    | false => rw [tick_idle (.inr active)]; exact ⟨[], .waited (.inr active)⟩
    | true =>
      rw [tick_active here active] at ok ⊢
      simp only at ok ⊢
      generalize frame : playFrame g.session level g.backstage.cues = outcome at ok ⊢
      obtain ⟨result, t, cues⟩ := outcome
      cases result with
      | error f => contradiction
      | ok _ => exact ⟨t.events, .played here active frame⟩

theorem map_isOk {α β : Type} {result : Except Fault α} {f : α → β} :
    (result.map f).isOk = result.isOk := by
  cases result <;> rfl

/-- An operation that is the load of a position, once the deaths are settled. -/
theorem leaves_of_load {g : Game} {op : Op} (index : Int) (load : op.isLoad = true)
    (result : op.result g = ((op.cleared g).load index).1)
    (after : g.perform op = ((op.cleared g).load index).2) (quiet : ∀ level, op.hints g level = [])
    (ids : (op.cleared g).session.levelIds = g.session.levelIds) (works : op.works g = true) :
    ∃ events, g.Leaves op events (g.perform op) := by
  have opens : op.opens g = isTrue (op.result g) := by rw [Op.opens, load, Bool.true_and]
  rw [Op.works, result] at works
  rw [result] at opens
  rcases load_leaves works with ⟨done, level, position, cues, fresh, inside, left⟩ | ⟨misses, left⟩
  · rw [after, left, ← quiet level]
    exact ⟨_, .opened level position cues (opens.trans done) fresh (ids ▸ inside)⟩
  · rw [after, left]
    exact ⟨[], .missed load (opens.trans misses)⟩

theorem exists_leaves {g : Game} {op : Op} (works : op.works g = true) :
    ∃ events, g.Leaves op events (g.perform op) := by
  cases op with
  | load index => exact leaves_of_load index rfl rfl rfl (fun _ => rfl) rfl works
  | retry =>
    rcases retry_leaves works with ⟨opens, level, position, cues, fresh, inside, left⟩ | ⟨misses, left⟩
    · rw [perform, left]
      have leaves := @Leaves.opened g .retry level position cues opens fresh inside
      exact ⟨_, leaves⟩
    · rw [perform, left]
      exact ⟨[], @Leaves.missed g .retry rfl misses⟩
  | advance =>
    refine leaves_of_load (nextIndex g.session) rfl ?_ ?_ (fun _ => rfl) rfl works
    · rw [Op.result, advance_eq]; rfl
    · rw [perform, advance_eq]; rfl
  | jump index =>
    rcases g.jump_cases index with refused | loads
    · rw [Op.works, Op.result, refused] at works; contradiction
    · refine leaves_of_load index rfl ?_ ?_ (fun _ => rfl) rfl works
      · rw [Op.result, loads]; rfl
      · rw [perform, loads]; rfl
  | push v => exact ⟨[], .pushed v _⟩
  | tick => exact tick_leaves (map_isOk.symm.trans works)
  | finish => exact ⟨[], .finished⟩
  | rewrite read => exact ⟨[], .rewritten read⟩

theorem cleared_backstage (g : Game) (op : Op) : (op.cleared g).backstage = g.backstage := by
  cases op <;> rfl

/-- Everybody who listens is told the same. -/
theorem Leaves.told {g h : Game} {op : Op} {events : List Event} (leaves : g.Leaves op events h) :
    h.backstage.heard = g.backstage.heard.map (· ++ events) := by
  have silence : g.backstage.heard = g.backstage.heard.map (· ++ []) := by simp
  cases leaves with
  | opened level index cues =>
    change (((op.cleared g).backstage.heard.map _).map _) = _
    rw [cleared_backstage, List.map_map]
    exact List.map_congr_left fun heard _ => List.append_assoc ..
  | missed =>
    change (op.cleared g).backstage.heard = _
    rw [cleared_backstage]
    exact silence
  | played => rfl
  | pushed | waited | finished | rewritten => exact silence

def Op.delivers (g : Game) : Op → List Event
  | .tick => match g.tick.1 with
    | .ok result => result.events
    | .error _ => []
  | .load _ | .retry | .advance | .jump _ | .push _ | .finish | .rewrite _ => []

/-- What is told is handed over at once or kept for the next tick, and nothing else is. -/
theorem Leaves.kept {g h : Game} {op : Op} {events : List Event} (leaves : g.Leaves op events h) :
    op.delivers g ++ h.backstage.outbox = g.backstage.outbox ++ events := by
  have silence : g.backstage.outbox = g.backstage.outbox ++ [] := by simp
  have undelivered (load : op.isLoad = true) : op.delivers g = [] := by
    cases op <;> first | rfl | contradiction
  cases leaves with
  | opened level index cues opens =>
    rw [undelivered ((Bool.and_eq_true ..).mp opens).1]
    change ((op.cleared g).backstage.outbox ++ [level.announcement]) ++ _ = _
    rw [cleared_backstage, List.append_assoc]
    rfl
  | missed load =>
    rw [undelivered load]
    change (op.cleared g).backstage.outbox = _
    rw [cleared_backstage]
    exact silence
  | waited idle =>
    simp only [Op.delivers, tick_idle idle, List.append_nil]
    exact List.append_nil _
  | played here active played =>
    have outbox (t : Turn) (cues : List (Int × Cue)) : (g.framed t cues).backstage.outbox = [] := rfl
    simp [Op.delivers, tick_active here active, played, Except.map, outbox]
  | pushed | finished | rewritten => exact silence

theorem Twin.results {g h : Game} (twin : g.Twin h) (op : Op) :
    op.result h = op.result g ∧ op.delivers h = op.delivers g := by
  cases op with
  | load index => exact ⟨(load_twin twin index).result, rfl⟩
  | retry => exact ⟨(retry_twin twin).result, rfl⟩
  | advance => exact ⟨(advance_twin twin).result, rfl⟩
  | jump index => exact ⟨(jump_twin twin index).result, rfl⟩
  | push v => exact ⟨(push_twin twin v).result, rfl⟩
  | tick =>
    have same := (tick_twin twin).result
    exact ⟨by rw [Op.result, same, Op.result], by rw [Op.delivers, same, Op.delivers]⟩
  | finish | rewrite => exact ⟨rfl, rfl⟩

/-- Whatever does not fail tells what it emits, and leaves the game in one of these ways. -/
theorem perform_leaves {g : Game} {op : Op} (works : op.works g = true) :
    g.Leaves op (g.emitted op) (g.perform op) := by
  obtain ⟨result, delivers⟩ := g.listen_twin.results op
  have after := perform_twin g.listen_twin op
  obtain ⟨events, leaves⟩ := exists_leaves works
  have works : op.works g.listen = true := by rw [Op.works, result]; exact works
  obtain ⟨others, listened⟩ := exists_leaves works
  have same : g.backstage.outbox ++ others = g.backstage.outbox ++ events := by
    have mine := listened.kept
    rw [delivers, after.outbox] at mine
    exact mine.symm.trans leaves.kept
  rw [emitted_of_told listened.told, List.append_cancel_left same]
  exact leaves

end Game
end TilePuzzle
