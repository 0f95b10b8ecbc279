import TilePuzzle.Lobby
import TilePuzzle.Proofs.Turn

/-! Runs of a game: any operations in any order, also while the files below a folder of levels
change. Each operation is taken apart once, into the ways in which it can end. -/
namespace TilePuzzle

namespace Game

inductive Op
  | load (index : Int)
  | retry
  | advance
  | jump (index : Int)
  | push (v : Value)
  | tick
  /-- The session ends; its game may be played on. -/
  | finish
  /-- The files change, for a session whose levels are in a folder. -/
  | rewrite (read : FileReader)

end Game

def LevelSet.rewrite (read : FileReader) : LevelSet → LevelSet
  | folder _ path => folder read path
  | catalog c => catalog c

theorem Direction.ofValue_name (direction : Direction) :
    ofValue (.str direction.name) = .ok direction := by
  cases direction <;> rfl

namespace Game

def perform (g : Game) : Op → Game
  | .load index => (g.load index).2
  | .retry => g.retry.2
  | .advance => g.advance.2
  | .jump index => (g.jump index).2
  | .push v => (g.push v).2
  | .tick => g.tick.2
  | .finish => { g with session := g.session.finish }
  | .rewrite read => { g with session := { g.session with levels := g.session.levels.rewrite read } }

def play (g : Game) (ops : List Op) : Game := ops.foldl perform g

theorem play_keeps {P : Game → Prop} (keeps : ∀ g op, P g → P (g.perform op)) {g : Game}
    (holds : P g) (ops : List Op) : P (g.play ops) := by
  induction ops generalizing g with
  | nil => exact holds
  | cons op rest ih => exact ih (keeps g op holds)

/-- What an operation tells those who listen from just before it. -/
def emitted (g : Game) (op : Op) : List Event :=
  ((g.listen.perform op).backstage.heard.getLast?).getD []

/-- A load by its id ends in one of four ways: it breaks off before the level is there, there is no
such level, it breaks off while the level is put in place, or the level is being played. -/
theorem loadId_cases (g : Game) (id : Value) (finish : Game → Level → Except Fault Unit × Game) :
    (∃ f, g.session.levels.load id = .error f ∧ g.loadId id finish = (.error f, g)) ∨
    (g.session.levels.load id = .ok none ∧
      g.loadId id finish = (.ok false, g.setStage .loadFailed)) ∨
    ∃ level, g.session.levels.load id = .ok (some level) ∧
      ((∃ f, (finish g level).1 = .error f ∧
          g.loadId id finish = (.error f, (finish g level).2)) ∨
        ((finish g level).1 = .ok () ∧
          g.loadId id finish = (.ok true, (finish g level).2.setStage .active))) := by
  unfold loadId
  cases g.session.levels.load id with
  | error f => exact .inl ⟨f, rfl, rfl⟩
  | ok found =>
    cases found with
    | none => exact .inr (.inl ⟨rfl, rfl⟩)
    | some level =>
      refine .inr (.inr ⟨level, rfl, ?_⟩)
      simp only
      obtain ⟨result, after⟩ := finish g level
      cases result with
      | error f => exact .inl ⟨f, rfl, rfl⟩
      | ok _ => exact .inr ⟨rfl, rfl⟩

theorem loadId_keeps {P : Game → Prop} {g : Game} {id : Value}
    {finish : Game → Level → Except Fault Unit × Game} (before : P g)
    (absent : P (g.setStage .loadFailed))
    (finished : ∀ level, g.session.levels.load id = .ok (some level) →
      P (finish g level).2 ∧ P ((finish g level).2.setStage .active)) :
    P (g.loadId id finish).2 := by
  rcases g.loadId_cases id finish with ⟨f, _, failed⟩ | ⟨_, none⟩ | ⟨level, found, ends⟩
  · rw [failed]; exact before
  · rw [none]; exact absent
  · rcases ends with ⟨f, _, failed⟩ | ⟨_, loaded⟩
    · rw [failed]; exact (finished level found).1
    · rw [loaded]; exact (finished level found).2

theorem openLevel_session (index : Nat) (g : Game) (level : Level) :
    (openLevel index g level).2.session = (g.install level index).session := by
  unfold openLevel
  simp only
  split <;> rfl

theorem reopenLevel_session (g : Game) (level : Level) :
    (reopenLevel g level).2.session = (g.install level g.session.levelIndex).session := rfl

/-- A position that is no position of the set is refused, and nothing happens. -/
theorem load_outside {g : Game} {index : Int}
    (outside : ¬(0 ≤ index ∧ index < g.session.levelIds.length)) :
    g.load index = (.error (.levelOutOfRange index g.session.levelIds.length), g) := by
  have none : (if 0 ≤ index then g.session.levelIds[index.toNat]? else none) = none := by
    by_cases nonneg : 0 ≤ index
    · rw [if_pos nonneg, List.getElem?_eq_none]
      omega
    · rw [if_neg nonneg]
  simp only [load, none]

theorem load_inside {g : Game} {index : Nat} {id : Value}
    (listed : g.session.levelIds[index]? = some id) :
    g.load index = g.beginLoading.loadId id (openLevel index) := by
  simp [load, listed]

theorem load_cases (g : Game) (index : Int) :
    g.load index = (.error (.levelOutOfRange index g.session.levelIds.length), g) ∨
    ∃ (position : Nat) (id : Value), index = position ∧
      g.session.levelIds[position]? = some id ∧
      g.load index = g.beginLoading.loadId id (openLevel position) := by
  by_cases inside : 0 ≤ index ∧ index < g.session.levelIds.length
  · obtain ⟨position, rfl⟩ := Int.eq_ofNat_of_zero_le inside.1
    have listed := List.getElem?_eq_getElem (Int.ofNat_lt.mp inside.2)
    exact .inr ⟨position, _, rfl, listed, load_inside listed⟩
  · exact .inl (load_outside inside)

theorem retry_listed {g : Game} {id : Value}
    (listed : g.session.levelIds[g.session.levelIndex]? = some id) :
    g.retry = g.beginLoading.loadId id reopenLevel := by
  have same : g.beginLoading.session.levelIds[g.beginLoading.session.levelIndex]? = some id := listed
  simp only [retry, same]

theorem retry_cases (g : Game) :
    g.retry = (.error .indexPastEnd, g.beginLoading) ∨
    ∃ id, g.session.levelIds[g.session.levelIndex]? = some id ∧
      g.retry = g.beginLoading.loadId id reopenLevel := by
  cases listed : g.session.levelIds[g.session.levelIndex]? with
  | none =>
    have same : g.beginLoading.session.levelIds[g.beginLoading.session.levelIndex]? = none := listed
    exact .inl (by simp only [retry, same])
  | some id => exact .inr ⟨id, rfl, retry_listed listed⟩

theorem jump_inside {g : Game} {index : Int} (inside : 0 ≤ index ∧ index < g.session.levelIds.length) :
    g.jump index = g.resetDeaths.load index := by
  simp [jump, inside]

theorem jump_outside {g : Game} {index : Int}
    (outside : ¬(0 ≤ index ∧ index < g.session.levelIds.length)) :
    g.jump index = (.error (.levelOutOfRange index g.session.levelIds.length), g) := by
  simp only [jump, Bool.and_eq_true, decide_eq_true_eq, if_neg outside]

theorem jump_cases (g : Game) (index : Int) :
    g.jump index = (.error (.levelOutOfRange index g.session.levelIds.length), g) ∨
      g.jump index = g.resetDeaths.load index := by
  by_cases inside : 0 ≤ index ∧ index < g.session.levelIds.length
  · exact .inr (jump_inside inside)
  · exact .inl (jump_outside inside)

/-- A push keeps a direction if there is room for it, and nothing else of the game changes. -/
theorem push_named (g : Game) {v : Value} {direction : Direction}
    (named : Direction.ofValue v = .ok direction) :
    g.push v = if g.session.intents.isFull then (.ok false, g) else
      (.ok true, { g with session := { g.session with intents := { g.session.intents with
        waiting := g.session.intents.waiting ++ [direction] } } }) := by
  simp only [push, Intents.pushValue, named, Intents.push]
  split <;> rfl

theorem push_unnamed (g : Game) {v : Value} {f : Fault} (unnamed : Direction.ofValue v = .error f) :
    g.push v = (.error f, g) := by
  simp only [push, Intents.pushValue, unnamed]

def nextIndex (s : Session) : Nat := if s.isLast then 0 else s.levelIndex + 1

theorem advance_eq (g : Game) : g.advance = g.resetDeaths.load (nextIndex g.session) := by
  unfold advance nextIndex
  split <;> rfl

theorem nextIndex_lt {s : Session} (listed : s.levelIds ≠ []) : nextIndex s < s.levelIds.length := by
  have some : 0 < s.levelIds.length := List.length_pos_iff.mpr listed
  unfold nextIndex Session.isLast
  split
  · exact some
  next more => simp only [decide_eq_true_eq, Nat.not_le] at more; exact more

/-- Only an active session with a level in place plays a frame. -/
theorem tick_idle {g : Game} (idle : g.session.level = none ∨ g.session.isActive = false) :
    g.tick = (.ok ⟨g.session.frame, g.session.stage, g.backstage.outbox⟩,
      { g with backstage := { g.backstage with outbox := [] } }) := by
  unfold tick
  rcases idle with none | inactive
  · rw [none]
  · rw [inactive]
    split
    · contradiction
    · rfl

/-- What a frame comes to for the game: the session as the frame leaves it, and its events heard. -/
theorem tick_active {g : Game} {level : Level} (here : g.session.level = some level)
    (active : g.session.isActive = true) :
    g.tick =
      let frame := playFrame g.session level g.backstage.cues
      (frame.1.map fun _ => ⟨frame.2.1.session.frame, frame.2.1.session.stage,
          g.backstage.outbox ++ frame.2.1.events⟩,
        ({ session := frame.2.1.session
           backstage := { g.backstage with outbox := [], cues := frame.2.2 } } : Game).hear
          frame.2.1.events) := by
  unfold tick
  rw [here, active]
  simp only
  obtain ⟨result, t, cues⟩ := playFrame g.session level g.backstage.cues
  cases result <;> rfl

/-- A frame ends in one of three ways: a fault keeps it from animating, the animation breaks off, or
the cues that are due are emitted. -/
theorem playFrame_cases (session : Session) (level : Level) (cues : List (Int × Cue))
    (judged : session.referee.board = some level.board)
    (within : session.player.Within level.board.size) :
    ∃ t, Turn.Steps level.board.size ((opening session).moved level) t ∧
      ((∃ f, playFrame session level cues = (.error f, t, cues)) ∨
        (∃ f, (t.animate level).1 = .error f ∧
          playFrame session level cues = (.error f, (t.animate level).2, cues)) ∨
        ((t.animate level).1 = .ok () ∧
          playFrame session level cues = emitDue cues level (t.animate level).2)) := by
  obtain ⟨t, steps, ⟨f, failed⟩ | animates⟩ := simulate_cases session level judged within
  · exact ⟨t, steps, .inl ⟨f, by simp only [playFrame, failed]⟩⟩
  · refine ⟨t, steps, .inr ?_⟩
    simp only [playFrame, animates]
    obtain ⟨result, u⟩ := t.animate level
    cases result with
    | error f => exact .inl ⟨f, rfl, rfl⟩
    | ok _ => exact .inr ⟨rfl, rfl⟩

end Game
end TilePuzzle
