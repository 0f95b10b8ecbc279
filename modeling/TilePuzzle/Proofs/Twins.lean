import TilePuzzle.Proofs.Run

/-! Games that cannot be told apart. Who listens, when a session was created, how its token hovers and
which predicates were asked are never looked at: two games that differ in these alone give the same
replies to the same operations, and go on differing in these alone. -/
namespace TilePuzzle

/-- Two outcomes that give the same, and leave what belongs together. -/
structure Agree {α β : Type} (Twin : β → β → Prop) (first second : α × β) : Prop where
  result : second.1 = first.1
  after : Twin first.2 second.2

theorem Agree.parts {α β : Type} {Twin : β → β → Prop} {first second : α × β}
    (agree : Agree Twin first second) :
    ∃ result s t, first = (result, s) ∧ second = (result, t) ∧ Twin s t :=
  ⟨first.1, first.2, second.2, rfl, Prod.ext agree.result rfl, agree.after⟩

namespace Player

/-- The same token, but for how it hovers. -/
def Twin (p q : Player) : Prop :=
  ∃ phase height, q = { p with hoverPhase := phase, hoverHeight := height }

section
variable {p q : Player}

theorem showAt_twin (twin : p.Twin q) (col row : Except Fault Float) :
    Agree Twin (p.showAt col row) (q.showAt col row) := by
  obtain ⟨phase, height, rfl⟩ := twin
  cases col with
  | error f => exact ⟨rfl, phase, height, rfl⟩
  | ok x => cases row <;> exact ⟨rfl, phase, height, rfl⟩

theorem reset_twin (twin : p.Twin q) (place : Place) : Agree Twin (p.reset place) (q.reset place) := by
  obtain ⟨phase, height, rfl⟩ := twin
  have shows := showAt_twin (p := { p with place, origin := place, target := place })
    ⟨phase, height, rfl⟩ (floatOfInt place.col) (floatOfInt place.row)
  obtain ⟨result, s, t, first, second, phase, height, rfl⟩ := shows.parts
  simp only [reset, first, second]
  cases result <;> exact ⟨rfl, phase, height, rfl⟩

theorem advance_twin (twin : p.Twin q) : Agree Twin p.advance q.advance := by
  obtain ⟨phase, height, rfl⟩ := twin
  -- How far a move has come does not depend on how the token hovers.
  have course : ({ p with
      elapsed := p.elapsed + 1, hoverPhase := phase, hoverHeight := height } : Player).progress =
    ({ p with elapsed := p.elapsed + 1 } : Player).progress := rfl
  simp only [advance, course]
  split
  · have shows := showAt_twin (p := { p with elapsed := p.elapsed + 1, phase := .idle, place := p.target })
      ⟨phase, height, rfl⟩ (floatOfInt p.target.col) (floatOfInt p.target.row)
    obtain ⟨result, s, t, first, second, phase, height, rfl⟩ := shows.parts
    simp only [first, second]
    cases result <;> exact ⟨rfl, phase, height, rfl⟩
  · generalize eased p.origin.col _ _ = col
    generalize eased p.origin.row _ _ = row
    have shows := showAt_twin (p := { p with elapsed := p.elapsed + 1 }) ⟨phase, height, rfl⟩ col row
    obtain ⟨result, s, t, first, second, phase, height, rfl⟩ := shows.parts
    simp only [first, second]
    cases result <;> exact ⟨rfl, phase, height, rfl⟩

theorem tryMove_twin (twin : p.Twin q) (direction : Direction) (size : Int) (border : Border) :
    Agree Twin (p.tryMove direction size border) (q.tryMove direction size border) := by
  obtain ⟨phase, height, rfl⟩ := twin
  simp only [tryMove]
  split
  · exact ⟨rfl, phase, height, rfl⟩
  · cases border with
    | kill | exit | block => exact ⟨rfl, phase, height, rfl⟩
    | wrap => cases wrapped (p.place.step direction) size <;> exact ⟨rfl, phase, height, rfl⟩

theorem update_twin (twin : p.Twin q) (intent : Except Fault (Option Direction)) (size : Int)
    (border : Border) : Agree Twin (p.update intent size border) (q.update intent size border) := by
  have hovers : p.hover.Twin q.hover := by
    obtain ⟨phase, height, rfl⟩ := twin
    exact ⟨_, _, rfl⟩
  have same : q.phase = p.phase := by
    obtain ⟨phase, height, rfl⟩ := twin
    rfl
  simp only [update, same]
  split
  · exact ⟨rfl, twin⟩
  · exact advance_twin hovers
  · split
    · exact ⟨rfl, hovers⟩
    · exact ⟨rfl, hovers⟩
    · exact tryMove_twin hovers _ _ _

end

end Player

namespace Referee

def Twin (r s : Referee) : Prop := ∃ asked, s = { r with asked }

section
variable {r s : Referee}

theorem Twin.memory (twin : r.Twin s) : s.memory = r.memory := by
  obtain ⟨asked, rfl⟩ := twin
  rfl

theorem execute_twin (twin : r.Twin s) (effect : Effect) :
    Agree Twin (r.execute effect) (s.execute effect) := by
  obtain ⟨asked, rfl⟩ := twin
  cases effect with
  | teleport col row =>
    simp only [execute]
    split <;> exact ⟨rfl, asked, rfl⟩
  | kill | win | showHint | playSound | stopSound | unsupported => exact ⟨rfl, asked, rfl⟩

theorem executeIfAny_twin (twin : r.Twin s) (effect : Option Effect) :
    Agree Twin (r.executeIfAny effect) (s.executeIfAny effect) := by
  cases effect with
  | none => exact ⟨rfl, twin⟩
  | some effect => exact execute_twin twin effect

theorem land_twin (twin : r.Twin s) (place : Place) : Agree Twin (r.land place) (s.land place) := by
  obtain ⟨before, rfl⟩ := twin
  have tile : ({ r with asked := before } : Referee).tileAt place = r.tileAt place := rfl
  simp only [land, tile]
  generalize firstMatch _ _ _ = found
  obtain ⟨asked, effect⟩ := found
  cases effect with
  | error f => exact ⟨rfl, _, rfl⟩
  | ok effect =>
    have executes := executeIfAny_twin (r := { r with
      memory := record r.memory r.config.capacity.toNat (r.tileAt place), asked := r.asked ++ asked })
      ⟨before ++ asked, rfl⟩ effect
    exact ⟨congrArg Except.ok executes.result, executes.after⟩

theorem tick_twin (twin : r.Twin s) (moving : Bool) : Agree Twin (r.tick moving) (s.tick moving) := by
  obtain ⟨asked, rfl⟩ := twin
  simp only [tick]
  generalize firstDue _ _ = due
  cases due with
  | error f => exact ⟨rfl, asked, rfl⟩
  | ok effect =>
    cases effect with
    | none => exact ⟨rfl, asked, rfl⟩
    | some effect =>
      have executes := execute_twin (r := { r with memory := { r.memory with idle := 0 } })
        ⟨asked, rfl⟩ effect
      exact ⟨congrArg Except.ok executes.result, executes.after⟩

theorem borderHit_twin (twin : r.Twin s) (border : Border) :
    Agree Twin (r.borderHit border) (s.borderHit border) := by
  cases border with
  | kill => exact execute_twin twin .kill
  | exit => exact execute_twin twin .win
  | block | wrap => exact ⟨rfl, twin⟩

end

end Referee

/-- The same session, but for when it was created, how its token hovers, and which predicates were
asked. -/
def Session.Twin (s t : Session) : Prop :=
  ∃ createdAt player referee, s.player.Twin player ∧ s.referee.Twin referee ∧
    t = { s with createdAt, player, referee }

section
variable {s t : Session}

theorem Session.Twin.levels (twin : s.Twin t) : t.levels = s.levels := by
  obtain ⟨_, _, _, _, _, rfl⟩ := twin; rfl

theorem Session.Twin.config (twin : s.Twin t) : t.config = s.config := by
  obtain ⟨_, _, _, _, _, rfl⟩ := twin; rfl

theorem Session.Twin.stage (twin : s.Twin t) : t.stage = s.stage := by
  obtain ⟨_, _, _, _, _, rfl⟩ := twin; rfl

theorem Session.Twin.levelIds (twin : s.Twin t) : t.levelIds = s.levelIds := by
  obtain ⟨_, _, _, _, _, rfl⟩ := twin; rfl

theorem Session.Twin.levelIndex (twin : s.Twin t) : t.levelIndex = s.levelIndex := by
  obtain ⟨_, _, _, _, _, rfl⟩ := twin; rfl

theorem Session.Twin.level (twin : s.Twin t) : t.level = s.level := by
  obtain ⟨_, _, _, _, _, rfl⟩ := twin; rfl

theorem Session.Twin.frame (twin : s.Twin t) : t.frame = s.frame := by
  obtain ⟨_, _, _, _, _, rfl⟩ := twin; rfl

end

namespace Turn

def Twin (t u : Turn) : Prop := ∃ session, t.session.Twin session ∧ u = { t with session }

section
variable {t u : Turn}

theorem applyOne_twin (twin : t.Twin u) (event : Event) :
    (t.applyOne event).Twin (u.applyOne event) := by
  obtain ⟨_, ⟨now, player, referee, token, judge, rfl⟩, rfl⟩ := twin
  cases event with
  | killed =>
    by_cases active : (t.session.stage == .active) = true
    · obtain ⟨phase, height, rfl⟩ := token
      simp only [applyOne, kill, Session.isActive, active, if_true]
      exact ⟨_, ⟨now, _, referee, ⟨phase, height, rfl⟩, judge, rfl⟩, rfl⟩
    · simp only [applyOne, kill, Session.isActive, active, Bool.false_eq_true, if_false]
      exact ⟨_, ⟨now, player, referee, token, judge, rfl⟩, rfl⟩
  | won =>
    by_cases active : (t.session.stage == .active) = true
    · simp only [applyOne, win, Session.isActive, active, if_true]
      exact ⟨_, ⟨now, player, referee, token, judge, rfl⟩, rfl⟩
    · simp only [applyOne, win, Session.isActive, active, Bool.false_eq_true, if_false]
      exact ⟨_, ⟨now, player, referee, token, judge, rfl⟩, rfl⟩
  | teleported place =>
    have resets := (Player.reset_twin token place).after
    exact ⟨_, ⟨now, _, referee, resets, judge, rfl⟩, rfl⟩
  | landed | borderHit | hintShown | soundStarted | soundStopped | sequenceShown | levelStarted =>
    exact ⟨_, ⟨now, player, referee, token, judge, rfl⟩, rfl⟩

theorem apply_twin (twin : t.Twin u) (events : List Event) : (t.apply events).Twin (u.apply events) := by
  induction events generalizing t u with
  | nil => exact twin
  | cons event rest ih => exact ih (applyOne_twin twin event)

/-- The turns in which other referees of this kind have taken over. -/
theorem ruled_twin (twin : t.Twin u) {r s : Referee} (judge : r.Twin s) :
    ({ t with session := { t.session with referee := r } } : Turn).Twin
      { u with session := { u.session with referee := s } } := by
  obtain ⟨_, ⟨now, player, _, token, _, rfl⟩, rfl⟩ := twin
  exact ⟨_, ⟨now, player, s, token, judge, rfl⟩, rfl⟩

theorem applyResult_twin (twin : t.Twin u) {first second : Except Fault (List Event) × Referee}
    (judged : Agree Referee.Twin first second) :
    Agree Twin (t.applyResult first) (u.applyResult second) := by
  obtain ⟨result, r, s, rfl, rfl, judge⟩ := judged.parts
  cases result with
  | error f => exact ⟨rfl, ruled_twin twin judge⟩
  | ok events => exact ⟨rfl, apply_twin (ruled_twin twin judge) events⟩

theorem Twin.judge (twin : t.Twin u) : t.session.referee.Twin u.session.referee := by
  obtain ⟨_, ⟨now, player, referee, token, judge, rfl⟩, rfl⟩ := twin
  exact judge

theorem hints_twin (twin : t.Twin u) (hints : List Hint) :
    (t.apply (t.session.referee.hints hints)).Twin (u.apply (u.session.referee.hints hints)) := by
  have same : u.session.referee.hints hints = t.session.referee.hints hints := by
    simp only [Referee.hints, twin.judge.memory]
  rw [same]
  exact apply_twin twin _

theorem emit_twin (twin : t.Twin u) (event : Event) : (t.emit event).Twin (u.emit event) := by
  obtain ⟨session, sessions, rfl⟩ := twin
  exact ⟨session, sessions, rfl⟩

theorem answer_twin (twin : t.Twin u) (level : Level) (event : Event) :
    Agree Twin (t.answer level event) (u.answer level event) := by
  have shown := emit_twin twin event
  cases event with
  | landed place =>
    have lands := applyResult_twin shown (Referee.land_twin shown.judge place)
    obtain ⟨result, t, u, first, second, after⟩ := lands.parts
    simp only [answer, first, second]
    cases result with
    | error f => exact ⟨rfl, after⟩
    | ok _ => exact ⟨rfl, hints_twin after level.hints⟩
  | borderHit direction =>
    obtain ⟨events, r, s, first, second, judge⟩ :=
      (Referee.borderHit_twin shown.judge level.border).parts
    simp only [answer, first, second]
    exact ⟨rfl, apply_twin (ruled_twin shown judge) events⟩
  | killed | won | teleported | hintShown | soundStarted | soundStopped | sequenceShown
  | levelStarted => exact ⟨rfl, shown⟩

theorem answerAll_twin (twin : t.Twin u) (level : Level) (events : List Event) :
    Agree Twin (t.answerAll level events) (u.answerAll level events) := by
  induction events generalizing t u with
  | nil => exact ⟨rfl, twin⟩
  | cons event rest ih =>
    obtain ⟨result, t, u, first, second, after⟩ := (answer_twin twin level event).parts
    simp only [answerAll, first, second]
    cases result with
    | error f => exact ⟨rfl, after⟩
    | ok _ => exact ih after

theorem movePlayer_twin (twin : t.Twin u) (level : Level) :
    Agree Twin (t.movePlayer level) (u.movePlayer level) := by
  have strides : Agree Player.Twin (stride t.session level) (stride u.session level) ∧
      (t.moved level).Twin (u.moved level) := by
    obtain ⟨_, ⟨now, player, referee, token, judge, rfl⟩, rfl⟩ := twin
    have offers : offered { t.session with createdAt := now, player, referee } = offered t.session := by
      obtain ⟨phase, height, rfl⟩ := token
      rfl
    have updates := Player.update_twin token (.ok (offered t.session).1) level.board.size level.border
    have stride : stride { t.session with createdAt := now, player, referee } level =
        player.update (.ok (offered t.session).1) level.board.size level.border := by
      rw [stride, offers]
    simp only [moved, stride, offers]
    exact ⟨updates, _, ⟨now, _, referee, updates.after, judge, rfl⟩, rfl⟩
  obtain ⟨strides, moves⟩ := strides
  simp only [movePlayer_eq, strides.result]
  cases (stride t.session level).1 with
  | error f => exact ⟨rfl, moves⟩
  | ok events => exact answerAll_twin moves level events

theorem passTime_twin (twin : t.Twin u) : Agree Twin t.passTime u.passTime := by
  have active : u.session.isActive = t.session.isActive := by
    obtain ⟨_, ⟨now, player, referee, token, judge, rfl⟩, rfl⟩ := twin
    rfl
  have phase : u.session.player.phase = t.session.player.phase := by
    obtain ⟨_, ⟨now, _, referee, ⟨phase, height, rfl⟩, judge, rfl⟩, rfl⟩ := twin
    rfl
  simp only [passTime, active, phase]
  split
  · exact applyResult_twin twin (Referee.tick_twin twin.judge _)
  · exact ⟨rfl, twin⟩

theorem animate_twin (twin : t.Twin u) (level : Level) :
    Agree Twin (t.animate level) (u.animate level) := by
  obtain ⟨_, ⟨now, player, _, token, ⟨asked, rfl⟩, rfl⟩, rfl⟩ := twin
  exact ⟨rfl, _, ⟨now, player, _, token, ⟨asked, rfl⟩, rfl⟩, rfl⟩

end

end Turn

namespace Game

structure Twin (g h : Game) : Prop where
  session : g.session.Twin h.session
  outbox : h.backstage.outbox = g.backstage.outbox
  cues : h.backstage.cues = g.backstage.cues

section
variable {s t : Session}

theorem andThen_twin {first second : Except Fault Unit × Turn}
    {next : Turn → Except Fault Unit × Turn} (agree : Agree Turn.Twin first second)
    (nexts : ∀ t u, t.Twin u → Agree Turn.Twin (next t) (next u)) :
    Agree Turn.Twin (andThen first next) (andThen second next) := by
  obtain ⟨result, t, u, rfl, rfl, twin⟩ := agree.parts
  cases result with
  | error f => exact ⟨rfl, twin⟩
  | ok _ => exact nexts t u twin

theorem simulate_twin (twin : s.Twin t) (level : Level) :
    Agree Turn.Twin (simulate s level) (simulate t level) := by
  have starts : (opening s).Twin (opening t) := by
    obtain ⟨now, player, referee, token, judge, rfl⟩ := twin
    exact ⟨_, ⟨now, player, referee, token, judge, rfl⟩, rfl⟩
  refine andThen_twin (andThen_twin ?_ ?_) ?_
  · exact Turn.movePlayer_twin starts level
  · exact fun _ _ => Turn.passTime_twin
  · exact fun _ _ twin => Turn.animate_twin twin level

/-- Frames of such sessions also leave the same cues to come. -/
theorem playFrame_twin (twin : s.Twin t) (level : Level) (cues : List (Int × Cue)) :
    Agree (fun a b => a.1.Twin b.1 ∧ b.2 = a.2) (playFrame s level cues) (playFrame t level cues) := by
  obtain ⟨result, t, u, first, second, after⟩ := (simulate_twin twin level).parts
  simp only [playFrame, first, second]
  cases result with
  | error f => exact ⟨rfl, after, rfl⟩
  | ok _ =>
    obtain ⟨_, ⟨now, player, referee, token, judge, rfl⟩, rfl⟩ := after
    by_cases active : (t.session.stage == .active) = true
    · simp only [emitDue, Session.isActive, active, if_true]
      exact ⟨rfl, ⟨_, ⟨now, player, referee, token, judge, rfl⟩, rfl⟩, rfl⟩
    · simp only [emitDue, Session.isActive, active, Bool.false_eq_true, if_false]
      exact ⟨rfl, ⟨_, ⟨now, player, referee, token, judge, rfl⟩, rfl⟩, rfl⟩

end

section
variable {g h : Game}

theorem setStage_twin (twin : g.Twin h) (stage : Stage) : (g.setStage stage).Twin (h.setStage stage) := by
  obtain ⟨⟨now, player, referee, token, judge, same⟩, outbox, cues⟩ := twin
  exact ⟨⟨now, player, referee, token, judge, by simp only [setStage, same]⟩, outbox, cues⟩

theorem beginLoading_twin (twin : g.Twin h) : g.beginLoading.Twin h.beginLoading := by
  obtain ⟨⟨now, player, referee, token, judge, same⟩, outbox, _⟩ := twin
  exact ⟨⟨now, player, referee, token, judge, by simp only [beginLoading, same]⟩, outbox, rfl⟩

theorem resetDeaths_twin (twin : g.Twin h) : g.resetDeaths.Twin h.resetDeaths := by
  obtain ⟨⟨now, player, _, token, ⟨asked, rfl⟩, same⟩, outbox, cues⟩ := twin
  exact ⟨⟨now, player, _, token, ⟨asked, rfl⟩, by simp only [resetDeaths, same]; rfl⟩, outbox, cues⟩

theorem post_twin (twin : g.Twin h) (events : List Event) : (g.post events).Twin (h.post events) :=
  ⟨twin.session, congrArg (· ++ events) twin.outbox, twin.cues⟩

theorem install_twin (twin : g.Twin h) (level : Level) (index : Nat) :
    (g.install level index).Twin (h.install level index) := by
  obtain ⟨⟨now, player, _, token, ⟨asked, rfl⟩, same⟩, outbox, cues⟩ := twin
  have resets := (Player.reset_twin token level.start).after
  refine ⟨⟨now, _, _, resets, ⟨asked, rfl⟩, ?_⟩, congrArg (· ++ _) outbox, cues⟩
  simp only [install, same]
  rfl

theorem openLevel_twin (twin : g.Twin h) (index : Nat) (level : Level) :
    Agree Twin (openLevel index g level) (openLevel index h level) := by
  have installs := install_twin twin level index
  simp only [openLevel, installs.session.config]
  split
  · exact ⟨rfl, installs⟩
  · exact ⟨rfl, installs.session, installs.outbox, rfl⟩

theorem Twin.hints (twin : g.Twin h) (hints : List Hint) :
    h.session.referee.hints hints = g.session.referee.hints hints := by
  obtain ⟨_, _, _, _, ⟨_, rfl⟩, same⟩ := twin.session
  rw [same]
  rfl

theorem reopenLevel_twin (twin : g.Twin h) (level : Level) :
    Agree Twin (reopenLevel g level) (reopenLevel h level) := by
  have installs := install_twin twin level g.session.levelIndex
  simp only [reopenLevel, twin.session.levelIndex, installs.hints]
  exact ⟨rfl, post_twin installs _⟩

theorem loadId_twin (twin : g.Twin h) (id : Value) {finish : Game → Level → Except Fault Unit × Game}
    (finishes : ∀ level, Agree Twin (finish g level) (finish h level)) :
    Agree Twin (g.loadId id finish) (h.loadId id finish) := by
  unfold loadId
  rw [twin.session.levels]
  cases g.session.levels.load id with
  | error f => exact ⟨rfl, twin⟩
  | ok found =>
    cases found with
    | none => exact ⟨rfl, setStage_twin twin _⟩
    | some level =>
      obtain ⟨result, g, h, first, second, after⟩ := (finishes level).parts
      simp only [first, second]
      cases result with
      | error f => exact ⟨rfl, after⟩
      | ok _ => exact ⟨rfl, setStage_twin after _⟩

theorem load_twin (twin : g.Twin h) (index : Int) : Agree Twin (g.load index) (h.load index) := by
  by_cases inside : 0 ≤ index ∧ index < g.session.levelIds.length
  · obtain ⟨position, rfl⟩ := Int.eq_ofNat_of_zero_le inside.1
    have listed := List.getElem?_eq_getElem (Int.ofNat_lt.mp inside.2)
    rw [load_inside listed, load_inside (g := h) (by rw [twin.session.levelIds]; exact listed)]
    have begun := beginLoading_twin twin
    exact loadId_twin begun _ (openLevel_twin begun position)
  · rw [load_outside inside, load_outside (g := h) (by rw [twin.session.levelIds]; exact inside),
      twin.session.levelIds]
    exact ⟨rfl, twin⟩

theorem retry_twin (twin : g.Twin h) : Agree Twin g.retry h.retry := by
  have begun := beginLoading_twin twin
  simp only [retry, begun.session.levelIds, begun.session.levelIndex]
  split
  · exact ⟨rfl, begun⟩
  · exact loadId_twin begun _ (reopenLevel_twin begun)

theorem advance_twin (twin : g.Twin h) : Agree Twin g.advance h.advance := by
  have next : nextIndex h.session = nextIndex g.session := by
    rw [nextIndex, nextIndex, Session.isLast, Session.isLast, twin.session.levelIds,
      twin.session.levelIndex]
  rw [advance_eq, advance_eq, next]
  exact load_twin (resetDeaths_twin twin) _

theorem jump_twin (twin : g.Twin h) (index : Int) : Agree Twin (g.jump index) (h.jump index) := by
  simp only [jump, twin.session.levelIds]
  split
  · exact load_twin (resetDeaths_twin twin) index
  · exact ⟨rfl, twin⟩

theorem push_twin (twin : g.Twin h) (v : Value) : Agree Twin (g.push v) (h.push v) := by
  obtain ⟨⟨now, player, referee, token, judge, same⟩, outbox, cues⟩ := twin
  simp only [push, same]
  exact ⟨rfl, ⟨now, player, referee, token, judge, rfl⟩, outbox, cues⟩

theorem tick_twin (twin : g.Twin h) : Agree Twin g.tick h.tick := by
  have level := twin.session.level
  have stage := twin.session.stage
  have active : h.session.isActive = g.session.isActive := by
    rw [Session.isActive, Session.isActive, stage]
  by_cases idle : g.session.level = none ∨ g.session.isActive = false
  · rw [tick_idle idle, tick_idle (g := h) (by rw [level, active]; exact idle)]
    exact ⟨by rw [twin.session.frame, stage, twin.outbox], twin.session, rfl, twin.cues⟩
  · obtain ⟨some, playing⟩ := not_or.mp idle
    obtain ⟨played, here⟩ := Option.ne_none_iff_exists'.mp some
    have playing := Bool.of_not_eq_false playing
    rw [tick_active here playing, tick_active (g := h) (level.trans here) (active.trans playing),
      twin.outbox, twin.cues]
    obtain ⟨result, ⟨t, left⟩, ⟨u, kept⟩, first, second, turns, cues⟩ :=
      (playFrame_twin twin.session played g.backstage.cues).parts
    obtain ⟨_, ⟨now, player, referee, token, judge, rfl⟩, rfl⟩ : t.Twin u := turns
    simp only [first, second]
    exact ⟨rfl, ⟨now, player, referee, token, judge, rfl⟩, rfl, cues⟩

/-- Such games stay such games. -/
theorem perform_twin (twin : g.Twin h) (op : Op) : (g.perform op).Twin (h.perform op) := by
  cases op with
  | load index => exact (load_twin twin index).after
  | retry => exact (retry_twin twin).after
  | advance => exact (advance_twin twin).after
  | jump index => exact (jump_twin twin index).after
  | push v => exact (push_twin twin v).after
  | tick => exact (tick_twin twin).after
  | finish | rewrite =>
    obtain ⟨⟨now, player, referee, token, judge, same⟩, outbox, cues⟩ := twin
    simp only [perform, same]
    exact ⟨⟨now, player, referee, token, judge, rfl⟩, outbox, cues⟩

theorem listen_twin (g : Game) : g.Twin g.listen :=
  ⟨⟨_, _, _, ⟨_, _, rfl⟩, ⟨_, rfl⟩, rfl⟩, rfl, rfl⟩

end

end Game
end TilePuzzle
