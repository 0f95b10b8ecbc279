import TilePuzzle.Proofs.Attempt

/-! How attempts end, over whole runs. An attempt ends at most once before another level is opened,
nothing comes of the game from then on, and the deaths are those that were told of. -/
namespace TilePuzzle

theorem Event.not_killed_of_plain {event : Event} (plain : event.isPlain = true) :
    event.isKilled = false := by
  cases event <;> first | rfl | contradiction

theorem Event.eq_killed {event : Event} (killed : event.isKilled = true) : event = .killed := by
  cases event <;> first | rfl | contradiction

theorem Event.countP_plain {events : List Event} (plain : ∀ event ∈ events, event.isPlain = true) :
    events.countP Event.isFinal = 0 ∧ events.countP Event.isKilled = 0 := by
  simp only [List.countP_eq_zero, Bool.not_eq_true]
  exact ⟨fun event member => Event.not_final_of_plain (plain event member),
    fun event member => Event.not_killed_of_plain (plain event member)⟩

/-- What is told at the end of an attempt: its last event is the only one of its kind, and a death
if and only if a death is counted. -/
theorem Turn.Ended.counts {t : Turn} {deaths : Int} {final : Event} {later : List Event}
    (ended : t.Ended deaths final later) :
    t.events.countP Event.isFinal = 1 ∧
    t.session.deaths = deaths + (t.events.countP Event.isKilled : Nat) := by
  obtain ⟨⟨earlier, told, plain⟩, ending, _⟩ := ended
  obtain ⟨finals, deaths⟩ := Event.countP_plain plain
  simp only [List.countP_append, Nat.add_eq_zero_iff] at finals deaths
  rw [told]
  simp only [List.countP_append, List.countP_cons]
  cases ending with
  | death _ _ more => simp [finals, deaths, more, Event.isFinal, Event.isKilled]
  | victory _ same => simp [finals, deaths, same, Event.isFinal, Event.isKilled]

theorem Turn.Closes.counts {t : Turn} {level : Level} {deaths : Int} (closes : t.Closes level deaths) :
    t.events.countP Event.isFinal ≤ 1 ∧
    t.session.deaths = deaths + (t.events.countP Event.isKilled : Nat) ∧
    (0 < t.events.countP Event.isFinal → t.session.isActive = false) := by
  rcases closes with opened | ⟨final, later, ended, _⟩
  · obtain ⟨finals, deaths⟩ := Event.countP_plain opened.plain
    rw [finals, deaths, opened.deaths]
    exact ⟨Nat.zero_le 1, by simp, fun some => absurd some (Nat.lt_irrefl 0)⟩
  · obtain ⟨finals, deaths⟩ := ended.counts
    exact ⟨finals.le, deaths, fun _ => ended.inactive⟩

theorem Turn.Closes.alive {t : Turn} {level : Level} {deaths : Int} (closes : t.Closes level deaths)
    (active : t.session.isActive = true) : t.session.player.phase ≠ .dead := by
  rcases closes with opened | ⟨final, later, ended, _⟩
  · exact opened.alive
  · rw [ended.inactive] at active; contradiction

theorem Session.create_deaths {config : Config} {levels : LevelSet} {predicates : Predicates}
    {now : Number} {s : Session} (created : create config levels predicates now = .ok s) :
    s.deaths = 0 := by
  obtain ⟨ids, _, created⟩ := bind_ok_iff.mp created
  obtain ⟨referee, appointed, created⟩ := bind_ok_iff.mp created
  cases created
  unfold Referee.create at appointed
  split at appointed
  · contradiction
  · cases appointed; rfl

/-- Among plain events the one that ends an attempt stands out. -/
theorem Event.eq_of_final {final last : Event} {earlier later : List Event}
    (member : final ∈ earlier ++ last :: later)
    (plain : ∀ event ∈ earlier ++ later, event.isPlain = true) (ends : final.isFinal = true) :
    final = last := by
  have apart : final ∉ earlier ++ later := by
    intro other
    rw [not_final_of_plain (plain final other)] at ends
    contradiction
  rcases List.mem_append.mp member with before | rest
  · exact absurd (List.mem_append_left later before) apart
  · rcases List.mem_cons.mp rest with same | behind
    · exact same
    · exact absurd (List.mem_append_right earlier behind) apart

namespace Game

/-- Whether an operation leads to another level, where deaths count from zero again. -/
def Op.leadsOn : Op → Bool
  | .advance | .jump _ => true
  | .load _ | .retry | .push _ | .tick | .finish | .rewrite _ => false

/-- What was told since the game was last led to another level, after what was told before. -/
def toldHere (g : Game) (before : List Event) : List Op → List Event
  | [] => before
  | op :: rest =>
    (g.perform op).toldHere ((if op.leadsOn then [] else before) ++ g.emitted op) rest

def settled (g : Game) : List Op → Bool
  | [] => true
  | op :: rest => !op.opens g && (g.perform op).settled rest

theorem settled_cons {g : Game} {op : Op} {rest : List Op} (settled : g.settled (op :: rest) = true) :
    op.opens g = false ∧ (g.perform op).settled rest = true := by
  simpa [Game.settled] using settled

def Alive (g : Game) : Prop := g.session.isActive = true → g.session.player.phase ≠ .dead

/-- An attempt ends in a tick with an event: at most hints of the level are told after it, nothing
waits any longer, and until a level is opened ticks neither tell nor change anything. -/
structure Concludes (g : Game) (final : Event) : Prop where
  told : ∃ level earlier later, g.session.level = some level ∧
    g.emitted .tick = earlier ++ final :: later ∧
    (∀ event ∈ earlier ++ later, event.isPlain = true) ∧
    (later = [] ∨ later = g.tick.2.session.referee.hints level.hints)
  ending : g.tick.2.session.Ending g.session.deaths final
  waiting : g.tick.2.session.intents.waiting = []
  still : ∀ more, g.tick.2.faultless more = true → g.tick.2.settled more = true →
    (g.tick.2.play more).tick = (.ok ⟨(g.tick.2.play more).session.frame,
      (g.tick.2.play more).session.stage, []⟩, g.tick.2.play more)

/-- A frame that is played to its end closes, in a game in which only the living are played. -/
theorem closes_of_played {g : Game} {level : Level} {t : Turn} {cues : List (Int × Cue)}
    (alive : g.Alive) (active : g.session.isActive = true)
    (played : playFrame g.session level g.backstage.cues = (.ok (), t, cues)) :
    t.Closes level g.session.deaths :=
  (playFrame_frame played).closes active (alive active)

theorem opened_alive {g : Game} {level : Level} (index : Nat) (hints : List Event)
    (cues : List (Int × Cue)) : (g.opened level index hints cues).Alive := by
  intro _
  have idle : (g.session.player.reset level.start).2.phase = .idle :=
    Player.reset_idle _ (Board.startPlace_within level.blueprint) level.blueprint.size_le
  change (g.session.player.reset level.start).2.phase ≠ .dead
  rw [idle]
  exact Phase.noConfusion

theorem Leaves.alive {g h : Game} {op : Op} {events : List Event} (leaves : g.Leaves op events h)
    (alive : g.Alive) : h.Alive := by
  cases leaves with
  | opened level index cues => exact opened_alive index _ cues
  | missed | finished => exact fun active => absurd active Bool.false_ne_true
  | pushed | waited | rewritten => exact alive
  | played here active played => exact (closes_of_played alive active played).alive

/-- What is told outside of ticks neither ends an attempt nor tells of a death. -/
theorem emitted_plain {g : Game} {op : Op} (works : op.works g = true) (outside : op ≠ .tick) :
    (g.emitted op).countP Event.isFinal = 0 ∧ (g.emitted op).countP Event.isKilled = 0 ∧
    (op.opens g = false → g.emitted op = []) := by
  have leaves := perform_leaves works
  generalize g.emitted op = events at leaves ⊢
  generalize g.perform op = after at leaves
  cases leaves with
  | @opened op level index cues opens =>
    have hints : ∀ event ∈ op.hints g level, event.isPlain = true := by
      cases op with
      | retry => exact Turn.hints_plain _ _
      | load | advance | jump | push | tick | finish | rewrite => exact nofun
    obtain ⟨finals, deaths⟩ := Event.countP_plain hints
    simp only [List.countP_cons, finals, deaths]
    refine ⟨rfl, rfl, fun misses => ?_⟩
    rw [opens] at misses
    contradiction
  | waited | played => contradiction
  | missed | pushed | finished | rewritten => exact ⟨rfl, rfl, fun _ => rfl⟩

theorem perform_deaths {g : Game} {op : Op} (alive : g.Alive) (works : op.works g = true) :
    (g.perform op).session.deaths =
      (if op.leadsOn then 0 else g.session.deaths) + ((g.emitted op).countP Event.isKilled : Nat) := by
  have leaves := perform_leaves works
  have quiet := emitted_plain works
  generalize g.emitted op = events at leaves quiet ⊢
  generalize g.perform op = after at leaves ⊢
  cases leaves with
  | opened level index cues =>
    rw [(quiet (by rintro rfl; contradiction)).2.1]
    cases op <;> first | rfl | exact (Int.add_zero _).symm
  | missed =>
    cases op <;> first | rfl | exact (Int.add_zero _).symm
  | played here active played => exact (closes_of_played alive active played).counts.2.1
  | waited | pushed | finished | rewritten => exact (Int.add_zero _).symm

theorem perform_alive {g : Game} {op : Op} (works : op.works g = true) (alive : g.Alive) :
    (g.perform op).Alive :=
  (perform_leaves works).alive alive

theorem play_deaths {g : Game} {before : List Event} {ops : List Op} (alive : g.Alive)
    (sound : g.faultless ops = true)
    (counted : g.session.deaths = (before.countP Event.isKilled : Nat)) :
    (g.play ops).session.deaths = ((g.toldHere before ops).countP Event.isKilled : Nat) := by
  induction ops generalizing g before with
  | nil => exact counted
  | cons op rest ih =>
    obtain ⟨works, sound⟩ := (Bool.and_eq_true ..).mp sound
    refine ih (perform_alive works alive) sound ?_
    rw [perform_deaths alive works, List.countP_append]
    cases op.leadsOn with
    | true => simp
    | false => simp [counted]

/-- Nothing comes of the game before a level is opened, and nothing is pending. -/
structure Resting (g : Game) : Prop where
  inactive : g.session.isActive = false
  outbox : g.backstage.outbox = []

theorem Leaves.inactive {g h : Game} {op : Op} {events : List Event} (leaves : g.Leaves op events h)
    (misses : op.opens g = false) (inactive : g.session.isActive = false) :
    h.session.isActive = false := by
  cases leaves with
  | opened _ _ _ opens => rw [opens] at misses; contradiction
  | missed | finished => rfl
  | pushed | waited | rewritten => exact inactive
  | played _ active => rw [active] at inactive; contradiction

theorem Leaves.resting {g h : Game} {op : Op} {events : List Event} (leaves : g.Leaves op events h)
    (misses : op.opens g = false) (resting : g.Resting) : h.Resting := by
  refine ⟨leaves.inactive misses resting.inactive, ?_⟩
  cases leaves with
  | opened _ _ _ opens => rw [opens] at misses; contradiction
  | missed => cases op <;> exact resting.outbox
  | waited => rfl
  | pushed | finished | rewritten => exact resting.outbox
  | played _ active => rw [resting.inactive] at active; contradiction

theorem Resting.tick {g : Game} (resting : g.Resting) :
    g.tick = (.ok ⟨g.session.frame, g.session.stage, []⟩, g) := by
  rw [tick_idle (.inr resting.inactive), resting.outbox]
  obtain ⟨session, outbox, cues, heard⟩ := g
  obtain rfl : outbox = [] := resting.outbox
  rfl

theorem Resting.play {g : Game} {ops : List Op} (resting : g.Resting)
    (sound : g.faultless ops = true) (settled : g.settled ops = true) : (g.play ops).Resting := by
  induction ops generalizing g with
  | nil => exact resting
  | cons op rest ih =>
    obtain ⟨works, sound⟩ := (Bool.and_eq_true ..).mp sound
    obtain ⟨misses, settled⟩ := settled_cons settled
    exact ih ((perform_leaves works).resting misses resting) sound settled

/-- Without a level being opened nothing is told outside of frames. -/
theorem emitted_settled {g : Game} {op : Op} (works : op.works g = true) (misses : op.opens g = false)
    (unplayed : op = .tick → g.session.isActive = false) : g.emitted op = [] := by
  by_cases outside : op = .tick
  · rw [outside, emitted_idle (.inr (unplayed outside))]
  · exact (emitted_plain works outside).2.2 misses

theorem told_inactive {g : Game} {ops : List Op} (inactive : g.session.isActive = false)
    (sound : g.faultless ops = true) (settled : g.settled ops = true) : g.told ops = [] := by
  induction ops generalizing g with
  | nil => rfl
  | cons op rest ih =>
    obtain ⟨works, sound⟩ := (Bool.and_eq_true ..).mp sound
    obtain ⟨misses, settled⟩ := settled_cons settled
    rw [told, emitted_settled works misses fun _ => inactive,
      ih ((perform_leaves works).inactive misses inactive) sound settled]
    rfl

/-- Before a level is opened an attempt ends at most once: the first end leaves a game that nothing
comes of. -/
theorem told_final_le {g : Game} {ops : List Op} (alive : g.Alive) (sound : g.faultless ops = true)
    (settled : g.settled ops = true) : (g.told ops).countP Event.isFinal ≤ 1 := by
  -- Only a frame can tell of an end. If this one does, nothing is told later; if not, the bound is that
  -- of the rest.
  induction ops generalizing g with
  | nil => exact Nat.zero_le 1
  | cons op rest ih =>
    obtain ⟨works, sound⟩ := (Bool.and_eq_true ..).mp sound
    obtain ⟨misses, settled⟩ := settled_cons settled
    have leaves := perform_leaves works
    have later := ih (leaves.alive alive) sound settled
    rw [told, List.countP_append]
    by_cases played : op = .tick ∧ g.session.isActive = true
    · obtain ⟨rfl, active⟩ := played
      generalize g.emitted .tick = events at leaves ⊢
      generalize g.perform .tick = after at leaves later sound settled ⊢
      cases leaves with
      | opened _ _ _ opens => contradiction
      | missed load => contradiction
      | waited => rw [List.countP_nil, Nat.zero_add]; exact later
      | @played level t cues here _ played =>
        obtain ⟨finals, _, ends⟩ := (closes_of_played alive active played).counts
        by_cases some : 0 < t.events.countP Event.isFinal
        · rw [told_inactive (g := g.framed t cues) (ends some) sound settled]
          exact finals
        · rw [Nat.eq_zero_of_not_pos some, Nat.zero_add]
          exact later
    · have unplayed : op = .tick → g.session.isActive = false := fun tick =>
        Bool.eq_false_iff.mpr fun active => played ⟨tick, active⟩
      rw [emitted_settled works misses unplayed, List.countP_nil, Nat.zero_add]
      exact later

/-- A tick that tells of the end of an attempt concludes it. -/
theorem tick_concludes {g : Game} (alive : g.Alive) (works : Op.tick.works g = true) {final : Event}
    (member : final ∈ g.emitted .tick) (ends : final.isFinal = true) : g.Concludes final := by
  have leaves : g.Leaves .tick (g.emitted .tick) g.tick.2 := perform_leaves works
  generalize told : g.emitted .tick = events at leaves member
  generalize after : g.tick.2 = h at leaves
  cases leaves with
  | opened _ _ _ opens => contradiction
  | missed load => contradiction
  | waited => contradiction
  | @played level t cues here active played =>
    rcases closes_of_played alive active played with opened | ⟨last, later, ended, hints⟩
    · rw [Event.not_final_of_plain (opened.plain final member)] at ends
      contradiction
    · obtain ⟨earlier, parts, plain⟩ := ended.told
      rw [parts] at member
      obtain rfl : final = last := Event.eq_of_final member plain ends
      have resting : (g.framed t cues).Resting := ⟨ended.inactive, rfl⟩
      exact {
        told := ⟨level, earlier, later, here, told.trans parts, plain, by rw [after]; exact hints⟩
        ending := by rw [after]; exact ended.ending
        waiting := by rw [after]; exact ended.waiting
        still := by
          rw [after]
          exact fun more sound settled => (resting.play sound settled).tick }

/-- Nobody plays a session that was just created. -/
theorem ofSession_alive {config : Config} {levels : LevelSet} {predicates : Predicates}
    {now : Number} {session : Session}
    (created : Session.create config levels predicates now = .ok session) (listeners : Nat) :
    (ofSession session listeners).Alive := by
  obtain ⟨_, stage, _⟩ := Session.create_fresh created
  intro active
  rw [Session.isActive_iff] at active
  exact absurd (stage.symm.trans active) Stage.noConfusion

/-- In any run without a fault the deaths are those that were told of since the game was last led to
another level, only the living are played, before a level is opened an attempt ends at most once,
and a tick that tells of its end concludes it. -/
theorem play_ends_once {lobby after : Lobby} {levels : LevelSet} {predicates : Predicates}
    {now : Number} {id : String} {session : Session}
    (created : lobby.create levels predicates now = (.ok (id, session), after)) (listeners : Nat)
    (ops : List Op) (sound : (ofSession session listeners).faultless ops = true) (g : Game)
    (here : g = (ofSession session listeners).play ops) :
    g.session.deaths =
      (((ofSession session listeners).toldHere [] ops).countP Event.isKilled : Nat) ∧
    (g.session.isActive = true → g.session.player.phase ≠ .dead) ∧
    (∀ more, g.faultless more = true → g.settled more = true →
      (g.told more).countP Event.isFinal ≤ 1) ∧
    (Op.tick.works g = true → ∀ final ∈ g.emitted .tick, final.isFinal = true →
      g.Concludes final) := by
  obtain ⟨made, _, _⟩ := Lobby.create_ok created
  have fresh := ofSession_alive made listeners
  have none : (ofSession session listeners).session.deaths = 0 := Session.create_deaths made
  have alive : g.Alive := by
    rw [here]
    exact play_keeps_faultless (fun _ _ => perform_alive) fresh sound
  refine ⟨?_, alive, fun more => told_final_le alive, fun works _ => tick_concludes alive works⟩
  rw [here]
  exact play_deaths fresh sound (by rw [none]; rfl)

/-- The second death on a level whose border kills: one death was counted before it, and it concludes
the attempt. -/
theorem play_ends_once_border :
    let ops : List Op := [.load 1, .push (.str "left"), .tick, .retry, .push (.str "left")]
    ∃ session after, ({} : Lobby).create Campaign.levelSet [] (.int 0) = (.ok ("s0", session), after) ∧
      (ofSession session 1).faultless ops = true ∧
      let g := (ofSession session 1).play ops
      ((ofSession session 1).toldHere [] ops).countP Event.isKilled = 1 ∧ g.session.deaths = 1 ∧
      g.session.player.phase ≠ .dead ∧ g.Concludes .killed := by
  intro ops
  refine ⟨_, _, rfl, by decide +kernel, ?_⟩
  intro g
  obtain ⟨deaths, alive, _, concludes⟩ :=
    @play_ends_once {} _ Campaign.levelSet [] (.int 0) "s0" _ rfl 1 ops (by decide +kernel) g rfl
  have killed : (g.emitted .tick).any Event.isKilled = true := by decide +kernel
  obtain ⟨final, member, kills⟩ := List.any_eq_true.mp killed
  have ended := concludes (by decide +kernel) final member
  rw [Event.eq_killed kills] at ended
  exact ⟨by decide +kernel, deaths.trans (by decide +kernel), alive (by decide +kernel), ended rfl⟩

end Game
end TilePuzzle
