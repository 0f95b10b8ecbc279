import TilePuzzle.Proofs.Ending

/-! How events are delivered, over whole runs. What ticks hand over, and after it what is still
pending, is what was told so far; everybody who listened from the beginning heard just that, and a
level is announced where it is opened and nowhere else. -/
namespace TilePuzzle

namespace Event

def isStart : Event → Bool
  | levelStarted .. => true
  | _ => false

theorem not_start_of_plain {event : Event} (plain : event.isPlain = true) : event.isStart = false := by
  cases event <;> first | rfl | contradiction

theorem countP_start_plain {events : List Event} (plain : ∀ event ∈ events, event.isPlain = true) :
    events.countP isStart = 0 := by
  simp only [List.countP_eq_zero, Bool.not_eq_true]
  exact fun event member => not_start_of_plain (plain event member)

end Event

/-- Frames announce nothing. -/
theorem Turn.Closes.unannounced {t : Turn} {level : Level} {deaths : Int}
    (closes : t.Closes level deaths) : t.events.countP Event.isStart = 0 := by
  rcases closes with opened | ⟨final, later, ⟨⟨earlier, told, plain⟩, ending, _⟩, _⟩
  · exact Event.countP_start_plain opened.plain
  · have none := Event.countP_start_plain plain
    simp only [List.countP_append, Nat.add_eq_zero_iff] at none
    rw [told, List.countP_append, List.countP_cons, none.1, none.2]
    cases ending <;> rfl

namespace Game

def delivered (g : Game) : List Op → List Event
  | [] => []
  | op :: rest => op.delivers g ++ (g.perform op).delivered rest

/-- What the ticks of a run hand over, and after it what is still pending. -/
def stream (g : Game) (ops : List Op) : List Event :=
  g.delivered ops ++ (g.play ops).backstage.outbox

def openings (g : Game) : List Op → Nat
  | [] => 0
  | op :: rest => (if op.opens g then 1 else 0) + (g.perform op).openings rest

theorem play_append (g : Game) (ops more : List Op) : g.play (ops ++ more) = (g.play ops).play more :=
  List.foldl_append

theorem delivered_append (g : Game) (ops more : List Op) :
    g.delivered (ops ++ more) = g.delivered ops ++ (g.play ops).delivered more := by
  induction ops generalizing g with
  | nil => rfl
  | cons op rest ih =>
    simp only [List.cons_append, delivered, ih, List.append_assoc]
    rfl

/-- What was pending before a run, and what the run tells, is handed over by it or still pending. -/
theorem stream_eq {g : Game} {ops : List Op} (sound : g.faultless ops = true) :
    g.stream ops = g.backstage.outbox ++ g.told ops := by
  induction ops generalizing g with
  | nil => exact (List.append_nil _).symm
  | cons op rest ih =>
    obtain ⟨works, sound⟩ := (Bool.and_eq_true ..).mp sound
    have later : (g.perform op).delivered rest ++ ((g.perform op).play rest).backstage.outbox =
        (g.perform op).backstage.outbox ++ (g.perform op).told rest := ih sound
    calc g.stream (op :: rest)
        = op.delivers g ++ ((g.perform op).delivered rest ++
            ((g.perform op).play rest).backstage.outbox) := List.append_assoc ..
      _ = (op.delivers g ++ (g.perform op).backstage.outbox) ++ (g.perform op).told rest := by
        rw [later, List.append_assoc]
      _ = g.backstage.outbox ++ g.told (op :: rest) := by
        rw [(perform_leaves works).kept, told, List.append_assoc]

theorem stream_append {g : Game} {ops more : List Op} (sound : (g.play ops).faultless more = true) :
    g.stream (ops ++ more) = g.stream ops ++ (g.play ops).told more := by
  calc g.stream (ops ++ more)
      = g.delivered ops ++ (g.play ops).stream more := by
        rw [stream, delivered_append, play_append, stream, List.append_assoc]
    _ = g.stream ops ++ (g.play ops).told more := by
        rw [stream_eq sound, stream, List.append_assoc]

theorem play_heard {g : Game} {ops : List Op} (sound : g.faultless ops = true) :
    (g.play ops).backstage.heard = g.backstage.heard.map (· ++ g.told ops) := by
  induction ops generalizing g with
  | nil => simp [play, told]
  | cons op rest ih =>
    obtain ⟨works, sound⟩ := (Bool.and_eq_true ..).mp sound
    have later : ((g.perform op).play rest).backstage.heard =
        (g.perform op).backstage.heard.map (· ++ (g.perform op).told rest) := ih sound
    change ((g.perform op).play rest).backstage.heard = _
    rw [later, (perform_leaves works).told, List.map_map]
    exact List.map_congr_left fun heard _ => List.append_assoc ..

theorem hints_unannounced (g : Game) (level : Level) (op : Op) :
    (op.hints g level).countP Event.isStart = 0 := by
  cases op with
  | retry => exact Event.countP_start_plain (Turn.hints_plain _ _)
  | load | advance | jump | push | tick | finish | rewrite => rfl

/-- An operation announces a level just when it opens one. -/
theorem emitted_starts {g : Game} {op : Op} (alive : g.Alive) (works : op.works g = true) :
    (g.emitted op).countP Event.isStart = if op.opens g then 1 else 0 := by
  have leaves := perform_leaves works
  generalize g.emitted op = events at leaves ⊢
  generalize g.perform op = after at leaves
  cases leaves with
  | opened level index cues opens =>
    rw [List.countP_cons, hints_unannounced, opens]
    rfl
  | missed load misses => rw [misses]; rfl
  | played here active played => exact (closes_of_played alive active played).unannounced
  | pushed | waited | finished | rewritten => rfl

theorem told_starts {g : Game} {ops : List Op} (alive : g.Alive) (sound : g.faultless ops = true) :
    (g.told ops).countP Event.isStart = g.openings ops := by
  induction ops generalizing g with
  | nil => rfl
  | cons op rest ih =>
    obtain ⟨works, sound⟩ := (Bool.and_eq_true ..).mp sound
    rw [told, List.countP_append, emitted_starts alive works, ih (perform_alive works alive) sound,
      openings]

/-- What a load that does not fail tells: the announcement of the level that it opens, with the
hints that are shown at once after it, or nothing. -/
theorem load_tells {g : Game} {op : Op} (works : op.works g = true) (load : op.isLoad = true) :
    (op.opens g = true ∧ ∃ level, (g.perform op).session.level = some level ∧
      g.emitted op = level.announcement :: op.hints g level) ∨
    (op.opens g = false ∧ g.emitted op = []) := by
  have leaves := perform_leaves works
  generalize g.emitted op = events at leaves ⊢
  generalize g.perform op = after at leaves ⊢
  cases leaves with
  | opened level index cues opens => exact .inl ⟨opens, level, rfl, rfl⟩
  | missed _ misses => exact .inr ⟨misses, rfl⟩
  | pushed | waited | played | finished | rewritten => contradiction

theorem delivers_tick {g h : Game} {result : TickResult} (ticked : g.tick = (.ok result, h)) :
    Op.tick.delivers g = result.events := by
  simp only [Op.delivers, ticked]

/-- Several ticks in one go are a run of ticks, and their results are those that it hands over. -/
theorem run_delivers (n : Nat) (g : Game) :
    ∃ k ≤ n, (run n g).2 = g.play (List.replicate k .tick) ∧
      ∀ results, (run n g).1 = .ok results →
        results.flatMap TickResult.events = g.delivered (List.replicate k .tick) := by
  induction n generalizing g with
  | zero =>
    refine ⟨0, Nat.le_refl 0, rfl, ?_⟩
    rintro _ ⟨⟩
    rfl
  | succ n ih =>
    have performed : g.perform .tick = g.tick.2 := rfl
    rcases ticked : g.tick with ⟨f | result, h⟩
    · refine ⟨1, Nat.le_add_left 1 n, ?_, ?_⟩ <;> simp only [run, ticked]
      · exact (performed.trans (congrArg Prod.snd ticked)).symm
      · exact nofun
    · have after : g.perform .tick = h := performed.trans (congrArg Prod.snd ticked)
      have handed := delivers_tick ticked
      by_cases active : result.stage = .active
      · obtain ⟨k, most, same, results⟩ := ih h
        refine ⟨k + 1, Nat.succ_le_succ most, ?_, ?_⟩ <;> simp only [run, ticked, if_pos active]
        · change _ = (g.perform .tick).play (List.replicate k .tick)
          rw [after]
          exact same
        · intro more given
          change _ = Op.tick.delivers g ++ (g.perform .tick).delivered (List.replicate k .tick)
          rw [handed, after]
          cases rest : (run n h).1 with
          | error f => simp [rest, Except.map] at given
          | ok rest' =>
            simp only [rest, Except.map, Except.ok.injEq] at given
            rw [← given, List.flatMap_cons, results rest' rest]
      · refine ⟨1, Nat.le_add_left 1 n, ?_, ?_⟩ <;> simp only [run, ticked, if_neg active]
        · exact after.symm
        · rintro _ ⟨⟩
          change _ = Op.tick.delivers g ++ []
          rw [handed]
          rfl

/-- In any run without a fault everybody who listened from the beginning heard what the ticks handed
over and after it what is still pending. Whatever is done next adds to that at its end, with one
announcement for each level that is opened: before anything else of that level, and none for a load
that finds no level. -/
theorem play_delivers {lobby after : Lobby} {levels : LevelSet} {predicates : Predicates}
    {now : Number} {id : String} {session : Session}
    (created : lobby.create levels predicates now = (.ok (id, session), after)) (listeners : Nat)
    (ops : List Op) (sound : (ofSession session listeners).faultless ops = true) (g : Game)
    (here : g = (ofSession session listeners).play ops) :
    g.backstage.heard = List.replicate listeners ((ofSession session listeners).stream ops) ∧
    ((ofSession session listeners).stream ops).countP Event.isStart =
      (ofSession session listeners).openings ops ∧
    (∀ more, g.faultless more = true →
      (ofSession session listeners).stream (ops ++ more) =
        (ofSession session listeners).stream ops ++ g.told more ∧
      (g.told more).countP Event.isStart = g.openings more) ∧
    (∀ op, op.works g = true → op.isLoad = true →
      (op.opens g = true ∧ ∃ level, (g.perform op).session.level = some level ∧
        g.emitted op = level.announcement :: op.hints g level) ∨
      (op.opens g = false ∧ g.emitted op = [])) := by
  obtain ⟨made, _, _⟩ := Lobby.create_ok created
  have fresh := ofSession_alive made listeners
  have alive : g.Alive := by
    rw [here]
    exact play_keeps_faultless (fun _ _ => perform_alive) fresh sound
  have told : (ofSession session listeners).stream ops = (ofSession session listeners).told ops :=
    stream_eq sound
  refine ⟨?_, ?_, ?_, fun op => load_tells⟩
  · rw [here, play_heard sound, told]
    simp [ofSession]
  · rw [told]
    exact told_starts fresh sound
  · intro more later
    refine ⟨?_, told_starts alive later⟩
    subst here
    exact stream_append later

/-- Two loads and a retry, of which a tick has delivered the first two: both listeners heard of three
levels that started, and one announcement is still pending. -/
theorem play_delivers_reload :
    let ops : List Op := [.load 0, .retry, .tick, .load 1]
    ∃ session after, ({} : Lobby).create Campaign.levelSet [] (.int 0) = (.ok ("s0", session), after) ∧
      (ofSession session 2).faultless ops = true ∧
      let g := (ofSession session 2).play ops
      g.backstage.heard = List.replicate 2 ((ofSession session 2).stream ops) ∧
      ((ofSession session 2).stream ops).map Event.name =
        ["level_started", "level_started", "level_started"] ∧
      g.backstage.outbox.map Event.name = ["level_started"] := by
  intro ops
  refine ⟨_, _, rfl, by decide +kernel, ?_⟩
  intro g
  obtain ⟨heard, _⟩ :=
    @play_delivers {} _ Campaign.levelSet [] (.int 0) "s0" _ rfl 2 ops (by decide +kernel) g rfl
  exact ⟨heard, by decide +kernel, by decide +kernel⟩

end Game
end TilePuzzle
