import TilePuzzle.Proofs.Refinement

/-! Whole playthroughs. Moves that are handed over one by one, each once the token is at rest, come to
what they come to on a table: the same is told, and the game ends in the same place and state. -/
namespace TilePuzzle

/-- A playthrough in which nothing broke down. It told what was pending and then some more, and who
was told it all sees this table. -/
structure Playthrough.Ends (p : Playthrough) (pending told : List Event) (table : Tabletop) : Prop where
  unbroken : p.breakdown = none
  told : ∃ events, p.results.flatMap TickResult.events = pending ++ events ∧
    p.game.session.table (told ++ events) = table

theorem Playthrough.Ends.cons {p : Playthrough} {pending told events : List Event} {table : Tabletop}
    (ends : p.Ends [] (told ++ events) table) {result : TickResult}
    (tells : result.events = pending ++ events) :
    ({ p with results := result :: p.results } : Playthrough).Ends pending told table := by
  obtain ⟨unbroken, more, results, same⟩ := ends
  refine ⟨unbroken, events ++ more, ?_, ?_⟩
  · rw [List.flatMap_cons, tells, results, List.nil_append, List.append_assoc]
  · rw [← List.append_assoc]
    exact same

namespace Game

section
variable {g : Game} {level : Level} {config : Config}

/-- A token that is not at rest is not handed a move. -/
theorem handOver_busy (busy : g.isWaiting = false) (moves : List String) :
    g.handOver moves = (.ok moves, g) := by
  cases moves with
  | nil => rfl
  | cons move rest => simp only [handOver, busy, Bool.false_eq_true, if_false]

theorem Travels.busy {place : Place} {left : Nat} (travels : g.Travels level config place left) :
    g.isWaiting = false := by
  simp only [isWaiting, travels.moving]
  rfl

def expecting (g : Game) (direction : Direction) : Game :=
  { g with session := { g.session with
      intents := { g.session.intents with waiting := [direction] } } }

theorem push_name (hosts : g.Hosts level config) (room : 1 ≤ config.maxPending)
    (waiting : g.session.intents.waiting = []) (direction : Direction) :
    g.push (.str direction.name) = (.ok true, g.expecting direction) := by
  have full : g.session.intents.isFull = false := by
    simp only [Intents.isFull, hosts.seated.limit, waiting, Number.atMost_int, List.length_nil,
      decide_eq_false_iff_not]
    omega
  rw [push_named g (Direction.ofValue_name direction), full, waiting]
  rfl

theorem handOver_rests (hosts : g.Hosts level config) (room : 1 ≤ config.maxPending)
    (idle : g.session.player.phase = .idle) (waiting : g.session.intents.waiting = [])
    (direction : Direction) (rest : List String) :
    g.handOver (direction.name :: rest) = (.ok rest, g.expecting direction) := by
  have waits : g.isWaiting = true := by
    simp only [isWaiting, idle, waiting]
    rfl
  simp only [handOver, waits, if_true, push_name hosts room waiting]

theorem expecting_hosts (hosts : g.Hosts level config) (room : 1 ≤ config.maxPending)
    (waiting : g.session.intents.waiting = []) (direction : Direction) :
    (g.expecting direction).Hosts level config := by
  have pushed := push_name hosts room waiting direction
  have works : Op.works g (.push (.str direction.name)) = true := by
    simp only [Op.works, Op.result, pushed]
    rfl
  have shows : (g.push (.str direction.name)).2.Shows := perform_shows works hosts.shows
  rw [pushed] at shows
  exact ⟨shows, hosts.here, { hosts.seated with }, hosts.uncued⟩

/-- A playthrough whose next tick does not fail stops after it or goes on. -/
theorem follow_tick {h after : Game} {n : Nat} {moves rest : List String} {result : TickResult}
    (hands : g.handOver moves = (.ok rest, h)) (ticks : h.tick = (.ok result, after)) :
    g.follow (n + 1) moves =
      if result.stage ≠ .active ∨ rest = [] ∧ after.isWaiting = true then
        { game := after, results := [result] }
      else { after.follow n rest with results := result :: (after.follow n rest).results } := by
  simp only [follow, hands, ticks]
  simp

/-- From a game at rest these moves, unless there are none, come to what they come to on the table. -/
def Follows (level : Level) (config : Config) (moves : List Direction) : Prop :=
  moves ≠ [] → ∀ (g : Game) (n : Nat), g.Hosts level config → g.session.Rests →
    g.session.isActive = true → (1 + config.moveTicks.toNat) * moves.length ≤ n → ∀ told,
      (g.follow n (moves.map Direction.name)).Ends g.backstage.outbox told
        ((g.session.table told).play level config.capacity.toNat moves)

/-- After a tick that leaves the game at rest the moves that are left decide. -/
theorem follow_rests {after : Game} {n : Nat} {rest : List Direction} {result : TickResult}
    {pending told events : List Event} (later : Follows level config rest)
    (hosts : after.Hosts level config) (rests : after.session.Rests)
    (delivered : after.backstage.outbox = [])
    (enough : (1 + config.moveTicks.toNat) * rest.length ≤ n)
    (stage : result.stage = after.session.stage) (tells : result.events = pending ++ events) :
    (if result.stage ≠ .active ∨ rest.map Direction.name = [] ∧ after.isWaiting = true then
        { game := after, results := [result] }
      else { after.follow n (rest.map Direction.name) with
        results := result :: (after.follow n (rest.map Direction.name)).results } :
      Playthrough).Ends pending told
        ((after.session.table (told ++ events)).play level config.capacity.toNat rest) := by
  have stops : ({ game := after, results := [result] } : Playthrough).Ends pending told
      (after.session.table (told ++ events)) :=
    ⟨rfl, events, by simp [tells], rfl⟩
  by_cases active : after.session.stage = .active
  · have going := after.session.isActive_iff.mpr active
    cases rest with
    | nil =>
      have waits : after.isWaiting = true := by
        simp only [isWaiting, rests.idle going, rests.waiting]
        rfl
      rw [if_pos (.inr ⟨rfl, waits⟩)]
      exact stops
    | cons direction rest =>
      rw [if_neg (by simp [stage, active])]
      have ends := later (List.cons_ne_nil _ _) after n hosts rests going enough (told ++ events)
      rw [delivered] at ends
      exact ends.cons tells
  · rw [if_pos (.inl (by rw [stage]; exact active)), Tabletop.play_ended active]
    exact stops

/-- A tick that tells nothing and leaves a token on its way is passed over. -/
theorem follow_onward {h after : Game} {n left : Nat} {place : Place} {moves rest : List String}
    {told : List Event} {table : Tabletop} (hands : g.handOver moves = (.ok rest, h))
    (ticked : h.tick = (.ok ⟨after.session.frame, after.session.stage, h.backstage.outbox⟩, after))
    (travels : after.Travels level config place left)
    (ends : (after.follow n rest).Ends [] told table) :
    (g.follow (n + 1) moves).Ends h.backstage.outbox told table := by
  have active := after.session.isActive_iff.mp travels.active
  have goes : ¬(after.session.stage ≠ .active ∨ rest = [] ∧ after.isWaiting = true) := by
    simp [active, travels.busy]
  rw [follow_tick hands ticked, if_neg goes]
  rw [← List.append_nil told] at ends
  exact ends.cons (List.append_nil _).symm

/-- A token on its way arrives, and then the moves that are left decide. -/
theorem follow_travels {place : Place} {left n : Nat} {rest : List Direction} (static : level.Static)
    (later : Follows level config rest) (travels : g.Travels level config place (left + 1))
    (enough : left + 1 + (1 + config.moveTicks.toNat) * rest.length ≤ n) (told : List Event) :
    (g.follow n (rest.map Direction.name)).Ends g.backstage.outbox told
      (((g.session.table told).land level config.capacity.toNat place).play level
        config.capacity.toNat rest) := by
  -- On the ticks that are left of the way: the last one lands, any other one is passed over.
  induction left generalizing g n with
  | zero =>
    obtain ⟨n, rfl⟩ : ∃ m, n = m + 1 := ⟨n - 1, by omega⟩
    obtain ⟨events, h, hosts, rests, ticked, delivered, table⟩ := tick_arrives static travels
    rw [follow_tick (handOver_busy travels.busy _) ticked, ← table]
    exact follow_rests later hosts rests delivered (by omega) rfl rfl
  | succ left ih =>
    obtain ⟨n, rfl⟩ : ∃ m, n = m + 1 := ⟨n - 1, by omega⟩
    obtain ⟨h, onward, ticked, delivered, table⟩ := tick_travels static travels
    have ends := ih (n := n) onward (by omega)
    rw [delivered, table] at ends
    exact follow_onward (handOver_busy travels.busy _) ticked onward ends

/-- From a game at rest any moves come to what they come to on the table. -/
theorem follows (static : level.Static) (ticks : 1 ≤ config.moveTicks) (room : 1 ≤ config.maxPending)
    (moves : List Direction) : Follows level config moves := by
  induction moves with
  | nil => exact fun some => absurd rfl some
  | cons direction rest ih =>
    intro _ g n hosts rests active enough told
    rw [List.length_cons, Nat.mul_succ] at enough
    obtain ⟨n, rfl⟩ : ∃ m, n = m + 1 := ⟨n - 1, by omega⟩
    have hands := handOver_rests hosts room (rests.idle active) rests.waiting direction
      (rest.map Direction.name)
    have hosted := expecting_hosts hosts room rests.waiting direction
    obtain ⟨events, h, starts, ticked, delivered⟩ :=
      tick_starts hosted static ticks active (rests.idle active) rfl
    have played : (g.session.table told).play level config.capacity.toNat (direction :: rest) =
        ((g.session.table told).move level config.capacity.toNat direction).play level
          config.capacity.toNat rest := if_pos (g.session.isActive_iff.mp active)
    rw [List.map_cons, played]
    -- A move that is over after a tick leaves the ticks of a way unused, which the others may have.
    cases starts with
    | stays hosts rests table =>
      rw [follow_tick hands ticked]
      have moved : h.session.table (told ++ events) =
        (g.session.table told).move level config.capacity.toNat direction := table told
      rw [← moved]
      exact follow_rests ih hosts rests delivered (by omega) rfl rfl
    | @travels _ place travels table =>
      obtain ⟨unmoved, lands⟩ := table told
      have moved : (g.session.table told).move level config.capacity.toNat direction =
        (h.session.table told).land level config.capacity.toNat place := by
        rw [unmoved]
        exact lands
      obtain ⟨left, total⟩ : ∃ left, config.moveTicks.toNat = left + 1 :=
        ⟨config.moveTicks.toNat - 1, by omega⟩
      rw [List.append_nil] at ticked
      rw [total] at travels
      rw [moved]
      have ends := follow_travels (n := n) static ih travels (by omega) told
      rw [delivered] at ends
      exact follow_onward (h := g.expecting direction) hands ticked travels ends

end

theorem ok_of_isTrue {result : Except Fault Bool} (done : isTrue result = true) :
    result = .ok true := by
  cases result with
  | error f => contradiction
  | ok b => exact congrArg Except.ok done

theorem create_seated {config : Config} {levels : LevelSet} {now : Number} {s : Session}
    (created : Session.create config levels [] now = .ok s) :
    s.Seated config ∧ s.referee.memory = {} := by
  obtain ⟨equipped, _, memory⟩ := Session.create_equipped created
  exact ⟨Session.seated_iff.mpr equipped, memory⟩

/-- A level without cues that was opened starts with none. -/
theorem load_uncued {g h : Game} {index : Int} {level : Level} (loaded : g.load index = (.ok true, h))
    (here : h.session.level = some level) (uncued : level.cues = []) :
    ∃ position, h = g.opened level position [] [] := by
  rcases g.load_cases index with refused | ⟨position, id, _, _, loads⟩
  · rw [refused] at loaded
    cases loaded
  · rw [loads] at loaded
    rcases g.beginLoading.loadId_cases id (openLevel position) with
      ⟨f, _, failed⟩ | ⟨_, absent⟩ | ⟨opened, _, ⟨f, _, failed⟩ | ⟨_, done⟩⟩
    · rw [failed] at loaded
      cases loaded
    · rw [absent] at loaded
      cases loaded
    · rw [failed] at loaded
      cases loaded
    · rw [done] at loaded
      cases loaded
      simp only [setStage, openLevel_session] at here
      obtain rfl : opened = level := Option.some.inj here
      refine ⟨position, ?_⟩
      simp only [openLevel, uncued, schedule, Game.opened, post_nil]

/-- A game whose level was just loaded is at rest. -/
theorem opened_hosts {lobby after : Lobby} {levels : LevelSet} {now : Number} {id : String}
    {session : Session} (created : lobby.create levels [] now = (.ok (id, session), after))
    {listeners : Nat} {index : Int} {g : Game}
    (loaded : (ofSession session listeners).load index = (.ok true, g)) {level : Level}
    (here : g.session.level = some level) (static : level.Static) :
    g.Hosts level lobby.config ∧ g.session.Rests ∧ g.session.isActive = true ∧
    g.backstage.outbox = [level.announcement] ∧
    g.session.table [] = { place := level.start } := by
  obtain ⟨made, _, _⟩ := Lobby.create_ok created
  obtain ⟨seated, memory⟩ := create_seated made
  have works : Op.works (ofSession session listeners) (.load index) = true := by
    simp only [Op.works, Op.result, loaded]
    rfl
  have shows : ((ofSession session listeners).load index).2.Shows :=
    perform_shows works (ofSession_shows made listeners)
  rw [loaded] at shows
  obtain ⟨position, rfl⟩ := load_uncued loaded here static.uncued
  refine ⟨⟨shows, ⟨level.board, rfl, rfl⟩, ?_, rfl⟩, ⟨fun _ => ?_, rfl⟩, rfl, rfl, ?_⟩
  · exact ⟨seated.constants, seated.unnamed, seated.limit,
      (Player.reset_moveTicks _ _).trans seated.ticks⟩
  · exact Player.reset_idle _ (Board.startPlace_within level.blueprint) level.blueprint.size_le
  · have place := (session.player.reset_places level.start).1
    have deaths : session.referee.memory.deaths = 0 := by rw [memory]
    change ({ place := (session.player.reset level.start).2.place
              memory := { deaths := session.referee.memory.deaths } } : Tabletop) = _
    rw [place, deaths]

/-- Playing with ticks refines playing on a table. On a static level that was just loaded, for which no
predicates are named, moves that are handed over as the token takes them, with a tick and the ticks
of a way for each, come to what the table comes to: it tells what is told after the announcement of
the level, and has the place, the stage and the memory of the game at the end. All constants may
differ from the usual ones, as long as a move takes time and one intent can wait. -/
theorem follow_refines {lobby after : Lobby} {levels : LevelSet} {now : Number} {id : String}
    {session : Session} (created : lobby.create levels [] now = (.ok (id, session), after))
    (listeners : Nat) (index : Int) (g : Game)
    (loaded : (ofSession session listeners).load index = (.ok true, g)) (level : Level)
    (here : g.session.level = some level) (static : level.Static)
    (ticks : 1 ≤ lobby.config.moveTicks) (room : 1 ≤ lobby.config.maxPending)
    (moves : List Direction) (some : moves ≠ []) (n : Nat)
    (enough : (1 + lobby.config.moveTicks) * moves.length ≤ n) :
    let p := g.follow n (moves.map Direction.name)
    let table := Tabletop.play level lobby.config.capacity.toNat { place := level.start } moves
    p.breakdown = none ∧
    p.results.flatMap TickResult.events = level.announcement :: table.events ∧
    p.game.session.player.place = table.place ∧ p.game.session.stage = table.stage ∧
    p.game.session.referee.memory.timeless = table.memory := by
  obtain ⟨hosts, rests, active, pending, start⟩ := opened_hosts created loaded here static
  have enough : (1 + lobby.config.moveTicks.toNat) * moves.length ≤ n := by
    obtain ⟨k, positive⟩ := Int.eq_ofNat_of_zero_le (show 0 ≤ lobby.config.moveTicks by omega)
    rw [positive] at enough ⊢
    exact_mod_cast enough
  obtain ⟨unbroken, events, results, same⟩ :=
    follows static ticks room moves some g n hosts rests active enough []
  rw [pending] at results
  rw [start] at same
  intro p table
  have ends : p.game.session.table events = table := same
  refine ⟨unbroken, ?_, ?_, ?_, ?_⟩
  · rw [← ends]
    exact results
  · rw [← ends]
    rfl
  · rw [← ends]
    rfl
  · rw [← ends]
    rfl

/-- The first level of the campaign, played to its exit. The step up is blocked, so there are six
landings. -/
theorem follow_refines_exit :
    let moves : List Direction := [.up, .right, .right, .right, .down, .down, .down]
    ∃ session after, ({} : Lobby).create Campaign.levelSet [] (.int 0) = (.ok ("s0", session), after) ∧
      let g := ((ofSession session 0).load 0).2
      let p := g.follow 84 (moves.map Direction.name)
      p.breakdown = none ∧ p.game.session.player.place = ⟨3, 3⟩ ∧ p.game.session.stage = .won ∧
      p.game.session.referee.memory.timeless.steps = 6 := by
  intro moves
  refine ⟨_, _, rfl, ?_⟩
  intro g p
  let level := g.session.level.get (by decide +kernel)
  obtain ⟨unbroken, _, place, stage, memory⟩ :=
    @follow_refines {} _ Campaign.levelSet (.int 0) "s0" _ rfl 0 0 g
      (Prod.ext (ok_of_isTrue (by decide +kernel)) rfl) level (Option.some_get _).symm
      (by decide +kernel) (by decide) (by decide) moves (List.cons_ne_nil _ _) 84 (by decide)
  refine ⟨unbroken, ?_, ?_, ?_⟩
  · rw [place]
    decide +kernel
  · rw [stage]
    decide +kernel
  · rw [memory]
    decide +kernel

end Game
end TilePuzzle
