import Mathlib.Data.List.DropRight
import TilePuzzle.Proofs.Ending

/-! What a referee remembers, as a function of all that it was asked since it took on its level. Its two
sequences keep only so many colours, but the rules about the last two of them cannot tell: they are
judged as over the whole record. -/
namespace TilePuzzle

namespace Tile

/-- Whether a landing on the tile is remembered; jokers and tiles without a colour leave no trace. -/
def counts (t : Tile) : Bool := !t.isJoker && t.look.color.getD "" != ""

def traces (tiles : List Tile) : List String :=
  (tiles.filter counts).map fun t => Color.key (t.look.color.getD "")

def solidTraces (tiles : List Tile) : List String := traces (tiles.filter fun t => !t.isBlinking)

theorem traces_append (first second : List Tile) :
    traces (first ++ second) = traces first ++ traces second := by
  simp only [traces, List.filter_append, List.map_append]

theorem solidTraces_append (first second : List Tile) :
    solidTraces (first ++ second) = solidTraces first ++ solidTraces second := by
  simp only [solidTraces, List.filter_append, traces_append]

theorem traces_quiet {tiles : List Tile} (quiet : ∀ t ∈ tiles, t.counts = false) :
    traces tiles = [] ∧ solidTraces tiles = [] := by
  have none {some : List Tile} (quiet : ∀ t ∈ some, t.counts = false) : traces some = [] := by
    rw [traces, List.filter_eq_nil_iff.mpr fun t member => Bool.eq_false_iff.mp (quiet t member)]
    rfl
  exact ⟨none quiet, none fun t member => quiet t (List.mem_of_mem_filter member)⟩

end Tile

/-- Adding to the last few of a list and keeping the last few is keeping the last few of all. -/
theorem rtake_append_rtake {α : Type} (few : Nat) (first second : List α) :
    (first.rtake few ++ second).rtake few = (first ++ second).rtake few := by
  simp only [List.rtake_eq_reverse_take_reverse, List.reverse_append, List.reverse_reverse,
    List.take_append, List.take_take]
  congr 3
  omega

theorem suffix_rtake_iff {α : Type} {few : Nat} {last all : List α} (short : last.length ≤ few) :
    last <:+ all.rtake few ↔ last <:+ all := by
  rw [List.rtake_eq_reverse_take_reverse, ← List.reverse_prefix, List.reverse_reverse,
    List.prefix_take_iff, List.reverse_prefix, List.length_reverse]
  exact and_iff_left short

theorem Condition.lastTwoAre_iff {sequence : List String} {color : String} :
    lastTwoAre sequence color = true ↔ [Color.key color, Color.key color] <:+ sequence := by
  rw [← List.reverse_prefix]
  unfold lastTwoAre
  split
  next last before rest reversed =>
    rw [reversed, Bool.and_eq_true, beq_iff_eq, beq_iff_eq]
    constructor
    · rintro ⟨rfl, rfl⟩
      exact ⟨rest, rfl⟩
    · rintro ⟨others, same⟩
      injection same with first same
      injection same with second same
      exact ⟨second.symm, first.symm⟩
  next few =>
    refine iff_of_false Bool.false_ne_true fun pair => ?_
    obtain ⟨rest, same⟩ := pair
    exact few _ _ rest same.symm

namespace Referee

/-- What is asked of a referee, and the board whose looks have changed in between. -/
inductive Call
  | land (place : Place)
  | tick (moving : Bool)
  | borderHit (border : Border)
  | hints (hints : List Hint)
  | repaint (board : Board)

def attend (r : Referee) : Call → Except Fault (List Event) × Referee
  | .land place => r.land place
  | .tick moving => r.tick moving
  | .borderHit border => (.ok (r.borderHit border).1, (r.borderHit border).2)
  | .hints hints => (.ok (r.hints hints), r)
  | .repaint board => (.ok [], r.withBoard board)

def attendAll (r : Referee) (calls : List Call) : Referee :=
  calls.foldl (fun r call => (r.attend call).2) r

def landing (r : Referee) (place : Place) : Context where
  memory := record r.memory r.config.capacity.toNat (r.tileAt place)
  tile := r.tileAt place
  col := some place.col
  row := some place.row
  tickRate := r.config.tickRate

def passing (r : Referee) (moving : Bool) : Context where
  memory := { r.memory with idle := if moving then 0 else r.memory.idle + 1 }
  onTick := true
  tickRate := r.config.tickRate

namespace Call

def isLand : Call → Bool
  | land _ => true
  | tick _ | borderHit _ | hints _ | repaint _ => false

def tile (r : Referee) : Call → List Tile
  | land place => (r.tileAt place).toList
  | tick _ | borderHit _ | hints _ | repaint _ => []

/-- What is remembered when the rules are judged, but for the idle time. -/
def recorded (r : Referee) : Call → Memory
  | land place => (r.landing place).memory
  | tick _ | borderHit _ | hints _ | repaint _ => r.memory

def effect (r : Referee) : Call → List Effect
  | land place => match (firstMatch r.predicates (r.landing place) r.rules).2 with
    | .ok effect => effect.toList
    | .error _ => []
  | tick moving => match firstDue (r.passing moving) (idleRules r.rules) with
    | .ok effect => effect.toList
    | .error _ => []
  | borderHit .kill => [.kill]
  | borderHit .exit => [.win]
  | borderHit .block | borderHit .wrap | hints _ | repaint _ => []

def events (r : Referee) (call : Call) : List Event :=
  match (r.attend call).1 with
  | .ok events => events
  | .error _ => []

end Call

def gather {α : Type} (part : Referee → Call → List α) (r : Referee) : List Call → List α
  | [] => []
  | call :: rest => part r call ++ gather part (r.attend call).2 rest

end Referee

def Effect.isSound : Effect → Bool
  | playSound _ | stopSound => true
  | kill | win | teleport .. | showHint .. | unsupported _ => false

namespace Referee

/-- What a referee remembers after landings on tiles, with the effects that were executed and the events
that were returned since it took on its level, with so many deaths before. -/
structure Recalls (r : Referee) (capacity : Nat) (deaths : Int) (calls : List Call)
    (tiles : List Tile) (effects : List Effect) (events : List Event) : Prop where
  bounded : r.config.capacity = capacity
  steps : r.memory.steps = (calls.countP Call.isLand : Nat)
  colors : r.memory.colors = (Tile.traces tiles).rtake capacity
  solidColors : r.memory.solidColors = (Tile.solidTraces tiles).rtake capacity
  deaths : r.memory.deaths = deaths + (events.countP Event.isKilled : Nat)
  music : r.memory.music = true ↔
    ∃ sound, (effects.filter Effect.isSound).getLast? = some (.playSound sound)

section
variable {capacity : Nat} {tiles : List Tile}

theorem trace?_some (t : Tile) :
    trace? (some t) = if t.counts then some (Color.key (t.look.color.getD "")) else none := by
  cases joker : t.isJoker with
  | true => simp [trace?, Tile.counts, joker]
  | false =>
    cases shown : t.look.color with
    | none => simp [trace?, Tile.counts, joker, shown]
    | some color => by_cases empty : color = "" <;> simp [trace?, Tile.counts, joker, shown, empty]

/-- A landing leaves the trace of its tile in the sequences. -/
theorem record_sequences {m : Memory} (colors : m.colors = (Tile.traces tiles).rtake capacity)
    (solid : m.solidColors = (Tile.solidTraces tiles).rtake capacity) (tile : Option Tile) :
    (record m capacity tile).colors = (Tile.traces (tiles ++ tile.toList)).rtake capacity ∧
    (record m capacity tile).solidColors =
      (Tile.solidTraces (tiles ++ tile.toList)).rtake capacity := by
  have remembers (all : List String) (entry : String) :
      remember capacity (all.rtake capacity) entry = (all ++ [entry]).rtake capacity :=
    rtake_append_rtake capacity all [entry]
  cases tile with
  | none => simpa [record, trace?] using ⟨colors, solid⟩
  | some t =>
    simp only [record, trace?_some, Option.toList_some, Tile.traces_append, Tile.solidTraces_append]
    by_cases counts : t.counts = true
    · cases blinks : t.isBlinking <;>
        simp [Tile.traces, Tile.solidTraces, counts, blinks, colors, solid, remembers]
    · simp [Tile.traces, Tile.solidTraces, counts, colors, solid]

end

/-- The last sound of some effects, if one more follows them. -/
theorem lastSound_append (effects : List Effect) (effect : Effect) :
    ((effects ++ [effect]).filter Effect.isSound).getLast? =
      if effect.isSound then some effect else (effects.filter Effect.isSound).getLast? := by
  by_cases sound : effect.isSound = true <;> simp [List.filter_append, sound]

/-- What executing an effect, if there is one, does to what is remembered. -/
theorem executeIfAny_memory (r : Referee) (effect : Option Effect) :
    ∃ music, (r.executeIfAny effect).2.memory = { r.memory with
        deaths := r.memory.deaths + ((r.executeIfAny effect).1.countP Event.isKilled : Nat), music } ∧
      ∀ effects : List Effect,
        (r.memory.music = true ↔
          ∃ sound, (effects.filter Effect.isSound).getLast? = some (.playSound sound)) →
        (music = true ↔ ∃ sound,
          ((effects ++ effect.toList).filter Effect.isSound).getLast? = some (.playSound sound)) := by
  cases effect with
  | none => exact ⟨r.memory.music, by simp [executeIfAny], fun effects same => by simpa using same⟩
  | some effect =>
    simp only [Option.toList_some, lastSound_append]
    cases effect with
    | kill | win | showHint | unsupported =>
      exact ⟨r.memory.music, by simp [executeIfAny, execute, Event.isKilled], fun _ same => same⟩
    | teleport col row =>
      refine ⟨r.memory.music, ?_, fun _ same => same⟩
      simp only [executeIfAny, execute]
      split
      · split <;> simp [Event.isKilled]
      · simp [Event.isKilled]
    | playSound sound =>
      refine ⟨true, ?_, fun _ _ => by simp [Effect.isSound]⟩
      cases sound <;> simp [executeIfAny, execute, soundEvent, Event.isKilled]
    | stopSound =>
      exact ⟨false, by simp [executeIfAny, execute, Event.isKilled], fun _ _ => by simp [Effect.isSound]⟩

/-- A call remembers what it lands on, executes its effect and returns what comes of it; only the hints
come of no effect, and they tell of no death. -/
theorem attend_executes (r : Referee) (call : Call) :
    ∃ (effect : Option Effect) (idle : Int) (asked : List String) (board : Option Board),
      let judged := { r with memory := { call.recorded r with idle }, asked, board }
      call.effect r = effect.toList ∧ (r.attend call).2 = (judged.executeIfAny effect).2 ∧
      (call.events r).countP Event.isKilled =
        ((judged.executeIfAny effect).1).countP Event.isKilled := by
  cases call with
  | land place =>
    simp only [Call.events, Call.effect, attend, land, landing]
    generalize firstMatch _ _ _ = found
    obtain ⟨asked, effect⟩ := found
    cases effect with
    | error f => exact ⟨none, _, r.asked ++ asked, r.board, rfl, rfl, rfl⟩
    | ok effect => exact ⟨effect, _, r.asked ++ asked, r.board, rfl, rfl, rfl⟩
  | tick moving =>
    simp only [Call.events, Call.effect, attend, tick, passing]
    generalize firstDue _ _ = due
    cases due with
    | error f => exact ⟨none, _, r.asked, r.board, rfl, rfl, rfl⟩
    | ok effect =>
      cases effect with
      | none => exact ⟨none, _, r.asked, r.board, rfl, rfl, rfl⟩
      | some effect => exact ⟨some effect, 0, r.asked, r.board, rfl, rfl, rfl⟩
  | borderHit border =>
    cases border with
    | kill => exact ⟨some .kill, r.memory.idle, r.asked, r.board, rfl, rfl, rfl⟩
    | exit => exact ⟨some .win, r.memory.idle, r.asked, r.board, rfl, rfl, rfl⟩
    | block | wrap => exact ⟨none, r.memory.idle, r.asked, r.board, rfl, rfl, rfl⟩
  | hints hints =>
    refine ⟨none, r.memory.idle, r.asked, r.board, rfl, rfl, ?_⟩
    exact (Event.countP_plain (Turn.hints_plain r hints)).2
  | repaint board => exact ⟨none, r.memory.idle, r.asked, some board, rfl, rfl, rfl⟩

theorem record_others (m : Memory) (capacity : Nat) (tile : Option Tile) :
    (record m capacity tile).steps = m.steps + 1 ∧ (record m capacity tile).deaths = m.deaths ∧
    (record m capacity tile).music = m.music := by
  simp only [record]
  split
  · exact ⟨rfl, rfl, rfl⟩
  · split <;> exact ⟨rfl, rfl, rfl⟩

section
variable {r : Referee} {capacity : Nat} {deaths : Int} {calls : List Call} {tiles : List Tile}
  {effects : List Effect} {events : List Event}

/-- What a call lands on is remembered before its effect is executed. -/
theorem Recalls.recorded (recalls : r.Recalls capacity deaths calls tiles effects events)
    (call : Call) :
    let m := call.recorded r
    m.steps = ((calls ++ [call]).countP Call.isLand : Nat) ∧
    m.colors = (Tile.traces (tiles ++ call.tile r)).rtake capacity ∧
    m.solidColors = (Tile.solidTraces (tiles ++ call.tile r)).rtake capacity ∧
    m.deaths = r.memory.deaths ∧ m.music = r.memory.music := by
  rw [List.countP_append]
  cases call with
  | land place =>
    obtain ⟨colors, solid⟩ := record_sequences recalls.colors recalls.solidColors (r.tileAt place)
    obtain ⟨steps, deaths, music⟩ := record_others r.memory capacity (r.tileAt place)
    have bound : r.config.capacity.toNat = capacity := by rw [recalls.bounded, Int.toNat_natCast]
    simp only [Call.recorded, landing, bound]
    exact ⟨by rw [steps, recalls.steps]; rfl, colors, solid, deaths, music⟩
  | tick | borderHit | hints | repaint =>
    simp only [Call.recorded, Call.tile, List.append_nil]
    exact ⟨recalls.steps, recalls.colors, recalls.solidColors, trivial, trivial⟩

/-- One more call. -/
theorem Recalls.attend (recalls : r.Recalls capacity deaths calls tiles effects events) (call : Call) :
    (r.attend call).2.Recalls capacity deaths (calls ++ [call]) (tiles ++ call.tile r)
      (effects ++ call.effect r) (events ++ call.events r) := by
  obtain ⟨effect, idle, asked, board, ran, after, told⟩ := r.attend_executes call
  obtain ⟨steps, colors, solid, died, played⟩ := recalls.recorded call
  obtain ⟨music, memory, sounds⟩ := executeIfAny_memory
    { r with memory := { call.recorded r with idle }, asked, board } effect
  have config := (executeIfAny_keeps
    { r with memory := { call.recorded r with idle }, asked, board } effect).config
  rw [after, ran]
  constructor
  · rw [config]; exact recalls.bounded
  · rw [memory]; exact steps
  · rw [memory]; exact colors
  · rw [memory]; exact solid
  · rw [memory, List.countP_append, told]
    simp only [died, recalls.deaths]
    omega
  · rw [memory]
    exact sounds effects (by rw [← recalls.music, ← played])

theorem Recalls.attendAll (recalls : r.Recalls capacity deaths calls tiles effects events)
    (more : List Call) :
    (r.attendAll more).Recalls capacity deaths (calls ++ more) (tiles ++ gather Call.tile r more)
      (effects ++ gather Call.effect r more) (events ++ gather Call.events r more) := by
  induction more generalizing r calls tiles effects events with
  | nil => simpa [gather, Referee.attendAll] using recalls
  | cons call rest ih =>
    have later := ih (recalls.attend call)
    simpa [gather, Referee.attendAll] using later

end

/-- A referee that has taken on a level remembers what it was asked since, and nothing else. The rules
about the last two colours are judged at a landing as over the whole record, this landing included, and
landings that leave no trace change nothing of it. -/
theorem load_recalls {r : Referee} {capacity : Nat} (bounded : r.config.capacity = capacity)
    (rules : List Rule) (board : Board) (patterns : Fields) (calls : List Call) {s : Referee}
    (here : s = (r.load rules board patterns).attendAll calls) :
    let loaded := r.load rules board patterns
    let tiles := gather Call.tile loaded calls
    s.Recalls capacity r.memory.deaths calls tiles (gather Call.effect loaded calls)
      (gather Call.events loaded calls) ∧
    (2 ≤ capacity → ∀ place color,
      (((Condition.repeated color).judge s.predicates (s.landing place)).value = .ok true ↔
        [Color.key color, Color.key color] <:+ Tile.traces (tiles ++ (s.tileAt place).toList)) ∧
      (((Condition.repeatedSolid color).judge s.predicates (s.landing place)).value = .ok true ↔
        [Color.key color, Color.key color] <:+
          Tile.solidTraces (tiles ++ (s.tileAt place).toList))) ∧
    ∀ more, (∀ tile ∈ gather Call.tile s more, tile.counts = false) →
      (s.attendAll more).memory.colors = s.memory.colors ∧
      (s.attendAll more).memory.solidColors = s.memory.solidColors := by
  intro loaded tiles
  have fresh : loaded.Recalls capacity r.memory.deaths [] [] [] [] :=
    ⟨bounded, rfl, by simp [loaded, load, Tile.traces, List.rtake],
      by simp [loaded, load, Tile.traces, Tile.solidTraces, List.rtake], (Int.add_zero _).symm,
      by simp [loaded, load]⟩
  have recalls : s.Recalls capacity r.memory.deaths calls tiles (gather Call.effect loaded calls)
      (gather Call.events loaded calls) := by
    rw [here]
    exact fresh.attendAll calls
  refine ⟨recalls, fun enough place color => ?_, fun more quiet => ?_⟩
  · obtain ⟨_, colors, solid, _, _⟩ := recalls.recorded (.land place)
    have judged (m : List String) :
        (Verdict.plain (Condition.lastTwoAre m color)).value = .ok true ↔
          [Color.key color, Color.key color] <:+ m := by
      rw [← Condition.lastTwoAre_iff, Verdict.plain, Except.ok.injEq]
    have pair : [Color.key color, Color.key color].length ≤ capacity := enough
    constructor
    · rw [Condition.judge, judged]
      exact (congrArg _ colors).to_iff.trans (suffix_rtake_iff pair)
    · rw [Condition.judge, judged]
      exact (congrArg _ solid).to_iff.trans (suffix_rtake_iff pair)
  · have later := recalls.attendAll more
    obtain ⟨none, solid⟩ := Tile.traces_quiet quiet
    constructor
    · rw [later.colors, recalls.colors, Tile.traces_append, none, List.append_nil]
    · rw [later.solidColors, recalls.solidColors, Tile.solidTraces_append, solid, List.append_nil]

/-- Two landings on a tile that blinks have pushed the first colour out of a short record. -/
theorem load_recalls_evicted :
    let blue : Tile := { place := ⟨0, 0⟩, look := { color := some "Blue" } }
    let red : Tile := { place := ⟨1, 0⟩, mechanic := some .blinking, look := { color := some "red" } }
    let board : Board := ⟨2, [[blue, red]]⟩
    let rules : List Rule := [⟨.touchColor "red", .playSound none⟩]
    let calls : List Call := [.land ⟨0, 0⟩, .land ⟨1, 0⟩, .tick true, .land ⟨1, 0⟩, .borderHit .kill,
      .land ⟨7, 7⟩]
    let r : Referee := { config := { capacity := 2 }, memory := { deaths := 3 } }
    let s := (r.load rules board []).attendAll calls
    s.memory.steps = 4 ∧ s.memory.colors = ["red", "red"] ∧ s.memory.solidColors = ["blue"] ∧
    s.memory.deaths = 4 ∧ s.memory.music = true ∧
    ((Condition.repeatedSolid "blue").judge s.predicates (s.landing ⟨0, 0⟩)).value = .ok true := by
  intro blue red board rules calls r s
  obtain ⟨recalls, judged, _⟩ := @load_recalls r 2 rfl rules board [] calls s rfl
  refine ⟨recalls.steps.trans ?_, recalls.colors.trans ?_, recalls.solidColors.trans ?_,
    recalls.deaths.trans ?_, recalls.music.mpr ⟨none, ?_⟩, (judged (Nat.le_refl 2) _ _).2.mpr ?_⟩
  all_goals decide +kernel

end Referee
end TilePuzzle
