import TilePuzzle.Proofs.Recollection

/-! Rules about the order of colours. The place of a colour in its pattern is counted in what is still
remembered, so it is that of the landing until the record is full and stays where it is from then on.
The same goes for the place in a reference, so one that is as long as the record never ends. -/
namespace TilePuzzle

theorem length_rtake {α : Type} (few : Nat) (all : List α) :
    (all.rtake few).length = min all.length few := by
  simp only [List.rtake, List.length_drop]
  omega

theorem getLast?_rtake {α : Type} {few : Nat} (room : 0 < few) (all : List α) :
    (all.rtake few).getLast? = all.getLast? := by
  cases all using List.reverseRecOn with
  | nil => simp [List.rtake]
  | append_singleton before last =>
    obtain ⟨more, rfl⟩ := Nat.exists_eq_add_of_lt room
    rw [Nat.zero_add, List.rtake_concat_succ, List.getLast?_concat, List.getLast?_concat]

theorem Tile.traces_singleton {tile : Tile} (counts : tile.counts = true) :
    traces [tile] = [Color.key (tile.look.color.getD "")] := by
  simp [traces, counts]

theorem Condition.breaksPattern_eq {sequence pattern : List String} {last expected : String}
    (ends : sequence.getLast? = some last)
    (due : pattern[(sequence.length - 1) % pattern.length]? = some expected) :
    breaksPattern sequence pattern = (last != Color.key expected) := by
  simp only [breaksPattern, ends, due]

theorem Condition.leavesSequence_iff {sequence reference : List String} :
    leavesSequence sequence reference = true ↔ ∃ last expected, sequence.getLast? = some last ∧
      reference[sequence.length - 1]? = some expected ∧ last ≠ Color.key expected := by
  unfold leavesSequence
  cases sequence.getLast? with
  | none => simp
  | some last => cases reference[sequence.length - 1]? <;> simp

namespace Referee

/-- What is remembered of a landing that leaves a trace: its key is the last one, and there are as many
as there were such landings, up to the capacity. -/
theorem Recalls.landed {r : Referee} {capacity : Nat} {deaths : Int} {calls : List Call}
    {tiles : List Tile} {effects : List Effect} {events : List Event}
    (recalls : r.Recalls capacity deaths calls tiles effects events) (room : 0 < capacity)
    {place : Place} {tile : Tile} (here : r.tileAt place = some tile) (counts : tile.counts = true) :
    (r.landing place).memory.colors.getLast? = some (Color.key (tile.look.color.getD "")) ∧
    (r.landing place).memory.colors.length = min (Tile.traces (tiles ++ [tile])).length capacity := by
  have colors : (r.landing place).memory.colors =
      (Tile.traces (tiles ++ (r.tileAt place).toList)).rtake capacity :=
    (recalls.recorded (.land place)).2.1
  rw [here, Option.toList_some] at colors
  rw [colors, length_rtake, getLast?_rtake room, Tile.traces_append, Tile.traces_singleton counts]
  exact ⟨List.getLast?_concat, rfl⟩

/-- At a landing that leaves a trace, a pattern is broken just when the trace is not the colour that the
pattern has at this place: the place of the landing among those that left a trace since the level was
taken on, but no place past the capacity. -/
theorem load_breaksPattern {r : Referee} {capacity : Nat} (bounded : r.config.capacity = capacity)
    (room : 0 < capacity) (rules : List Rule) (board : Board) (patterns : Fields) (calls : List Call)
    {s : Referee} (loaded : s = (r.load rules board patterns).attendAll calls) {place : Place}
    {tile : Tile} (here : s.tileAt place = some tile) (counts : tile.counts = true)
    {pattern : List String} (nonempty : pattern ≠ []) :
    let landings := gather Call.tile (r.load rules board patterns) calls ++ [tile]
    let position := min (Tile.traces landings).length capacity - 1
    ∃ expected, pattern[position % pattern.length]? = some expected ∧
      ((Condition.patternBreak pattern).judge s.predicates (s.landing place)).value =
        .ok (Color.key (tile.look.color.getD "") != Color.key expected) := by
  intro landings position
  obtain ⟨recalls, _⟩ := load_recalls bounded rules board patterns calls loaded
  obtain ⟨ends, length⟩ := recalls.landed room here counts
  have inside : position % pattern.length < pattern.length :=
    Nat.mod_lt _ (List.length_pos_iff.mpr nonempty)
  refine ⟨_, List.getElem?_eq_getElem inside, ?_⟩
  simp only [Condition.judge, Verdict.plain]
  rw [Condition.breaksPattern_eq ends]
  rw [length]
  exact List.getElem?_eq_getElem inside

/-- Three landings since the level was taken on, the last one on a wrong colour. -/
theorem load_breaksPattern_third :
    let red : Tile := { place := ⟨0, 0⟩, look := { color := some "Red" } }
    let blue : Tile := { place := ⟨1, 0⟩, look := { color := some "blue" } }
    let board : Board := ⟨2, [[red, blue]]⟩
    let calls : List Call := [.land ⟨0, 0⟩, .tick true, .land ⟨1, 0⟩]
    let s := (({} : Referee).load [] board []).attendAll calls
    s.tileAt ⟨0, 0⟩ = some red ∧ red.counts = true ∧
    ((Condition.patternBreak ["red", "blue"]).judge s.predicates (s.landing ⟨0, 0⟩)).value =
      .ok false ∧
    ((Condition.patternBreak ["red", "blue", "green"]).judge s.predicates
      (s.landing ⟨0, 0⟩)).value = .ok true := by
  intro red blue board calls s
  have judged := @load_breaksPattern {} 64 rfl (by decide) [] board [] calls s rfl ⟨0, 0⟩ red rfl rfl
  refine ⟨rfl, rfl, ?_, ?_⟩
  · obtain ⟨expected, due, value⟩ := @judged ["red", "blue"] (by decide)
    have third : expected = "red" := Option.some.inj (due.symm.trans (by decide +kernel))
    rw [value, third]
    exact congrArg Except.ok (by decide +kernel)
  · obtain ⟨expected, due, value⟩ := @judged ["red", "blue", "green"] (by decide)
    have third : expected = "green" := Option.some.inj (due.symm.trans (by decide +kernel))
    rw [value, third]
    exact congrArg Except.ok (by decide +kernel)

/-- The sixty-fifth landing of a run that follows its pattern: by its number it is due a red tile and it
is one, but the pattern counts as broken. -/
theorem breaksPattern_full :
    let red : Tile := { place := ⟨0, 0⟩, look := { color := some "red" } }
    let blue : Tile := { place := ⟨1, 0⟩, look := { color := some "blue" } }
    let loaded := ({} : Referee).load [] ⟨2, [[red, blue]]⟩ []
    let calls := (List.replicate 32 [Call.land ⟨0, 0⟩, .land ⟨1, 0⟩]).flatten
    let s := loaded.attendAll calls
    let traces := Tile.traces (gather Call.tile loaded calls ++ (s.tileAt ⟨0, 0⟩).toList)
    traces.length = 65 ∧ traces.getLast? = some (Color.key "red") ∧
    ["red", "blue"][(65 - 1) % 2]? = some "red" ∧
    ((Condition.patternBreak ["red", "blue"]).judge s.predicates (s.landing ⟨0, 0⟩)).value =
      .ok true := by
  intro red blue loaded calls s traces
  have broken : Condition.breaksPattern (s.landing ⟨0, 0⟩).memory.colors ["red", "blue"] = true := by
    decide +kernel
  exact ⟨by decide +kernel, by decide +kernel, rfl, congrArg Except.ok broken⟩

/-- At any landing, with a trace or without one, a sequence is left just when the last trace is not the
colour that the sequence has at its place. The place stops at the capacity: only a reference that is
shorter than the capacity binds its own length of traces and nothing after them, a longer one goes on to
bind every trace to the colour that it has there. -/
theorem load_leavesSequence {r : Referee} {capacity : Nat} (bounded : r.config.capacity = capacity)
    (room : 0 < capacity) (rules : List Rule) (board : Board) (patterns : Fields) (calls : List Call)
    {s : Referee} (loaded : s = (r.load rules board patterns).attendAll calls) (place : Place)
    (reference : List String) :
    let traces :=
      Tile.traces (gather Call.tile (r.load rules board patterns) calls ++ (s.tileAt place).toList)
    let differsAt (position : Nat) := ∃ last expected, traces.getLast? = some last ∧
      reference[position]? = some expected ∧ last ≠ Color.key expected
    let left := (Condition.sequenceViolates reference).judge s.predicates (s.landing place)
    (∃ b, left.value = .ok b) ∧
    (∀ tile, s.tileAt place = some tile → tile.counts = true →
      traces.getLast? = some (Color.key (tile.look.color.getD ""))) ∧
    (left.value = .ok true ↔ differsAt (min traces.length capacity - 1)) ∧
    (reference.length < capacity →
      (left.value = .ok true ↔ traces.length ≤ reference.length ∧ differsAt (traces.length - 1))) := by
  intro traces differsAt left
  obtain ⟨recalls, _⟩ := load_recalls bounded rules board patterns calls loaded
  have colors : (s.landing place).memory.colors = traces.rtake capacity :=
    (recalls.recorded (.land place)).2.1
  have exactly : left.value = .ok true ↔ differsAt (min traces.length capacity - 1) := by
    simp only [left, Condition.judge, Verdict.plain, Except.ok.injEq]
    rw [Condition.leavesSequence_iff, colors, getLast?_rtake room, length_rtake]
  refine ⟨⟨_, rfl⟩, fun tile here counts => ?_, exactly, fun short => exactly.trans ?_⟩
  · simp only [traces, here, Option.toList_some, Tile.traces_append, Tile.traces_singleton counts]
    exact List.getLast?_concat
  · -- A place past the capacity is past the reference, as the place of the landing itself then is.
    constructor
    · rintro ⟨last, expected, ends, due, differs⟩
      have inside := (List.getElem?_eq_some_iff.mp due).1
      have uncapped : min traces.length capacity = traces.length := by omega
      rw [uncapped] at due inside
      exact ⟨by omega, last, expected, ends, due, differs⟩
    · rintro ⟨within, differs⟩
      rw [Nat.min_eq_left (by omega)]
      exact differs

/-- The sixty-fifth landing, after sixty-four that followed a reference of sixty-four colours to its end:
the sequence counts as left. -/
theorem load_leavesSequence_full :
    let red : Tile := { place := ⟨0, 0⟩, look := { color := some "red" } }
    let blue : Tile := { place := ⟨1, 0⟩, look := { color := some "blue" } }
    let board : Board := ⟨2, [[red, blue]]⟩
    let reference := List.replicate 64 "red"
    let loaded := ({} : Referee).load [] board []
    let calls := List.replicate 64 (Call.land ⟨0, 0⟩)
    let s := loaded.attendAll calls
    let traces := Tile.traces (gather Call.tile loaded calls ++ (s.tileAt ⟨1, 0⟩).toList)
    traces = (reference ++ ["blue"]).map Color.key ∧ reference.length < traces.length ∧
    ((Condition.sequenceViolates reference).judge s.predicates (s.landing ⟨1, 0⟩)).value =
      .ok true := by
  intro red blue board reference loaded calls s traces
  obtain ⟨_, _, exactly, _⟩ :=
    @load_leavesSequence {} 64 rfl (by decide) [] board [] calls s rfl ⟨1, 0⟩ reference
  have past : traces = (reference ++ ["blue"]).map Color.key := by decide +kernel
  refine ⟨past, ?_, exactly.mpr ⟨Color.key "blue", "red", ?_, ?_, by decide +kernel⟩⟩
  all_goals decide +kernel

end Referee
end TilePuzzle
