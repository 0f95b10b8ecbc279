import TilePuzzle.Proofs.Findings
import TilePuzzle.Proofs.Layout

/-! Where a level starts and where it ends, and when a review says that this is one tile. A review compares
the places as they are authored, with the default corners for absent ones. A board takes the default
corners also for places outside of it. So the review is right about places on the board, and beyond
them it may warn without need, or fail to warn. -/
namespace TilePuzzle

namespace Blueprint

/-- The place that a blueprint gives for its start, be it on the board or not. -/
def authoredStart (b : Blueprint) : Place := b.start.getD ⟨0, 0⟩

def authoredExit (b : Blueprint) : Place := b.exit.getD ⟨b.size - 1, b.size - 1⟩

end Blueprint

namespace Board

/-- A board starts on the tile on which it ends. -/
def Meets (b : Board) : Prop := ∃ t, b.start? = some t ∧ b.exit? = some t

theorem build_meets_iff (b : Blueprint) : (build b).Meets ↔ startPlace b = exitPlace b := by
  simp only [Meets, build_start, build_exit, Option.some.injEq, exists_eq_left']
  constructor
  · intro same
    simpa using (congrArg Tile.place same).symm
  · intro same
    rw [same]

theorem corner_eq (size : Nat) (authored : Option Place) (default : Place) :
    corner size authored default =
      if (authored.getD default).within size then authored.getD default else default := by
  cases authored <;> simp [corner]

theorem startPlace_eq (b : Blueprint) :
    startPlace b = if b.authoredStart.within b.size then b.authoredStart else ⟨0, 0⟩ :=
  corner_eq _ _ _

theorem exitPlace_eq (b : Blueprint) : exitPlace b =
    if b.authoredExit.within b.size then b.authoredExit else ⟨b.size - 1, b.size - 1⟩ :=
  corner_eq _ _ _

section
variable {s e : Place} {n : Nat}

theorem first_within (positive : 1 ≤ n) : (⟨0, 0⟩ : Place).within n = true := by
  simp only [Place.within_iff]
  omega

theorem last_within (positive : 1 ≤ n) : (⟨n - 1, n - 1⟩ : Place).within n = true := by
  simp only [Place.within_iff]
  omega

/-- The default corners are one place just on the board with one tile. -/
theorem first_eq_last_iff : (⟨0, 0⟩ : Place) = ⟨n - 1, n - 1⟩ ↔ n = 1 := by
  simp only [Place.mk.injEq, and_self]
  omega

theorem eq_first_of_within (inside : s.within 1 = true) : s = ⟨0, 0⟩ := by
  obtain ⟨col, row⟩ := s
  simp only [Place.within_iff, Place.mk.injEq] at inside ⊢
  omega

/-- A place outside of the board is none of its corners. -/
theorem ne_corner_of_outside (positive : 1 ≤ n) (outside : s.within n = false) :
    s ≠ ⟨0, 0⟩ ∧ s ≠ ⟨n - 1, n - 1⟩ := by
  constructor
  · rintro rfl
    simp [first_within positive] at outside
  · rintro rfl
    simp [last_within positive] at outside

/-- Which places are one after those outside of the board are moved to their corners: `s` to the first
tile, `e` to the last. -/
theorem moved_eq_iff (positive : 1 ≤ n) :
    (if s.within n then s else ⟨0, 0⟩) = (if e.within n then e else ⟨n - 1, n - 1⟩) ↔
      n = 1 ∨ (s.within n = true ∧ e.within n = true ∧ s = e) ∨
        (s.within n = false ∧ e = ⟨0, 0⟩) ∨ (e.within n = false ∧ s = ⟨n - 1, n - 1⟩) := by
  by_cases single : n = 1
  · subst single
    have only (p q : Place) (default : q = ⟨0, 0⟩) : (if p.within 1 then p else q) = ⟨0, 0⟩ := by
      split
      next inside => exact eq_first_of_within inside
      next => exact default
    simp [only]
  · have apart : (⟨0, 0⟩ : Place) ≠ ⟨n - 1, n - 1⟩ := mt first_eq_last_iff.mp single
    cases starts : s.within n <;> cases ends : e.within n
    · have outside := (ne_corner_of_outside positive ends).1
      have beyond := (ne_corner_of_outside positive starts).2
      simp [single, outside, beyond, apart]
    · simp [single, eq_comm]
    · simp [single]
    · simp [single]

end

/-- When a built board starts on the tile on which it ends, told by the places as they are authored. -/
theorem build_meets_authored (b : Blueprint) : (build b).Meets ↔ b.size = 1 ∨
    (b.authoredStart.within b.size = true ∧ b.authoredExit.within b.size = true ∧
      b.authoredStart = b.authoredExit) ∨
    (b.authoredStart.within b.size = false ∧ b.authoredExit = ⟨0, 0⟩) ∨
    (b.authoredExit.within b.size = false ∧ b.authoredStart = ⟨b.size - 1, b.size - 1⟩) := by
  rw [build_meets_iff, startPlace_eq, exitPlace_eq]
  exact moved_eq_iff b.size_pos

end Board

namespace Review

def meeting : String := "start and exit are the same cell"

def Silent (r : Review) : Prop := ∀ s ∈ r.warnings, s ≠ meeting

theorem Silent.append {a b : Review} (first : a.Silent) (second : b.Silent) : (a ++ b).Silent :=
  fun s member => (List.mem_append.mp member).elim (first s) (second s)

theorem clean_silent : clean.Silent := nofun

theorem warning_silent {s : String} (differs : s ≠ meeting) : (warning s).Silent := by
  simp [Silent, warning, differs]

theorem when_silent {condition : Bool} {s : String} (differs : s ≠ meeting) :
    (when condition (warning s)).Silent := by
  cases condition with
  | true => exact warning_silent differs
  | false => exact clean_silent

theorem ofCorner_silent (size : Nat) {label : String} (named : label = "start" ∨ label = "exit")
    (authored : Option Place) : (ofCorner size label authored).Silent := by
  cases authored with
  | none => exact clean_silent
  | some p =>
    refine when_silent ?_
    -- After the label comes a bracket, where the other warning goes on with a word.
    simp only [placeText, String.append_assoc]
    rw [← String.append_assoc, ← String.append_assoc]
    rcases named with rfl | rfl <;> exact append_ne (by decide)

theorem ofBorder_silent (border : Option String) : (ofBorder border).Silent := by
  cases border with
  | none => exact clean_silent
  | some s =>
    refine when_silent ?_
    simp only [String.append_assoc]
    exact append_ne (by decide)

theorem ofTiles_silent (size : Nat) (seen : List Key) (tiles : List TileEntry) :
    (ofTiles size seen tiles).Silent := by
  induction tiles generalizing seen with
  | nil => exact clean_silent
  | cons entry rest ih =>
    rw [ofTiles]
    simp only [String.append_assoc]
    split
    · refine ((when_silent ?_).append (when_silent ?_)).append (ih _)
      · exact append_ne (by decide)
      · exact append_ne (by decide)
    · exact (warning_silent (append_ne (by decide))).append (ih _)

theorem sayAll_silent {texts : Rule → List String} {index : Nat} {rules : List Rule} :
    ∀ s ∈ sayAll texts index rules, s ≠ meeting := by
  intro s member
  obtain ⟨numbered, _, said⟩ := List.mem_flatMap.mp member
  obtain ⟨text, _, rfl⟩ := List.mem_map.mp said
  simp only [say, String.append_assoc]
  exact append_ne (by decide)

theorem after_silent (b : Blueprint) : (after b).Silent := by
  refine (Silent.append ?_ ?_).append (when_silent (by decide))
  · refine concat_keeps clean_silent Silent.append (List.forall_mem_map.mpr fun hint _ => when_silent ?_)
    simp only [String.append_assoc]
    exact append_ne (by decide)
  · refine concat_keeps clean_silent Silent.append (List.forall_mem_map.mpr fun cue _ => when_silent ?_)
    simp only [String.append_assoc]
    exact append_ne (by decide)

theorem Silent.count {r : Review} (silent : r.Silent) : r.warnings.count meeting = 0 :=
  List.count_eq_zero.mpr fun member => silent meeting member rfl

/-- A review warns once if start and exit are authored as one place, and never otherwise. -/
theorem before_count (b : Blueprint) :
    (before b).warnings.count meeting = if b.authoredStart = b.authoredExit then 1 else 0 := by
  have start := (ofCorner_silent b.size (.inl rfl) b.start).count
  have exit := (ofCorner_silent b.size (.inr rfl) b.exit).count
  have border := (ofBorder_silent b.border).count
  have tiles := (ofTiles_silent b.size [] b.tiles).count
  have meets : (ofMeeting b).warnings.count meeting =
      if b.authoredStart = b.authoredExit then 1 else 0 := by
    have warned : ofMeeting b = when (b.authoredStart == b.authoredExit) (warning meeting) := rfl
    rw [warned, when_warning]
    by_cases same : b.authoredStart = b.authoredExit <;> simp [same]
  simp only [before, append_eq, List.count_append]
  omega

/-- A whole review warns of it just as its first part does: neither rules nor what comes after them do. -/
theorem ofBlueprint_count (b : Blueprint) (known : List String) {rules : List Rule}
    (read : Rule.ofItems (b.rules.map .obj) = .ok rules) : ∃ review, ofBlueprint b known = .ok review ∧
      review.warnings.count meeting = if b.authoredStart = b.authoredExit then 1 else 0 := by
  refine ⟨_, ofBlueprint_eq b known read, ?_⟩
  have said : (sayAll (Rule.doubts known b.patterns) 0 rules).count meeting = 0 :=
    List.count_eq_zero.mpr fun member => sayAll_silent meeting member rfl
  simp only [List.count_append, before_count, said, (after_silent b).count, Nat.add_zero]

/-- A review of a level whose rules can be read. It warns of start and exit on one tile just if both are
authored as one place, an absent one being its default corner. The board has them on one tile just if the
places are the same once those outside of it are moved to their corners. So both agree on a level whose
places are on the board. A warning without need is one about a place outside of a board with more than one
tile; one that is missing is about different places, of which at least one lies outside and is moved onto
the other, or onto the only tile. -/
theorem ofBlueprint_meeting (b : Blueprint) (known : List String) (rules : List Rule)
    (read : Rule.ofItems (b.rules.map .obj) = .ok rules) :
    ∃ review, ofBlueprint b known = .ok review ∧
      (review.warnings.count meeting = if b.authoredStart = b.authoredExit then 1 else 0) ∧
      ((Board.build b).Meets ↔ Board.startPlace b = Board.exitPlace b) ∧
      (b.authoredStart.within b.size = true → b.authoredExit.within b.size = true →
        (meeting ∈ review.warnings ↔ (Board.build b).Meets)) ∧
      (meeting ∈ review.warnings ∧ ¬(Board.build b).Meets ↔
        b.authoredStart = b.authoredExit ∧ b.authoredStart.within b.size = false ∧ b.size ≠ 1) ∧
      (meeting ∉ review.warnings ∧ (Board.build b).Meets ↔
        b.authoredStart ≠ b.authoredExit ∧ (b.size = 1 ∨
          b.authoredStart.within b.size = false ∧ b.authoredExit = ⟨0, 0⟩ ∨
          b.authoredExit.within b.size = false ∧ b.authoredStart = ⟨b.size - 1, b.size - 1⟩)) := by
  obtain ⟨review, reviewed, count⟩ := ofBlueprint_count b known read
  have member : meeting ∈ review.warnings ↔ b.authoredStart = b.authoredExit := by
    rw [← List.count_pos_iff, count]
    split <;> simp [*]
  refine ⟨review, reviewed, count, Board.build_meets_iff b, fun starts ends => ?_, ?_, ?_⟩
  · rw [member, Board.build_meets_authored]
    have single : b.size = 1 → b.authoredStart = b.authoredExit := by
      intro one
      rw [one] at starts ends
      rw [Board.eq_first_of_within starts, Board.eq_first_of_within ends]
    simpa [starts, ends] using single
  · rw [member, Board.build_meets_authored]
    by_cases same : b.authoredStart = b.authoredExit
    · cases starts : b.authoredStart.within b.size with
      | true => simp [← same, starts]
      | false => simp [← same, starts, Board.ne_corner_of_outside b.size_pos starts]
    · simp [same]
  · rw [member, Board.build_meets_authored]
    by_cases same : b.authoredStart = b.authoredExit <;> simp [same]

/-- Both ways to be wrong: a start off the board that is moved onto the exit, without a warning, and one
place off the board for both, with a warning though they are moved apart. -/
theorem ofBlueprint_meeting_outside :
    let authored (exit : Place) : Blueprint :=
      .build none "" .default (some ⟨9, 9⟩) (some exit) [] [] [] none [] [] none "" "" []
    (∃ review, ofBlueprint (authored ⟨0, 0⟩) [] = .ok review ∧
      meeting ∉ review.warnings ∧ (Board.build (authored ⟨0, 0⟩)).Meets) ∧
    ∃ review, ofBlueprint (authored ⟨9, 9⟩) [] = .ok review ∧
      meeting ∈ review.warnings ∧ ¬(Board.build (authored ⟨9, 9⟩)).Meets := by
  intro authored
  constructor
  · obtain ⟨review, reviewed, _, _, _, _, missed⟩ := ofBlueprint_meeting (authored ⟨0, 0⟩) [] [] rfl
    exact ⟨review, reviewed, missed.mpr ⟨by decide, .inr (.inl ⟨by decide, rfl⟩)⟩⟩
  · obtain ⟨review, reviewed, _, _, _, needless, _⟩ := ofBlueprint_meeting (authored ⟨9, 9⟩) [] [] rfl
    exact ⟨review, reviewed, needless.mpr ⟨rfl, by decide, by decide⟩⟩

end Review
end TilePuzzle
