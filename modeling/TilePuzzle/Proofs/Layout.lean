import TilePuzzle.Proofs.Board

/-! What a built board has at each place. A board is a table with a tile for each place. Building it from
a blueprint overwrites tiles one after the other, but comes to asking the blueprint for each place by
itself: which marks it has, and what the entries for it say. So start and exit are where the blueprint
puts them, whatever its entries are. -/
namespace TilePuzzle

section
variable {α : Type}

theorem modify_map_range (n k : Nat) (f : Nat → α) (g : α → α) :
    ((List.range n).map f).modify k g = (List.range n).map fun i => if i = k then g (f i) else f i := by
  apply List.ext_getElem
  · simp
  · intro i _ _
    simp [List.getElem_modify, eq_comm]

theorem find?_only {l : List α} {p : α → Bool} {a : α} (listed : a ∈ l) (holds : p a = true)
    (only : ∀ x ∈ l, p x = true → x = a) : l.find? p = some a := by
  obtain ⟨x, found⟩ := Option.isSome_iff_exists.mp (List.find?_isSome.mpr ⟨a, listed, holds⟩)
  rw [found, only x (List.mem_of_find?_eq_some found) (List.find?_some found)]

end

/-- The place in a column and a row that are counted from zero. -/
theorem Place.exists_of_within {p : Place} {size : Nat} (inside : p.within size = true) :
    ∃ c < size, ∃ r < size, p = ⟨(c : Nat), (r : Nat)⟩ := by
  obtain ⟨left, right, top, bottom⟩ := (Place.within_iff p size).mp inside
  refine ⟨p.col.toNat, by omega, p.row.toNat, by omega, ?_⟩
  rw [Int.toNat_of_nonneg left, Int.toNat_of_nonneg top]

theorem Place.within_of_lt {size c r : Nat} (beside : c < size) (below : r < size) :
    (Place.mk c r).within size = true := by
  simp [Place.within_iff, beside, below]

namespace Board

def tabulate (size : Nat) (f : Place → Tile) : Board :=
  ⟨size, (List.range size).map fun (r : Nat) => (List.range size).map fun (c : Nat) => f ⟨c, r⟩⟩

theorem mem_tabulate {size : Nat} {f : Place → Tile} {t : Tile} :
    t ∈ (tabulate size f).tiles ↔ ∃ p : Place, p.within size = true ∧ f p = t := by
  simp only [tabulate, tiles, List.mem_flatten, List.mem_map, List.mem_range]
  constructor
  · rintro ⟨_, ⟨r, below, rfl⟩, member⟩
    obtain ⟨c, beside, rfl⟩ := List.mem_map.mp member
    exact ⟨⟨c, r⟩, Place.within_of_lt (List.mem_range.mp beside) below, rfl⟩
  · rintro ⟨p, inside, rfl⟩
    obtain ⟨c, beside, r, below, rfl⟩ := Place.exists_of_within inside
    exact ⟨_, ⟨r, below, rfl⟩, List.mem_map.mpr ⟨c, List.mem_range.mpr beside, rfl⟩⟩

/-- What only the tile at one place has is found there. -/
theorem find?_tabulate {size : Nat} {f : Place → Tile} {p : Place} {mark : Tile → Bool}
    (inside : p.within size = true) (only : ∀ q, mark (f q) = true ↔ q = p) :
    (tabulate size f).tiles.find? mark = some (f p) := by
  refine find?_only (mem_tabulate.mpr ⟨p, inside, rfl⟩) ((only p).mpr rfl) ?_
  intro t listed marked
  obtain ⟨q, _, rfl⟩ := mem_tabulate.mp listed
  rw [(only q).mp marked]

theorem tabulate_congr {size : Nat} {f g : Place → Tile} (same : ∀ p, p.within size = true → f p = g p) :
    tabulate size f = tabulate size g := by
  simp only [tabulate, mk.injEq, true_and]
  refine List.map_congr_left fun r below => List.map_congr_left fun c beside => same _ ?_
  exact Place.within_of_lt (List.mem_range.mp beside) (List.mem_range.mp below)

/-- Changing the tile at a place changes what the table has there. -/
theorem modifyAt_tabulate (size : Nat) (f : Place → Tile) (p : Place) (g : Tile → Tile) :
    (tabulate size f).modifyAt p g = tabulate size fun q => if q = p then g (f q) else f q := by
  by_cases inside : p.within size = true
  · obtain ⟨c, _, r, _, rfl⟩ := Place.exists_of_within inside
    simp only [modifyAt, contains, tabulate, inside, if_true, Int.toNat_natCast, modify_map_range,
      Place.mk.injEq, Int.natCast_inj, mk.injEq, true_and]
    refine List.map_congr_left fun i _ => ?_
    by_cases here : i = r <;> simp [here]
  · have untouched : (tabulate size f).modifyAt p g = tabulate size f := if_neg inside
    rw [untouched]
    refine tabulate_congr fun q within => (if_neg ?_).symm
    rintro rfl
    exact inside within

theorem author_tabulate (size : Nat) (f : Place → Tile) (entries : List TileEntry) :
    entries.foldl (fun board entry => board.modifyAt entry.place (·.author entry)) (tabulate size f) =
      tabulate size fun p => (entries.filter (·.place = p)).foldl (fun t entry => t.author entry) (f p) := by
  induction entries generalizing f with
  | nil => rfl
  | cons entry rest ih =>
    rw [List.foldl_cons, modifyAt_tabulate, ih]
    refine tabulate_congr fun p _ => ?_
    by_cases here : p = entry.place
    · simp [here]
    · simp [here, Ne.symm here]

end Board

/-- The tile of a blueprint at a place: its marks, and what the entries for the place make of it. -/
def Blueprint.tileAt (b : Blueprint) (p : Place) : Tile :=
  (b.tiles.filter (·.place = p)).foldl (fun t entry => t.author entry)
    { place := p, isStart := p = Board.startPlace b, isExit := p = Board.exitPlace b }

/-- What a tile is by its place; no entry touches this. -/
theorem Tile.author_marks (entries : List TileEntry) (t : Tile) :
    let authored := entries.foldl (fun t entry => t.author entry) t
    authored.place = t.place ∧ authored.isStart = t.isStart ∧ authored.isExit = t.isExit := by
  induction entries generalizing t with
  | nil => exact ⟨rfl, rfl, rfl⟩
  | cons entry rest ih => exact ih (t.author entry)

@[simp] theorem Blueprint.tileAt_place (b : Blueprint) (p : Place) : (b.tileAt p).place = p :=
  (Tile.author_marks _ _).1

@[simp] theorem Blueprint.tileAt_isStart (b : Blueprint) (p : Place) :
    (b.tileAt p).isStart = decide (p = Board.startPlace b) := (Tile.author_marks _ _).2.1

@[simp] theorem Blueprint.tileAt_isExit (b : Blueprint) (p : Place) :
    (b.tileAt p).isExit = decide (p = Board.exitPlace b) := (Tile.author_marks _ _).2.2

namespace Board

/-- A built board is the table of its blueprint. -/
theorem build_eq (b : Blueprint) : build b = tabulate b.size b.tileAt := by
  have blank : blank b.size = tabulate b.size fun p => { place := p } := rfl
  rw [build, blank, modifyAt_tabulate, modifyAt_tabulate, author_tabulate]
  refine tabulate_congr fun p _ => ?_
  rw [Blueprint.tileAt]
  congr 1
  split <;> split <;> simp_all

theorem build_start (b : Blueprint) : (build b).start? = some (b.tileAt (startPlace b)) := by
  rw [build_eq]
  exact find?_tabulate (startPlace_within b) (by simp)

theorem build_exit (b : Blueprint) : (build b).exit? = some (b.tileAt (exitPlace b)) := by
  rw [build_eq]
  exact find?_tabulate (exitPlace_within b) (by simp)

end Board
end TilePuzzle
