import TilePuzzle.Board

/-! The geometry of boards, and what a refresh leaves alone. A board has the side that its blueprint
asks for, both marked places lie on it, and animation changes looks only. -/
namespace TilePuzzle

theorem Place.within_iff (p : Place) (size : Int) :
    p.within size = true ↔ 0 ≤ p.col ∧ p.col < size ∧ 0 ≤ p.row ∧ p.row < size := by
  simp [Place.within, and_assoc]

namespace Tile

/-- A tile as it is fixed once the board is built: everything but its look. -/
def bare (t : Tile) : Tile := { t with look := { color := none } }

theorem refresh_bare {tick : Int} {t u : Tile} (refreshed : t.refresh tick = .ok u) :
    u.bare = t.bare := by
  unfold refresh at refreshed
  split at refreshed
  · cases refreshed; rfl
  · cases shown : Mechanic.look tick t.mechanic t.params t.base with
    | error f => rw [shown] at refreshed; contradiction
    | ok look => rw [shown] at refreshed; cases refreshed; rfl

end Tile

namespace Board

def bare (b : Board) : Board := { b with rows := b.rows.map fun row => row.map Tile.bare }

theorem bare_tiles (b : Board) : b.bare.tiles = b.tiles.map Tile.bare := by
  simp [bare, tiles, List.map_flatten]

theorem size_of_bare {b c : Board} (same : b.bare = c.bare) : b.size = c.size := by
  change b.bare.size = c.bare.size
  rw [same]

theorem mem_of_bare {b c : Board} (same : b.bare = c.bare) {t : Tile} (member : t ∈ b.tiles) :
    ∃ u ∈ c.tiles, u.bare = t.bare := by
  have images : b.tiles.map Tile.bare = c.tiles.map Tile.bare := by
    rw [← bare_tiles, same, bare_tiles]
  have image : t.bare ∈ c.tiles.map Tile.bare := images ▸ List.mem_map_of_mem member
  obtain ⟨u, inside, eq⟩ := List.mem_map.mp image
  exact ⟨u, inside, eq⟩

theorem corner_within (size : Nat) (authored : Option Place) (default : Place)
    (inside : default.within size = true) : (corner size authored default).within size = true := by
  unfold corner
  split
  · split <;> assumption
  · exact inside

theorem startPlace_within (b : Blueprint) : (startPlace b).within b.size = true := by
  apply corner_within
  rw [Place.within_iff]
  have := b.size_pos
  simp only
  omega

theorem exitPlace_within (b : Blueprint) : (exitPlace b).within b.size = true := by
  apply corner_within
  rw [Place.within_iff]
  have := b.size_pos
  simp only
  omega

@[simp] theorem modifyAt_size (b : Board) (p : Place) (f : Tile → Tile) :
    (b.modifyAt p f).size = b.size := by
  unfold modifyAt
  split <;> rfl

theorem author_size (entries : List TileEntry) (b : Board) :
    (entries.foldl (fun board entry => board.modifyAt entry.place (·.author entry)) b).size =
      b.size := by
  induction entries generalizing b with
  | nil => rfl
  | cons entry rest ih => rw [List.foldl_cons, ih, modifyAt_size]

@[simp] theorem build_size (b : Blueprint) : (build b).size = b.size := by
  simp only [build, author_size, modifyAt_size, blank]

theorem refreshRow_bare (tick : Int) (row : List Tile) :
    (refreshRow tick row).2.map Tile.bare = row.map Tile.bare := by
  induction row with
  | nil => rfl
  | cons t rest ih =>
    cases refreshed : t.refresh tick with
    | error f => simp [refreshRow, refreshed]
    | ok u => simp [refreshRow, refreshed, ih, Tile.refresh_bare refreshed]

theorem refreshRows_bare (tick : Int) (rows : List (List Tile)) :
    (refreshRows tick rows).2.map (fun row => row.map Tile.bare) =
      rows.map (fun row => row.map Tile.bare) := by
  induction rows with
  | nil => rfl
  | cons row rest ih =>
    have first := refreshRow_bare tick row
    cases refreshed : refreshRow tick row with
    | mk result after =>
      rw [refreshed] at first
      cases result with
      | error f => simp [refreshRows, refreshed, first]
      | ok _ => simp [refreshRows, refreshed, first, ih]

/-- Animation changes nothing but looks, also where it breaks off. -/
@[simp] theorem refresh_bare (tick : Int) (b : Board) : (b.refresh tick).2.bare = b.bare := by
  simp [refresh, bare, refreshRows_bare]

end Board
end TilePuzzle
