import TilePuzzle.Proofs.Layout

/-! What authors place on a board. At each place a built board has what the last entry for it says, and
nothing if there is no entry; entries for other places make no difference, be they before or after it, on
the board or not. A tile is found by its id: the first one in reading order that goes by it. -/
namespace TilePuzzle

/-- The order in which a board is read: row by row, each row from the left. -/
def Place.Precedes (p q : Place) : Prop := p.row < q.row ∨ p.row = q.row ∧ p.col < q.col

theorem Place.Precedes.asymm {p q : Place} (precedes : p.Precedes q) : ¬q.Precedes p := by
  unfold Precedes at *
  omega

/-- Which values are an identity: the same text, or a number or a truth value that equals it. -/
inductive Ident.Means : Ident → Value → Prop
  | text (s : String) : Means (.str s) (.str s)
  | whole (n : Int) : Means (.int n) (.int n)
  | truth (b : Bool) : Means (.int (if b then 1 else 0)) (.bool b)
  | float {n : Int} {x : Float} {d : Dyadic} (exact : exactFloat x = .ok d)
      (equal : d.num = n * d.den) : Means (.int n) (.float x)

/-- A float is the key of a whole number just if it is that number, and it is never that of a text. -/
theorem Key.ofFloat_eq_int_iff {n : Int} {x : Float} :
    Key.ofFloat x = .int n ↔ ∃ d, exactFloat x = .ok d ∧ d.num = n * d.den := by
  unfold Key.ofFloat exactFloat
  cases Binary64.ofFloat x with
  | nan | infinite => simp
  | finite negative m e =>
    simp only [Except.ok.injEq, exists_eq_left']
    generalize (⟨if negative then -m else m, e⟩ : Dyadic) = d
    have positive : 0 < d.den := Nat.pow_pos (by decide)
    have nonzero : (d.den : Int) ≠ 0 := by omega
    by_cases whole : d.num % d.den = 0
    · have exact : d.trunc * d.den = d.num := Int.tdiv_mul_cancel (Int.dvd_of_emod_eq_zero whole)
      have isWhole : d.isWhole = true := by simp [Dyadic.isWhole, whole]
      rw [if_pos isWhole, Key.int.injEq, ← exact, Int.mul_eq_mul_right_iff nonzero]
    · have broken : ¬d.isWhole = true := by simp [Dyadic.isWhole, whole]
      rw [if_neg broken]
      refine iff_of_false Key.noConfusion fun equal => whole ?_
      rw [equal, Int.mul_emod_left]

theorem Key.ofFloat_ne_str (x : Float) (s : String) : Key.ofFloat x ≠ .str s := by
  unfold Key.ofFloat
  cases Binary64.ofFloat x with
  | nan | infinite => exact Key.noConfusion
  | finite negative m e =>
    dsimp only
    generalize (⟨if negative then -m else m, e⟩ : Dyadic) = d
    split <;> exact Key.noConfusion

namespace Ident

theorem isValue_iff_key {id : Ident} {v : Value} : id.isValue v = true ↔ v.key = .ok id.key := by
  unfold isValue
  cases v.key with
  | error f => simp
  | ok key => rw [beq_iff_eq, Except.ok.injEq, eq_comm]

theorem key_eq_iff_means {id : Ident} {v : Value} : v.key = .ok id.key ↔ id.Means v := by
  constructor
  · intro same
    cases v with
    | null => cases id <;> cases same
    | bool b => cases id <;> cases same; exact .truth b
    | int n => cases id <;> cases same; exact .whole n
    | str s => cases id <;> cases same; exact .text s
    | arr | obj => cases same
    | float x =>
      have same := Except.ok.inj same
      cases id with
      | int n =>
        obtain ⟨d, exact, equal⟩ := Key.ofFloat_eq_int_iff.mp same
        exact .float exact equal
      | str s => exact absurd same (Key.ofFloat_ne_str x s)
  · intro means
    cases means with
    | text | whole | truth => rfl
    | float exact equal => exact congrArg Except.ok (Key.ofFloat_eq_int_iff.mpr ⟨_, exact, equal⟩)

theorem isValue_iff {id : Ident} {v : Value} : id.isValue v = true ↔ id.Means v :=
  isValue_iff_key.trans key_eq_iff_means

end Ident

namespace Tile

def Carries (t : Tile) (v : Value) : Prop := ∃ id, t.id = some id ∧ id.Means v

theorem carries_iff {t : Tile} {v : Value} :
    t.Carries v ↔ (t.id.map fun id => id.isValue v).getD false = true := by
  unfold Carries
  cases t.id with
  | none => simp
  | some id => simp [Ident.isValue_iff]

/-- What a tile is by an entry for its place, or without one; its look is that of its colour. -/
structure Authored (t : Tile) (entry : Option TileEntry) : Prop where
  id : t.id = entry.bind (·.id)
  mechanic : t.mechanic = entry.bind fun e => Mechanic.ofName? e.mechanic
  params : t.params = (entry.map (·.params)).getD []
  joker : t.isJoker = (entry.map (·.joker)).getD false
  base : ∀ s, t.base = some s ↔ ∃ e, entry = some e ∧ Value.get e.params "color" = .str s ∧ s ≠ ""
  look : t.look = { color := t.base }

/-- A later entry leaves nothing of an earlier one. -/
theorem author_author (t : Tile) (first last : TileEntry) :
    (t.author first).author last = t.author last := rfl

/-- Of some entries the last one counts. -/
theorem foldl_author (entries : List TileEntry) (t : Tile) :
    entries.foldl (fun t entry => t.author entry) t = (entries.getLast?).elim t t.author := by
  induction entries generalizing t with
  | nil => rfl
  | cons first rest ih =>
    rw [List.foldl_cons, ih, List.getLast?_cons]
    cases rest.getLast? with
    | none => rfl
    | some last => exact author_author t first last

theorem author_authored {t : Tile} (plain : t.look = { color := none }) (entry : TileEntry) :
    (t.author entry).Authored (some entry) where
  id := rfl
  mechanic := rfl
  params := rfl
  joker := rfl
  base s := by
    simp only [author, Option.some.injEq, exists_eq_left']
    cases Value.get entry.params "color" with
    | str color =>
      by_cases empty : color = ""
      · simp [empty, eq_comm]
      · simp only [empty, if_false, Option.some.injEq, Value.str.injEq]
        exact ⟨fun same => ⟨same, same ▸ empty⟩, And.left⟩
    | null | bool | int | float | arr | obj => simp
  look := by simp only [author, plain]

end Tile

namespace Blueprint

def entryAt (b : Blueprint) (p : Place) : Option TileEntry :=
  (b.tiles.filter (·.place = p)).getLast?

def markedAt (b : Blueprint) (p : Place) : Tile :=
  { place := p, isStart := p = Board.startPlace b, isExit := p = Board.exitPlace b }

theorem tileAt_eq (b : Blueprint) (p : Place) :
    b.tileAt p = (b.entryAt p).elim (b.markedAt p) (b.markedAt p).author :=
  Tile.foldl_author _ _

theorem tileAt_authored (b : Blueprint) (p : Place) : (b.tileAt p).Authored (b.entryAt p) := by
  rw [tileAt_eq]
  cases b.entryAt p with
  | none => exact ⟨rfl, rfl, rfl, rfl, by simp [markedAt], rfl⟩
  | some entry => exact Tile.author_authored rfl entry

/-- The entry that counts at a place is one for this place. -/
theorem mem_of_entryAt {b : Blueprint} {p : Place} {entry : TileEntry} (last : b.entryAt p = some entry) :
    entry ∈ b.tiles ∧ entry.place = p := by
  simpa using List.mem_filter.mp (List.mem_of_getLast? last)

end Blueprint

section
variable {α : Type} {l : List α} {a : α}

/-- In a list that is in order, the first item with a property is the one that comes before all others. -/
theorem find?_eq_some_iff_least {before : α → α → Prop} {p : α → Bool} (ordered : l.Pairwise before)
    (asymm : ∀ x y, before x y → ¬before y x) :
    l.find? p = some a ↔ a ∈ l ∧ p a = true ∧ ∀ x ∈ l, p x = true → x = a ∨ before a x := by
  have first {x : α} (found : l.find? p = some x) : ∀ y ∈ l, p y = true → y = x ∨ before x y := by
    obtain ⟨_, earlier, later, same, unlike⟩ := List.find?_eq_some_iff_append.mp found
    subst same
    intro y listed holds
    rcases List.mem_append.mp listed with early | late
    · have fails := unlike y early
      rw [holds] at fails
      contradiction
    · rcases List.mem_cons.mp late with same | late
      · exact .inl same
      · exact .inr ((List.pairwise_cons.mp (List.pairwise_append.mp ordered).2.1).1 y late)
  constructor
  · intro found
    exact ⟨List.mem_of_find?_eq_some found, List.find?_some found, first found⟩
  · rintro ⟨listed, holds, least⟩
    obtain ⟨x, found⟩ := Option.isSome_iff_exists.mp (List.find?_isSome.mpr ⟨a, listed, holds⟩)
    rcases least x (List.mem_of_find?_eq_some found) (List.find?_some found) with same | earlier
    · rw [found, same]
    · rcases first found a listed holds with same | later
      · rw [found, same]
      · exact absurd later (asymm a x earlier)

/-- What one item alone has is all that is left of a list in order. -/
theorem filter_only {before : α → α → Prop} {p : α → Bool} (ordered : l.Pairwise before)
    (irrefl : ∀ x, ¬before x x) (listed : a ∈ l) (only : ∀ x ∈ l, p x = true ↔ x = a) :
    l.filter p = [a] := by
  obtain ⟨earlier, later, rfl⟩ := List.append_of_mem listed
  obtain ⟨_, tail, across⟩ := List.pairwise_append.mp ordered
  have front : earlier.filter p = [] := List.filter_eq_nil_iff.mpr fun x member holds => by
    have same := (only x (List.mem_append_left _ member)).mp holds
    exact irrefl a (same ▸ across x member a List.mem_cons_self)
  have back : later.filter p = [] := List.filter_eq_nil_iff.mpr fun x member holds => by
    have same := (only x (List.mem_append_right _ (List.mem_cons_of_mem _ member))).mp holds
    exact irrefl a (same ▸ (List.pairwise_cons.mp tail).1 x member)
  rw [List.filter_append, List.filter_cons_of_pos ((only a listed).mpr rfl), front, back]
  rfl

end

namespace Board

theorem corner_eq_getD (size : Nat) (authored : Option Place) (default : Place) :
    corner size authored default = (authored.filter (·.within size)).getD default := by
  cases authored with
  | none => rfl
  | some p => cases inside : p.within size <;> simp [corner, inside, Option.filter]

/-- The tiles of a built board are listed in reading order. -/
theorem build_ordered (b : Blueprint) :
    (build b).tiles.Pairwise fun t u => t.place.Precedes u.place := by
  rw [build_eq, tiles, tabulate, List.pairwise_flatten, List.pairwise_map]
  constructor
  · simp only [List.forall_mem_map, List.pairwise_map, Blueprint.tileAt_place]
    intro r _
    exact List.pairwise_lt_range.imp fun beside => .inr ⟨rfl, Int.ofNat_lt.mpr beside⟩
  · refine List.pairwise_lt_range.imp fun below => ?_
    simp only [List.forall_mem_map, Blueprint.tileAt_place]
    exact fun _ _ _ _ => .inl (Int.ofNat_lt.mpr below)

theorem mem_build {b : Blueprint} {t : Tile} :
    t ∈ (build b).tiles ↔ ∃ p : Place, p.within b.size = true ∧ b.tileAt p = t := by
  rw [build_eq, mem_tabulate]

/-- What the place of a tile decides, one tile of a built board has. -/
theorem build_only {b : Blueprint} {p : Place} (inside : p.within b.size = true) {mark : Tile → Bool}
    (marks : ∀ q, mark (b.tileAt q) = true ↔ q = p) :
    ((build b).tiles.filter mark).map (·.place) = [p] := by
  have alone : (build b).tiles.filter mark = [b.tileAt p] := by
    refine filter_only (build_ordered b) (fun t before => before.asymm before)
      (mem_build.mpr ⟨p, inside, rfl⟩) fun t listed => ?_
    obtain ⟨q, _, rfl⟩ := mem_build.mp listed
    rw [marks q]
    constructor
    · rintro rfl
      rfl
    · intro same
      simpa using congrArg Tile.place same
  rw [alone, List.map_singleton, Blueprint.tileAt_place]

theorem build_tileAt (b : Blueprint) (p : Place) :
    (build b).tileAt p = if p.within b.size then some (b.tileAt p) else none := by
  rw [build_eq]
  by_cases inside : p.within b.size = true
  · obtain ⟨c, beside, r, below, rfl⟩ := Place.exists_of_within inside
    simp [tileAt, contains, tabulate, inside, beside, below]
  · simp [tileAt, contains, tabulate, inside]

/-- A board depends on its entries only by which is the last one for each of its places. -/
theorem build_congr {b : Blueprint} {tiles : List TileEntry}
    (same : ∀ p, p.within b.size = true → ({ b with tiles } : Blueprint).entryAt p = b.entryAt p) :
    build { b with tiles } = build b := by
  rw [build_eq, build_eq]
  refine tabulate_congr fun p inside => ?_
  rw [Blueprint.tileAt_eq, Blueprint.tileAt_eq, same p inside]
  rfl

theorem findId_eq_some_iff {b : Blueprint} {v : Value} {t : Tile} : (build b).findId v = some t ↔
    t ∈ (build b).tiles ∧ t.Carries v ∧
      ∀ u ∈ (build b).tiles, u.Carries v → u = t ∨ t.place.Precedes u.place := by
  simp only [findId, Tile.carries_iff]
  exact find?_eq_some_iff_least (build_ordered b) fun _ _ => Place.Precedes.asymm

theorem findId_eq_none_iff {board : Board} {v : Value} :
    board.findId v = none ↔ ∀ t ∈ board.tiles, ¬t.Carries v := by
  simp only [findId, Tile.carries_iff, List.find?_eq_none]

/-- A board that is built of a blueprint. It is square, the tile in each row and column is at this place,
and it is what the last entry for the place says. One tile is the start and one is the exit: where the
blueprint has them, if that is on the board, else in the first and in the last corner. Entries outside of
the board change nothing, and neither does the order of entries for different places. A value finds the
first tile in reading order that goes by it, if there is one. -/
structure Places (b : Blueprint) (board : Board) : Prop where
  height : board.rows.length = b.size
  width : ∀ row ∈ board.rows, row.length = b.size
  tile : ∀ r c : Nat, r < b.size → c < b.size → ∃ t, board.rows[r]?.bind (·[c]?) = some t ∧
    board.tileAt ⟨c, r⟩ = some t ∧ t.place = ⟨c, r⟩ ∧ t.Authored (b.entryAt ⟨c, r⟩)
  start : (board.tiles.filter (·.isStart)).map (·.place) =
    [(b.start.filter (·.within b.size)).getD ⟨0, 0⟩]
  exit : (board.tiles.filter (·.isExit)).map (·.place) =
    [(b.exit.filter (·.within b.size)).getD ⟨b.size - 1, b.size - 1⟩]
  inside : build { b with tiles := b.tiles.filter (·.place.within b.size) } = board
  order : ∀ tiles : List TileEntry,
    (∀ p, tiles.filter (·.place = p) = b.tiles.filter (·.place = p)) →
    build { b with tiles } = board
  unfound : ∀ v, board.findId v = none ↔ ∀ t ∈ board.tiles, ¬t.Carries v
  found : ∀ v t, board.findId v = some t ↔ t ∈ board.tiles ∧ t.Carries v ∧
    ∀ u ∈ board.tiles, u.Carries v → u = t ∨ t.place.Precedes u.place

/-- Whatever its blueprint says, a board is built with everything in its place. -/
theorem build_places (b : Blueprint) : Places b (build b) := by
  have rows : (build b).rows = (List.range b.size).map fun (r : Nat) =>
      (List.range b.size).map fun (c : Nat) => b.tileAt ⟨c, r⟩ := congrArg Board.rows (build_eq b)
  constructor
  case height => simp [rows]
  case width =>
    rw [rows]
    exact List.forall_mem_map.mpr fun r _ => by simp
  case tile =>
    intro r c below beside
    refine ⟨b.tileAt ⟨c, r⟩, ?_, ?_, b.tileAt_place _, b.tileAt_authored _⟩
    · simp [rows, below, beside]
    · rw [build_tileAt, if_pos (Place.within_of_lt beside below)]
  case start =>
    rw [← corner_eq_getD]
    exact build_only (startPlace_within b) fun q => by rw [Blueprint.tileAt_isStart, decide_eq_true_iff]
  case exit =>
    rw [← corner_eq_getD]
    exact build_only (exitPlace_within b) fun q => by rw [Blueprint.tileAt_isExit, decide_eq_true_iff]
  case inside =>
    refine build_congr fun p inside => ?_
    have kept : (b.tiles.filter (·.place.within b.size)).filter (·.place = p) =
        b.tiles.filter (·.place = p) := by
      rw [List.filter_filter]
      refine List.filter_congr fun entry _ => ?_
      by_cases here : entry.place = p <;> simp [here, inside]
    exact congrArg List.getLast? kept
  case order => exact fun tiles same => build_congr fun p _ => congrArg List.getLast? (same p)
  case unfound => exact fun _ => findId_eq_none_iff
  case found => exact fun _ _ => findId_eq_some_iff

/-- A start off the board, and two entries for one place around those for others: the first corner is the
start, the last entry counts, an earlier place is found first, and the entries may as well be grouped by
their places. -/
theorem build_places_grouped :
    let entry (p : Place) (id : Ident) : TileEntry := ⟨p, some id, none, [], false, []⟩
    let authored (tiles : List TileEntry) : Blueprint :=
      .build none "" ⟨2, by decide, by decide⟩ (some ⟨2, 0⟩) (some ⟨0, 1⟩) tiles [] [] none [] [] none "" "" []
    let board := build (authored
      [entry ⟨0, 1⟩ (.str "a"), entry ⟨1, 0⟩ (.int 1), entry ⟨-1, 9⟩ (.int 5), entry ⟨0, 1⟩ (.int 1)])
    (board.tiles.filter (·.isStart)).map (·.place) = [⟨0, 0⟩] ∧
    (board.tiles.filter (·.isExit)).map (·.place) = [⟨0, 1⟩] ∧
    (∃ t, board.tileAt ⟨0, 1⟩ = some t ∧ t.id = some (.int 1)) ∧
    (∃ t, board.findId (.bool true) = some t ∧ t.place = ⟨1, 0⟩ ∧
      ∀ u ∈ board.tiles, u.Carries (.bool true) → u = t ∨ t.place.Precedes u.place) ∧
    build (authored [entry ⟨-1, 9⟩ (.int 5), entry ⟨1, 0⟩ (.int 1), entry ⟨0, 1⟩ (.str "a"),
      entry ⟨0, 1⟩ (.int 1)]) = board := by
  intro entry authored board
  have places : Places _ board := build_places (authored
    [entry ⟨0, 1⟩ (.str "a"), entry ⟨1, 0⟩ (.int 1), entry ⟨-1, 9⟩ (.int 5), entry ⟨0, 1⟩ (.int 1)])
  refine ⟨places.start, places.exit, ?_, ?_, places.order _ fun p => ?_⟩
  · obtain ⟨t, _, here, _, authored⟩ := places.tile 1 0 (by decide) (by decide)
    exact ⟨t, here, authored.id⟩
  · have place : (board.findId (.bool true)).map (·.place) = some ⟨1, 0⟩ := by decide +kernel
    obtain ⟨t, found, here⟩ := Option.map_eq_some_iff.mp place
    exact ⟨t, found, here, ((places.found (.bool true) t).mp found).2.2⟩
  · by_cases first : p = ⟨0, 1⟩
    · subst first
      rfl
    · by_cases second : p = ⟨1, 0⟩
      · subst second
        rfl
      · simp [authored, Blueprint.build, entry, List.filter_cons, Ne.symm first, Ne.symm second]

end Board
end TilePuzzle
