import TilePuzzle.Proofs.Findings
import TilePuzzle.Proofs.Placement
import TilePuzzle.Proofs.Tabletop

/-! Ids of tiles. A review goes through the entries of a blueprint and warns of an id on the board that an
earlier entry has had. Without such a warning no two entries on the board share an id, so no two tiles of
the built board do, whichever entries have replaced others: an id finds the one tile that goes by it, and a
condition on it holds on this tile alone. -/
namespace TilePuzzle

theorem Ident.key_injective {first second : Ident} (same : first.key = second.key) : first = second := by
  cases first <;> cases second <;> cases same <;> rfl

/-- Identities that one value is are the same. -/
theorem Ident.Means.unique {first second : Ident} {v : Value} (one : first.Means v)
    (other : second.Means v) : first = second := by
  have same := (key_eq_iff_means.mpr one).symm.trans (key_eq_iff_means.mpr other)
  exact key_injective (Except.ok.inj same)

def TileEntry.Apart (e f : TileEntry) : Prop := ∀ id, e.id = some id → f.id ≠ some id

namespace Review

def duplicate (id : Ident) : String := "Duplicate cell id '" ++ idText (some id) ++ "'"

theorem duplicate_ne (id : Ident) {s : String} (differs : ¬"Duplicate cell id '".toList <+: s.toList) :
    duplicate id ≠ s := by
  unfold duplicate
  rw [String.append_assoc]
  exact append_ne differs

/-- Entries on the board among which a review finds no id twice, nor one that it has seen before them. -/
theorem ofTiles_apart {size : Nat} {seen : List Key} {tiles : List TileEntry}
    (unrepeated : ∀ id, duplicate id ∉ (ofTiles size seen tiles).warnings) :
    let placed := tiles.filter (·.place.within size)
    placed.Pairwise TileEntry.Apart ∧ ∀ e ∈ placed, ∀ id, e.id = some id → id.key ∉ seen := by
  induction tiles generalizing seen with
  | nil => exact ⟨.nil, List.forall_mem_nil _⟩
  | cons entry rest ih =>
    intro placed
    by_cases inside : entry.place.within size = true
    · rw [ofTiles, if_pos inside] at unrepeated
      simp only [append_eq, when_warning, List.nil_append, List.mem_append, not_or] at unrepeated
      have opened : placed = entry :: rest.filter (·.place.within size) := List.filter_cons_of_pos inside
      rw [opened, List.pairwise_cons, List.forall_mem_cons]
      cases named : entry.id with
      | none =>
        rw [named] at unrepeated
        obtain ⟨apart, fresh⟩ := ih fun id => (unrepeated id).2
        exact ⟨⟨fun f _ id same => by rw [named] at same; contradiction, apart⟩,
          fun id same => (Option.some_ne_none id same.symm).elim, fresh⟩
      | some id =>
        rw [named] at unrepeated
        obtain ⟨apart, fresh⟩ := ih fun id => (unrepeated id).2
        have unseen : id.key ∉ seen := fun member => by
          refine (unrepeated id).1.1 ?_
          rw [Option.map_some, Option.getD_some, List.contains_iff_mem.mpr member, if_pos rfl]
          exact List.mem_singleton.mpr rfl
        refine ⟨⟨fun f listed other same taken => ?_, apart⟩, fun other same => ?_,
          fun f listed other taken => ?_⟩
        · cases named.symm.trans same
          exact fresh f listed id taken List.mem_cons_self
        · cases same
          exact unseen
        · exact fun member => fresh f listed other taken (List.mem_cons_of_mem _ member)
    · rw [ofTiles, if_neg inside] at unrepeated
      simp only [append_eq, List.mem_append, not_or] at unrepeated
      have skipped : placed = rest.filter (·.place.within size) := List.filter_cons_of_neg inside
      rw [skipped]
      exact ih fun id => (unrepeated id).2

/-- What is found on the entries of a blueprint is part of its review. -/
theorem ofTiles_subset {b : Blueprint} {known : List String} {review : Review}
    (reviewed : ofBlueprint b known = .ok review) :
    (ofTiles b.size [] b.tiles).warnings ⊆ review.warnings := by
  cases read : Rule.ofItems (b.rules.map .obj) with
  | error f =>
    rw [ofBlueprint, ofRules_eq, read] at reviewed
    cases reviewed
  | ok rules =>
    rw [ofBlueprint_eq b known read] at reviewed
    cases reviewed
    intro s member
    simp only [before, append_eq, List.mem_append]
    exact .inl (.inl (.inr member))

end Review

namespace Board

/-- On a board whose entries do not share ids, no two tiles do. -/
theorem build_apart {b : Blueprint} (apart : (b.tiles.filter (·.place.within b.size)).Pairwise TileEntry.Apart)
    {t u : Tile} (listed : t ∈ (build b).tiles) (other : u ∈ (build b).tiles) {id : Ident}
    (named : t.id = some id) (same : u.id = some id) : t = u := by
  -- Each of the two has its id from an entry for its place.
  have origin {t : Tile} (listed : t ∈ (build b).tiles) (named : t.id = some id) :
      ∃ e ∈ b.tiles.filter (·.place.within b.size), e.id = some id ∧ t = b.tileAt e.place := by
    obtain ⟨p, inside, rfl⟩ := mem_build.mp listed
    rw [(b.tileAt_authored p).id] at named
    obtain ⟨e, last, given⟩ := Option.bind_eq_some_iff.mp named
    obtain ⟨authored, rfl⟩ := Blueprint.mem_of_entryAt last
    exact ⟨e, List.mem_filter.mpr ⟨authored, inside⟩, given, rfl⟩
  obtain ⟨e, first, mine, rfl⟩ := origin listed named
  obtain ⟨f, second, yours, rfl⟩ := origin other same
  have : Std.Symm TileEntry.Apart := ⟨fun _ _ apart id named same => apart id same named⟩
  by_contra differ
  have distinct : e ≠ f := fun same => differ (congrArg (fun e : TileEntry => b.tileAt e.place) same)
  exact apart.forall first second distinct id mine yours

/-- A tile of a board that is built from a blueprint, and may have been repainted since: it has the id of
the tile that was built there. -/
theorem tileAt_carries_iff {b : Blueprint} {board : Board} (same : board.bare = (build b).bare)
    {p : Place} {v : Value} : (∃ t, board.tileAt p = some t ∧ t.Carries v) ↔
      ∃ t ∈ (build b).tiles, t.Carries v ∧ t.place = p := by
  have bare : (board.tileAt p).map Tile.bare = if p.within b.size then some (b.tileAt p).bare else none := by
    rw [← tileAt_bare, same, tileAt_bare, build_tileAt]
    split <;> rfl
  have carries {t u : Tile} (twins : t.bare = u.bare) (carries : t.Carries v) : u.Carries v := by
    have ids : t.bare.id = u.bare.id := by rw [twins]
    obtain ⟨id, named, means⟩ := carries
    exact ⟨id, ids.symm.trans named, means⟩
  constructor
  · rintro ⟨t, here, marked⟩
    rw [here, Option.map_some] at bare
    split at bare
    next inside =>
      exact ⟨b.tileAt p, mem_build.mpr ⟨p, inside, rfl⟩, carries (Option.some.inj bare) marked,
        b.tileAt_place p⟩
    next => contradiction
  · rintro ⟨t, listed, marked, rfl⟩
    obtain ⟨q, inside, rfl⟩ := mem_build.mp listed
    rw [b.tileAt_place, if_pos inside] at bare
    obtain ⟨u, here, twins⟩ := Option.map_eq_some_iff.mp bare
    exact ⟨u, by rw [b.tileAt_place, here], carries twins.symm marked⟩

end Board

theorem Condition.touches_iff {tile : Option Tile} {v : Value} :
    touches tile v = true ↔ ∃ t, tile = some t ∧ t.Carries v := by
  cases tile with
  | none => simp [touches]
  | some t => simp [touches, Tile.carries_iff]

namespace Referee

/-- A referee that judges on the board of a blueprint, however its tiles look by now. -/
def Watches (r : Referee) (b : Blueprint) : Prop :=
  ∃ board, r.board = some board ∧ board.bare = (Board.build b).bare

section
variable {r s : Referee} {b : Blueprint}

theorem Watches.keeps (watches : r.Watches b) (keeps : r.Keeps s) : s.Watches b := by
  obtain ⟨board, judged, same⟩ := watches
  exact ⟨board, keeps.board.trans judged, same⟩

theorem Watches.attend (watches : r.Watches b) {call : Call}
    (painted : ∀ board, call = .repaint board → board.bare = (Board.build b).bare) :
    (r.attend call).2.Watches b := by
  cases call with
  | land place => exact watches.keeps (r.land_keeps place)
  | tick moving => exact watches.keeps (r.tick_keeps moving)
  | borderHit border => exact watches.keeps (r.borderHit_keeps border)
  | hints => exact watches
  | repaint board => exact ⟨board, rfl, painted board rfl⟩

theorem Watches.attendAll (watches : r.Watches b) {calls : List Call}
    (painted : ∀ board, .repaint board ∈ calls → board.bare = (Board.build b).bare) :
    (r.attendAll calls).Watches b := by
  induction calls generalizing r with
  | nil => exact watches
  | cons call rest ih =>
    refine ih (watches.attend fun board same => painted board ?_) fun board member => painted board ?_
    · rw [same]
      exact List.mem_cons_self
    · exact List.mem_cons_of_mem _ member

/-- A condition on the id of a tile holds just at landings on a tile that was built with this id. -/
theorem Watches.touches_iff (watches : r.Watches b) (place : Place) (v : Value) :
    ((Condition.touchTile v).judge r.predicates (r.landing place)).value = .ok true ↔
      ∃ t ∈ (Board.build b).tiles, t.Carries v ∧ t.place = place := by
  obtain ⟨board, judged, same⟩ := watches
  have here : (r.landing place).tile = board.tileAt place := by
    simp only [landing, tileAt, judged, Option.bind_some]
  simp only [Condition.judge, Verdict.plain, Except.ok.injEq]
  rw [Condition.touches_iff, here, Board.tileAt_carries_iff same]

end

end Referee

namespace Game

/-- Whatever was done to a game, its referee judges on the board of the level in place. -/
theorem play_watches {lobby after : Lobby} {levels : LevelSet} {predicates : Predicates} {now : Number}
    {id : String} {session : Session}
    (created : lobby.create levels predicates now = (.ok (id, session), after))
    (listeners : Nat) (ops : List Op) {level : Level}
    (here : ((ofSession session listeners).play ops).session.level = some level) :
    ((ofSession session listeners).play ops).session.referee.Watches level.blueprint := by
  obtain ⟨made, _, _⟩ := Lobby.create_ok created
  have coherent := play_keeps (P := fun g => g.session.Coherent) perform_coherent
    (g := ofSession session listeners) (Session.create_coherent made) ops
  have plays := coherent.inPlace level here
  exact ⟨level.board, plays.board, plays.authored⟩

end Game

/-- Ids on the board of a blueprint. No two tiles have one id. A value finds just the tile that goes by it, so
there is at most one, and the condition that this tile is touched holds just at landings on its place, be it in
calls of a referee that has taken on the level or in a game, and however the board has been repainted. -/
structure Blueprint.Identifies (b : Blueprint) : Prop where
  apart : ∀ t ∈ (Board.build b).tiles, ∀ u ∈ (Board.build b).tiles, ∀ id,
    t.id = some id → u.id = some id → t = u
  finds : ∀ v t, (Board.build b).findId v = some t ↔ t ∈ (Board.build b).tiles ∧ t.Carries v
  calls : ∀ v (r : Referee) (rules : List Rule) (calls : List Referee.Call),
    (∀ painted, .repaint painted ∈ calls → painted.bare = (Board.build b).bare) →
    let s := (r.load rules (Board.build b) b.patterns).attendAll calls
    ∀ place, ((Condition.touchTile v).judge s.predicates (s.landing place)).value = .ok true ↔
      ∃ t, (Board.build b).findId v = some t ∧ t.place = place
  games : ∀ v (lobby after : Lobby) levels predicates now id session,
    lobby.create levels predicates now = (.ok (id, session), after) →
    ∀ listeners ops, let g := (Game.ofSession session listeners).play ops
    ∀ level, g.session.level = some level → level.blueprint = b →
    ∀ s, g.session.referee.Keeps s →
    ∀ place, ((Condition.touchTile v).judge s.predicates (s.landing place)).value = .ok true ↔
      ∃ t, (Board.build b).findId v = some t ∧ t.place = place

/-- A level whose review does not warn of an id that is given twice identifies its tiles. -/
theorem Review.ofBlueprint_identifies {b : Blueprint} {known : List String} {review : Review}
    (reviewed : ofBlueprint b known = .ok review) (unrepeated : ∀ id, duplicate id ∉ review.warnings) :
    b.Identifies := by
  obtain ⟨apart, _⟩ := ofTiles_apart fun id member => unrepeated id (ofTiles_subset reviewed member)
  have alone : ∀ t ∈ (Board.build b).tiles, ∀ u ∈ (Board.build b).tiles, ∀ id,
      t.id = some id → u.id = some id → t = u :=
    fun t listed u other id => Board.build_apart apart listed other
  have finds (v : Value) (t : Tile) : (Board.build b).findId v = some t ↔
      t ∈ (Board.build b).tiles ∧ t.Carries v := by
    rw [Board.findId_eq_some_iff]
    refine ⟨fun ⟨listed, carries, _⟩ => ⟨listed, carries⟩, ?_⟩
    rintro ⟨listed, id, named, means⟩
    refine ⟨listed, ⟨id, named, means⟩, fun u other ⟨twin, same, means'⟩ => .inl ?_⟩
    exact alone u other t listed id (means'.unique means ▸ same) named
  refine ⟨alone, finds, ?_, ?_⟩
  · intro v r rules calls painted s place
    have watches : s.Watches b := Referee.Watches.attendAll ⟨Board.build b, rfl, rfl⟩ painted
    rw [watches.touches_iff]
    simp only [finds, and_assoc]
  · rintro v lobby after levels predicates now id session created listeners ops g level here rfl s keeps place
    rw [((Game.play_watches created listeners ops here).keeps keeps).touches_iff]
    simp only [finds, and_assoc]

/-- An id that a later entry replaces, and that an entry off the board repeats: nothing is found by it, also
not by a value that it equals. A text that looks like it is another id, and the condition on it holds on the
tile it finds and not on the one beside it. -/
theorem Review.ofBlueprint_identifies_replaced :
    let entry (p : Place) (id : Ident) : TileEntry := ⟨p, some id, none, [], false, []⟩
    let b : Blueprint := .build none "" ⟨2, by decide, by decide⟩ none none
      [entry ⟨0, 0⟩ (.int 1), entry ⟨1, 0⟩ (.str "1"), entry ⟨9, 9⟩ (.int 1), entry ⟨0, 0⟩ (.int 2)]
      [] [] (some "exit") [] [] none "" "" []
    let s := ({} : Referee).load [] (Board.build b) b.patterns
    (∃ review, ofBlueprint b [] = .ok review ∧ ∀ id, duplicate id ∉ review.warnings) ∧
    (Board.build b).findId (.bool true) = none ∧
    (∃ t, (Board.build b).findId (.str "1") = some t ∧ t.place = ⟨1, 0⟩ ∧
      ((Condition.touchTile (.str "1")).judge s.predicates (s.landing ⟨1, 0⟩)).value = .ok true) ∧
    ((Condition.touchTile (.str "1")).judge s.predicates (s.landing ⟨0, 0⟩)).value ≠ .ok true := by
  intro entry b s
  have outside : (ofBlueprint b []).map Review.warnings =
      .ok ["Cell '1' at [9, 9] is outside the grid and will be ignored"] := by decide +kernel
  cases reviewed : ofBlueprint b [] with
  | error f =>
    rw [reviewed] at outside
    cases outside
  | ok review =>
    rw [reviewed] at outside
    have unrepeated : ∀ id, duplicate id ∉ review.warnings := by
      intro id
      rw [Except.ok.inj outside, List.mem_singleton]
      exact duplicate_ne id (by decide +kernel)
    have identifies := ofBlueprint_identifies reviewed unrepeated
    have place : ((Board.build b).findId (.str "1")).map (·.place) = some ⟨1, 0⟩ := by decide +kernel
    obtain ⟨t, finds, here⟩ := Option.map_eq_some_iff.mp place
    have touches := identifies.calls (.str "1") {} [] [] nofun
    refine ⟨⟨review, rfl, unrepeated⟩, by decide +kernel,
      ⟨t, finds, here, (touches ⟨1, 0⟩).mpr ⟨t, finds, here⟩⟩, fun holds => ?_⟩
    obtain ⟨u, again, there⟩ := (touches ⟨0, 0⟩).mp holds
    cases finds.symm.trans again
    exact absurd (here.symm.trans there) (by decide)

end TilePuzzle
