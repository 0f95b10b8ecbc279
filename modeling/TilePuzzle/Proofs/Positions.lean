import TilePuzzle.Proofs.Reading

/-! What a catalog serves at its positions. Every item has a place in the order, under its own id or
under its position if it has none. But the items are kept by key: of those that go by one key only the
last is ever served, and the position that stands for a missing id may be the id of another item. -/
namespace TilePuzzle

namespace Catalog

def idsFrom (position : Nat) (items : List Value) : List Value :=
  items.mapIdx fun i v => idAt (i + position) v

theorem idsFrom_cons (position : Nat) (v : Value) (rest : List Value) :
    idsFrom position (v :: rest) = idAt position v :: idsFrom (position + 1) rest := by
  have shifted : (fun i v => idAt (i + 1 + position) v) = fun i v => idAt (i + (position + 1)) v := by
    funext i v
    rw [Nat.add_right_comm, Nat.add_assoc]
  rw [idsFrom, List.mapIdx_cons, Nat.zero_add, shifted]
  rfl

structure Latest (ids items : List Value) (key : Key) (index : Nat) (v : Value) : Prop where
  item : items[index]? = some v
  goes : ∃ id, ids[index]? = some id ∧ id.key = .ok key
  last : ∀ later id, index < later → ids[later]? = some id → id.key ≠ .ok key

section
variable {ids items : List Value} {key : Key} {index : Nat} {v : Value}

theorem Latest.cons (latest : Latest ids items key index v) (id w : Value) :
    Latest (id :: ids) (w :: items) key (index + 1) v where
  item := latest.item
  goes := latest.goes
  last := fun later other behind found => by
    cases later with
    | zero => omega
    | succ later => exact latest.last later other (by omega) found

theorem Latest.head {id : Value} (keyed : id.key = .ok key) (unused : ∀ other ∈ ids, other.key ≠ .ok key)
    (v : Value) (items : List Value) : Latest (id :: ids) (v :: items) key 0 v where
  item := rfl
  goes := ⟨id, rfl, keyed⟩
  last := fun later other behind found => by
    cases later with
    | zero => omega
    | succ later => exact unused other (List.mem_of_getElem? found)

/-- The last item that goes by a key is at an index or behind it, and at it just if no other one follows. -/
theorem Latest.place (latest : Latest ids items key index v) {i : Nat} {id : Value}
    (listed : ids[i]? = some id) (keyed : id.key = .ok key) :
    i ≤ index ∧
    (index = i ↔ ∀ later other, i < later → ids[later]? = some other → other.key ≠ .ok key) := by
  have behind : i ≤ index := Nat.le_of_not_lt fun before => latest.last i id before listed keyed
  refine ⟨behind, ?_, fun alone => ?_⟩
  · rintro rfl
    exact latest.last
  · obtain ⟨other, found, goes⟩ := latest.goes
    exact Nat.le_antisymm (Nat.le_of_not_lt fun later => alone index other later found goes) behind

end

section
variable {position : Nat} {items : List Value} {c made : Catalog}

/-- A catalog can be made just if every id is a key. -/
theorem addFrom_ok_iff : (∃ made, addFrom position c items = .ok made) ↔
    ∀ id ∈ idsFrom position items, ∃ key, id.key = .ok key := by
  induction items generalizing position c with
  | nil => exact iff_of_true ⟨c, rfl⟩ nofun
  | cons v rest ih =>
    rw [idsFrom_cons, List.forall_mem_cons, addFrom]
    cases keyed : (idAt position v).key with
    | error f => simp
    | ok key => simpa using ih

theorem addFrom_order (added : addFrom position c items = .ok made) :
    made.order = c.order ++ idsFrom position items := by
  induction items generalizing position c with
  | nil =>
    cases added
    exact (List.append_nil _).symm
  | cons v rest ih =>
    simp only [addFrom] at added
    split at added
    next => contradiction
    next => rw [ih added, idsFrom_cons, List.append_assoc, List.singleton_append]

/-- Under a key there is the last item that goes by it, else what has been there before. -/
theorem addFrom_lookup (added : addFrom position c items = .ok made) (key : Key) :
    (∃ index v, Latest (idsFrom position items) items key index v ∧ made.entries.lookup key = some v) ∨
    (∀ id ∈ idsFrom position items, id.key ≠ .ok key) ∧
      made.entries.lookup key = c.entries.lookup key := by
  induction items generalizing position c with
  | nil =>
    cases added
    exact .inr ⟨nofun, rfl⟩
  | cons first rest ih =>
    simp only [addFrom] at added
    split at added
    next => contradiction
    next other keyed =>
      rw [idsFrom_cons]
      rcases ih added with ⟨index, v, latest, found⟩ | ⟨unused, kept⟩
      · exact .inl ⟨index + 1, v, latest.cons _ first, found⟩
      -- No later item goes by the key, so the first one stays under it, if the key is its own.
      · rw [lookup_setEntry] at kept
        by_cases same : key = other
        · subst same
          rw [if_pos rfl] at kept
          exact .inl ⟨0, first, .head keyed unused first rest, kept⟩
        · rw [if_neg same] at kept
          refine .inr ⟨List.forall_mem_cons.mpr ⟨fun goes => ?_, unused⟩, kept⟩
          rw [keyed] at goes
          exact same (Except.ok.inj goes).symm

end

/-- What a catalog serves under the id of an item is the last item whose id has the same key. -/
theorem load_latest {items : List Value} {c : Catalog} (made : ofItems items = .ok c) {id : Value}
    (listed : id ∈ idsFrom 1 items) : ∃ key index v, id.key = .ok key ∧
      Latest (idsFrom 1 items) items key index v ∧ c.load id = Level.ofAsked id v := by
  obtain ⟨key, keyed⟩ := addFrom_ok_iff.mp ⟨c, made⟩ id listed
  rcases addFrom_lookup made key with ⟨index, v, latest, found⟩ | ⟨unused, _⟩
  · refine ⟨key, index, v, keyed, latest, ?_⟩
    simp only [load, keyed, found, Option.getD_some]
    split
    · rfl
    · rfl
  · exact absurd keyed (unused id listed)

/-- The level of an id, as an item describes it: none just if the item has not the shape of a level. -/
theorem ofAsked_describes (id v : Value) :
    (∀ b, Blueprint.ofValue v = .ok b →
      Level.ofAsked id v = (Level.build b).map fun level => some (level.named id)) ∧
    (Level.ofAsked id v = .ok none ↔ ∃ first more, Blueprint.ofValue v = .issues first more) := by
  cases read : Blueprint.ofValue v with
  | issues first more =>
    have none : Level.ofAsked id v = .ok none := by
      rw [Level.ofAsked, Level.ofValue, read]
      rfl
    refine ⟨fun b same => ?_, iff_of_true none ⟨first, more, rfl⟩⟩
    cases same
  | ok b =>
    have built : Level.ofAsked id v = (Level.build b).map fun level => some (level.named id) := by
      rw [Level.ofAsked, Level.ofValue, read]
      change ((Level.build b).map some).map _ = _
      cases Level.build b <;> rfl
    rw [built]
    refine ⟨fun other same => ?_, iff_of_false (fun none => ?_) ?_⟩
    · cases same
      rfl
    · cases made : Level.build b <;> rw [made] at none <;> cases none
    · rintro ⟨first, more, same⟩
      cases same

/-- What becomes of levels that are given as values. They can be kept just if every id is a key, and then
each of them has its place in the order. At that place there is the level that the last item with the same
key describes, or none if that one has not the shape of a level. So a level can be played at its own place
just as long as no other one with the same key comes behind it. -/
theorem ofItems_serves (items : List Value) :
    let ids := items.mapIdx fun i v => idAt (i + 1) v
    ((∃ c, ofItems items = .ok c) ↔ ∀ id ∈ ids, ∃ key, id.key = .ok key) ∧
    ∀ c, ofItems items = .ok c → let set := LevelSet.catalog c
      set.ids = .ok ids ∧ ids.length = items.length ∧
      ∀ i id, ids[i]? = some id → ∃ key j v, id.key = .ok key ∧ Latest ids items key j v ∧
        i ≤ j ∧ (j = i ↔ ∀ later other, i < later → ids[later]? = some other → other.key ≠ .ok key) ∧
        (∀ b, Blueprint.ofValue v = .ok b →
          set.load id = (Level.build b).map fun level => some (level.named id)) ∧
        (set.load id = .ok none ↔ ∃ first more, Blueprint.ofValue v = .issues first more) := by
  intro ids
  refine ⟨addFrom_ok_iff, fun c made => ?_⟩
  have order : c.order = ids := addFrom_order made
  refine ⟨congrArg Except.ok order, List.length_mapIdx, fun i id listed => ?_⟩
  obtain ⟨key, j, v, keyed, latest, served⟩ := load_latest made (List.mem_of_getElem? listed)
  obtain ⟨behind, own⟩ := latest.place listed keyed
  rw [LevelSet.load, served]
  exact ⟨key, j, v, keyed, latest, behind, own, ofAsked_describes id v⟩

/-- A level whose id is the position of the next one, which has none: at both places, the second one is
served. -/
theorem ofItems_serves_second :
    let items : List Value :=
      [.obj [("id", .int 2), ("title", .str "first")], .obj [("title", .str "second")]]
    ∃ c, ofItems items = .ok c ∧ (LevelSet.catalog c).ids = .ok [.int 2, .int 2] ∧
      ((LevelSet.catalog c).load (.int 2)).map (fun level => level.map (·.blueprint.title)) =
        .ok (some "second") := by
  intro items
  obtain ⟨⟨_, makes⟩, serves⟩ := ofItems_serves items
  have ids : items.mapIdx (fun i v => idAt (i + 1) v) = [.int 2, .int 2] := rfl
  rw [ids] at makes serves
  obtain ⟨c, made⟩ := makes (List.forall_mem_cons.mpr ⟨⟨_, rfl⟩, List.forall_mem_singleton.mpr ⟨_, rfl⟩⟩)
  obtain ⟨order, _, places⟩ := serves c made
  obtain ⟨key, j, v, keyed, latest, _, _, level, _⟩ := places 0 (.int 2) rfl
  have last : 1 ≤ j := (latest.place (i := 1) rfl keyed).1
  have item := latest.item
  match j, last with
  | 1, _ =>
    cases item
    refine ⟨c, made, order, ?_⟩
    rw [level _ rfl]
    rfl
  | j + 2, _ => cases item

end Catalog
end TilePuzzle
