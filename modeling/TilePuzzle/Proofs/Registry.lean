import TilePuzzle.Proofs.Requests

/-! The two tables of a service. Sessions are listed in the order in which they were created, and each
of them has its game; whatever else is done, an id that is no longer listed stays unlisted. -/
namespace TilePuzzle

def Session.isStale (now : Float) (maxAge : Number) (s : Session) : Bool :=
  match s.createdAt with
  | .float time => maxAge.less (.float (now - time)) && !s.isActive
  | .int _ => false

namespace Lobby

theorem finish_lobby (l : Lobby) (id : String) : (l.finish id).2 = l.without id := by
  have sessions := l.finish_sessions id
  unfold finish at sessions ⊢
  cases found : l.find? id with
  | some session => rfl
  | none =>
    simp only [found] at sessions
    simp only [without, ← sessions]

theorem finishAll_lobby (stale : List String) (l : Lobby) :
    stale.foldl (fun l id => (l.finish id).2) l =
      { l with sessions := l.sessions.filter fun e => e.1 ∉ stale } := by
  induction stale generalizing l with
  | nil => simp
  | cons id rest ih =>
    rw [List.foldl_cons, ih, finish_lobby]
    have same : ((l.sessions.filter fun e => e.1 != id).filter fun e => e.1 ∉ rest) =
        l.sessions.filter fun e => e.1 ∉ id :: rest := by
      rw [List.filter_filter]
      apply List.filter_congr
      intro e _
      by_cases here : e.1 = id <;> simp [here]
    simp only [without, same]

section cleanUp
variable {l : Lobby} (timed : ∀ e ∈ l.sessions, ∃ time, e.2.createdAt = .float time) (now : Float)
  (maxAge : Number)
include timed

theorem staleIds_eq : staleIds (.float now) maxAge l.sessions =
    .ok ((l.sessions.filter (·.2.isStale now maxAge)).map (·.1)) := by
  generalize l.sessions = sessions at timed
  induction sessions with
  | nil => rfl
  | cons e rest ih =>
    obtain ⟨id, s⟩ := e
    obtain ⟨time, created⟩ := timed _ (List.mem_cons_self ..)
    change s.createdAt = .float time at created
    have later := ih fun e member => timed e (List.mem_cons_of_mem _ member)
    have older : isOlder (.float now) maxAge s = .ok (maxAge.less (.float (now - time))) := by
      simp only [isOlder, created]
      rfl
    have stale : s.isStale now maxAge = (maxAge.less (.float (now - time)) && !s.isActive) := by
      simp only [Session.isStale, created]
    simp only [staleIds, older, later, bind, Except.bind, pure, Except.pure, List.filter_cons, stale]
    split <;> rfl

/-- Cleaning up ends the sessions that are too old and not being played, and counts them. -/
theorem cleanUp_eq (distinct : l.ids.Nodup) : l.cleanUp (.float now) maxAge =
    (.ok (l.sessions.countP (·.2.isStale now maxAge)),
      { l with sessions := l.sessions.filter fun e => !e.2.isStale now maxAge }) := by
  have ended : (l.sessions.filter fun e =>
      e.1 ∉ (l.sessions.filter (·.2.isStale now maxAge)).map (·.1)) =
      l.sessions.filter fun e => !e.2.isStale now maxAge := by
    apply List.filter_congr
    intro e member
    have stale : e.1 ∈ (l.sessions.filter (·.2.isStale now maxAge)).map (·.1) ↔
        e.2.isStale now maxAge = true := by
      constructor
      · intro listed
        obtain ⟨other, inside, same⟩ := List.mem_map.mp listed
        obtain ⟨inside, stale⟩ := List.mem_filter.mp inside
        cases List.inj_on_of_nodup_map distinct inside member same
        exact stale
      · intro stale
        exact List.mem_map_of_mem (List.mem_filter.mpr ⟨member, stale⟩)
    simp only [stale]
    cases e.2.isStale now maxAge <;> rfl
  simp only [cleanUp, staleIds_eq timed, finishAll_lobby, ended, List.length_map,
    List.countP_eq_length_filter]

end cleanUp

end Lobby

namespace Service

/-- Operations of the lobby itself, which knows nothing of the games. -/
def Op.isOwn : Op → Bool
  | drop _ | cleanUp .. => true
  | _ => false

def firstIds (n : Nat) : List String := (List.range n).map Lobby.idOf

theorem firstIds_succ (n : Nat) : firstIds (n + 1) = firstIds n ++ [Lobby.idOf n] := by
  simp [firstIds, List.range_succ]

theorem firstIds_nodup (n : Nat) : (firstIds n).Nodup :=
  List.nodup_range.map fun _ _ => Lobby.idOf_injective

/-- What an operation does to the ids: nothing, or the next one is given out, or one of them is gone
from both tables, or the lobby itself ends sessions. -/
inductive Shifts (s : Service) (op : Op) (after : Service) : Prop
  | stay : after.ids = s.ids → after.gameIds = s.gameIds → s.lobby.issued ≤ after.lobby.issued →
      Shifts s op after
  | gain : after.ids = s.ids ++ [Lobby.idOf s.lobby.issued] →
      after.gameIds = s.gameIds ++ [Lobby.idOf s.lobby.issued] →
      after.lobby.issued = s.lobby.issued + 1 → Shifts s op after
  | lose (id : String) : after.ids = s.ids.filter (· != id) →
      after.gameIds = s.gameIds.filter (· != id) → after.lobby.issued = s.lobby.issued →
      Shifts s op after
  | own : op.isOwn = true → after.ids.Sublist s.ids → after.gameIds = s.gameIds →
      after.lobby.issued = s.lobby.issued → Shifts s op after

theorem ids_filter {α : Type} (table : List (String × α)) (id : String) :
    (table.filter fun e => e.1 != id).map (·.1) = (table.map (·.1)).filter (· != id) := by
  rw [List.filter_map]
  rfl

theorem finish_ids (s : Service) (id : String) : (s.finish id).2.ids = s.ids.filter (· != id) := by
  change (s.lobby.finish id).2.sessions.map (·.1) = _
  rw [Lobby.finish_sessions]
  exact ids_filter s.lobby.sessions id

theorem finish_gameIds (s : Service) (id : String) :
    (s.finish id).2.gameIds = s.gameIds.filter (· != id) := ids_filter s.stages id

theorem cleanUp_ids (l : Lobby) (now maxAge : Number) : ((l.cleanUp now maxAge).2.ids).Sublist l.ids ∧
    (l.cleanUp now maxAge).2.issued = l.issued := by
  unfold Lobby.cleanUp
  split
  · exact ⟨List.Sublist.refl _, rfl⟩
  next stale _ =>
    rw [Lobby.finishAll_lobby]
    exact ⟨List.filter_sublist.map _, rfl⟩

theorem Gains.shifts {s after : Service} {g : Game}
    (gains : s.Gains after (Lobby.idOf s.lobby.issued) g) (op : Op) : s.Shifts op after := by
  refine .gain ?_ ?_ gains.issued
  · simp [ids, Lobby.ids, gains.sessions]
  · simp [gameIds, gains.stages]

theorem perform_shifts {s : Service} (issued : s.Issued) (op : Op) : s.Shifts op (s.perform op) := by
  cases op.view with
  | call id c same =>
    rw [same]
    rcases s.call_leaves id c with stays | ⟨g, ops, _, moves⟩
    · rw [stays]
      exact .stay rfl rfl (Nat.le_refl _)
    · exact .stay moves.ids moves.gameIds (Nat.le_of_eq moves.issued.symm)
  | create r time =>
    have opens := create_opens issued r time
    change s.Shifts _ (s.create r (.float time)).2
    generalize s.create r (.float time) = outcome at opens
    cases opens with
    | opened _ named _ _ _ gains => exact (named ▸ gains).shifts _
    | refused _ alike =>
      refine .stay ?_ ?_ alike.issued
      · exact congrArg (List.map (·.1)) alike.sessions
      · exact congrArg (List.map (·.1)) alike.stages
    | stranded _ gains => exact gains.shifts _
  | finish id => exact .lose id (s.finish_ids id) (s.finish_gameIds id) (Lobby.finish_issued _ id)
  | drop id =>
    refine .own rfl ?_ rfl (Lobby.finish_issued _ id)
    exact (s.finish_ids id).symm ▸ List.filter_sublist
  | cleanUp now maxAge =>
    obtain ⟨fewer, count⟩ := cleanUp_ids s.lobby now maxAge
    exact .own rfl fewer rfl count
  | rewrite read => exact .stay (by simp [perform, ids, Lobby.ids]) rfl (Nat.le_refl _)

/-- Ids are given out one after the other, and none is ever taken back. -/
theorem perform_issued_le {s : Service} (issued : s.Issued) (op : Op) :
    s.lobby.issued ≤ (s.perform op).lobby.issued := by
  cases perform_shifts issued op with
  | stay _ _ count => exact count
  | gain _ _ count => omega
  | lose _ _ _ count => omega
  | own _ _ _ count => omega

theorem performAll_grows {s : Service} (issued : s.Issued) (ops : List Op) :
    (s.performAll ops).Issued ∧ s.lobby.issued ≤ (s.performAll ops).lobby.issued := by
  apply performAll_keeps (P := fun t => s.lobby.issued ≤ t.lobby.issued) _ issued (Nat.le_refl _)
  exact fun t op issued count => Nat.le_trans count (perform_issued_le issued op)

/-- An id that is listed was listed before, or it is the next one that is given out. -/
theorem perform_listed {s : Service} (issued : s.Issued) {op : Op} {id : String}
    (listed : id ∈ (s.perform op).ids) : id ∈ s.ids ∨ id = Lobby.idOf s.lobby.issued := by
  cases perform_shifts issued op with
  | stay ids => exact .inl (ids ▸ listed)
  | gain ids =>
    rw [ids, List.mem_append, List.mem_singleton] at listed
    exact listed
  | lose other ids =>
    rw [ids] at listed
    exact .inl (List.mem_filter.mp listed).1
  | own _ fewer => exact .inl (fewer.subset listed)

/-- The ids in both tables are in the order in which they were given out, and every session that is
listed has its game. -/
structure Registered (s : Service) : Prop where
  given : s.gameIds.Sublist (firstIds s.lobby.issued)
  played : s.ids.Sublist s.gameIds

theorem perform_registered {s : Service} (issued : s.Issued) (registered : s.Registered) (op : Op) :
    (s.perform op).Registered := by
  obtain ⟨given, played⟩ := registered
  cases perform_shifts issued op with
  | stay ids gameIds count =>
    refine ⟨?_, ids ▸ gameIds ▸ played⟩
    rw [gameIds]
    exact given.trans ((List.range_sublist.mpr count).map _)
  | gain ids gameIds count =>
    constructor
    · rw [gameIds, count, firstIds_succ]
      exact given.append (List.Sublist.refl _)
    · rw [ids, gameIds]
      exact played.append (List.Sublist.refl _)
  | lose id ids gameIds count =>
    constructor
    · rw [gameIds, count]
      exact List.filter_sublist.trans given
    · rw [ids, gameIds]
      exact played.filter _
  | own _ ids gameIds count =>
    constructor
    · rw [gameIds, count]
      exact given
    · rw [gameIds]
      exact ids.trans played

/-- A game whose session is not listed any more was left by the lobby. -/
theorem perform_unlists {s : Service} (issued : s.Issued) {op : Op} {id : String}
    (listed : id ∈ s.ids) (gone : id ∉ (s.perform op).ids) (left : id ∈ (s.perform op).gameIds) :
    op.isOwn = true := by
  cases perform_shifts issued op with
  | stay ids => exact absurd (ids ▸ listed) gone
  | gain ids => exact absurd (ids ▸ List.mem_append_left _ listed) gone
  | lose other ids gameIds =>
    rw [gameIds] at left
    rw [ids] at gone
    exact absurd (List.mem_filter.mpr ⟨listed, (List.mem_filter.mp left).2⟩) gone
  | own own => exact own

theorem perform_left {s : Service} (issued : s.Issued) {op : Op} {id : String}
    (left : id ∈ (s.perform op).gameIds) (gone : id ∉ (s.perform op).ids) : id ∈ s.gameIds := by
  cases perform_shifts issued op with
  | stay _ gameIds => exact gameIds ▸ left
  | gain ids gameIds =>
    rw [gameIds, List.mem_append] at left
    rw [ids, List.mem_append, not_or] at gone
    exact left.resolve_right gone.2
  | lose _ _ gameIds =>
    rw [gameIds] at left
    exact (List.mem_filter.mp left).1
  | own _ _ gameIds => exact gameIds ▸ left

/-- The files change below every game at once. -/
theorem rewrite_game (s : Service) (read : FileReader) (id : String) :
    (s.perform (.rewrite read)).game? id = (s.game? id).map (·.perform (.rewrite read)) := by
  have sessions : (s.perform (.rewrite read)).lobby.find? id =
      (s.lobby.find? id).map fun t => { t with levels := t.levels.rewrite read } := by
    change List.lookup id (s.lobby.sessions.map _) = (s.lobby.sessions.lookup id).map _
    induction s.lobby.sessions with
    | nil => rfl
    | cons e rest ih =>
      rw [List.map_cons, lookup_cons_if, ih, ← Prod.mk.eta (p := e), lookup_cons_if]
      split <;> rfl
  have stages : (s.perform (.rewrite read)).stages.lookup id = s.stages.lookup id := rfl
  simp only [game?, sessions, stages]
  cases s.lobby.find? id <;> cases s.stages.lookup id <;> rfl

theorem cleanUp_game {s : Service} {now maxAge : Number} {id : String} {g : Game}
    (playing : (s.perform (.cleanUp now maxAge)).game? id = some g) : s.game? id = some g := by
  change Service.game? { s with lobby := (s.lobby.cleanUp now maxAge).2 } id = some g at playing
  unfold Lobby.cleanUp at playing
  split at playing
  · exact playing
  next stale _ =>
    rw [game_iff] at playing ⊢
    simp only [Lobby.finishAll_lobby, kept, Lobby.find?, Prod.mk.injEq] at playing ⊢
    obtain ⟨session, backstage⟩ := playing
    rw [lookup_filter s.lobby.sessions id (fun key => decide (key ∉ stale))] at session
    split at session
    · exact ⟨session, backstage⟩
    · contradiction

/-- Every game of a service was there before and went on, or it is that of a new session. -/
theorem perform_game {s : Service} {op : Op} {id : String} {g : Game}
    (playing : (s.perform op).game? id = some g) :
    (∃ before ops, s.game? id = some before ∧ g = before.play ops) ∨
    ∃ levels time session ops,
      Session.create s.lobby.config levels s.predicates (.float time) = .ok session ∧
      g = (Game.mk session {}).play ops := by
  cases op.view with
  | call other c same =>
    rw [same] at playing
    rcases s.call_leaves other c with stays | ⟨before, ops, found, moves⟩
    · rw [stays] at playing
      exact .inl ⟨g, [], playing, rfl⟩
    · by_cases here : id = other
      · have goesOn := game_iff.mpr ((moves.kept id).trans (if_pos here))
        cases playing.symm.trans goesOn
        exact .inl ⟨before, ops, here ▸ found, rfl⟩
      · have stays := kept_game ((moves.kept id).trans (if_neg here))
        exact .inl ⟨g, [], stays.symm.trans playing, rfl⟩
  | create r time =>
    change (s.create r (.float time)).2.game? id = some g at playing
    rcases s.create_kept id r (.float time) with same | ⟨_, gone | ⟨levels, session, made, h, rfl, new⟩⟩
    · exact .inl ⟨g, [], (kept_game same).symm.trans playing, rfl⟩
    · cases gone.symm.trans (game_iff.mp playing)
    · cases playing.symm.trans (game_iff.mpr new)
      exact .inr ⟨levels, time, session, [.load r.startIndex], made, rfl⟩
  | finish other =>
    have now := game_iff.mp playing
    change (s.finish other).2.kept id = _ at now
    rw [finish_kept] at now
    split at now
    · cases now
    · exact .inl ⟨g, [], game_iff.mpr now, rfl⟩
  | drop other =>
    have now := game_iff.mp playing
    change Service.kept { s with lobby := (s.lobby.finish other).2 } id = _ at now
    rw [drop_kept] at now
    split at now
    · cases now
    · exact .inl ⟨g, [], game_iff.mpr now, rfl⟩
  | cleanUp now maxAge => exact .inl ⟨g, [], cleanUp_game playing, rfl⟩
  | rewrite read =>
    rw [rewrite_game] at playing
    obtain ⟨before, found, same⟩ := Option.map_eq_some_iff.mp playing
    exact .inl ⟨before, [.rewrite read], found, same.symm⟩

theorem perform_constants (s : Service) (op : Op) :
    (s.perform op).lobby.config = s.lobby.config ∧ (s.perform op).predicates = s.predicates := by
  cases op.view with
  | call id c same =>
    rw [same]
    rcases s.call_leaves id c with stays | ⟨g, ops, _, moves⟩
    · rw [stays]
      exact ⟨rfl, rfl⟩
    · exact ⟨moves.config, moves.predicates⟩
  | create r time =>
    change (s.create r (.float time)).2.lobby.config = _ ∧ (s.create r (.float time)).2.predicates = _
    rcases s.create_cases r (.float time) with
      ⟨e, _, ends⟩ | ⟨levels, _, ⟨f, _, ends⟩ | ⟨session, _, ends⟩⟩
    · rw [ends]; exact ⟨rfl, rfl⟩
    · rw [ends]; exact ⟨rfl, rfl⟩
    · rw [ends]
      simp only [openGame]
      split
      · exact ⟨rfl, rfl⟩
      · refine ⟨?_, rfl⟩
        change (Lobby.finish _ _).2.config = _
        rw [Lobby.finish_lobby]
        rfl
      · exact ⟨rfl, rfl⟩
  | finish id | drop id =>
    refine ⟨?_, rfl⟩
    change (s.lobby.finish id).2.config = _
    rw [Lobby.finish_lobby]
    rfl
  | cleanUp now maxAge =>
    refine ⟨?_, rfl⟩
    change (s.lobby.cleanUp now maxAge).2.config = _
    unfold Lobby.cleanUp
    split
    · rfl
    · rw [Lobby.finishAll_lobby]
  | rewrite read => exact ⟨rfl, rfl⟩

theorem performAll_unlisted {s : Service} (issued : s.Issued) {n : Nat} (given : n < s.lobby.issued)
    (gone : Lobby.idOf n ∉ s.ids) (later : List Op) : Lobby.idOf n ∉ (s.performAll later).ids := by
  refine (performAll_keeps (P := fun t => n < t.lobby.issued ∧ Lobby.idOf n ∉ t.ids) ?_ issued
    ⟨given, gone⟩ later).2.2
  rintro t op issued ⟨given, gone⟩
  refine ⟨Nat.lt_of_lt_of_le given (perform_issued_le issued op), fun listed => ?_⟩
  rcases perform_listed issued listed with before | next
  · exact gone before
  · have := Lobby.idOf_injective next
    omega

section run
variable (config : Config) (folder : Option (FileReader × String)) (predicates : Predicates)

theorem performAll_registered (ops : List Op) :
    ((started config folder predicates).performAll ops).Registered := by
  refine (performAll_keeps (P := Registered) ?_ (started_issued config folder predicates) ?_ ops).2
  · exact fun s op issued registered => perform_registered issued registered op
  · exact ⟨List.Sublist.refl _, List.Sublist.refl _⟩

/-- Where a game is left without a session, the lobby has ended that session by itself. -/
theorem performAll_left (ops : List Op) {id : String}
    (left : id ∈ ((started config folder predicates).performAll ops).gameIds) :
    id ∈ ((started config folder predicates).performAll ops).ids ∨
    ∃ before op rest, ops = before ++ op :: rest ∧ op.isOwn = true ∧
      id ∈ ((started config folder predicates).performAll before).ids ∧
      id ∉ ((started config folder predicates).performAll (before ++ [op])).ids := by
  induction ops using List.reverseRecOn with
  | nil => exact absurd left List.not_mem_nil
  | append_singleton before op ih =>
    have issued := performAll_issued config folder predicates before
    have last : (started config folder predicates).performAll (before ++ [op]) =
        ((started config folder predicates).performAll before).perform op := List.foldl_concat ..
    by_cases listed : id ∈ ((started config folder predicates).performAll (before ++ [op])).ids
    · exact .inl listed
    right
    have gone := listed
    rw [last] at left gone
    rcases ih (perform_left issued left gone) with here | ⟨earlier, other, rest, rfl, own, was, ended⟩
    · exact ⟨before, op, [], rfl, perform_unlists issued here gone left, here, listed⟩
    · exact ⟨earlier, other, rest ++ [op], by simp, own, was, ended⟩

/-- What holds of every session before its first level is loaded, and is kept by whatever is done to a
game, holds of every game of a service. -/
theorem performAll_games {P : Game → Prop}
    (created : ∀ levels time session,
      Session.create config levels predicates (.float time) = .ok session → P ⟨session, {}⟩)
    (keeps : ∀ g op, P g → P (g.perform op)) (ops : List Op) {id : String} {g : Game}
    (playing : ((started config folder predicates).performAll ops).game? id = some g) : P g := by
  refine (performAll_keeps (P := fun s => (s.lobby.config = config ∧ s.predicates = predicates) ∧
    ∀ id g, s.game? id = some g → P g) ?_ (started_issued config folder predicates) ?_ ops).2.2 id g
    playing
  · rintro s op _ ⟨⟨same, known⟩, holds⟩
    obtain ⟨config, predicates⟩ := s.perform_constants op
    refine ⟨⟨config.trans same, predicates.trans known⟩, fun id g playing => ?_⟩
    rcases perform_game playing with
      ⟨earlier, ops, found, rfl⟩ | ⟨levels, time, session, ops, made, rfl⟩
    · exact Game.play_keeps keeps (holds id earlier found) ops
    · rw [same, known] at made
      exact Game.play_keeps keeps (created levels time session made) ops
  · exact ⟨⟨rfl, rfl⟩, fun id g none => by contradiction⟩

end run

structure InStep (s : Service) : Prop where
  /-- Sessions are listed in the order of their creation, each one once. -/
  order : s.ids.Sublist (firstIds s.lobby.issued)
  distinct : s.ids.Nodup
  /-- Every session that is listed has its game, and that is a game of this session. -/
  played : s.ids.Sublist s.gameIds
  listed : ∀ id, id ∈ s.ids ↔ ∃ g, s.game? id = some g ∧ s.lobby.find? id = some g.session
  /-- A call about an id that is not listed is refused and changes nothing; no other call is refused
  for want of a session. -/
  unknown : ∀ id c, id ∉ s.ids → s.call id c = (.error (.unknownSession id), s)
  known : ∀ id c, id ∈ s.ids → Known (s.call id c).1
  /-- Ending a session says whether it was listed, and takes its id from both tables. -/
  found : ∀ id, (s.finish id).1 = decide (id ∈ s.ids)
  ended : ∀ id, (s.finish id).2.ids = s.ids.filter (· != id) ∧
    (s.finish id).2.gameIds = s.gameIds.filter (· != id)
  /-- Cleaning up removes the sessions that are too old and not being played, and counts them. -/
  cleaned : ∀ now maxAge, s.lobby.cleanUp (.float now) maxAge =
    (.ok (s.lobby.sessions.countP (·.2.isStale now maxAge)),
      { s.lobby with sessions := s.lobby.sessions.filter fun e => !e.2.isStale now maxAge })

theorem Registered.listed_iff {s : Service} (registered : s.Registered) (id : String) :
    id ∈ s.ids ↔ ∃ g, s.game? id = some g ∧ s.lobby.find? id = some g.session := by
  constructor
  · intro listed
    obtain ⟨session, found⟩ := Option.isSome_iff_exists.mp ((mem_ids_iff s.lobby.sessions id).mp listed)
    obtain ⟨backstage, kept⟩ :=
      Option.isSome_iff_exists.mp ((mem_ids_iff s.stages id).mp (registered.played.subset listed))
    exact ⟨⟨session, backstage⟩, game_iff.mpr (Prod.ext found kept), found⟩
  · rintro ⟨g, _, found⟩
    exact (mem_ids_iff s.lobby.sessions id).mpr (Option.isSome_iff_exists.mpr ⟨g.session, found⟩)

theorem Registered.inStep {s : Service} (registered : s.Registered)
    (timed : ∀ id g, s.game? id = some g → ∃ time, g.session.createdAt = .float time) : s.InStep := by
  have order := registered.played.trans registered.given
  have distinct := order.nodup (firstIds_nodup _)
  refine ⟨order, distinct, registered.played, registered.listed_iff, ?_, ?_, ?_, ?_, ?_⟩
  · intro id c unlisted
    obtain ⟨move, decides⟩ := call_decides id c
    apply decides.missing
    cases playing : s.game? id with
    | none => rfl
    | some g =>
      have here := (Prod.mk.inj (game_iff.mp playing)).1
      exact absurd ((registered.listed_iff id).mpr ⟨g, playing, here⟩) unlisted
  · intro id c listed
    obtain ⟨move, decides⟩ := call_decides id c
    obtain ⟨g, found, _⟩ := (registered.listed_iff id).mp listed
    rw [decides.answer s g found]
    exact decides.known g
  · intro id
    rw [finish_found, Bool.eq_iff_iff, decide_eq_true_iff]
    exact (mem_ids_iff s.lobby.sessions id).symm
  · exact fun id => ⟨s.finish_ids id, s.finish_gameIds id⟩
  · intro now maxAge
    refine Lobby.cleanUp_eq ?_ now maxAge distinct
    intro e member
    obtain ⟨g, playing, here⟩ := (registered.listed_iff e.1).mp (List.mem_map_of_mem member)
    have same := List.inj_on_of_nodup_map distinct (mem_of_lookup _ _ here) member rfl
    exact same ▸ timed e.1 g playing

theorem performAll_timed (config : Config) (folder : Option (FileReader × String))
    (predicates : Predicates) (ops : List Op) {id : String} {g : Game}
    (playing : ((started config folder predicates).performAll ops).game? id = some g) :
    ∃ time, g.session.createdAt = .float time := by
  refine (performAll_games config folder predicates
    (P := fun g => g.session.Coherent ∧ ∃ time, g.session.createdAt = .float time) ?_ ?_ ops playing).2
  · intro levels time session made
    obtain ⟨_, _, _, _, _, clock⟩ := Session.create_fresh made
    exact ⟨Session.create_coherent made, time, clock⟩
  · rintro g op ⟨coherent, time, created⟩
    exact ⟨Game.perform_coherent g op coherent, time,
      (Game.perform_sameSet coherent op).createdAt.trans created⟩

/-- Whatever is done to a service, also by its lobby alone and at whatever times, its tables are in
step, but for games of sessions that the lobby has ended by itself; and a session that was listed once
and is gone stays gone. -/
theorem performAll_inStep (config : Config) (folder : Option (FileReader × String))
    (predicates : Predicates) (ops : List Op) (s : Service)
    (here : s = (started config folder predicates).performAll ops) :
    s.InStep ∧
    (∀ id ∈ s.gameIds, id ∈ s.ids ∨ ∃ before op rest, ops = before ++ op :: rest ∧ op.isOwn = true ∧
      id ∈ ((started config folder predicates).performAll before).ids ∧
      id ∉ ((started config folder predicates).performAll (before ++ [op])).ids) ∧
    (∀ id more later, id ∈ s.ids → id ∉ (s.performAll more).ids →
      id ∉ ((s.performAll more).performAll later).ids) := by
  subst here
  refine ⟨?_, fun id => performAll_left config folder predicates ops, ?_⟩
  · apply (performAll_registered config folder predicates ops).inStep
    exact fun id g => performAll_timed config folder predicates ops
  · intro id more later listed gone
    have issued := performAll_issued config folder predicates ops
    obtain ⟨n, less, rfl⟩ := issued.sessions id listed
    obtain ⟨still, count⟩ := performAll_grows issued more
    exact performAll_unlisted still (Nat.lt_of_lt_of_le less count) gone later

/-- A session is ended by the service, another one by its lobby. -/
theorem performAll_inStep_dropped :
    let create : Op := .create { levels := some [[]] } 0
    let ops : List Op := [create, create, create, .finish "s0", .drop "s1"]
    let s := (started {} none []).performAll ops
    s.InStep ∧ s.ids = ["s2"] ∧ s.gameIds = ["s1", "s2"] ∧
    (∀ id ∈ s.gameIds, id ∈ s.ids ∨ ∃ before op rest, ops = before ++ op :: rest ∧ op.isOwn = true ∧
      id ∈ ((started {} none []).performAll before).ids ∧
      id ∉ ((started {} none []).performAll (before ++ [op])).ids) := by
  intro create ops s
  obtain ⟨inStep, left, _⟩ := performAll_inStep {} none [] ops s rfl
  exact ⟨inStep, by decide +kernel, by decide +kernel, left⟩

/-- A session that is not listed can be ended, which does not fail; and a session that the lobby ends
leaves its game behind. -/
theorem ended_unlisted :
    let s := (started {} none []).performAll [.create { levels := some [[]] } 0, .drop "s0"]
    "s0" ∉ s.ids ∧ "s0" ∈ s.gameIds ∧ (s.serve (.finish "s0")).1 = .ok (.finished false) := by
  intro s
  exact ⟨by decide +kernel, by decide +kernel, rfl⟩

end Service
end TilePuzzle
