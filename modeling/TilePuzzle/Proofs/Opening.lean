import TilePuzzle.Proofs.Loading
import TilePuzzle.Service.Basic

/-! Opening a session in a service: either the session is there and being played, or nothing was
left behind; and the openings that break off in between and leave a session behind are told apart by
the levels alone. -/
namespace TilePuzzle

namespace Lobby

theorem idOf_injective {m n : Nat} (same : idOf m = idOf n) : m = n := by
  have digits : Nat.toDigits 10 m = Nat.toDigits 10 n := by
    have texts := congrArg String.toList same
    simp only [idOf, String.toList_append, List.append_cancel_left_eq] at texts
    simpa [toString, Nat.toList_repr] using texts
  rw [← Nat.ofDigitChars_ten_toDigits (n := m), digits, Nat.ofDigitChars_ten_toDigits]

theorem finish_sessions (l : Lobby) (id : String) :
    (l.finish id).2.sessions = l.sessions.filter fun e => e.1 != id := by
  unfold finish find?
  cases found : l.sessions.lookup id with
  | some session => rfl
  | none =>
    rw [List.lookup_eq_none_iff] at found
    symm
    rw [List.filter_eq_self]
    intro e member
    have differs := found e member
    simp only [ne_eq, bne_iff_ne] at differs ⊢
    exact Ne.symm differs

theorem finish_issued (l : Lobby) (id : String) : (l.finish id).2.issued = l.issued := by
  unfold finish
  split <;> rfl

end Lobby

namespace Service

inductive Op
  | create (r : CreateRequest) (time : Float)
  | input (id : String) (r : InputRequest)
  | tick (id : String) (r : TickRequest)
  | retry (id : String)
  | advance (id : String)
  | jump (id : String) (r : JumpRequest)
  | finish (id : String)
  /-- The lobby ends a session by itself; what is kept beside its game stays. -/
  | drop (id : String)
  | cleanUp (now maxAge : Number)
  /-- The files change. -/
  | rewrite (read : FileReader)

def perform (s : Service) : Op → Service
  | .create r time => (s.create r (.float time)).2
  | .input id r => (s.input id r).2
  | .tick id r => (s.tick id r).2
  | .retry id => (s.retry id).2
  | .advance id => (s.advance id).2
  | .jump id r => (s.jump id r).2
  | .finish id => (s.finish id).2
  | .drop id => { s with lobby := (s.lobby.finish id).2 }
  | .cleanUp now maxAge => { s with lobby := (s.lobby.cleanUp now maxAge).2 }
  | .rewrite read => { s with
      folder := s.folder.map fun f => (read, f.2)
      lobby := { s.lobby with sessions := s.lobby.sessions.map fun e =>
        (e.1, { e.2 with levels := e.2.levels.rewrite read }) } }

structure Issued (s : Service) : Prop where
  sessions : ∀ id ∈ s.lobby.sessions.map (·.1), ∃ n < s.lobby.issued, id = Lobby.idOf n
  stages : ∀ id ∈ s.stages.map (·.1), ∃ n < s.lobby.issued, id = Lobby.idOf n

theorem Issued.fresh {s : Service} (issued : s.Issued) :
    (∀ e ∈ s.lobby.sessions, e.1 ≠ Lobby.idOf s.lobby.issued) ∧
    (∀ e ∈ s.stages, e.1 ≠ Lobby.idOf s.lobby.issued) := by
  constructor
  · intro e member same
    obtain ⟨n, less, eq⟩ := issued.sessions e.1 (List.mem_map_of_mem member)
    have := Lobby.idOf_injective (eq.symm.trans same)
    omega
  · intro e member same
    obtain ⟨n, less, eq⟩ := issued.stages e.1 (List.mem_map_of_mem member)
    have := Lobby.idOf_injective (eq.symm.trans same)
    omega

section tables
variable {α : Type} {id : String} {table : List (String × α)}

theorem replace_fresh (fresh : ∀ e ∈ table, e.1 ≠ id) (a b : α) :
    ((table ++ [(id, a)]).map fun e => if e.1 = id then (id, b) else e) = table ++ [(id, b)] := by
  have same : (table.map fun e => if e.1 = id then (id, b) else e) = table.map fun e => e :=
    List.map_congr_left fun e member => if_neg (fresh e member)
  simp [same]

theorem remove_fresh (fresh : ∀ e ∈ table, e.1 ≠ id) :
    table.filter (fun e => e.1 != id) = table := by
  rw [List.filter_eq_self]
  intro e member
  simpa using fresh e member

theorem replace_ids (id : String) (a : α) :
    (table.map fun e => if e.1 = id then (id, a) else e).map (·.1) = table.map (·.1) := by
  rw [List.map_map]
  apply List.map_congr_left
  intro e member
  simp only [Function.comp]
  split
  next same => exact same.symm
  next => rfl

end tables

/-- Ids stay issued while no id comes up but the next one, and only once it is given out. -/
theorem Issued.grow {s after : Service} (issued : s.Issued)
    (count : s.lobby.issued ≤ after.lobby.issued)
    (sessions : ∀ id ∈ after.lobby.sessions.map (·.1), id ∈ s.lobby.sessions.map (·.1) ∨
      id = Lobby.idOf s.lobby.issued ∧ s.lobby.issued < after.lobby.issued)
    (stages : ∀ id ∈ after.stages.map (·.1), id ∈ s.stages.map (·.1) ∨
      id = Lobby.idOf s.lobby.issued ∧ s.lobby.issued < after.lobby.issued) : after.Issued := by
  have within {ids : List String} (old : ∀ id ∈ ids, ∃ n < s.lobby.issued, id = Lobby.idOf n)
      {id : String} (known : id ∈ ids ∨
        id = Lobby.idOf s.lobby.issued ∧ s.lobby.issued < after.lobby.issued) :
      ∃ n < after.lobby.issued, id = Lobby.idOf n := by
    rcases known with member | ⟨rfl, less⟩
    · obtain ⟨n, lt, same⟩ := old id member
      exact ⟨n, by omega, same⟩
    · exact ⟨_, less, rfl⟩
  constructor
  · intro id member
    exact within issued.sessions (sessions id member)
  · intro id member
    exact within issued.stages (stages id member)

theorem Issued.mono {s after : Service} (issued : s.Issued)
    (sessions : ∀ id ∈ after.lobby.sessions.map (·.1), id ∈ s.lobby.sessions.map (·.1))
    (stages : ∀ id ∈ after.stages.map (·.1), id ∈ s.stages.map (·.1))
    (count : after.lobby.issued = s.lobby.issued) : after.Issued :=
  issued.grow (Nat.le_of_eq count.symm) (fun id member => .inl (sessions id member))
    fun id member => .inl (stages id member)

theorem setGame_issued {s : Service} (issued : s.Issued) (id : String) (g : Game) :
    (s.setGame id g).Issued := by
  refine issued.mono ?_ ?_ rfl
  · simp only [setGame, Lobby.update, replace_ids]
    exact fun _ member => member
  · simp only [setGame, replace_ids]
    exact fun _ member => member

theorem play_issued {α : Type} {s : Service} (issued : s.Issued) (id : String)
    (move : Game → Except Failure α × Game) : (s.play id move).2.Issued := by
  unfold play
  split
  · exact issued
  · exact setGame_issued issued id _

theorem mem_filter_ids {α : Type} {table : List (String × α)} {keep : String × α → Bool}
    {id : String} (member : id ∈ (table.filter keep).map (·.1)) : id ∈ table.map (·.1) := by
  obtain ⟨e, inside, rfl⟩ := List.mem_map.mp member
  exact List.mem_map_of_mem (List.mem_filter.mp inside).1

theorem drop_issued {s : Service} (issued : s.Issued) (id : String) :
    ({ s with lobby := (s.lobby.finish id).2 } : Service).Issued := by
  refine issued.mono ?_ (fun _ member => member) (Lobby.finish_issued _ id)
  rw [Lobby.finish_sessions]
  exact fun _ member => mem_filter_ids member

theorem finish_issued {s : Service} (issued : s.Issued) (id : String) :
    (s.finish id).2.Issued := by
  refine issued.mono ?_ (fun _ member => mem_filter_ids member) (Lobby.finish_issued _ id)
  change ∀ other ∈ (s.lobby.finish id).2.sessions.map (·.1), _
  rw [Lobby.finish_sessions]
  exact fun _ member => mem_filter_ids member

theorem dropAll_issued (stale : List String) {s : Service} (issued : s.Issued) :
    ({ s with lobby := stale.foldl (fun l id => (l.finish id).2) s.lobby } : Service).Issued := by
  induction stale generalizing s with
  | nil => exact issued
  | cons id rest ih => exact ih (drop_issued issued id)

theorem cleanUp_issued {s : Service} (issued : s.Issued) (now maxAge : Number) :
    ({ s with lobby := (s.lobby.cleanUp now maxAge).2 } : Service).Issued := by
  unfold Lobby.cleanUp
  split
  · exact issued
  next stale _ => exact dropAll_issued stale issued

/-- A request for a session is refused before anything is done, or its levels cannot be listed and an
id is used up, or its session is created and its first level loaded. -/
theorem create_cases (s : Service) (r : CreateRequest) (now : Number) :
    (∃ e, s.requestLevels r = .error e ∧ s.create r now = (.error e, s)) ∨
    ∃ levels, s.requestLevels r = .ok levels ∧
      ((∃ f, Session.create s.lobby.config levels s.predicates now = .error f ∧
          s.create r now = (.error (.fault f),
            { s with lobby := { s.lobby with issued := s.lobby.issued + 1 } })) ∨
        ∃ session, Session.create s.lobby.config levels s.predicates now = .ok session ∧
          s.create r now = (s.enroll (Lobby.idOf s.lobby.issued)
            { s.lobby with
              sessions := s.lobby.sessions ++ [(Lobby.idOf s.lobby.issued, session)]
              issued := s.lobby.issued + 1 }).openGame
            (Lobby.idOf s.lobby.issued) session r.startIndex) := by
  unfold create
  cases s.requestLevels r with
  | error e => exact .inl ⟨e, rfl, rfl⟩
  | ok levels =>
    refine .inr ⟨levels, rfl, ?_⟩
    simp only [Lobby.create]
    cases Session.create s.lobby.config levels s.predicates now with
    | error f => exact .inl ⟨f, rfl, rfl⟩
    | ok session => exact .inr ⟨session, rfl, rfl⟩

section enroll
variable {s : Service} {id : String}

structure Gains (s after : Service) (id : String) (g : Game) : Prop where
  sessions : after.lobby.sessions = s.lobby.sessions ++ [(id, g.session)]
  stages : after.stages = s.stages ++ [(id, g.backstage)]
  issued : after.lobby.issued = s.lobby.issued + 1

/-- A service whose tables of sessions and of games are as before. -/
structure Alike (s after : Service) : Prop where
  sessions : after.lobby.sessions = s.lobby.sessions
  stages : after.stages = s.stages
  issued : s.lobby.issued ≤ after.lobby.issued

theorem enroll_gains (issued : s.Issued) (session : Session) (g : Game) :
    s.Gains ((s.enroll (Lobby.idOf s.lobby.issued) { s.lobby with
      sessions := s.lobby.sessions ++ [(Lobby.idOf s.lobby.issued, session)]
      issued := s.lobby.issued + 1 }).setGame (Lobby.idOf s.lobby.issued) g)
      (Lobby.idOf s.lobby.issued) g := by
  obtain ⟨sessions, stages⟩ := issued.fresh
  constructor
  · exact replace_fresh sessions session g.session
  · simp only [setGame, enroll]
    rw [remove_fresh stages]
    exact replace_fresh stages {} g.backstage
  · rfl

theorem finish_gained {after : Service} {g : Game}
    (sessions : ∀ e ∈ s.lobby.sessions, e.1 ≠ id) (stages : ∀ e ∈ s.stages, e.1 ≠ id)
    (gains : s.Gains after id g) : s.Alike (after.finish id).2 := by
  constructor
  · change (after.lobby.finish id).2.sessions = _
    rw [Lobby.finish_sessions, gains.sessions, List.filter_append, remove_fresh sessions]
    simp
  · change after.stages.filter (fun e => e.1 != id) = _
    rw [gains.stages, List.filter_append, remove_fresh stages]
    simp
  · change _ ≤ (after.lobby.finish id).2.issued
    rw [Lobby.finish_issued, gains.issued]
    omega

theorem Alike.keepsIssued {after : Service} (alike : s.Alike after) (issued : s.Issued) :
    after.Issued := by
  refine issued.grow alike.issued ?_ ?_
  · rw [alike.sessions]; exact fun _ => .inl
  · rw [alike.stages]; exact fun _ => .inl

theorem Gains.keepsIssued {after : Service} {g : Game}
    (gains : s.Gains after (Lobby.idOf s.lobby.issued) g) (issued : s.Issued) : after.Issued := by
  have less : s.lobby.issued < after.lobby.issued := by rw [gains.issued]; omega
  have new {α : Type} (table : List (String × α)) (a : α) (id : String)
      (member : id ∈ (table ++ [(Lobby.idOf s.lobby.issued, a)]).map (·.1)) :
      id ∈ table.map (·.1) ∨ id = Lobby.idOf s.lobby.issued ∧ s.lobby.issued < after.lobby.issued := by
    rw [List.map_append, List.mem_append] at member
    exact member.imp_right fun last => ⟨List.mem_singleton.mp last, less⟩
  refine issued.grow (Nat.le_of_lt less) ?_ ?_
  · rw [gains.sessions]; exact new _ _
  · rw [gains.stages]; exact new _ _

end enroll

/-- What breaks an opening off and leaves its session behind: a load that breaks with a fault that
does not blame a value, or a level whose id fits no reply. -/
inductive Strands (s : Service) (r : CreateRequest) (now : Number) : Failure → Prop
  | load {levels : LevelSet} {session : Session} {asked : Value} {f : Fault} :
      s.requestLevels r = .ok levels →
      Session.create s.lobby.config levels s.predicates now = .ok session →
      0 ≤ r.startIndex → session.levelIds[r.startIndex.toNat]? = some asked →
      Game.OpenBreaks levels s.lobby.config asked f → f.isBadValue = false →
      Strands s r now (.fault f)
  | reply {levels : LevelSet} {session : Session} {asked : Value} {level : Level} {e : Failure} :
      s.requestLevels r = .ok levels →
      Session.create s.lobby.config levels s.predicates now = .ok session →
      0 ≤ r.startIndex → session.levelIds[r.startIndex.toNat]? = some asked →
      levels.load asked = .ok (some level) → (∀ f, ¬Game.OpenBreaks levels s.lobby.config asked f) →
      replyId (some level) = .error e → Strands s r now e

/-- How an opening ends: with one more session that is being played, with an error and nothing left
behind, or with an error and a session left behind. -/
inductive Opens (s : Service) (r : CreateRequest) (now : Number) : Answer SessionReply → Prop
  | opened {reply : SessionReply} {g : Game} {after : Service} :
      (∀ e, ¬s.Strands r now e) → reply.id = Lobby.idOf s.lobby.issued → reply.stage = .active →
      g.session.stage = .active → (∃ level, g.session.level = some level) →
      s.Gains after reply.id g → Opens s r now (.ok reply, after)
  | refused {e : Failure} {after : Service} :
      (∀ e, ¬s.Strands r now e) → s.Alike after → Opens s r now (.error e, after)
  | stranded {e : Failure} {g : Game} {after : Service} :
      s.Strands r now e → s.Gains after (Lobby.idOf s.lobby.issued) g →
      Opens s r now (.error e, after)

theorem not_strands_of_unlisted {s : Service} {r : CreateRequest} {now : Number}
    (unlisted : ∀ levels session asked, s.requestLevels r = .ok levels →
      Session.create s.lobby.config levels s.predicates now = .ok session →
      0 ≤ r.startIndex → session.levelIds[r.startIndex.toNat]? = some asked → False)
    (e : Failure) : ¬s.Strands r now e := by
  intro strands
  cases strands with
  | load requested made nonneg listed => exact unlisted _ _ _ requested made nonneg listed
  | reply requested made nonneg listed => exact unlisted _ _ _ requested made nonneg listed

section strands
variable {s : Service} {r : CreateRequest} {now : Number} {levels : LevelSet} {session : Session}
  {asked : Value} (requested : s.requestLevels r = .ok levels)
  (made : Session.create s.lobby.config levels s.predicates now = .ok session)
  (nonneg : 0 ≤ r.startIndex) (listed : session.levelIds[r.startIndex.toNat]? = some asked)

include requested made nonneg listed

/-- With its levels and its first position known, what strands a request is decided by the level. -/
theorem strands_iff (e : Failure) : s.Strands r now e ↔
    (∃ f, Game.OpenBreaks levels s.lobby.config asked f ∧ f.isBadValue = false ∧ e = .fault f) ∨
    (∃ level, levels.load asked = .ok (some level) ∧
      (∀ f, ¬Game.OpenBreaks levels s.lobby.config asked f) ∧ replyId (some level) = .error e) := by
  constructor
  · intro strands
    cases strands with
    | load otherRequested otherMade _ otherListed breaks blameless =>
      cases requested.symm.trans otherRequested
      cases made.symm.trans otherMade
      cases listed.symm.trans otherListed
      exact .inl ⟨_, breaks, blameless, rfl⟩
    | reply otherRequested otherMade _ otherListed found unbroken malformed =>
      cases requested.symm.trans otherRequested
      cases made.symm.trans otherMade
      cases listed.symm.trans otherListed
      exact .inr ⟨_, found, unbroken, malformed⟩
  · rintro (⟨f, breaks, blameless, rfl⟩ | ⟨level, found, unbroken, malformed⟩)
    · exact .load requested made nonneg listed breaks blameless
    · exact .reply requested made nonneg listed found unbroken malformed

theorem strands_of_level {level : Level} (found : levels.load asked = .ok (some level))
    (unbroken : ∀ f, ¬Game.OpenBreaks levels s.lobby.config asked f) (e : Failure) :
    s.Strands r now e ↔ replyId (some level) = .error e := by
  rw [strands_iff requested made nonneg listed]
  constructor
  · rintro (⟨f, breaks, _⟩ | ⟨other, otherFound, _, malformed⟩)
    · exact absurd breaks (unbroken f)
    · cases found.symm.trans otherFound
      exact malformed
  · exact fun malformed => .inr ⟨level, found, unbroken, malformed⟩

theorem not_strands_of_absent (absent : levels.load asked = .ok none)
    (unbroken : ∀ f, ¬Game.OpenBreaks levels s.lobby.config asked f) (e : Failure) :
    ¬s.Strands r now e := by
  rw [strands_iff requested made nonneg listed]
  rintro (⟨f, breaks, _⟩ | ⟨level, found, _⟩)
  · exact unbroken f breaks
  · cases absent.symm.trans found

theorem strands_of_break {f : Fault} (breaks : Game.OpenBreaks levels s.lobby.config asked f)
    (e : Failure) : s.Strands r now e ↔ f.isBadValue = false ∧ e = .fault f := by
  rw [strands_iff requested made nonneg listed]
  constructor
  · rintro (⟨g, other, blameless, rfl⟩ | ⟨level, _, unbroken, _⟩)
    · cases Game.openBreaks_unique breaks other
      exact ⟨blameless, rfl⟩
    · exact absurd breaks (unbroken f)
  · rintro ⟨blameless, rfl⟩
    exact .inl ⟨f, breaks, blameless, rfl⟩

end strands

theorem ofSession_cases (id : String) {session : Session} {level : Level} {time : Float}
    (clock : session.createdAt = .float time) (here : session.level = some level) :
    (∃ e, replyId (some level) = .error e ∧ SessionReply.ofSession id session = .error e) ∨
    (∃ reply, (∀ e, replyId (some level) ≠ .error e) ∧
      SessionReply.ofSession id session = .ok reply ∧ reply.id = id ∧
      reply.stage = session.stage) := by
  unfold SessionReply.ofSession
  rw [here, clock]
  cases named : replyId (some level) with
  | error e => exact .inl ⟨e, rfl, rfl⟩
  | ok levelId => exact .inr ⟨_, nofun, rfl, rfl, rfl⟩

theorem openGame_refused {s : Service} {id : String} {session : Session} {index : Int} {g : Game}
    {result : Except Fault Bool} {r : Refusal}
    (loaded : (Game.mk session {}).load index = (result, g))
    (answer : loadAnswer id g result = .error (.refused r)) :
    s.openGame id session index = (.error (.refused r), ((s.setGame id g).finish id).2) := by
  simp only [openGame, loaded, answer]

section openGame
variable {s t : Service} {r : CreateRequest} {now : Number} {session : Session} {g : Game}

/-- Once the level is played, only the reply can fail. -/
theorem openGame_played {level : Level} {time : Float}
    (loaded : (Game.mk session {}).load r.startIndex = (.ok true, g))
    (stage : g.session.stage = .active) (here : g.session.level = some level)
    (clock : g.session.createdAt = .float time)
    (strands : ∀ e, s.Strands r now e ↔ replyId (some level) = .error e)
    (gains : s.Gains (t.setGame (Lobby.idOf s.lobby.issued) g) (Lobby.idOf s.lobby.issued) g) :
    s.Opens r now (t.openGame (Lobby.idOf s.lobby.issued) session r.startIndex) := by
  simp only [openGame, loaded, loadAnswer]
  rcases ofSession_cases (Lobby.idOf s.lobby.issued) clock here with
    ⟨e, malformed, failed⟩ | ⟨reply, fits, replied, named, told⟩
  · rw [failed]
    exact .stranded ((strands e).mpr malformed) gains
  · rw [replied]
    refine .opened ?_ named (told.trans stage) stage ⟨level, here⟩ (named ▸ gains)
    intro e stranded
    exact fits e ((strands e).mp stranded)

/-- A load that breaks is rolled back if its fault blames a value. -/
theorem openGame_broken {f : Fault}
    (loaded : (Game.mk session {}).load r.startIndex = (.error f, g))
    (strands : ∀ e, s.Strands r now e ↔ f.isBadValue = false ∧ e = .fault f)
    (gains : s.Gains (t.setGame (Lobby.idOf s.lobby.issued) g) (Lobby.idOf s.lobby.issued) g)
    (gone : s.Alike ((t.setGame (Lobby.idOf s.lobby.issued) g).finish
      (Lobby.idOf s.lobby.issued)).2) :
    s.Opens r now (t.openGame (Lobby.idOf s.lobby.issued) session r.startIndex) := by
  cases blamed : f.isBadValue with
  | true =>
    have answer : loadAnswer (Lobby.idOf s.lobby.issued) g (.error f) =
        .error (.refused (.badIndex f g.session.levelIds.length)) := if_pos blamed
    rw [openGame_refused loaded answer]
    refine .refused ?_ gone
    intro e stranded
    rw [((strands e).mp stranded).1] at blamed
    contradiction
  | false =>
    simp only [openGame, loaded, loadAnswer, blamed]
    exact .stranded ((strands _).mpr ⟨blamed, rfl⟩) gains

end openGame

/-- The first level of a new session is loaded, and the session stays or goes accordingly. -/
theorem openGame_opens {s : Service} (issued : s.Issued) {r : CreateRequest} {levels : LevelSet}
    {session : Session} {time : Float} (requested : s.requestLevels r = .ok levels)
    (made : Session.create s.lobby.config levels s.predicates (.float time) = .ok session) :
    s.Opens r (.float time) ((s.enroll (Lobby.idOf s.lobby.issued) { s.lobby with
      sessions := s.lobby.sessions ++ [(Lobby.idOf s.lobby.issued, session)]
      issued := s.lobby.issued + 1 }).openGame (Lobby.idOf s.lobby.issued) session r.startIndex) := by
  obtain ⟨newSessions, newStages⟩ := issued.fresh
  have gains := enroll_gains issued session
  generalize { s.lobby with
    sessions := s.lobby.sessions ++ [(Lobby.idOf s.lobby.issued, session)]
    issued := s.lobby.issued + 1 } = lobby at gains ⊢
  have gone (g : Game) := finish_gained newSessions newStages (gains g)
  obtain ⟨_, _, _, config, source, clock⟩ := Session.create_fresh made
  by_cases inside : 0 ≤ r.startIndex ∧ r.startIndex < session.levelIds.length
  · have lt : r.startIndex.toNat < session.levelIds.length := by omega
    have listed := List.getElem?_eq_getElem lt
    have ends := (Game.mk session {}).load_ends listed
    have kept := ((Game.mk session {}).load_sameSet r.startIndex).createdAt
    rw [Int.toNat_of_nonneg inside.1] at ends
    rw [show (Game.mk session {}).session = session from rfl, source, config] at ends
    rw [show (Game.mk session {}).session.createdAt = .float time from clock] at kept
    generalize loaded : (Game.mk session {}).load r.startIndex = outcome at ends kept
    cases ends with
    | @played level g unbroken found stage here =>
      exact openGame_played loaded stage here kept
        (strands_of_level requested made inside.1 listed found unbroken) (gains g)
    | absent unbroken none =>
      rw [openGame_refused loaded rfl]
      exact .refused (not_strands_of_absent requested made inside.1 listed none unbroken) (gone _)
    | @broken f g breaks =>
      exact openGame_broken loaded (strands_of_break requested made inside.1 listed breaks) (gains g)
        (gone g)
  · rw [openGame_refused (Game.load_outside inside) rfl]
    refine .refused (not_strands_of_unlisted ?_) (gone _)
    intro _ _ _ otherRequested otherMade nonneg listed
    cases requested.symm.trans otherRequested
    cases made.symm.trans otherMade
    have := (List.getElem?_eq_some_iff.mp listed).1
    omega

theorem create_opens {s : Service} (issued : s.Issued) (r : CreateRequest) (time : Float) :
    s.Opens r (.float time) (s.create r (.float time)) := by
  rcases s.create_cases r (.float time) with ⟨e, refused, ends⟩ | ⟨levels, requested, ends⟩
  · rw [ends]
    refine .refused (not_strands_of_unlisted ?_) ⟨rfl, rfl, Nat.le_refl _⟩
    intro levels _ _ requested
    rw [refused] at requested
    contradiction
  · rcases ends with ⟨f, failed, ends⟩ | ⟨session, made, ends⟩
    · rw [ends]
      refine .refused (not_strands_of_unlisted ?_) ⟨rfl, rfl, Nat.le_succ _⟩
      intro _ _ _ otherRequested made
      cases requested.symm.trans otherRequested
      rw [failed] at made
      contradiction
    · rw [ends]
      exact openGame_opens issued requested made

theorem create_issued {s : Service} (issued : s.Issued) (r : CreateRequest) (time : Float) :
    (s.create r (.float time)).2.Issued := by
  cases ends : s.create r (.float time) with
  | mk answer after =>
    have opens := create_opens issued r time
    rw [ends] at opens
    cases opens with
    | opened _ named _ _ _ gains => exact (named ▸ gains).keepsIssued issued
    | refused _ alike => exact alike.keepsIssued issued
    | stranded _ gains => exact gains.keepsIssued issued

theorem perform_issued {s : Service} (issued : s.Issued) (op : Op) : (s.perform op).Issued := by
  cases op with
  | create r time => exact create_issued issued r time
  | input | tick | retry | advance | jump => exact play_issued issued _ _
  | finish id => exact finish_issued issued id
  | drop id => exact drop_issued issued id
  | cleanUp now maxAge => exact cleanUp_issued issued now maxAge
  | rewrite read =>
    refine issued.mono ?_ (fun _ member => member) rfl
    simp [perform]

def started (config : Config) (folder : Option (FileReader × String)) (predicates : Predicates) :
    Service :=
  { lobby := { config }, folder, predicates }

def performAll (s : Service) (ops : List Op) : Service := ops.foldl perform s

/-- What every operation keeps is kept by any number of them. -/
theorem performAll_keeps {P : Service → Prop}
    (keeps : ∀ s op, s.Issued → P s → P (s.perform op)) {s : Service} (issued : s.Issued) (holds : P s)
    (ops : List Op) : (s.performAll ops).Issued ∧ P (s.performAll ops) := by
  induction ops generalizing s with
  | nil => exact ⟨issued, holds⟩
  | cons op rest ih => exact ih (perform_issued issued op) (keeps s op issued holds)

theorem started_issued (config : Config) (folder : Option (FileReader × String))
    (predicates : Predicates) : (started config folder predicates).Issued :=
  ⟨fun _ member => absurd member List.not_mem_nil, fun _ member => absurd member List.not_mem_nil⟩

theorem performAll_issued (config : Config) (folder : Option (FileReader × String))
    (predicates : Predicates) (ops : List Op) :
    ((started config folder predicates).performAll ops).Issued :=
  (performAll_keeps (P := fun _ => True) (fun _ _ _ _ => trivial)
    (started_issued config folder predicates) trivial ops).1

/-- Whatever was done before, opening a session leaves one more session that is being played, under an
id that was never used, or it leaves the tables as they were; except that a load that breaks without
blame of a value, or a level whose id fits no reply, strands the session. -/
theorem performAll_create_opens (config : Config) (folder : Option (FileReader × String))
    (predicates : Predicates) (ops : List Op) (r : CreateRequest) (time : Float) (s : Service)
    (here : s = (started config folder predicates).performAll ops) :
    (∀ id ∈ s.lobby.ids ++ s.stages.map (·.1), id ≠ Lobby.idOf s.lobby.issued) ∧
    s.Opens r (.float time) (s.create r (.float time)) := by
  have issued : s.Issued := here ▸ performAll_issued config folder predicates ops
  refine ⟨?_, create_opens issued r time⟩
  obtain ⟨sessions, stages⟩ := issued.fresh
  intro id member
  rcases List.mem_append.mp member with live | kept
  · obtain ⟨e, inside, rfl⟩ := List.mem_map.mp live
    exact sessions e inside
  · obtain ⟨e, inside, rfl⟩ := List.mem_map.mp kept
    exact stages e inside

/-- Conditions that cannot be walked through: the request fails, and its session stays behind, beside
the one that was there. -/
theorem performAll_create_stranded :
    let condition : Value := .obj [("type", .str "AND"), ("conditions", .int 5)]
    let r : CreateRequest := { levels := some [[("rules", .arr [.obj [("condition", condition)]])]] }
    let s := (started {} none []).performAll [.create { levels := some [[]] } 0]
    "s0" ≠ Lobby.idOf s.lobby.issued ∧ s.Opens r (.float 0) (s.create r (.float 0)) ∧
    (s.create r (.float 0)).1 = .error (.fault (.notIterable "int")) ∧
    (s.create r (.float 0)).2.lobby.ids = ["s0", "s1"] := by
  intro condition r s
  obtain ⟨new, opens⟩ :=
    performAll_create_opens {} none [] [.create { levels := some [[]] } 0] r 0 s rfl
  exact ⟨new "s0" (by decide +kernel), opens, rfl, by decide +kernel⟩

end Service
end TilePuzzle
