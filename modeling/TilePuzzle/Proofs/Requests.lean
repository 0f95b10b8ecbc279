import TilePuzzle.Proofs.Delivery
import TilePuzzle.Proofs.Opening

/-! Requests to a service. A service keeps two things under an id, the session in its lobby and what is
beside its game; a call about a session is decided by these two, and each request is described once by
what it leaves under every id. -/
namespace TilePuzzle

namespace Service

section tables
variable {α : Type} (table : List (String × α)) (id other : String)

theorem lookup_replace (a : α) :
    (table.map fun e => if e.1 = id then (id, a) else e).lookup other =
      if other = id then (table.lookup id).map fun _ => a else table.lookup other := by
  induction table with
  | nil => simp
  | cons e rest ih =>
    obtain ⟨key, b⟩ := e
    by_cases here : key = id
    · simp only [List.map_cons, here, if_true, lookup_cons_if, ih]
      by_cases same : other = id <;> simp [same]
    · simp only [List.map_cons, here, if_false, lookup_cons_if, ih]
      by_cases same : other = id
      · simp [same, Ne.symm here]
      · simp [same]

theorem lookup_remove :
    (table.filter fun e => e.1 != id).lookup other =
      if other = id then none else table.lookup other := by
  refine (lookup_filter table other (· != id)).trans ?_
  by_cases same : other = id <;> simp [same]

theorem lookup_add (a : α) :
    (table ++ [(id, a)]).lookup other =
      (table.lookup other).or (if other = id then some a else none) := by
  simp [List.lookup_append, lookup_cons_if]

theorem mem_ids_iff : id ∈ table.map (·.1) ↔ (table.lookup id).isSome = true := by
  simp only [List.lookup_isSome_iff, List.mem_map, beq_iff_eq, eq_comm (b := id)]

theorem mem_of_lookup {a : α} (found : table.lookup id = some a) : (id, a) ∈ table := by
  obtain ⟨before, later, split, _⟩ := List.lookup_eq_some_iff.mp found
  simp [split]

end tables

/-- What a service keeps under an id: the session in its lobby, and what is beside its game. -/
def kept (s : Service) (id : String) : Option Session × Option Backstage :=
  (s.lobby.find? id, s.stages.lookup id)

def gameIds (s : Service) : List String := s.stages.map (·.1)

theorem kept_game {s t : Service} {id : String} (same : t.kept id = s.kept id) :
    t.game? id = s.game? id := by
  obtain ⟨sessions, stages⟩ := Prod.mk.inj same
  simp only [game?, sessions, stages]

theorem game_iff {s : Service} {id : String} {g : Game} :
    s.game? id = some g ↔ s.kept id = (some g.session, some g.backstage) := by
  simp only [game?, kept, Prod.mk.injEq]
  cases s.lobby.find? id with
  | none => simp
  | some session =>
    cases s.stages.lookup id with
    | none => simp
    | some backstage =>
      obtain ⟨other, beside⟩ := g
      simp

theorem setGame_kept (s : Service) (id : String) (g : Game) (other : String) :
    (s.setGame id g).kept other = if other = id then
      ((s.kept id).1.map fun _ => g.session, (s.kept id).2.map fun _ => g.backstage)
      else s.kept other := by
  simp only [kept, setGame, Lobby.find?, Lobby.update, lookup_replace]
  by_cases same : other = id <;> simp [same]

theorem finish_kept (s : Service) (id other : String) :
    (s.finish id).2.kept other = if other = id then (none, none) else s.kept other := by
  simp only [kept, finish, Lobby.find?, Lobby.finish_sessions, lookup_remove]
  by_cases same : other = id <;> simp [same]

theorem drop_kept (s : Service) (id other : String) :
    ({ s with lobby := (s.lobby.finish id).2 } : Service).kept other =
      (if other = id then none else (s.kept other).1, (s.kept other).2) := by
  simp only [kept, Lobby.find?, Lobby.finish_sessions, lookup_remove]

theorem finish_found (s : Service) (id : String) : (s.finish id).1 = (s.kept id).1.isSome := by
  simp only [finish, Lobby.finish, kept]
  cases s.lobby.find? id <;> rfl

/-- One game takes the place of another; nothing else changes, and no table gains or loses an id. -/
structure Moves (s : Service) (id : String) (g : Game) (after : Service) : Prop where
  kept : ∀ other, after.kept other =
    if other = id then (some g.session, some g.backstage) else s.kept other
  ids : after.ids = s.ids
  gameIds : after.gameIds = s.gameIds
  issued : after.lobby.issued = s.lobby.issued
  config : after.lobby.config = s.lobby.config
  predicates : after.predicates = s.predicates

section moves
variable {s : Service} {id : String} {g : Game} (found : s.game? id = some g)
include found

theorem moves_stay : s.Moves id g s := by
  refine ⟨?_, rfl, rfl, rfl, rfl, rfl⟩
  intro other
  by_cases same : other = id
  · rw [if_pos same, same]
    exact game_iff.mp found
  · rw [if_neg same]

theorem moves_setGame (after : Game) : s.Moves id after (s.setGame id after) := by
  refine ⟨?_, replace_ids id _, replace_ids id _, rfl, rfl, rfl⟩
  intro other
  rw [setGame_kept, game_iff.mp found]
  rfl

end moves

inductive Call
  | get
  | state
  | input (r : InputRequest)
  | tick (r : TickRequest)
  | retry
  | advance
  | jump (r : JumpRequest)

/-- What can be asked of a service, and of its lobby about one session. -/
inductive Request
  | call (id : String) (call : Call)
  | create (r : CreateRequest) (time : Float)
  | finish (id : String)
  /-- The lobby ends the session by itself. -/
  | drop (id : String)
  | list
  | review (v : Value)

inductive Reply
  | session (r : SessionReply)
  | state (r : StateReply)
  | ticked (r : TickReply)
  | finished (found : Bool)
  | listed (ids : List String)
  | reviewed (r : Review)

def replied {α : Type} (reply : α → Reply) (answer : Answer α) : Answer Reply :=
  (answer.1.map reply, answer.2)

def call (s : Service) (id : String) : Call → Answer Reply
  | .get => replied .session (s.get id)
  | .state => replied .state (s.state id)
  | .input r => replied .session (s.input id r)
  | .tick r => replied .ticked (s.tick id r)
  | .retry => replied .session (s.retry id)
  | .advance => replied .session (s.advance id)
  | .jump r => replied .session (s.jump id r)

def serve (s : Service) : Request → Answer Reply
  | .call id c => s.call id c
  | .create r time => replied .session (s.create r (.float time))
  | .finish id => (.ok (.finished (s.finish id).1), (s.finish id).2)
  | .drop id => (.ok (.finished (s.lobby.finish id).1), { s with lobby := (s.lobby.finish id).2 })
  | .list => (.ok (.listed s.ids), s)
  | .review v => ((s.review v).map .reviewed, s)

def serveAll (s : Service) (requests : List Request) : Service :=
  requests.foldl (fun s r => (s.serve r).2) s

def Known {α : Type} (answer : Except Failure α) : Prop :=
  ∀ id, answer ≠ .error (.unknownSession id)

section known
variable {α β : Type}

theorem known_ok (a : α) : Known (.ok a) := nofun

theorem known_orFault (result : Except Fault α) : Known (orFault result) := by
  cases result <;> exact nofun

theorem known_map {answer : Except Failure α} (known : Known answer) (f : α → β) :
    Known (answer.map f) := by
  intro id failed
  cases answer with
  | error e => cases failed; exact known id rfl
  | ok a => contradiction

theorem known_bind {answer : Except Failure α} (known : Known answer) {next : α → Except Failure β}
    (later : ∀ a, Known (next a)) : Known (answer >>= next) := by
  intro id failed
  cases answer with
  | error e => cases failed; exact known id rfl
  | ok a => exact later a id failed

theorem known_replyId (level : Option Level) : Known (replyId level) := by
  unfold replyId
  split <;> exact nofun

theorem known_session (id : String) (s : Session) (accepted : Option Bool) :
    Known (SessionReply.ofSession id s accepted) := by
  refine known_bind (known_replyId s.level) fun _ => known_bind (known_orFault _) fun _ => ?_
  exact known_ok _

theorem known_player (p : Player) : Known (PlayerView.ofPlayer p) := by
  unfold PlayerView.ofPlayer
  split
  · exact known_map (known_orFault _) _
  · exact known_ok _

theorem known_state (id : String) (s : Session) : Known (StateReply.ofSession id s) := by
  unfold StateReply.ofSession
  split
  · exact known_ok _
  next level _ =>
    refine known_bind (known_player _) fun _ => known_bind (known_replyId (some level)) fun _ => ?_
    exact known_ok _

theorem known_load (id : String) (g : Game) (result : Except Fault Bool) :
    Known (loadAnswer id g result) := by
  unfold loadAnswer
  split
  · exact known_ok _
  · exact nofun
  · split <;> exact nofun

end known

/-- A move that decides an operation on a session: where its game is found it gives the answer and the
game that comes in its place, and otherwise nothing happens. -/
structure Decides (id : String) (run : Service → Answer Reply)
    (move : Game → Except Failure Reply × Game) : Prop where
  missing : ∀ s : Service, s.game? id = none → run s = (.error (.unknownSession id), s)
  answer : ∀ (s : Service) g, s.game? id = some g → (run s).1 = (move g).1
  moves : ∀ (s : Service) g, s.game? id = some g → s.Moves id (move g).2 (run s).2
  known : ∀ g, Known (move g).1
  plays : ∀ g, ∃ ops, (move g).2 = g.play ops

theorem ask_decides {α : Type} (id : String) {reply : Game → Except Failure α}
    (known : ∀ g, Known (reply g)) (wrap : α → Reply) :
    Decides id (fun s => replied wrap (s.ask id reply)) fun g => ((reply g).map wrap, g) where
  missing s none := by simp only [replied, ask, none]; rfl
  answer s g found := by simp only [replied, ask, found]
  moves s g found := by simp only [replied, ask, found]; exact moves_stay found
  known g := known_map (known g) wrap
  plays g := ⟨[], rfl⟩

theorem play_decides {α : Type} (id : String) {move : Game → Except Failure α × Game}
    (known : ∀ g, Known (move g).1) (plays : ∀ g, ∃ ops, (move g).2 = g.play ops) (wrap : α → Reply) :
    Decides id (fun s => replied wrap (s.play id move)) fun g => ((move g).1.map wrap, (move g).2) where
  missing s none := by simp only [replied, play, none]; rfl
  answer s g found := by simp only [replied, play, found]
  moves s g found := by simp only [replied, play, found]; exact moves_setGame found _
  known g := known_map (known g) wrap
  plays g := plays g

theorem go_decides (id : String) (op : Game.Op) {move : Game → Except Fault Bool × Game}
    (performs : ∀ g, (move g).2 = g.perform op) :
    ∃ decision, Decides id (fun s => replied .session (s.go id move)) decision := by
  refine ⟨_, play_decides id ?_ ?_ .session⟩
  · intro g
    have known := known_load id (move g).2 (move g).1
    simp only
    split
    next e failed =>
      rw [failed] at known
      intro other same
      cases same
      exact known other rfl
    next => exact known_session id _ none
  · intro g
    refine ⟨[op], ?_⟩
    simp only
    split <;> exact performs g

/-- Whatever is asked about a session is decided by a move of its game. -/
theorem call_decides (id : String) (c : Call) : ∃ move, Decides id (fun s => s.call id c) move := by
  cases c with
  | get => exact ⟨_, ask_decides id (fun g => known_session id g.session none) .session⟩
  | state => exact ⟨_, ask_decides id (fun g => known_state id g.session) .state⟩
  | input r =>
    refine ⟨_, play_decides id ?_ ?_ .session⟩
    · intro g
      split
      · exact nofun
      · exact known_session id _ _
    · intro g
      refine ⟨[.push (.str r.direction)], ?_⟩
      change _ = (g.push _).2
      split <;> next pushed => rw [pushed]
  | tick r =>
    refine ⟨_, play_decides id ?_ ?_ .ticked⟩
    · intro g
      split
      · exact nofun
      · exact known_bind (known_player _) fun _ => known_ok _
    · intro g
      obtain ⟨k, _, same, _⟩ := Game.run_delivers r.count g
      refine ⟨List.replicate k .tick, ?_⟩
      rw [← same]
      split <;> next ran => rw [ran]
  | retry => exact go_decides id .retry fun _ => rfl
  | advance => exact go_decides id .advance fun _ => rfl
  | jump r => exact go_decides id (.jump r.index) fun _ => rfl

section create
variable (s : Service) (other : String)

theorem enroll_kept (id : String) (session : Session) (issued : Nat) (g : Game) :
    ((s.enroll id { s.lobby with
      sessions := s.lobby.sessions ++ [(id, session)], issued }).setGame id g).kept other =
      if other = id then (some g.session, some g.backstage) else s.kept other := by
  rw [setGame_kept]
  simp only [kept, enroll, Lobby.find?, lookup_add, lookup_remove]
  by_cases same : other = id
  · cases s.lobby.sessions.lookup id <;> simp [same]
  · simp [same]

/-- Creating a session changes nothing but under the id that is given out; there it leaves nothing, or
the new session with its first level loaded as far as that went. -/
theorem create_kept (r : CreateRequest) (now : Number) :
    (s.create r now).2.kept other = s.kept other ∨
    other = Lobby.idOf s.lobby.issued ∧ ((s.create r now).2.kept other = (none, none) ∨
      ∃ levels session, Session.create s.lobby.config levels s.predicates now = .ok session ∧
        ∃ g, g = ((Game.mk session {}).load r.startIndex).2 ∧
          (s.create r now).2.kept other = (some g.session, some g.backstage)) := by
  rcases s.create_cases r now with ⟨e, _, ends⟩ | ⟨levels, _, ⟨f, _, ends⟩ | ⟨session, made, ends⟩⟩
  · rw [ends]; exact .inl rfl
  · rw [ends]; exact .inl rfl
  rw [ends]
  have entered := s.enroll_kept other (Lobby.idOf s.lobby.issued) session (s.lobby.issued + 1)
    ((Game.mk session {}).load r.startIndex).2
  by_cases new : other = Lobby.idOf s.lobby.issued
  · rw [if_pos new] at entered
    refine .inr ⟨new, ?_⟩
    simp only [openGame]
    split
    · exact .inr ⟨levels, session, made, _, rfl, entered⟩
    · rw [finish_kept, if_pos new]
      exact .inl rfl
    · exact .inr ⟨levels, session, made, _, rfl, entered⟩
  · rw [if_neg new] at entered
    left
    simp only [openGame]
    split
    · exact entered
    · rw [finish_kept, if_neg new]
      exact entered
    · exact entered

end create

/-- What is done to a service is asked of it, or its tables are changed. -/
inductive Op.View : Op → Prop
  | call {op : Op} (id : String) (c : Call) : (∀ s : Service, s.perform op = (s.call id c).2) → View op
  | create (r : CreateRequest) (time : Float) : View (.create r time)
  | finish (id : String) : View (.finish id)
  | drop (id : String) : View (.drop id)
  | cleanUp (now maxAge : Number) : View (.cleanUp now maxAge)
  | rewrite (read : FileReader) : View (.rewrite read)

theorem Op.view (op : Op) : op.View := by
  cases op with
  | create r time => exact .create r time
  | input id r => exact .call id (.input r) fun _ => rfl
  | tick id r => exact .call id (.tick r) fun _ => rfl
  | retry id => exact .call id .retry fun _ => rfl
  | advance id => exact .call id .advance fun _ => rfl
  | jump id r => exact .call id (.jump r) fun _ => rfl
  | finish id => exact .finish id
  | drop id => exact .drop id
  | cleanUp now maxAge => exact .cleanUp now maxAge
  | rewrite read => exact .rewrite read

/-- A call leaves the service as it is, or one game goes on. -/
theorem call_leaves (s : Service) (id : String) (c : Call) : (s.call id c).2 = s ∨
    ∃ g ops, s.game? id = some g ∧ s.Moves id (g.play ops) (s.call id c).2 := by
  obtain ⟨move, decides⟩ := call_decides id c
  cases found : s.game? id with
  | none => exact .inl (congrArg Prod.snd (decides.missing s found))
  | some g =>
    obtain ⟨ops, plays⟩ := decides.plays g
    exact .inr ⟨g, ops, rfl, plays ▸ decides.moves s g found⟩

theorem ask_stays {α : Type} (s : Service) (id : String) (reply : Game → Except Failure α) :
    (s.ask id reply).2 = s := by
  unfold ask
  split <;> rfl

/-- A request is a look at the service, or something that is done to it. -/
theorem serve_performs (r : Request) :
    (∀ s : Service, (s.serve r).2 = s) ∨ ∃ op, ∀ s : Service, (s.serve r).2 = s.perform op := by
  cases r with
  | call id c =>
    cases c with
    | get => exact .inl fun s => s.ask_stays id fun g => SessionReply.ofSession id g.session
    | state => exact .inl fun s => s.ask_stays id fun g => StateReply.ofSession id g.session
    | input r => exact .inr ⟨.input id r, fun _ => rfl⟩
    | tick r => exact .inr ⟨.tick id r, fun _ => rfl⟩
    | retry => exact .inr ⟨.retry id, fun _ => rfl⟩
    | advance => exact .inr ⟨.advance id, fun _ => rfl⟩
    | jump r => exact .inr ⟨.jump id r, fun _ => rfl⟩
  | create r time => exact .inr ⟨.create r time, fun _ => rfl⟩
  | finish id => exact .inr ⟨.finish id, fun _ => rfl⟩
  | drop id => exact .inr ⟨.drop id, fun _ => rfl⟩
  | list | review => exact .inl fun _ => rfl

end Service
end TilePuzzle
