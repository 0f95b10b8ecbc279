import TilePuzzle.Game

/-! The lobby: all sessions that are alive, in the order of their creation. -/
namespace TilePuzzle

structure Lobby where
  config : Config := {}
  sessions : List (String × Session) := []
  /-- How many ids were given out; an id is never given twice. -/
  issued : Nat := 0

namespace Lobby

/-- Ids are numbered and never used twice. -/
def idOf (n : Nat) : String := "s" ++ toString n

/-- Creates a session. Its id is used up even if that fails. -/
def create (l : Lobby) (levels : LevelSet) (predicates : Predicates) (now : Number) :
    Except Fault (String × Session) × Lobby :=
  let id := idOf l.issued
  let l := { l with issued := l.issued + 1 }
  match Session.create l.config levels predicates now with
  | .error f => (.error f, l)
  | .ok session => (.ok (id, session), { l with sessions := l.sessions ++ [(id, session)] })

def find? (l : Lobby) (id : String) : Option Session := l.sessions.lookup id

def update (l : Lobby) (id : String) (session : Session) : Lobby :=
  { l with sessions := l.sessions.map fun e => if e.1 = id then (id, session) else e }

def without (l : Lobby) (id : String) : Lobby :=
  { l with sessions := l.sessions.filter fun e => e.1 != id }

def finish (l : Lobby) (id : String) : Bool × Lobby :=
  match l.find? id with
  | none => (false, l)
  | some _ => (true, l.without id)

def ids (l : Lobby) : List String := l.sessions.map (·.1)

def activeIds (l : Lobby) : List String := (l.sessions.filter (·.2.isActive)).map (·.1)

def isOlder (now maxAge : Number) (s : Session) : Except Fault Bool :=
  (now.sub s.createdAt).map fun age => maxAge.less age

def staleIds (now maxAge : Number) : List (String × Session) → Except Fault (List String)
  | [] => .ok []
  | (id, s) :: rest => do
    let older ← isOlder now maxAge s
    let more ← staleIds now maxAge rest
    return if older && !s.isActive then id :: more else more

def cleanUp (l : Lobby) (now maxAge : Number) : Except Fault Nat × Lobby :=
  match staleIds now maxAge l.sessions with
  | .error f => (.error f, l)
  | .ok stale => (.ok stale.length, stale.foldl (fun l id => (l.finish id).2) l)

end Lobby
end TilePuzzle
