import TilePuzzle.Json.Reader
import TilePuzzle.Service.Basic

/-! The service over HTTP: which resource a path names, what a body may hold, and which status
stands for which answer. -/
namespace TilePuzzle.Http

inductive Body
  | absent
  | value (v : Value)
  | broken (c : Json.Complaint)
  /-- No document for a reason that is not told. -/
  | unparsable

/-- The body that a text is; a byte order mark is passed over. -/
def Body.ofText (s : String) : Body :=
  let chars := match s.toList with
    | '\ufeff' :: rest => rest
    | chars => chars
  if s = "" then .absent
  else match Json.read chars with
    | .ok v => .value v
    | .error (.complaint c) => .broken c
    | .error (.tooManyDigits _) => .unparsable

structure Request where
  method : String
  path : String
  body : Body

structure Response where
  status : Nat
  body : Value

inductive Action
  | input
  | tick
  | retry
  | advance
  | jump
  deriving DecidableEq

def Action.ofName? : String → Option Action
  | "input" => some input
  | "tick" => some tick
  | "retry" => some retry
  | "advance" => some advance
  | "jump" => some jump
  | _ => none

inductive Resource
  | root
  | health
  | validation
  | sessions
  | session (id : String)
  | state (id : String)
  | action (id : String) (a : Action)

namespace Resource

def ofSession? (id : String) : List String → Option Resource
  | [] => if id = "" then none else some (session id)
  | [last] =>
    if id = "" then none
    else if last = "state" then some (state id)
    else (Action.ofName? last).map (action id)
  | _ => none

/-- Paths are matched segment by segment; an id is any segment that is not empty. -/
def ofSegments? : List String → Option Resource
  | ["", ""] => some root
  | ["", "api", "v1", "health"] => some health
  | ["", "api", "v1", "levels", "validate"] => some validation
  | ["", "api", "v1", "sessions"] => some sessions
  | "" :: "api" :: "v1" :: "sessions" :: id :: rest => ofSession? id rest
  | _ => none

def ofPath? (path : String) : Option Resource := ofSegments? (path.splitOn "/")

def methods : Resource → List String
  | root | health | state _ => ["GET"]
  | validation | action .. => ["POST"]
  | sessions => ["GET", "POST"]
  | session _ => ["GET", "DELETE"]

end Resource

mutual
def isWritable : Value → Bool
  | .float x => x.isFinite
  | .arr items => areWritable items
  | .obj fields => fieldsWritable fields
  | .null | .bool _ | .int _ | .str _ => true

def areWritable : List Value → Bool
  | [] => true
  | v :: rest => isWritable v && areWritable rest

def fieldsWritable : List (String × Value) → Bool
  | [] => true
  | (_, v) :: rest => isWritable v && fieldsWritable rest
end

mutual
/-- A value with null in place of every float that is not a finite number. -/
def writable : Value → Value
  | .float x => if x.isFinite then .float x else .null
  | .arr items => .arr (writableItems items)
  | .obj fields => .obj (writableFields fields)
  | .null => .null
  | .bool b => .bool b
  | .int n => .int n
  | .str s => .str s

def writableItems : List Value → List Value
  | [] => []
  | v :: rest => writable v :: writableItems rest

def writableFields : List (String × Value) → List (String × Value)
  | [] => []
  | (name, v) :: rest => (name, writable v) :: writableFields rest
end

def ok (v : Value) : Response := ⟨200, writable v⟩

def detail (status : Nat) (text : String) : Response :=
  ⟨status, .obj [("detail", .str text)]⟩

def issueValue (i : Issue) : Value :=
  .obj (i.fields ++ match i.problem.context with
    | [] => []
    | context => [("ctx", .obj context)])

def rejection (details : List Value) : Response := ⟨422, .obj [("detail", .arr details)]⟩

/-- Rejects a body. The offending values are quoted, so they have to be writable. -/
def rejectBody (first : Issue) (more : List Issue) : Except Failure Response :=
  let inBody (i : Issue) : Issue := { i with path := .field "body" :: i.path }
  let details := (first :: more).map (issueValue ∘ inBody)
  if areWritable details then .ok (rejection details) else .error (.fault .unwritableFloat)

def brokenBody (c : Json.Complaint) : Response :=
  rejection [.obj [("type", .str "json_invalid"),
    ("loc", .arr [.str "body", .int c.position]), ("msg", .str "JSON decode error"),
    ("input", .obj []), ("ctx", .obj [("error", .str c.problem.message)])]]

def unparsableBody : Response := detail 400 "There was an error parsing the body"

def objectBody (read : Fields → Checked α) (otherwise : Problem) (v : Value) : Checked α :=
  match v with
  | .obj fields => read fields
  | v => .fail v otherwise

def required (read : Value → Checked α) : Body → Except Response (Checked α)
  | .absent => .ok (.fail .null .missing)
  | .broken c => .error (brokenBody c)
  | .unparsable => .error unparsableBody
  | .value v => .ok (read v)

def optional (default : α) (read : Value → Checked α) : Body → Except Response (Checked α)
  | .absent | .value .null => .ok (.ok default)
  | .broken c => .error (brokenBody c)
  | .unparsable => .error unparsableBody
  | .value v => .ok (read v)

/-- A level that cannot be loaded conflicts with the state of the session, and one that cannot be
read is refused as a body would be; the rest are bad requests. -/
def refusalStatus : Refusal → Nat
  | .notLoaded _ => 409
  | .badDirection _ | .badIndex .. => 400
  | .badBlueprint .. => 422

def errorResponse (status : Nat) (message code : String) (details : Value) : Response :=
  ⟨status, .obj [("error", .str message), ("error_code", .str code),
    ("details", writable details), ("api_version", apiVersion)]⟩

/-- The response to a failure; what is no one's fault but the service's is not answered. -/
def ofFailure : Failure → Except Failure Response
  | .refused r => .ok (errorResponse (refusalStatus r) r.message r.code r.details)
  | .unknownSession id =>
    .ok (errorResponse 404 (unknownSessionMessage id) "SESSION_NOT_FOUND"
      (.obj [("session_id", .str id)]))
  | e => .error e

abbrev Answer := Except Failure Response × Service

def respond (write : α → Value) (a : Service.Answer α) : Answer :=
  match a with
  | (.ok r, s) => (.ok (ok (write r)), s)
  | (.error e, s) => (ofFailure e, s)

def withBody (s : Service) (body : Except Response (Checked α)) (go : α → Answer) : Answer :=
  match body with
  | .error r => (.ok r, s)
  | .ok (.issues first more) => (rejectBody first more, s)
  | .ok (.ok a) => go a

def apiName : Value := .str "Patternfall API"

def version : Value := .str "0.1.0"

def rootValue : Value :=
  .obj [("name", apiName), ("version", version), ("docs", .str "/api/docs"),
    ("health", .str "/api/v1/health")]

def healthValue : Value :=
  .obj [("status", .str "healthy"), ("service", .str "patternfall"), ("version", version)]

def idsValue (ids : List String) : Value :=
  .obj [("sessions", .arr (ids.map .str)), ("count", .int ids.length)]

def finishedValue (id : String) (found : Bool) : Value :=
  .obj [("success", .bool found), ("session_id", .str id)]

/-- Carries out an action on a session. Bodies are read before the session is looked up. -/
def act (s : Service) (id : String) (body : Body) : Action → Answer
  | .input =>
    withBody s (required (objectBody Request.input .bodyType) body) fun r =>
      respond SessionReply.value (s.input id r)
  | .tick =>
    withBody s (optional {} (objectBody Request.tick .bodyType) body) fun r =>
      respond TickReply.value (s.tick id r)
  | .retry => respond SessionReply.value (s.retry id)
  | .advance => respond SessionReply.value (s.advance id)
  | .jump =>
    withBody s (required (objectBody Request.jump .bodyType) body) fun r =>
      respond SessionReply.value (s.jump id r)

def serve (s : Service) (now : Number) (method : String) (body : Body) : Resource → Answer
  | .root => (.ok (ok rootValue), s)
  | .health => (.ok (ok healthValue), s)
  | .validation =>
    withBody s (required (objectBody .ok .objectType) body) fun fields =>
      respond reviewValue (s.review (.obj fields), s)
  | .sessions =>
    if method = "GET" then (.ok (ok (idsValue s.ids)), s)
    else
      withBody s (optional {} (objectBody Request.create .bodyType) body) fun r =>
        respond SessionReply.value (s.create r now)
  | .session id =>
    if method = "GET" then respond SessionReply.value (s.get id)
    else
      let (found, s) := s.finish id
      (.ok (ok (finishedValue id found)), s)
  | .state id => respond StateReply.value (s.state id)
  | .action id a => act s id body a

/-- The path with a slash at its end, or without those it has there. -/
def otherEnding (path : String) : String :=
  if path.endsWith "/" then String.ofList ((path.toList.reverse.dropWhile (· == '/')).reverse)
  else path ++ "/"

def isRedirected (path : String) : Bool := (Resource.ofPath? (otherEnding path)).isSome

def handle (s : Service) (now : Number) (r : Request) : Answer :=
  match Resource.ofPath? r.path with
  | some resource =>
    if resource.methods.contains r.method then serve s now r.method r.body resource
    else (.ok (detail 405 "Method Not Allowed"), s)
  | none =>
    if isRedirected r.path then (.ok ⟨307, .null⟩, s)
    else (.ok (detail 404 "Not Found"), s)

end TilePuzzle.Http
