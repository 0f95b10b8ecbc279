import TilePuzzle.Proofs.Constants
import TilePuzzle.Proofs.Delivery
import TilePuzzle.Proofs.Ending
import TilePuzzle.Proofs.Loading
import TilePuzzle.Proofs.Number

/-! Intents over whole runs, faults included. What waits was accepted in the attempt that is being played
and was not taken up yet; each intent is taken up once, in the order in which they came, and no attempt
inherits one from another. -/
namespace TilePuzzle

namespace Direction

theorem ofName?_iff {s : String} {d : Direction} : ofName? s = some d ↔ s = d.name := by
  constructor
  · intro named
    unfold ofName? at named
    split at named <;> cases named <;> rfl
  · rintro rfl
    cases d <;> rfl

/-- Only the four names name a direction. -/
theorem ofValue_cases (v : Value) :
    (∃ d : Direction, v = .str d.name ∧ ofValue v = .ok d) ∨
    ((∀ d : Direction, v ≠ .str d.name) ∧ ∃ shown, ofValue v = .error (.notADirection shown)) := by
  cases v with
  | str s =>
    cases named : ofName? s with
    | some d =>
      obtain rfl := ofName?_iff.mp named
      exact .inl ⟨d, rfl, by simp only [ofValue, named]⟩
    | none =>
      refine .inr ⟨fun d same => ?_, _, by simp only [ofValue, named]; rfl⟩
      cases same
      rw [ofName?_iff.mpr rfl] at named
      cases named
  | null | bool | int | float | arr | obj => exact .inr ⟨nofun, _, rfl⟩

end Direction

namespace Turn

/-- Small steps leave the intents alone, unless they end the attempt, and then none is left. -/
theorem Steps.intents {size : Nat} {t u : Turn} (steps : Steps size t u) :
    (u.session.intents = t.session.intents ∧ u.session.stage = t.session.stage) ∨
    (u.session.isActive = false ∧ u.session.intents.waiting = []) := by
  induction steps with
  | refl => exact .inl ⟨rfl, rfl⟩
  | tail _ step ih =>
    cases step with
    | emit | judge | teleport => exact ih
    | die | win => exact .inr ⟨rfl, rfl⟩

/-- What is offered was first among those that wait, and the others go on waiting. -/
theorem offered_waiting (s : Session) :
    s.intents.waiting = (offered s).1.toList ++ (offered s).2.waiting := by
  unfold offered Intents.take
  split
  · split
    next none => rw [none]; rfl
    next direction rest some => rw [some]; rfl
  · rfl

end Turn

namespace Game

def Op.accepted (g : Game) : Op → List Direction
  | .push v => match Direction.ofValue v with
    | .ok direction => if isTrue (g.push v).1 then [direction] else []
    | .error _ => []
  | .load _ | .retry | .advance | .jump _ | .tick | .finish | .rewrite _ => []

def Op.consumed (g : Game) : Op → List Direction
  | .tick =>
    if g.session.level.isSome && g.session.isActive then (Turn.offered g.session).1.toList else []
  | .load _ | .retry | .advance | .jump _ | .push _ | .finish | .rewrite _ => []

def gather (part : Game → Op → List Direction) (g : Game) : List Op → List Direction
  | [] => []
  | op :: rest => part g op ++ gather part (g.perform op) rest

theorem gather_append (part : Game → Op → List Direction) (g : Game) (first second : List Op) :
    g.gather part (first ++ second) = g.gather part first ++ (g.play first).gather part second := by
  induction first generalizing g with
  | nil => rfl
  | cons op rest ih =>
    rw [List.cons_append, gather, gather, ih, List.append_assoc]
    rfl

/-- A tick takes up one intent at most, for a token that is idle in a level being played. -/
theorem consumed_tick (g : Game) :
    (Op.tick.consumed g).length ≤ 1 ∧
    (Op.tick.consumed g ≠ [] → g.session.isActive = true ∧ g.session.player.phase = .idle) := by
  simp only [Op.consumed]
  split
  next playing =>
    constructor
    · cases (Turn.offered g.session).1 <;> simp
    · intro some
      refine ⟨((Bool.and_eq_true ..).mp playing).2, ?_⟩
      by_contra busy
      simp [Turn.offered, busy] at some
  next => simp

/-- What a tick does to the intents: it takes one up, and if the attempt ends with it none is left. -/
theorem tick_intents {g : Game} (coherent : g.session.Coherent) :
    ∃ rest, g.session.intents.waiting = Op.tick.consumed g ++ rest ∧
      ((g.tick.2.session.intents.waiting = rest ∧ g.tick.2.session.stage = g.session.stage) ∨
        (g.tick.2.session.isActive = false ∧ g.tick.2.session.intents.waiting = [])) := by
  rcases tick_settles coherent with ⟨idle, same⟩ | ⟨level, t, here, active, steps, ends⟩
  · have none : Op.tick.consumed g = [] := by
      rcases idle with absent | inactive
      · simp [Op.consumed, absent]
      · simp [Op.consumed, inactive]
    rw [none, same]
    exact ⟨_, rfl, .inl ⟨rfl, rfl⟩⟩
  · have one : Op.tick.consumed g = (Turn.offered g.session).1.toList := by
      simp [Op.consumed, here, active]
    refine ⟨(Turn.offered g.session).2.waiting, ?_, ?_⟩
    · rw [one]
      exact Turn.offered_waiting g.session
    · have kept : (g.tick.2.session.intents = t.session.intents ∧
          g.tick.2.session.stage = t.session.stage) := by
        rcases ends with same | ⟨board, same⟩ <;> rw [same] <;> exact ⟨rfl, rfl⟩
      rw [Session.isActive, kept.1, kept.2]
      rcases steps.intents with ⟨same, stage⟩ | ended
      · rw [same, stage]
        exact .inl ⟨rfl, rfl⟩
      · exact .inr ended

/-- A load leaves the intents alone or leaves none, and only one that succeeds makes a session active. -/
theorem Loads.intents {g after : Game} {result : Except Fault Bool} (loads : g.Loads result after) :
    (after.session.intents = g.session.intents ∧ after.session.stage = g.session.stage ∧
      result ≠ .ok true) ∨
    (after.session.intents.waiting = [] ∧ (after.session.isActive = true → result = .ok true)) := by
  cases loads with
  | refused f => exact .inl ⟨rfl, rfl, nofun⟩
  | broken f => exact .inr ⟨rfl, nofun⟩
  | missed => exact .inr ⟨rfl, nofun⟩
  | stuck f level index same => rw [same]; exact .inr ⟨rfl, nofun⟩
  | opened level index same => rw [same]; exact .inr ⟨rfl, fun _ => rfl⟩

theorem perform_load_intents {g : Game} {op : Op} (load : op.isLoad = true) :
    ((g.perform op).session.intents = g.session.intents ∧
      (g.perform op).session.stage = g.session.stage ∧ op.opens g = false) ∨
    ((g.perform op).session.intents.waiting = [] ∧
      ((g.perform op).session.isActive = true → op.opens g = true)) := by
  have opens : op.opens g = true ↔ op.result g = .ok true := by
    rw [Op.opens, load, Bool.true_and]
    cases op.result g with
    | error f => exact iff_of_false Bool.false_ne_true (by simp)
    | ok done => rw [isTrue, Except.ok.injEq]
  rw [Bool.eq_false_iff, Ne, opens]
  rcases perform_loads load with loads | loads
  · exact loads.intents
  · exact loads.intents

/-- Within an attempt an operation takes from the front of the intents and adds at their end. -/
theorem perform_ledger {g : Game} {op : Op} (coherent : g.session.Coherent)
    (misses : op.opens g = false) (active : (g.perform op).session.isActive = true) :
    g.session.isActive = true ∧
    op.consumed g ++ (g.perform op).session.intents.waiting =
      g.session.intents.waiting ++ op.accepted g := by
  by_cases load : op.isLoad = true
  · have none : op.consumed g = [] ∧ op.accepted g = [] := by
      cases op <;> first | exact ⟨rfl, rfl⟩ | contradiction
    rw [none.1, none.2, List.append_nil]
    rcases perform_load_intents (g := g) load with ⟨intents, stage, _⟩ | ⟨_, opens⟩
    · rw [Session.isActive, stage] at active
      rw [intents]
      exact ⟨active, rfl⟩
    · rw [opens active] at misses
      contradiction
  · cases op with
    | load | retry | advance | jump => exact absurd rfl load
    | push v =>
      refine ⟨active, ?_⟩
      rw [perform, Op.consumed, Op.accepted, List.nil_append]
      cases named : Direction.ofValue v with
      | error f => rw [push_unnamed g named, List.append_nil]
      | ok direction =>
        rw [push_named g named]
        cases g.session.intents.isFull with
        | true => exact (List.append_nil _).symm
        | false => rfl
    | tick =>
      obtain ⟨rest, waiting, ⟨left, stage⟩ | ⟨ended, _⟩⟩ := tick_intents coherent
      · rw [perform, Session.isActive, stage] at active
        refine ⟨active, ?_⟩
        rw [perform, left, waiting, Op.accepted, List.append_nil]
      · rw [perform, ended] at active
        contradiction
    | finish => contradiction
    | rewrite read => exact ⟨active, (List.append_nil _).symm⟩

theorem isFull_eq {s : Session} {config : Config} {predicates : Predicates}
    (equipped : s.Equipped config predicates) :
    s.intents.isFull = decide (config.maxPending ≤ s.intents.waiting.length) := by
  rw [Intents.isFull, equipped.limit, Number.atMost_int]

/-- No more intents wait than the constants allow. -/
theorem perform_pending {g : Game} {config : Config} {predicates : Predicates} {op : Op}
    (coherent : g.session.Coherent) (equipped : g.session.Equipped config predicates)
    (few : (g.session.intents.waiting.length : Int) ≤ max 0 config.maxPending) :
    ((g.perform op).session.intents.waiting.length : Int) ≤ max 0 config.maxPending := by
  have none {waiting : List Direction} (empty : waiting = []) :
      (waiting.length : Int) ≤ max 0 config.maxPending := by
    rw [empty]; exact le_max_left ..
  by_cases load : op.isLoad = true
  · rcases perform_load_intents (g := g) load with ⟨intents, _⟩ | ⟨empty, _⟩
    · rw [intents]; exact few
    · exact none empty
  · cases op with
    | load | retry | advance | jump => exact absurd rfl load
    | push v =>
      rw [perform]
      cases named : Direction.ofValue v with
      | error f => rw [push_unnamed g named]; exact few
      | ok direction =>
        rw [push_named g named]
        split
        · exact few
        next room =>
          rw [isFull_eq equipped, decide_eq_true_eq, not_le] at room
          simp only [List.length_append, List.length_singleton]
          omega
    | tick =>
      obtain ⟨rest, waiting, ⟨left, _⟩ | ⟨_, empty⟩⟩ := tick_intents coherent
      · rw [perform, left]
        rw [waiting, List.length_append] at few
        omega
      · exact none empty
    | finish => exact none rfl
    | rewrite read => exact few

/-- What was taken up since an attempt began and what still waits is what was accepted since, in the
same order, and the attempt was being played all along. -/
structure Attempt (start : Game) (ops : List Op) : Prop where
  settled : start.settled ops = true
  active : ∀ earlier, earlier <+: ops → (start.play earlier).session.isActive = true
  ledger : start.gather Op.consumed ops ++ (start.play ops).session.intents.waiting =
    start.gather Op.accepted ops

theorem settled_append (g : Game) (first second : List Op) :
    g.settled (first ++ second) = (g.settled first && (g.play first).settled second) := by
  induction first generalizing g with
  | nil => rfl
  | cons op rest ih =>
    rw [List.cons_append, settled, settled, ih, Bool.and_assoc]
    rfl

/-- An operation that neither begins nor ends an attempt belongs to it. -/
theorem Attempt.extend {start : Game} {ops : List Op} {op : Op} (attempt : start.Attempt ops)
    (coherent : (start.play ops).session.Coherent) (misses : op.opens (start.play ops) = false)
    (active : (start.play (ops ++ [op])).session.isActive = true) : start.Attempt (ops ++ [op]) := by
  have after : start.play (ops ++ [op]) = (start.play ops).perform op := play_append ..
  constructor
  · simp only [settled_append, attempt.settled, Game.settled, misses, Bool.not_false, Bool.and_true]
  · intro earlier before
    rcases List.prefix_concat_iff.mp before with rfl | before
    · exact active
    · exact attempt.active earlier before
  · rw [after] at active ⊢
    obtain ⟨_, moves⟩ := perform_ledger coherent misses active
    rw [gather_append, gather_append, ← attempt.ledger]
    simp only [gather, List.append_nil, List.append_assoc]
    rw [moves]

/-- A session that is active is in an attempt, which began with the last load that succeeded. -/
theorem play_attempt {g : Game} (coherent : g.session.Coherent) (idle : g.session.isActive = false)
    {ops : List Op} (active : (g.play ops).session.isActive = true) :
    ∃ before op rest, ops = before ++ op :: rest ∧ op.opens (g.play before) = true ∧
      (g.play (before ++ [op])).Attempt rest := by
  -- The last operation began the attempt, or belongs to the one that was under way before it.
  induction ops using List.reverseRecOn with
  | nil => rw [play, List.foldl_nil, idle] at active; contradiction
  | append_singleton ops op ih =>
    have after : g.play (ops ++ [op]) = (g.play ops).perform op := play_append ..
    have still := (play_sameSet coherent ops).1
    by_cases opens : op.opens (g.play ops) = true
    · refine ⟨ops, op, [], rfl, opens, rfl, ?_, ?_⟩
      · intro earlier before
        rw [List.prefix_nil.mp before]
        exact active
      · have load := ((Bool.and_eq_true ..).mp opens).1
        rw [after]
        rcases perform_load_intents (g := g.play ops) load with ⟨_, _, misses⟩ | ⟨empty, _⟩
        · rw [misses] at opens; contradiction
        · exact empty
    · have misses := Bool.eq_false_iff.mpr opens
      have before := (perform_ledger still misses (after ▸ active)).1
      obtain ⟨earlier, load, rest, rfl, begins, attempt⟩ := ih before
      refine ⟨earlier, load, rest ++ [op], by simp, begins, ?_⟩
      have here : (g.play (earlier ++ [load])).play rest = g.play (earlier ++ load :: rest) := by
        rw [← play_append]; simp
      refine attempt.extend ?_ ?_ ?_
      · rw [here]; exact still
      · rw [here]; exact misses
      · rw [← play_append]
        simpa using active

theorem play_pending {g : Game} {config : Config} {predicates : Predicates}
    (coherent : g.session.Coherent) (equipped : g.session.Equipped config predicates)
    (empty : g.session.intents.waiting = []) (ops : List Op) :
    ((g.play ops).session.intents.waiting.length : Int) ≤ max 0 config.maxPending := by
  have few : (g.session.intents.waiting.length : Int) ≤ max 0 config.maxPending := by
    rw [empty]; exact le_max_left ..
  refine (play_keeps (P := fun h => (h.session.Coherent ∧ h.session.Equipped config predicates) ∧
    (h.session.intents.waiting.length : Int) ≤ max 0 config.maxPending) ?_
    ⟨⟨coherent, equipped⟩, few⟩ ops).2
  rintro h op ⟨⟨still, kept⟩, few⟩
  exact ⟨⟨perform_coherent h op still, perform_equipped still kept op⟩,
    perform_pending still kept few⟩

/-- The intents of a game that some operations led to. Few wait; a push adds one at their end unless that
many wait, and a tick takes up the first of them if the token is idle. While the session is active, what
was taken up since the last load that succeeded and what waits is what was accepted since, so that a tick
takes up what this attempt accepted. -/
structure IntentsKept (config : Config) (start : Game) (ops : List Op) (g : Game) : Prop where
  few : (g.session.intents.waiting.length : Int) ≤ max 0 config.maxPending
  pushed : ∀ direction : Direction, g.push (.str direction.name) =
    if (g.session.intents.waiting.length : Int) = max 0 config.maxPending then (.ok false, g)
    else (.ok true, { g with session := { g.session with intents := { g.session.intents with
      waiting := g.session.intents.waiting ++ [direction] } } })
  unnamed : ∀ v, (∀ direction : Direction, v ≠ .str direction.name) →
    ∃ shown, g.push v = (.error (.notADirection shown), g)
  one : (Op.tick.consumed g).length ≤ 1
  idle : Op.tick.consumed g ≠ [] → g.session.isActive = true ∧ g.session.player.phase = .idle
  first : ∃ rest, g.session.intents.waiting = Op.tick.consumed g ++ rest ∧
    ((g.tick.2.session.intents.waiting = rest ∧ g.tick.2.session.stage = g.session.stage) ∨
      (g.tick.2.session.isActive = false ∧ g.tick.2.session.intents.waiting = []))
  attempt : g.session.isActive = true → ∃ before op rest, ops = before ++ op :: rest ∧
    op.opens (start.play before) = true ∧
    let opened := start.play (before ++ [op])
    opened.Attempt rest ∧ opened.play rest = g ∧
    opened.gather Op.consumed rest ++ Op.tick.consumed g <+: opened.gather Op.accepted rest

/-- In any run intents are delivered in order, once, and to the attempt they were pushed in. -/
theorem play_intents {lobby after : Lobby} {levels : LevelSet} {predicates : Predicates}
    {now : Number} {id : String} {session : Session}
    (created : lobby.create levels predicates now = (.ok (id, session), after)) (listeners : Nat)
    (ops : List Op) (g : Game) (here : g = (ofSession session listeners).play ops) :
    IntentsKept lobby.config (ofSession session listeners) ops g := by
  obtain ⟨made, _, _⟩ := Lobby.create_ok created
  have fresh : (ofSession session listeners).session.Coherent := Session.create_coherent made
  obtain ⟨equipped, empty, _⟩ := Session.create_equipped made
  obtain ⟨coherent, kept⟩ := play_equipped (g := ofSession session listeners) fresh equipped ops
  have few := play_pending (g := ofSession session listeners) fresh equipped empty ops
  rw [← here] at coherent kept few
  constructor
  case few => exact few
  case pushed =>
    intro direction
    have full : g.session.intents.isFull = true ↔
        (g.session.intents.waiting.length : Int) = max 0 lobby.config.maxPending := by
      rw [isFull_eq kept, decide_eq_true_eq]
      omega
    rw [push_named g (Direction.ofValue_name direction)]
    exact if_congr full rfl rfl
  case unnamed =>
    intro v unnamed
    rcases Direction.ofValue_cases v with ⟨direction, same, _⟩ | ⟨_, shown, fails⟩
    · exact absurd same (unnamed direction)
    · exact ⟨shown, push_unnamed g fails⟩
  case one => exact (consumed_tick g).1
  case idle => exact (consumed_tick g).2
  case first => exact tick_intents coherent
  case attempt =>
    intro active
    have idle : (ofSession session listeners).session.isActive = false := by
      obtain ⟨_, stage, _⟩ := Session.create_fresh made
      rw [ofSession, Session.isActive, stage]
      rfl
    rw [here] at active
    obtain ⟨before, op, rest, parts, opens, attempt⟩ := play_attempt fresh idle active
    have same : ((ofSession session listeners).play (before ++ [op])).play rest = g := by
      rw [here, parts, ← play_append, List.append_assoc]
      rfl
    refine ⟨before, op, rest, parts, opens, attempt, same, ?_⟩
    obtain ⟨others, waiting, _⟩ := tick_intents coherent
    rw [← attempt.ledger, same, waiting, ← List.append_assoc]
    exact List.prefix_append _ others

/-- Three directions are pushed after a retry: one is taken up, one waits, and for the last there is no
room; the one that was pushed before the retry is gone. -/
theorem play_intents_retry :
    let ops : List Op := [.load 0, .push (.str "down"), .retry, .push (.str "right"), .tick,
      .push (.str "left")]
    ∃ session after, ({ config := { maxPending := 1 } } : Lobby).create Campaign.levelSet [] (.int 0) =
        (.ok ("s0", session), after) ∧
      let g := (ofSession session 0).play ops
      g.session.intents.waiting = [.left] ∧ g.push (.str "up") = (.ok false, g) ∧
      ∃ before op rest, ops = before ++ op :: rest ∧
        let start := (ofSession session 0).play (before ++ [op])
        start.settled rest = true ∧
        start.gather Op.consumed rest ++ [Direction.left] = start.gather Op.accepted rest := by
  intro ops
  refine ⟨_, _, rfl, ?_⟩
  intro g
  have kept := @play_intents { config := { maxPending := 1 } } _ Campaign.levelSet [] (.int 0) "s0" _ rfl
    0 ops g rfl
  have waiting : g.session.intents.waiting = [.left] := by decide +kernel
  obtain ⟨before, op, rest, parts, _, attempt, same, _⟩ := kept.attempt (by decide +kernel)
  have full := kept.pushed .up
  have ledger := attempt.ledger
  rw [waiting] at full
  rw [same, waiting] at ledger
  exact ⟨waiting, full, before, op, rest, parts, attempt.settled, ledger⟩

end Game
end TilePuzzle
