import TilePuzzle.Proofs.Registry
import TilePuzzle.Proofs.Ticking

/-! Ticks in batches. A batch stops early when its session is over, and the ticks that it leaves out
would have told nothing and changed nothing; so it cannot be seen how ticks were split into batches. -/
namespace TilePuzzle

namespace Game

/-- What several ticks in one go tell, and the game as they leave it. -/
def batch (n : Nat) (g : Game) : Except Fault (List Event) × Game :=
  ((run n g).1.map (List.flatMap TickResult.events), (run n g).2)

def batchAfter (n : Nat) : Except Fault (List Event) × Game → Except Fault (List Event) × Game
  | (.error f, g) => (.error f, g)
  | (.ok events, g) => ((g.batch n).1.map (events ++ ·), (g.batch n).2)

/-- A tick tells the stage that it leaves, and it leaves nothing to deliver. -/
theorem tick_settled {g h : Game} {result : TickResult} (ticked : g.tick = (.ok result, h)) :
    result.stage = h.session.stage ∧ h.backstage.outbox = [] := by
  cases here : g.session.level with
  | none =>
    rw [tick_idle (.inl here)] at ticked
    cases ticked
    exact ⟨rfl, rfl⟩
  | some level =>
    cases active : g.session.isActive with
    | false =>
      rw [tick_idle (.inr active)] at ticked
      cases ticked
      exact ⟨rfl, rfl⟩
    | true =>
      rw [tick_active here active] at ticked
      obtain ⟨told, rfl⟩ := Prod.mk.inj ticked
      refine ⟨?_, rfl⟩
      generalize playFrame g.session level g.backstage.cues = frame at told ⊢
      obtain ⟨_ | _, t, cues⟩ := frame
      · contradiction
      · cases told
        rfl

theorem tick_rests {g h : Game} {result : TickResult} (ticked : g.tick = (.ok result, h))
    (finished : result.stage ≠ .active) : h.Resting := by
  obtain ⟨stage, outbox⟩ := tick_settled ticked
  refine ⟨?_, outbox⟩
  simpa [Session.isActive, ← stage] using finished

section batch
variable {g h : Game} {result : TickResult} (n : Nat)

theorem batch_zero (g : Game) : g.batch 0 = (.ok [], g) := rfl

theorem batch_fails {f : Fault} (ticked : g.tick = (.error f, h)) :
    g.batch (n + 1) = (.error f, h) := by
  simp only [batch, run, ticked]
  rfl

theorem batch_goesOn (ticked : g.tick = (.ok result, h)) (active : result.stage = .active) :
    g.batch (n + 1) = batchAfter n (.ok result.events, h) := by
  simp only [batch, run, ticked, if_pos active, batchAfter]
  cases (run n h).1 <;> rfl

theorem batch_stops (ticked : g.tick = (.ok result, h)) (finished : result.stage ≠ .active) :
    g.batch (n + 1) = (.ok result.events, h) := by
  simp only [batch, run, ticked, if_neg finished, Except.map, List.flatMap_cons, List.flatMap_nil,
    List.append_nil]

theorem Resting.batch (resting : g.Resting) : g.batch n = (.ok [], g) := by
  cases n with
  | zero => rfl
  | succ n =>
    refine batch_stops n resting.tick ?_
    simpa [Session.isActive] using resting.inactive

theorem batchAfter_add (a b : Nat) (answer : Except Fault (List Event) × Game)
    (add : ∀ g : Game, g.batch (a + b) = batchAfter b (g.batch a)) :
    batchAfter b (batchAfter a answer) = batchAfter (a + b) answer := by
  obtain ⟨f | events, g⟩ := answer
  · rfl
  · simp only [batchAfter, add]
    obtain ⟨f | first, h⟩ := g.batch a
    · rfl
    · simp only [Except.map]
      cases (h.batch b).1 with
      | error f => rfl
      | ok more => simp

end batch

/-- Two batches, one after the other, are one. -/
theorem batch_add (a b : Nat) (g : Game) : g.batch (a + b) = batchAfter b (g.batch a) := by
  induction a generalizing g with
  | zero =>
    rw [Nat.zero_add, batch_zero]
    simp only [batchAfter]
    cases answer : g.batch b with
    | mk told after => cases told <;> rfl
  | succ a ih =>
    rw [Nat.succ_add]
    rcases ticked : g.tick with ⟨f | result, h⟩
    · rw [batch_fails _ ticked, batch_fails _ ticked]
      rfl
    · by_cases active : result.stage = .active
      · rw [batch_goesOn _ ticked active, batch_goesOn _ ticked active]
        exact (batchAfter_add a b _ ih).symm
      · rw [batch_stops _ ticked active, batch_stops _ ticked active]
        simp only [batchAfter, (tick_rests ticked active).batch, Except.map, List.append_nil]

/-- Where two batches tell something as one, each of them does. -/
theorem batch_split {a b : Nat} {g : Game} {events : List Event}
    (told : (g.batch (a + b)).1 = .ok events) :
    ∃ first later, (g.batch a).1 = .ok first ∧ ((g.batch a).2.batch b).1 = .ok later ∧
      events = first ++ later ∧ (g.batch (a + b)).2 = ((g.batch a).2.batch b).2 := by
  rw [batch_add] at told ⊢
  generalize g.batch a = outcome at told ⊢
  obtain ⟨f | first, h⟩ := outcome
  · contradiction
  · simp only [batchAfter] at told
    cases answer : (h.batch b).1 with
    | error f => rw [answer] at told; contradiction
    | ok later =>
      rw [answer] at told
      cases told
      exact ⟨first, later, rfl, rfl, rfl, rfl⟩

end Game

theorem PlayerView.ofPlayer_ok {p : Player} (paced : p.Paced) : ∃ view, ofPlayer p = .ok view := by
  unfold ofPlayer
  split
  next moving =>
    obtain ⟨least, most⟩ := paced.elapsed moving
    obtain ⟨part, known, _⟩ := Player.progress_ok least (by rw [paced.ticks]; exact most)
    exact ⟨⟨p, part⟩, by rw [known]; rfl⟩
  next => exact ⟨⟨p, 0⟩, rfl⟩

structure TickReply.Shows (r : TickReply) (s : Session) : Prop where
  stage : r.stage = s.stage
  frame : r.frame = s.frame
  player : PlayerView.ofPlayer s.player = .ok r.player

namespace Service

def tickAll (s : Service) (id : String) : List Nat → List (Except Failure TickReply) × Service
  | [] => ([], s)
  | n :: rest =>
    let (answer, s) := s.tick id ⟨n⟩
    let (answers, s) := s.tickAll id rest
    (answer :: answers, s)

theorem tickReply_ok {id : String} {s : Session} {results : List TickResult} {r : TickReply}
    (replied : tickReply id s results = .ok r) :
    r.events = results.flatMap TickResult.events ∧ r.Shows s := by
  unfold tickReply at replied
  cases view : PlayerView.ofPlayer s.player with
  | error e => rw [view] at replied; contradiction
  | ok player =>
    rw [view] at replied
    cases replied
    exact ⟨rfl, rfl, rfl, view⟩

section tick
variable {s : Service} {id : String} {g : Game} (playing : s.game? id = some g) (n : Nat)
include playing

theorem tick_game : (s.tick id ⟨n⟩).2.game? id = some (g.batch n).2 := by
  have moved := (moves_setGame playing (g.batch n).2).kept id
  rw [if_pos rfl] at moved
  refine game_iff.mpr (Eq.trans ?_ moved)
  simp only [tick, play, playing, Game.batch]
  split <;> next ran => rw [ran]

/-- A request for ticks that do not fail is answered by what they tell, and with the session as they
leave it. -/
theorem tick_reply {events : List Event} (told : (g.batch n).1 = .ok events) {r : TickReply}
    (answer : (s.tick id ⟨n⟩).1 = .ok r) : r.events = events ∧ r.Shows (g.batch n).2.session := by
  simp only [tick, play, playing] at answer
  simp only [Game.batch] at told ⊢
  generalize Game.run n g = outcome at told answer ⊢
  obtain ⟨f | results, h⟩ := outcome
  · contradiction
  · cases told
    exact tickReply_ok answer

theorem tick_answers {events : List Event} (told : (g.batch n).1 = .ok events)
    (paced : (g.batch n).2.session.player.Paced) : ∃ r, (s.tick id ⟨n⟩).1 = .ok r := by
  simp only [tick, play, playing]
  simp only [Game.batch] at told paced
  generalize Game.run n g = outcome at told paced ⊢
  obtain ⟨f | results, h⟩ := outcome
  · contradiction
  · obtain ⟨view, shown⟩ := PlayerView.ofPlayer_ok (p := h.session.player) paced
    simp only [tickReply, shown]
    exact ⟨_, rfl⟩

end tick

theorem forall_getLast?_cons {α : Type} {P : α → Prop} {a : α} {rest : List α}
    (only : rest = [] → P a) (later : ∀ last ∈ rest.getLast?, P last) :
    ∀ last ∈ (a :: rest).getLast?, P last := by
  cases rest with
  | nil => simpa using only rfl
  | cons b more =>
    rw [List.getLast?_cons_cons]
    exact later

/-- However many ticks are asked for at once: the session ends up the same, and its replies, where all
requests are answered, tell the same. -/
theorem tickAll_ends {s : Service} {id : String} {g : Game} (playing : s.game? id = some g)
    (counts : List Nat) {events : List Event} (told : (g.batch counts.sum).1 = .ok events) :
    (s.tickAll id counts).2.game? id = some (g.batch counts.sum).2 ∧
    ∀ replies : List TickReply, (s.tickAll id counts).1 = replies.map .ok →
      replies.flatMap (·.events) = events ∧
      ∀ last ∈ replies.getLast?, last.Shows (g.batch counts.sum).2.session := by
  induction counts generalizing s g events with
  | nil =>
    rw [List.sum_nil, Game.batch_zero] at told ⊢
    cases told
    refine ⟨playing, ?_⟩
    intro replies none
    obtain rfl : replies = [] := List.map_eq_nil_iff.mp none.symm
    exact ⟨rfl, fun _ last => by simp at last⟩
  | cons n rest ih =>
    rw [List.sum_cons] at told ⊢
    obtain ⟨first, more, answered, later, rfl, same⟩ := Game.batch_split told
    obtain ⟨ends, replies⟩ := ih (tick_game playing n) later
    rw [same]
    refine ⟨ends, ?_⟩
    rintro (_ | ⟨r, others⟩) answers
    · contradiction
    obtain ⟨answer, answers⟩ := List.cons.inj answers
    obtain ⟨events, shows⟩ := tick_reply playing n answered answer
    obtain ⟨moreEvents, lastShows⟩ := replies others answers
    refine ⟨by rw [List.flatMap_cons, events, moreEvents], forall_getLast?_cons ?_ lastShows⟩
    -- Nothing was asked after this request, so its reply shows the end.
    rintro rfl
    cases rest with
    | nil => exact shows
    | cons => contradiction

/-- At the usual pace a reply can always be given. -/
theorem tickAll_answers {s : Service} {id : String} {g : Game} (playing : s.game? id = some g)
    (coherent : g.session.Coherent) (timed : g.Timed) (counts : List Nat) {events : List Event}
    (told : (g.batch counts.sum).1 = .ok events) :
    ∃ replies : List TickReply, (s.tickAll id counts).1 = replies.map .ok := by
  induction counts generalizing s g events with
  | nil => exact ⟨[], rfl⟩
  | cons n rest ih =>
    rw [List.sum_cons] at told
    obtain ⟨first, more, answered, later, _⟩ := Game.batch_split told
    have kept : (g.batch n).2.session.Coherent ∧ (g.batch n).2.Timed := by
      obtain ⟨k, _, same, _⟩ := Game.run_delivers n g
      change (Game.run n g).2.session.Coherent ∧ (Game.run n g).2.Timed
      rw [same]
      exact Game.play_timed coherent timed _
    obtain ⟨r, answer⟩ := tick_answers playing n answered kept.2.paced.player
    obtain ⟨replies, others⟩ := ih (tick_game playing n) kept.1 kept.2 later
    exact ⟨r :: replies, congrArg₂ List.cons answer others⟩

/-- Two batches of ticks, one after the other, tell the same and leave the same game as one. Hence it
makes no difference how ticks are split over requests, as long as no tick fails: the session ends up
the same, all replies together tell the same events, and the last one shows the session as it is in
the end. With the usual constants all of these requests are answered. -/
theorem ticks_split (config : Config) (folder : Option (FileReader × String))
    (predicates : Predicates) (ops : List Op) (s : Service)
    (here : s = (started config folder predicates).performAll ops) :
    (∀ (g : Game) (a b : Nat), g.batch (a + b) = Game.batchAfter b (g.batch a)) ∧
    ∀ id g counts events, s.game? id = some g → (g.batch counts.sum).1 = .ok events →
      (s.tickAll id counts).2.game? id = some (g.batch counts.sum).2 ∧
      (∀ replies : List TickReply, (s.tickAll id counts).1 = replies.map .ok →
        replies.flatMap (·.events) = events ∧
        ∀ last ∈ replies.getLast?, last.Shows (g.batch counts.sum).2.session) ∧
      (config = {} → ∃ replies : List TickReply, (s.tickAll id counts).1 = replies.map .ok) := by
  refine ⟨fun g a b => Game.batch_add a b g, ?_⟩
  intro id g counts events playing told
  obtain ⟨ends, replies⟩ := tickAll_ends playing counts told
  refine ⟨ends, replies, ?_⟩
  rintro rfl
  rw [here] at playing
  have kept : g.session.Coherent ∧ g.Timed := by
    refine performAll_games {} folder predicates (P := fun g => g.session.Coherent ∧ g.Timed) ?_ ?_ ops
      playing
    · intro levels time session made
      exact ⟨Session.create_coherent made, Game.timed_of_paced (Session.create_paced made) rfl⟩
    · rintro g op ⟨coherent, timed⟩
      exact ⟨Game.perform_coherent g op coherent, Game.perform_timed coherent timed op⟩
  exact tickAll_answers (here ▸ playing) kept.1 kept.2 counts told

/-- A move over a border that kills: the session ends with the first of three ticks. -/
theorem ticks_split_killed :
    let levels : Option (List Fields) := some [[("border_behavior", .str "kill")]]
    let s := (started {} none []).performAll [.create { levels } 0, .input "s0" ⟨"up"⟩]
    ∃ g events, s.game? "s0" = some g ∧ (g.batch 3).1 = .ok events ∧
      events.map Event.name = ["level_started", "border_hit", "killed"] ∧
      (∀ a b, g.batch (a + b) = Game.batchAfter b (g.batch a)) ∧
      (s.tickAll "s0" [1, 2]).2.game? "s0" = some (g.batch 3).2 ∧
      ∃ replies : List TickReply, (s.tickAll "s0" [1, 2]).1 = replies.map .ok ∧
        replies.flatMap (·.events) = events := by
  intro levels s
  have ticks : (s.game? "s0").map (fun g => ((g.batch 3).1.map (List.map Event.name)).toOption) =
      some (some ["level_started", "border_hit", "killed"]) := by decide +kernel
  obtain ⟨g, playing, ticks⟩ := Option.map_eq_some_iff.mp ticks
  cases told : (g.batch 3).1 with
  | error f => rw [told] at ticks; contradiction
  | ok events =>
    rw [told] at ticks
    obtain ⟨split, asked⟩ := ticks_split {} none [] _ s rfl
    obtain ⟨ends, replies, answers⟩ := asked "s0" g [1, 2] events playing told
    obtain ⟨all, answered⟩ := answers rfl
    exact ⟨g, events, playing, told, Option.some.inj ticks, split g, ends, all, answered,
      (replies all answered).1⟩

end Service
end TilePuzzle
