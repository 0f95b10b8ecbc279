import TilePuzzle.Proofs.Constants
import TilePuzzle.Proofs.Easing

/-! Moves from one place to the next. A move takes its ticks, and nothing that an update is given ends it
before, prolongs it or leads it elsewhere. A token that is put on a place or dies drops its move for good:
every landing has a whole move right before it. A token at rest is shown where it is, as far as floats can
hold the place. -/
namespace TilePuzzle

namespace Player

inductive Call
  | update (intent : Except Fault (Option Direction)) (size : Int) (border : Border)
  | reset (place : Place)
  | teleport (place : Place)
  | die

def Call.isUpdate : Call → Bool
  | update .. => true
  | reset _ | teleport _ | die => false

/-- Answers a call; only an update has anything to tell. -/
def attend (p : Player) : Call → Except Fault (List Event) × Player
  | .update intent size border => p.update intent size border
  | .reset place => ((p.reset place).1.map fun _ => [], (p.reset place).2)
  | .teleport place => ((p.teleport place).1.map fun _ => [], (p.teleport place).2)
  | .die => (.ok [], p.die)

def attendAll (p : Player) (calls : List Call) : Player :=
  calls.foldl (fun p call => (p.attend call).2) p

theorem attendAll_concat (p : Player) (calls : List Call) (call : Call) :
    p.attendAll (calls ++ [call]) = ((p.attendAll calls).attend call).2 := by
  simp [attendAll]

/-- A float shows a coordinate: it is the nearest one, and the same number if 53 bits are enough. -/
def Shows (x : Float) (n : Int) : Prop :=
  floatOfInt n = .ok x ∧ (n.natAbs ≤ twoTo 53 → (Number.float x).compare? (.int n) = some .eq)

def Shown (p : Player) : Prop := Shows p.visualCol p.place.col ∧ Shows p.visualRow p.place.row

theorem shows_iff {x : Float} {n : Int} : Shows x n ↔ floatOfInt n = .ok x :=
  ⟨And.left, fun known => ⟨known, fun small => floatOfInt_exact small known⟩⟩

/-- A move is under way, and this many of its ticks are done. -/
structure Underway (p : Player) (origin target : Place) (ticks : Int) (done : Nat) : Prop where
  moving : p.phase = .moving
  place : p.place = origin
  origin : p.origin = origin
  target : p.target = target
  moveTicks : p.moveTicks = ticks
  elapsed : p.elapsed = done

structure Arrived (p : Player) (target : Place) (ticks : Int) : Prop where
  idle : p.phase = .idle
  place : p.place = target
  moveTicks : p.moveTicks = ticks

def Starts (p : Player) (call : Call) (target : Place) : Prop :=
  (p.attend call).1 = .ok [] ∧ (p.attend call).2.Underway p.place target p.moveTicks 0

/-- What becomes of a direction in which a token at rest is to go. -/
structure Departs (p : Player) (size : Int) (border : Border) (direction : Direction) (call : Call) :
    Prop where
  inside : (p.place.step direction).within size = true → p.Starts call (p.place.step direction)
  wraps : (p.place.step direction).within size = false → border = .wrap → p.Starts call
    ⟨(p.place.step direction).col % size, (p.place.step direction).row % size⟩
  hits : (p.place.step direction).within size = false → border = .kill ∨ border = .exit →
    p.attend call = (.ok [.borderHit direction], p.hover)
  blocks : (p.place.step direction).within size = false → border = .block →
    p.attend call = (.ok [], p.hover)

theorem departs {p : Player} {size : Int} (idle : p.phase = .idle) (inside : p.place.within size = true)
    (border : Border) (direction : Direction) :
    p.Departs size border direction (.update (.ok (some direction)) size border) := by
  have asked : p.attend (.update (.ok (some direction)) size border) =
      p.hover.tryMove direction size border := by
    simp only [attend, update, idle]
  have stands : p.hover.place = p.place := rfl
  have positive : 0 < size := by
    have := (Place.within_iff _ _).mp inside
    omega
  refine ⟨fun inside => ?_, fun outside wraps => ?_, fun outside hits => ?_, fun outside blocks => ?_⟩
  · simp only [Starts, asked, tryMove, stands, if_pos inside]
    exact ⟨trivial, rfl, rfl, rfl, rfl, rfl, rfl⟩
  · subst wraps
    have target : wrapped (p.place.step direction) size =
        .ok ⟨(p.place.step direction).col % size, (p.place.step direction).row % size⟩ := by
      rw [wrapped, if_neg (by omega), Int.fmod_eq_emod_of_nonneg _ (by omega),
        Int.fmod_eq_emod_of_nonneg _ (by omega)]
    simp only [Starts, asked, tryMove, stands, outside, target]
    exact ⟨rfl, rfl, rfl, rfl, rfl, rfl, rfl⟩
  · rw [asked]
    simp only [tryMove, stands, outside]
    rcases hits with rfl | rfl <;> rfl
  · subst blocks
    rw [asked]
    simp only [tryMove, stands, outside]
    rfl

section
variable {a b : Int}

/-- The way of a move that cannot be shown is too long for a float, or starts too far out. -/
theorem eased_error {part : Float} {f : Fault} (failed : eased a b (.ok (.float part)) = .error f) :
    f = .intTooLarge := by
  have far {n : Int} {g : Fault} (large : floatOfInt n = .error g) : g = .intTooLarge :=
    (floatOfInt_error_iff.mp large).1
  cases way : floatOfInt (b - a) with
  | error g =>
    simp [eased, Curve.between, Number.sub, Number.mul, Number.combine, Number.toFloat, way, bind,
      Except.bind] at failed
    exact failed ▸ far way
  | ok span =>
    cases start : floatOfInt a with
    | error g =>
      simp [eased, Curve.between, Number.sub, Number.mul, Number.add, Number.combine, Number.toFloat, start,
        way, bind, Except.bind, pure, Except.pure] at failed
      exact failed ▸ far start
    | ok x => simp [eased, Curve.between_eq start way, Number.toFloat, bind, Except.bind] at failed

theorem showAt_result (p : Player) {col row : Except Fault Float}
    (across : ∀ f, col = .error f → f = .intTooLarge) (down : ∀ f, row = .error f → f = .intTooLarge) :
    (p.showAt col row).1 = .ok () ∨ (p.showAt col row).1 = .error .intTooLarge := by
  cases col with
  | error f => exact .inr (congrArg Except.error (across f rfl))
  | ok x =>
    cases row with
    | error f => exact .inr (congrArg Except.error (down f rfl))
    | ok y => exact .inl rfl

/-- A tick before the last one of a move leaves the move under way, whether it can be shown or not. -/
theorem advance_stays {p : Player} (least : 0 ≤ p.elapsed) (under : p.elapsed + 1 < p.moveTicks) :
    (∃ x y, p.advance.2 = { p with elapsed := p.elapsed + 1, visualCol := x, visualRow := y }) ∧
    (p.advance.1 = .ok [] ∨ p.advance.1 = .error .intTooLarge) := by
  obtain ⟨part, known⟩ := course_ok (p := { p with elapsed := p.elapsed + 1 })
    (by simp only; omega) under
  simp only [advance, if_neg (Int.not_le.mpr under), known]
  generalize across : eased p.origin.col p.target.col (.ok (.float part)) = col
  generalize down : eased p.origin.row p.target.row (.ok (.float part)) = row
  obtain ⟨x, y, frame⟩ := showAt_frame { p with elapsed := p.elapsed + 1 } col row
  have result := showAt_result { p with elapsed := p.elapsed + 1 }
    (fun f failed => eased_error (across.trans failed)) (fun f failed => eased_error (down.trans failed))
  generalize showAt _ col row = shown at frame result
  obtain ⟨answer, after⟩ := shown
  rcases result with rfl | rfl
  · exact ⟨⟨x, y, frame⟩, .inl rfl⟩
  · exact ⟨⟨x, y, frame⟩, .inr rfl⟩

/-- A token cannot be shown on a place that no float can hold. -/
theorem showAt_far (p : Player) {place : Place} (far : ¬place.Showable) :
    (p.showAt (floatOfInt place.col) (floatOfInt place.row)).1 = .error .intTooLarge := by
  have large {n : Int} (f : Fault) (failed : floatOfInt n = .error f) : f = .intTooLarge :=
    (floatOfInt_error_iff.mp failed).1
  have result : (p.showAt (floatOfInt place.col) (floatOfInt place.row)).1 = .ok () ∨ _ :=
    p.showAt_result large large
  rcases result with shown | failed
  · rw [showable_iff] at far
    cases across : floatOfInt place.col with
    | error f =>
      rw [across] at shown
      contradiction
    | ok x =>
      cases down : floatOfInt place.row with
      | error f =>
        rw [across, down] at shown
        contradiction
      | ok y => exact absurd ⟨⟨x, across⟩, y, down⟩ far
  · exact failed

/-- The last tick of a move ends it where it leads to, whether that can be shown or not. -/
theorem advance_last {p : Player} (last : p.moveTicks ≤ p.elapsed + 1) :
    (∃ x y, p.advance.2 = { p with
      elapsed := p.elapsed + 1, phase := .idle, place := p.target, visualCol := x, visualRow := y }) ∧
    (¬p.target.Showable → p.advance.1 = .error .intTooLarge) := by
  obtain ⟨x, y, frame⟩ := showAt_frame
    { p with elapsed := p.elapsed + 1, phase := .idle, place := p.target }
    (floatOfInt p.target.col) (floatOfInt p.target.row)
  have result (far : ¬p.target.Showable) := showAt_far
    { p with elapsed := p.elapsed + 1, phase := .idle, place := p.target } far
  simp only [advance, if_pos last]
  generalize showAt _ (floatOfInt p.target.col) (floatOfInt p.target.row) = shown at frame result ⊢
  obtain ⟨answer, after⟩ := shown
  cases answer with
  | error f => exact ⟨⟨x, y, frame⟩, fun far => congrArg Except.error (Except.error.inj (result far))⟩
  | ok _ =>
    refine ⟨⟨x, y, frame⟩, fun far => ?_⟩
    have failed := result far
    contradiction

/-- Only the last tick of a move ends it. -/
theorem advance_idle {p : Player} (moving : p.phase = .moving) (idle : p.advance.2.phase = .idle) :
    p.moveTicks ≤ p.elapsed + 1 := by
  by_contra early
  simp only [advance, if_neg early] at idle
  generalize eased p.origin.col p.target.col _ = col at idle
  generalize eased p.origin.row p.target.row _ = row at idle
  obtain ⟨x, y, frame⟩ := showAt_frame { p with elapsed := p.elapsed + 1 } col row
  generalize showAt _ col row = shown at frame idle
  obtain ⟨answer, after⟩ := shown
  subst frame
  have resting : p.phase = .idle := by cases answer <;> exact idle
  rw [resting] at moving
  contradiction

/-- What is landed on can be shown. -/
theorem advance_landed {p : Player} {events : List Event} {place : Place}
    (advanced : p.advance.1 = .ok events) (landed : .landed place ∈ events) :
    p.moveTicks ≤ p.elapsed + 1 ∧ place = p.target ∧ p.target.Showable ∧ events = [.landed place] := by
  by_cases last : p.moveTicks ≤ p.elapsed + 1
  · by_cases near : p.target.Showable
    · obtain ⟨⟨x, across⟩, y, down⟩ := showable_iff.mp near
      rw [advance_ends across down last] at advanced
      cases advanced
      cases List.mem_singleton.mp landed
      exact ⟨last, rfl, near, rfl⟩
    · rw [(advance_last last).2 near] at advanced
      contradiction
  · have silent : events = [] := by
      simp only [advance, if_neg last] at advanced
      split at advanced <;> cases advanced
      rfl
    rw [silent] at landed
    contradiction

end

section
variable {p : Player} {origin target : Place} {ticks : Int} {done : Nat} {call : Call}

/-- An update before the last one of a move leaves the move under way. -/
theorem Underway.goesOn (underway : p.Underway origin target ticks done) (update : call.isUpdate = true)
    (under : done + 1 < ticks) :
    (p.attend call).2.Underway origin target ticks (done + 1) ∧
    ((p.attend call).1 = .ok [] ∨ (p.attend call).1 = .error .intTooLarge) ∧
    (origin.Showable → target.Showable →
      0 ≤ origin.col ∧ 0 ≤ origin.row ∧ 0 ≤ target.col ∧ 0 ≤ target.row →
      (p.attend call).1 = .ok []) := by
  obtain ⟨moving, place, start, aim, length, elapsed⟩ := underway
  cases call with
  | reset | teleport | die => contradiction
  | update intent size border =>
    have advances : p.attend (.update intent size border) = p.hover.advance := by
      simp only [attend, Player.update, moving]
    rw [advances]
    have least : 0 ≤ p.hover.elapsed := by
      change 0 ≤ p.elapsed
      omega
    have still : p.hover.elapsed + 1 < p.hover.moveTicks := by
      change p.elapsed + 1 < p.moveTicks
      omega
    obtain ⟨⟨x, y, frame⟩, result⟩ := advance_stays least still
    refine ⟨?_, result, fun first last quadrant => ?_⟩
    · rw [frame]
      refine ⟨moving, place, start, aim, length, ?_⟩
      change p.elapsed + 1 = _
      omega
    · subst start aim
      obtain ⟨x, y, onward⟩ := advance_onward (p := p.hover) first last quadrant least still
      rw [onward]

/-- The last update of a move ends it. -/
theorem Underway.lands (underway : p.Underway origin target ticks done) (update : call.isUpdate = true)
    (last : done + 1 = ticks) :
    (p.attend call).2.Arrived target ticks ∧
    (target.Showable → (p.attend call).1 = .ok [.landed target] ∧ (p.attend call).2.Shown) ∧
    (¬target.Showable → (p.attend call).1 = .error .intTooLarge) := by
  obtain ⟨moving, place, start, aim, length, elapsed⟩ := underway
  cases call with
  | reset | teleport | die => contradiction
  | update intent size border =>
    have advances : p.attend (.update intent size border) = p.hover.advance := by
      simp only [attend, Player.update, moving]
    have ends : p.hover.moveTicks ≤ p.hover.elapsed + 1 := by
      change p.moveTicks ≤ p.elapsed + 1
      omega
    subst aim
    obtain ⟨⟨x, y, frame⟩, far⟩ := advance_last ends
    rw [advances]
    refine ⟨?_, fun near => ?_, far⟩
    · rw [frame]
      exact ⟨rfl, rfl, length⟩
    · obtain ⟨⟨x, across⟩, y, down⟩ := showable_iff.mp near
      rw [advance_ends (p := p.hover) across down ends]
      exact ⟨rfl, shows_iff.mpr across, shows_iff.mpr down⟩

/-- On a board, a token sets out for a place on the board. -/
theorem Starts.within {size : Int} {intent : Except Fault (Option Direction)} {border : Border}
    (starts : p.Starts (.update intent size border) target) (idle : p.phase = .idle)
    (inside : p.place.within size = true) : target.within size = true := by
  obtain ⟨n, rfl⟩ := Int.eq_ofNat_of_zero_le (show 0 ≤ size by
    have := (Place.within_iff _ _).mp inside
    omega)
  have still : p.phase ≠ .moving := by
    rw [idle]
    decide
  have within : p.Within n := ⟨inside, fun moving => absurd moving still, fun moving => absurd moving still⟩
  rw [← starts.2.target]
  exact (update_within within intent border).target starts.2.moving

/-- Updates, fewer than a move takes, leave it under way. -/
theorem Underway.run (underway : p.Underway origin target ticks 0) (calls : List Call)
    (updates : ∀ call ∈ calls, call.isUpdate = true) (under : calls.length < ticks) :
    (p.attendAll calls).Underway origin target ticks calls.length := by
  induction calls using List.reverseRecOn with
  | nil => exact underway
  | append_singleton earlier call ih =>
    rw [List.length_append, List.length_singleton] at under ⊢
    rw [attendAll_concat]
    have before := ih (fun call member => updates call (List.mem_append_left _ member)) (by omega)
    exact (before.goesOn (updates call (by simp)) (by omega)).1

end

/-- A token that is put on a place that can be shown rests there and is shown there. -/
theorem reset_near (p : Player) {place : Place} (near : place.Showable) :
    (p.reset place).2.phase = .idle ∧ (p.reset place).2.Shown := by
  obtain ⟨⟨x, across⟩, y, down⟩ := showable_iff.mp near
  simp only [reset, showAt_ok _ across down]
  exact ⟨trivial, shows_iff.mpr across, shows_iff.mpr down⟩

theorem attend_moveTicks (p : Player) (call : Call) : (p.attend call).2.moveTicks = p.moveTicks := by
  cases call with
  | die => rfl
  | reset place | teleport place => exact p.reset_moveTicks place
  | update intent size border => exact p.update_moveTicks intent size border

theorem attendAll_moveTicks (p : Player) (calls : List Call) :
    (p.attendAll calls).moveTicks = p.moveTicks := by
  induction calls using List.reverseRecOn with
  | nil => rfl
  | append_singleton earlier call ih => rw [attendAll_concat, attend_moveTicks, ih]

/-- A token at rest that moves after an update has been set out by it. -/
theorem update_sets_out {p : Player} (idle : p.phase = .idle) {intent : Except Fault (Option Direction)}
    {size : Int} {border : Border} (moving : (p.update intent size border).2.phase = .moving) :
    ∃ target, (p.update intent size border).2.Underway p.place target p.moveTicks 0 := by
  have rests : p.hover.phase ≠ .moving := by
    change p.phase ≠ .moving
    rw [idle]
    decide
  simp only [update, idle] at moving ⊢
  split at moving
  · exact absurd moving rests
  · exact absurd moving rests
  next direction =>
    rcases p.hover.tryMove_frame direction size border with frame | ⟨target, frame⟩
    · rw [frame] at moving
      exact absurd moving rests
    · refine ⟨target, ?_⟩
      simp only [frame]
      exact ⟨rfl, rfl, rfl, rfl, rfl, rfl⟩

/-- Calls that end in a move: the update that set the token out from where it rested, and the updates after
it, this many. -/
def Moves (p : Player) (calls : List Call) (target : Place) (done : Nat) : Prop :=
  ∃ before start updates, calls = before ++ start :: updates ∧ updates.length = done ∧
    (∀ call ∈ start :: updates, call.isUpdate = true) ∧
    (p.attendAll before).phase = .idle ∧
    ((p.attendAll before).attend start).2.Underway (p.attendAll before).place target p.moveTicks 0

theorem Moves.concat {p : Player} {calls : List Call} {target : Place} {done : Nat}
    (moves : p.Moves calls target done) {call : Call} (update : call.isUpdate = true) :
    p.Moves (calls ++ [call]) target (done + 1) := by
  obtain ⟨before, start, updates, rfl, count, all, idle, underway⟩ := moves
  refine ⟨before, start, updates ++ [call], by simp, by simp [count], ?_, idle, underway⟩
  intro other member
  rw [← List.cons_append, List.mem_append, List.mem_singleton] at member
  rcases member with member | rfl
  · exact all other member
  · exact update

/-- A call after which a token moves to a place that can be shown is an update; it has set the token out,
or the move goes on. -/
theorem attend_moving {p : Player} {call : Call} (moving : (p.attend call).2.phase = .moving)
    (near : (p.attend call).2.target.Showable) : call.isUpdate = true ∧
    (p.phase = .idle ∧ (p.attend call).2.Underway p.place (p.attend call).2.target p.moveTicks 0 ∨
      p.phase = .moving ∧ (p.attend call).2.target = p.target ∧ p.elapsed + 1 < p.moveTicks) := by
  cases call with
  | die => contradiction
  | reset place | teleport place =>
    have target : (p.reset place).2.target = place := (p.reset_places place).2.2
    have rested := (p.reset_near (show place.Showable from target ▸ near)).1
    change (p.reset place).2.phase = .moving at moving
    rw [rested] at moving
    contradiction
  | update intent size border =>
    refine ⟨rfl, ?_⟩
    cases phase : p.phase with
    | dead =>
      simp only [attend, update, phase] at moving
      contradiction
    | idle =>
      obtain ⟨target, underway⟩ := update_sets_out phase moving
      have aim : (p.attend (.update intent size border)).2.target = target := underway.target
      rw [aim]
      exact .inl ⟨rfl, underway⟩
    | moving =>
      simp only [attend, update, phase] at moving ⊢
      refine .inr ⟨trivial, ?_, ?_⟩
      · obtain ⟨x, y, frame | frame⟩ := p.hover.advance_frame <;> rw [frame] <;> rfl
      · by_contra last
        obtain ⟨x, y, frame⟩ := (p.hover.advance_last (Int.not_lt.mp last)).1
        rw [frame] at moving
        contradiction

/-- A token that moves to a place that can be shown has been set out for it, and since then there has been
nothing but updates, fewer than the move takes. -/
theorem moves_since {p : Player} (rests : p.phase = .idle) (least : 1 ≤ p.moveTicks) (calls : List Call)
    (moving : (p.attendAll calls).phase = .moving) (near : (p.attendAll calls).target.Showable) :
    ∃ origin done, p.Moves calls (p.attendAll calls).target done ∧
      (p.attendAll calls).Underway origin (p.attendAll calls).target p.moveTicks done ∧
      done < p.moveTicks := by
  -- By the last call: it has set the token out, or the move was under way before it.
  induction calls using List.reverseRecOn with
  | nil => rw [show (p.attendAll []).phase = p.phase from rfl, rests] at moving; contradiction
  | append_singleton earlier call ih =>
    have length := p.attendAll_moveTicks earlier
    rw [attendAll_concat] at moving near ⊢
    obtain ⟨update, ⟨idle, underway⟩ | ⟨phase, kept, under⟩⟩ := attend_moving moving near
    · rw [length] at underway
      refine ⟨_, 0, ⟨earlier, call, [], rfl, rfl, ?_, idle, underway⟩, underway, by omega⟩
      intro other member
      rw [List.mem_singleton.mp member]
      exact update
    · rw [kept] at near ⊢
      obtain ⟨origin, done, moves, underway, short⟩ := ih phase near
      have elapsed := underway.elapsed
      exact ⟨origin, done + 1, moves.concat update, (underway.goesOn update (by omega)).1, by omega⟩

/-- Only the last tick of a move has a landing to tell, and it tells nothing else. -/
theorem attend_landed {p : Player} {call : Call} {events : List Event} {place : Place}
    (answered : (p.attend call).1 = .ok events) (landed : .landed place ∈ events) :
    call.isUpdate = true ∧ p.phase = .moving ∧ p.moveTicks ≤ p.elapsed + 1 ∧ place = p.target ∧
      p.target.Showable ∧ events = [.landed place] := by
  cases call with
  | die =>
    cases answered
    contradiction
  | reset other | teleport other =>
    change (p.reset other).1.map (fun _ => []) = .ok events at answered
    cases result : (p.reset other).1 with
    | error f =>
      rw [result] at answered
      contradiction
    | ok _ =>
      rw [result] at answered
      cases answered
      contradiction
  | update intent size border =>
    cases phase : p.phase with
    | dead =>
      simp only [attend, update, phase] at answered
      cases answered
      contradiction
    | idle =>
      simp only [attend, update, phase] at answered
      split at answered
      · contradiction
      · cases answered
        contradiction
      · rcases tryMove_events (Prod.ext answered rfl) with none | hit
        · rw [none] at landed
          contradiction
        · rw [hit, List.mem_singleton] at landed
          contradiction
    | moving =>
      simp only [attend, update, phase] at answered
      exact ⟨rfl, rfl, advance_landed (p := p.hover) answered landed⟩

/-- A landing comes at the end of a whole move, and is all that is told then. -/
theorem landed_moves {p : Player} (rests : p.phase = .idle) (least : 1 ≤ p.moveTicks) (calls : List Call)
    {call : Call} {events : List Event} {place : Place}
    (answered : ((p.attendAll calls).attend call).1 = .ok events) (landed : .landed place ∈ events) :
    events = [.landed place] ∧ call.isUpdate = true ∧
      ∃ done, p.Moves calls place done ∧ done + 1 = p.moveTicks := by
  obtain ⟨update, moving, last, rfl, near, single⟩ := attend_landed answered landed
  obtain ⟨origin, done, moves, underway, short⟩ := moves_since rests least calls moving near
  have elapsed := underway.elapsed
  have length := p.attendAll_moveTicks calls
  exact ⟨single, update, done, moves, by omega⟩

/-- A token at rest is shown where it stands, if floats can hold the place. -/
def Settled (p : Player) : Prop := p.phase = .idle → p.place.Showable → p.Shown

theorem settled_attend {p : Player} (settled : p.Settled) (call : Call) : (p.attend call).2.Settled := by
  cases call with
  | die => exact nofun
  | reset place | teleport place =>
    intro idle near
    have stands : (p.reset place).2.place = place := (p.reset_places place).1
    exact (p.reset_near (show place.Showable from stands ▸ near)).2
  | update intent size border =>
    simp only [attend, update]
    split
    · exact settled
    next moving =>
      intro idle near
      have last := advance_idle (p := p.hover) moving idle
      obtain ⟨x, y, frame⟩ := (advance_last last).1
      have stands : p.hover.advance.2.place = p.target := congrArg Player.place frame
      obtain ⟨⟨x, across⟩, y, down⟩ := showable_iff.mp (show p.target.Showable from stands ▸ near)
      rw [advance_ends (p := p.hover) across down last]
      exact ⟨shows_iff.mpr across, shows_iff.mpr down⟩
    · split
      · exact settled
      · exact settled
      next direction =>
        rcases p.hover.tryMove_frame direction size border with frame | ⟨target, frame⟩
        · rw [frame]
          exact settled
        · rw [frame]
          intro idle
          contradiction

theorem attendAll_settled {p : Player} (settled : p.Settled) (calls : List Call) :
    (p.attendAll calls).Settled := by
  induction calls using List.reverseRecOn with
  | nil => exact settled
  | append_singleton earlier call ih =>
    rw [attendAll_concat]
    exact settled_attend ih call

/-- A move that ends later than a call that is no update was set out after that call. -/
theorem Moves.after {p : Player} {first rest : List Call} {cancel : Call} {place : Place} {done : Nat}
    (moves : p.Moves (first ++ cancel :: rest) place done) (other : cancel.isUpdate = false) :
    (p.attendAll (first ++ [cancel])).Moves rest place done := by
  obtain ⟨before, start, updates, split, count, all, idle, underway⟩ := moves
  have excluded : cancel ∉ start :: updates := by
    intro member
    rw [all cancel member] at other
    contradiction
  obtain ⟨middle, rfl, same⟩ : ∃ middle, before = first ++ cancel :: middle ∧
      rest = middle ++ start :: updates := by
    rcases List.append_eq_append_iff.mp split with ⟨middle, rfl, same⟩ | ⟨middle, rfl, same⟩
    · cases middle with
      | nil =>
        cases same
        simp at excluded
      | cons head middle =>
        cases same
        exact ⟨middle, rfl, rfl⟩
    · rw [same] at excluded
      simp at excluded
  have before : p.attendAll (first ++ cancel :: middle) =
      (p.attendAll (first ++ [cancel])).attendAll middle := by simp [attendAll]
  rw [before] at idle underway
  refine ⟨middle, start, updates, same, count, all, idle, ?_⟩
  rw [attendAll_moveTicks]
  exact underway

/-- How a token travels, and when it is shown where it is. In a direction, a token at rest sets out for
the place beside it or across the board, or meets the border. Then a move takes its ticks, whatever the
updates are given, and the last of them lands; floats have to hold both ends of it, or what is told is a
fault. No landing comes from a move that another call has cut off. -/
theorem traverses (ticks : Int) (least : 1 ≤ ticks) :
    (∀ (p : Player) size border direction, p.phase = .idle → p.moveTicks = ticks →
      p.place.within size = true →
      let call := Call.update (.ok (some direction)) size border
      p.Departs size border direction call ∧
      ∀ target, p.Starts call target → ∀ earlier next,
        (∀ update ∈ earlier ++ [next], update.isUpdate = true) →
        let q := p.attendAll (call :: earlier)
        (earlier.length + 1 < ticks →
          (q.attend next).2.Underway p.place target ticks (earlier.length + 1) ∧
          ((q.attend next).1 = .ok [] ∨ (q.attend next).1 = .error .intTooLarge) ∧
          (p.place.Showable → target.Showable → (q.attend next).1 = .ok [])) ∧
        (earlier.length + 1 = ticks →
          (q.attend next).2.Arrived target ticks ∧
          (target.Showable → (q.attend next).1 = .ok [.landed target] ∧ (q.attend next).2.Shown) ∧
          (¬target.Showable → (q.attend next).1 = .error .intTooLarge))) ∧
    (∀ p : Player, p.phase = .idle → p.moveTicks = ticks → ∀ calls next events place,
      ((p.attendAll calls).attend next).1 = .ok events → .landed place ∈ events →
      events = [.landed place] ∧ next.isUpdate = true ∧
      (∃ done, p.Moves calls place done ∧ done + 1 = ticks) ∧
      ∀ first cancel rest, calls = first ++ cancel :: rest → cancel.isUpdate = false →
        ∃ done, (p.attendAll (first ++ [cancel])).Moves rest place done) ∧
    ∀ calls, (({ moveTicks := ticks } : Player).attendAll calls).Settled := by
  refine ⟨?_, ?_, ?_⟩
  · intro p size border direction idle length inside call
    have departs := departs idle inside border direction
    refine ⟨departs, ?_⟩
    intro target starts earlier next updates q
    have update : next.isUpdate = true := updates next (by simp)
    have run (under : earlier.length < ticks) : q.Underway p.place target ticks earlier.length :=
      (length ▸ starts.2).run earlier (fun call member => updates call (List.mem_append_left _ member)) under
    refine ⟨fun under => ?_, fun last => (run (by omega)).lands update last⟩
    obtain ⟨underway, result, silent⟩ := (run (by omega)).goesOn update under
    have leads := (Place.within_iff _ _).mp (starts.within idle inside)
    have stands := (Place.within_iff _ _).mp inside
    exact ⟨underway, result, fun near far =>
      silent near far ⟨stands.1, stands.2.2.1, leads.1, leads.2.2.1⟩⟩
  · rintro p idle rfl calls next events place answered landed
    obtain ⟨single, update, done, moves, count⟩ := landed_moves idle least calls answered landed
    refine ⟨single, update, ⟨done, moves, count⟩, ?_⟩
    rintro first cancel rest rfl other
    exact ⟨done, moves.after other⟩
  · have origin : Shows 0 0 := shows_iff.mpr rfl
    exact attendAll_settled fun _ _ => ⟨origin, origin⟩

/-- A token that takes two ticks for a move leaves a board of one place across its left border, and lands
where it has been; that the second tick is meant for another board, and names no direction, is no matter.
Had it been put back on its place before the second tick, there would be no landing. -/
theorem traverses_alone :
    let p : Player := { moveTicks := 2 }
    let start := Call.update (.ok (some .left)) 1 .wrap
    let tick := Call.update (.error (.notADirection "sideways")) 7 .kill
    p.Starts start ⟨0, 0⟩ ∧
    ((p.attendAll [start]).attend tick).1 = .ok [] ∧
    ((p.attendAll [start, tick]).attend tick).1 = .ok [.landed ⟨0, 0⟩] ∧
    (p.attendAll [start, tick, tick]).Shown ∧
    p.Moves [start, tick] ⟨0, 0⟩ 1 ∧
    ¬∃ events, ((p.attendAll [start, .reset ⟨0, 0⟩]).attend tick).1 = .ok events ∧
      .landed ⟨0, 0⟩ ∈ events := by
  intro p start tick
  obtain ⟨travels, lands, settled⟩ := traverses 2 (by decide)
  obtain ⟨departs, moves⟩ := travels p 1 .wrap .left rfl rfl rfl
  have starts : p.Starts start ⟨0, 0⟩ := departs.wraps rfl rfl
  have near : (⟨0, 0⟩ : Place).Showable := by constructor <;> exact Nat.lt_trans (by decide) lt_beyond
  have first := (moves ⟨0, 0⟩ starts [] tick (by decide)).1 (by decide)
  have second := (moves ⟨0, 0⟩ starts [tick] tick (by decide)).2 (by decide)
  have landing := (second.2.1 near).1
  obtain ⟨_, _, ⟨done, whole, count⟩, _⟩ :=
    lands p rfl rfl [start, tick] tick _ ⟨0, 0⟩ landing (List.mem_singleton_self _)
  have one : done = 1 := by omega
  refine ⟨starts, first.2.2 near near, landing, (second.2.1 near).2, one ▸ whole, ?_⟩
  rintro ⟨events, answered, landed⟩
  obtain ⟨_, _, _, cut⟩ := lands p rfl rfl [start, .reset ⟨0, 0⟩] tick events ⟨0, 0⟩ answered landed
  obtain ⟨_, before, _, _, split, _⟩ := cut [start] (.reset ⟨0, 0⟩) [] rfl rfl
  simp at split

/-- A token leaves an immense board across its left border and comes to rest on the other side, but the tick
on which it does reports a fault and no landing. And a place whose column has more than 53 bits is shown
beside itself. -/
theorem traverses_beyond :
    let p : Player := { moveTicks := 1 }
    let size : Int := 10 ^ 309
    let far : Place := ⟨size - 1, 0⟩
    let tick := Call.update (.ok none) size .wrap
    p.place.within size = true ∧
    p.Starts (.update (.ok (some .left)) size .wrap) far ∧
    ((p.attendAll [.update (.ok (some .left)) size .wrap]).attend tick).1 = .error .intTooLarge ∧
    (p.attendAll [.update (.ok (some .left)) size .wrap, tick]).Arrived far 1 ∧
    (Number.float (p.attendAll [.teleport ⟨2 ^ 53 + 1, 0⟩]).visualCol).compare? (.int (2 ^ 53 + 1)) =
      some .lt := by
  intro p size far tick
  have inside : p.place.within size = true := by decide +kernel
  have starts : p.Starts (.update (.ok (some .left)) size .wrap) far := by
    have across : (⟨(p.place.step .left).col % size, (p.place.step .left).row % size⟩ : Place) = far := by
      decide +kernel
    rw [← across]
    exact (departs rfl inside .wrap .left).wraps (by decide +kernel) rfl
  have outside : ¬far.Showable := by
    intro near
    exact absurd near.1 (by decide +kernel)
  have update : tick.isUpdate = true := rfl
  have lands := starts.2.lands update rfl
  exact ⟨inside, starts, lands.2.2 outside, lands.1, by decide +kernel⟩

end Player
end TilePuzzle
