import TilePuzzle.Proofs.Outcome

/-! A frame that does not fail, read backwards: what the token did, what the referee answered, what
idle time came to, and which cues were shown. -/
namespace TilePuzzle

namespace Turn

/-- Hints are told, and nothing comes of them. -/
theorem apply_hints (t : Turn) (r : Referee) (hints : List Hint) :
    t.apply (r.hints hints) = { t with events := t.events ++ r.hints hints } := by
  unfold Referee.hints
  generalize hints.filter _ = due
  induction due generalizing t with
  | nil => simp [apply]
  | cons hint rest ih =>
    have told : t.applyOne (.hintShown hint.text hint.duration) =
        t.emit (.hintShown hint.text hint.duration) := rfl
    simp only [apply, List.map_cons, List.foldl_cons, told]
    refine (ih _).trans ?_
    simp [emit]

def ruled (t : Turn) (referee : Referee) (events : List Event) : Turn :=
  { t with session := { t.session with referee } }.apply events

def hinted (t : Turn) (hints : List Hint) : Turn := t.apply (t.session.referee.hints hints)

theorem hinted_eq (t : Turn) (hints : List Hint) :
    t.hinted hints = { t with events := t.events ++ t.session.referee.hints hints } :=
  apply_hints t _ hints

/-- How a token moves on: there is nothing to tell, it meets the border, or it lands. -/
inductive Moves (t : Turn) (level : Level) : Turn → Prop
  | quiet : (stride t.session level).1 = .ok [] → Moves t level (t.moved level)
  | met {direction : Direction} : (stride t.session level).1 = .ok [.borderHit direction] →
      Moves t level (((t.moved level).emit (.borderHit direction)).ruled
        (t.session.referee.borderHit level.border).2 (t.session.referee.borderHit level.border).1)
  | landed {place : Place} {events : List Event} {after : Referee} :
      (stride t.session level).1 = .ok [.landed place] →
      t.session.referee.land place = (.ok events, after) →
      Moves t level ((((t.moved level).emit (.landed place)).ruled after events).hinted level.hints)

@[simp] theorem answerAll_one (level : Level) (t : Turn) (event : Event) :
    t.answerAll level [event] = t.answer level event := by
  simp only [answerAll]
  obtain ⟨result, u⟩ := t.answer level event
  cases result <;> rfl

theorem answer_landed {t u : Turn} {level : Level} {place : Place}
    (done : t.answer level (.landed place) = (.ok (), u)) :
    ∃ events after, t.session.referee.land place = (.ok events, after) ∧
      u = ((t.emit (.landed place)).ruled after events).hinted level.hints := by
  have referee : (t.emit (.landed place)).session.referee = t.session.referee := rfl
  simp only [answer, referee] at done
  generalize t.session.referee.land place = landing at done
  obtain ⟨result, after⟩ := landing
  cases result with
  | error f => cases done
  | ok events =>
    cases done
    exact ⟨events, after, rfl, rfl⟩

theorem movePlayer_moves {t u : Turn} {level : Level} (done : t.movePlayer level = (.ok (), u)) :
    t.Moves level u := by
  rw [movePlayer_eq] at done
  cases strides : (stride t.session level).1 with
  | error f => rw [strides] at done; cases done
  | ok events =>
    rw [strides] at done
    rcases Player.update_events (Prod.ext strides rfl) with rfl | ⟨direction, rfl⟩ | rfl
    · cases done
      exact .quiet strides
    · cases done
      exact .met strides
    · simp only [answerAll_one] at done
      obtain ⟨events, after, lands, rfl⟩ := answer_landed done
      exact .landed strides lands

/-- How idle time passes: not at all once the session is over, else as the referee says. -/
inductive Passes (t : Turn) : Turn → Prop
  | past : t.session.isActive = false → Passes t t
  | judged {events : List Event} {after : Referee} : t.session.isActive = true →
      t.session.referee.tick (t.session.player.phase = .moving) = (.ok events, after) →
      Passes t (t.ruled after events)

theorem passTime_passes {t u : Turn} (done : t.passTime = (.ok (), u)) : t.Passes u := by
  unfold passTime at done
  cases active : t.session.isActive with
  | false =>
    rw [active] at done
    cases done
    exact .past active
  | true =>
    rw [active] at done
    cases passes : t.session.referee.tick (t.session.player.phase = .moving) with
    | mk result after =>
      simp only [passes, if_true, applyResult] at done
      cases result with
      | error f => cases done
      | ok told =>
        cases done
        exact .judged active passes

/-- How cues are shown at the end of a frame: none once the session is over, else those that are
due. -/
inductive Shows (t : Turn) (level : Level) (cues : List (Int × Cue)) : Turn → List (Int × Cue) → Prop
  | past : t.session.isActive = false → Shows t level cues t cues
  | due {shown : List Event} : t.session.isActive = true →
      Cue.eventsOf level.blueprint.patterns
        ((cues.filter fun c => c.1 ≤ (t.session.frame : Int)).map (·.2)) = (.ok (), shown) →
      Shows t level cues { t with events := t.events ++ shown }
        (cues.filter fun c => (t.session.frame : Int) < c.1)

end Turn

namespace Game

theorem emitDue_shows {t u : Turn} {level : Level} {cues left : List (Int × Cue)}
    (done : emitDue cues level t = (.ok (), u, left)) : t.Shows level cues u left := by
  unfold emitDue at done
  cases active : t.session.isActive with
  | false =>
    rw [active] at done
    cases done
    exact .past active
  | true =>
    simp only [active, if_true] at done
    cases shows : Cue.eventsOf level.blueprint.patterns
        ((cues.filter fun c => c.1 ≤ (t.session.frame : Int)).map (·.2)) with
    | mk result shown =>
      rw [shows] at done
      cases done
      exact .due active shows

/-- A frame that was played to its end: the token moved, idle time passed, the tiles were animated
and the cues that were due were shown. -/
structure Frame (s : Session) (level : Level) (cues : List (Int × Cue)) (t : Turn)
    (left : List (Int × Cue)) : Prop where
  steps : ∃ (u v : Turn) (board : Board), (opening s).Moves level u ∧ u.Passes v ∧
    level.board.refresh (v.session.clock + 1 : Nat) = (.ok (), board) ∧
    (v.animated level board).Shows level cues t left

theorem playFrame_frame {s : Session} {level : Level} {cues left : List (Int × Cue)} {t : Turn}
    (played : playFrame s level cues = (.ok (), t, left)) : Frame s level cues t left := by
  have unfolded : simulate s level = andThen
      (andThen ((opening s).movePlayer level) Turn.passTime) fun t => t.animate level := rfl
  unfold playFrame at played
  rw [unfolded] at played
  cases moves : (opening s).movePlayer level with
  | mk result u =>
    cases result with
    | error f => rw [moves] at played; cases played
    | ok _ =>
      cases passes : u.passTime with
      | mk result v =>
        simp only [moves, andThen, passes] at played
        cases result with
        | error f => cases played
        | ok _ =>
          cases refreshes : level.board.refresh (v.session.clock + 1 : Nat) with
          | mk result board =>
            simp only [Turn.animate_eq, refreshes] at played
            cases result with
            | error f => cases played
            | ok _ =>
              exact ⟨u, v, board, Turn.movePlayer_moves moves, Turn.passTime_passes passes, refreshes,
                emitDue_shows played⟩

end Game
end TilePuzzle
