import TilePuzzle.Proofs.Forgetting
import TilePuzzle.Proofs.Ticking

/-! When the cues of a level are shown: each at the end of the frame at which it is due, if the session
is still active then, and at no other. What is left of them goes with the next load that gets under way,
whether it succeeds or not; one that is refused changes nothing. -/
namespace TilePuzzle

namespace Cue

def isKnown (cue : Cue) : Bool :=
  cue.kind == "show_hint" || cue.kind == "show_sequence" || cue.kind == "play_sound"

/-- Whether a cue is due at a frame: the one at which its delay is over, or the first. -/
def isDueAt (config : Config) (frame : Nat) (cue : Cue) : Bool :=
  match config.ticks (.int cue.delay) with
  | .ok due => max 1 due == frame
  | .error _ => false

theorem isSome_event {patterns : Fields} {cue : Cue} {event : Option Event}
    (made : cue.event patterns = .ok event) : event.isSome = cue.isKnown := by
  simp only [Cue.event] at made
  unfold isKnown
  split at made
  next kind => cases made; simp [kind]
  next =>
    split at made
    next kind =>
      cases items : itemsOf (Value.get cue.params "colors") <;> rw [items] at made <;> cases made
      simp [kind]
    next =>
      split at made
      next kind =>
        cases pattern : patternOf patterns (Value.get cue.params "sound_id") <;>
          rw [pattern] at made <;> cases made
        simp [kind]
      next => cases made; simp [*]

/-- What cues come to are the events of the known ones among them, in their order. -/
theorem eventsOf_known {patterns : Fields} {cues : List Cue} {shown : List Event}
    (done : eventsOf patterns cues = (.ok (), shown)) :
    List.Forall₂ (fun cue event => cue.event patterns = .ok (some event)) (cues.filter isKnown) shown := by
  induction cues generalizing shown with
  | nil => cases done; exact .nil
  | cons cue rest ih =>
    rw [eventsOf] at done
    cases made : cue.event patterns with
    | error f => rw [made] at done; cases done
    | ok event =>
      rcases told : eventsOf patterns rest with ⟨result, later⟩
      rw [made, told] at done
      cases done
      have known := isSome_event made
      cases event with
      | none => simpa [List.filter_cons, ← known] using ih told
      | some event => simpa [List.filter_cons, ← known, made] using ih told

end Cue

namespace Game

/-- The cues that are scheduled for a frame are those that are due at it. -/
theorem schedule_due {config : Config} {cues : List Cue} {due : List (Int × Cue)}
    (scheduled : schedule config cues = .ok due) (frame : Nat) :
    (due.filter fun c => max 1 c.1 == (frame : Int)).map (·.2) = cues.filter (Cue.isDueAt config frame) := by
  induction cues generalizing due with
  | nil => cases scheduled; rfl
  | cons cue rest ih =>
    obtain ⟨first, ticks, scheduled⟩ := bind_ok_iff.mp scheduled
    obtain ⟨later, others, same⟩ := bind_ok_iff.mp scheduled
    cases same
    have here : cue.isDueAt config frame = (max 1 first == (frame : Int)) := by
      simp only [Cue.isDueAt, ticks]
    rw [List.filter_cons, List.filter_cons, here]
    split
    · rw [List.map_cons, ih others]
    · exact ih others

def recue (g : Game) (cues : List (Int × Cue)) : Game :=
  { g with backstage := { g.backstage with cues } }

/-- A tick gives what it would without any cues, and after it just the events of some cues; those of a
kind that is not known have none. -/
def Adds (g : Game) (patterns : Fields) (cues : List Cue) (result : TickResult) : Prop :=
  ∃ told shown, (g.recue []).tick.1 = .ok { result with events := told } ∧
    result.events = told ++ shown ∧
    List.Forall₂ (fun cue event => cue.event patterns = .ok (some event)) (cues.filter Cue.isKnown) shown

theorem adds_none {g : Game} {result : TickResult} (uncued : (g.recue []).tick.1 = .ok result)
    (patterns : Fields) : g.Adds patterns [] result :=
  ⟨result.events, [], uncued, (List.append_nil _).symm, .nil⟩

/-- A frame with cues is one without them, after which those that are due are shown. -/
theorem playFrame_uncued {s : Session} {level : Level} {cues left : List (Int × Cue)} {t : Turn}
    (played : playFrame s level cues = (.ok (), t, left)) :
    ∃ u, playFrame s level [] = (.ok (), u, []) ∧ u.session = t.session ∧ u.Shows level cues t left := by
  unfold playFrame at played ⊢
  generalize simulate s level = outcome at played ⊢
  obtain ⟨result, u⟩ := outcome
  cases result with
  | error f => cases played
  | ok _ =>
    have shows := emitDue_shows played
    refine ⟨u, ?_, ?_, shows⟩
    · simp only [emitDue, List.filter_nil, List.map_nil, Cue.eventsOf, List.append_nil, ite_self]
    · cases shows <;> rfl

theorem playFrame_stays {s : Session} {level : Level} {cues left : List (Int × Cue)} {t : Turn}
    (plays : s.Plays level) (played : playFrame s level cues = (.ok (), t, left)) :
    t.session.frame = s.frame + 1 ∧ ∃ board, t.session.level = some { level with board } := by
  have session := playFrame_session s level cues
  obtain ⟨u, steps, ⟨f, failed⟩ | animates⟩ := simulate_cases s level plays.board plays.player
  · simp only [playFrame, failed] at played
    cases played
  · have frame : u.session.frame = s.frame + 1 := steps.stays.frame
    rw [played, animates, Turn.animate_eq] at session
    rw [session]
    exact ⟨frame, _, rfl⟩

/-- A game that goes on with a level after so many frames: what is due later is still to come. -/
structure Awaits (g : Game) (level : Level) (due : List (Int × Cue)) (frames : Nat) : Prop where
  placed : ∃ board, g.session.level = some { level with board }
  frame : g.session.frame = frames
  cues : g.backstage.cues = due.filter fun c => decide ((frames : Int) < max 1 c.1)

section
variable {g : Game} {level : Level} {due : List (Int × Cue)} {frames : Nat}

/-- The next frame at which the session stays active shows what is due at it. -/
theorem Awaits.shows (awaits : g.Awaits level due frames) {t u : Turn} {left : List (Int × Cue)}
    {board : Board} (frame : u.session.frame = frames + 1) (active : u.session.isActive = true)
    (shows : u.Shows { level with board } g.backstage.cues t left) :
    ∃ shown, t.events = u.events ++ shown ∧
      Cue.eventsOf level.blueprint.patterns
        ((due.filter fun c => max 1 c.1 == ((frames + 1 : Nat) : Int)).map (·.2)) = (.ok (), shown) ∧
      left = due.filter fun c => decide (((frames + 1 : Nat) : Int) < max 1 c.1) := by
  cases shows with
  | past inactive => rw [active] at inactive; contradiction
  | @due shown _ told =>
    rw [frame, awaits.cues, List.filter_filter] at told
    -- What was left is due after the last frame, so what is due by this one is due at it.
    refine ⟨shown, rfl, ?_, ?_⟩
    · rw [← told]
      congr 2
      refine List.filter_congr fun c _ => ?_
      rw [Bool.eq_iff_iff]
      simp only [beq_iff_eq, Bool.and_eq_true, decide_eq_true_eq]
      omega
    · rw [frame, awaits.cues, List.filter_filter]
      refine List.filter_congr fun c _ => ?_
      rw [Bool.eq_iff_iff]
      simp only [Bool.and_eq_true, decide_eq_true_eq]
      omega

/-- A tick shows what is due at its frame if the session is active at its end, and else nothing. -/
theorem tick_awaits (coherent : g.session.Coherent)
    (awaits : g.session.isActive = true → g.Awaits level due frames) {result : TickResult} {after : Game}
    (ticked : g.tick = (.ok result, after)) :
    result.stage = after.session.stage ∧
    (result.stage = .active → result.frame = frames + 1 ∧ after.Awaits level due (frames + 1)) ∧
    g.Adds level.blueprint.patterns (if result.stage = .active then
      (due.filter fun c => max 1 c.1 == ((frames + 1 : Nat) : Int)).map (·.2) else []) result := by
  cases active : g.session.isActive with
  | false =>
    cases ticked.symm.trans (tick_idle (.inr active))
    have inactive : g.session.stage ≠ .active := by simpa [Session.isActive] using active
    refine ⟨rfl, fun still => absurd still inactive, ?_⟩
    rw [if_neg inactive]
    exact adds_none (congrArg Prod.fst (tick_idle (g := g.recue []) (.inr active))) _
  | true =>
    have awaits := awaits active
    obtain ⟨board, here⟩ := awaits.placed
    have ticks := tick_active here active
    simp only at ticks
    rw [ticked] at ticks
    rcases played : playFrame g.session { level with board } g.backstage.cues with ⟨done, t, left⟩
    rw [played] at ticks
    cases done with
    | error f => cases ticks
    | ok _ =>
      cases ticks
      obtain ⟨u, uncued, same, shows⟩ := playFrame_uncued played
      obtain ⟨frame, placed⟩ := playFrame_stays (coherent.inPlace _ here) played
      have alone : (g.recue []).tick.1 = .ok ⟨t.session.frame, t.session.stage,
          g.backstage.outbox ++ u.events⟩ := by
        rw [tick_active (g := g.recue []) here active]
        have bare : playFrame (g.recue []).session { level with board } (g.recue []).backstage.cues =
          (.ok (), u, []) := uncued
        simp only [bare, same]
        rfl
      have next : t.session.frame = frames + 1 := frame.trans (congrArg (· + 1) awaits.frame)
      refine ⟨rfl, ?_⟩
      by_cases still : t.session.stage = .active
      · obtain ⟨shown, told, events, later⟩ :=
          awaits.shows (same ▸ next) (by rw [Session.isActive, same, still]; rfl) shows
        refine ⟨fun _ => ⟨next, placed, next, later⟩, ?_⟩
        rw [if_pos still]
        refine ⟨_, shown, alone, ?_, Cue.eventsOf_known events⟩
        rw [told, List.append_assoc]
      · refine ⟨fun active => absurd active still, ?_⟩
        rw [if_neg still]
        cases shows with
        | past => exact adds_none alone _
        | due active => exact absurd (by simpa [Session.isActive] using active) still

end

/-- Whether the operation gets a load under way; one for a position that there is not is refused. -/
def Op.begins (g : Game) : Op → Bool
  | .load index | .jump index => 0 ≤ index && index < g.session.levelIds.length
  | .retry => true
  | .advance => !g.session.levelIds.isEmpty
  | .push _ | .tick | .finish | .rewrite _ => false

/-- Whether the operation opens a level with its cues; a retry does not repeat them. -/
def Op.cues (g : Game) : Op → Bool
  | .retry => false
  | op => op.opens g

def Op.isTick : Op → Bool
  | .tick => true
  | .load _ | .retry | .advance | .jump _ | .push _ | .finish | .rewrite _ => false

/-- Whether a run gets no load under way, and no tick of it fails. -/
def steady (g : Game) : List Op → Bool
  | [] => true
  | op :: rest => !op.begins g && (!op.isTick || op.works g) && (g.perform op).steady rest

def uncued (g : Game) : List Op → Bool
  | [] => true
  | op :: rest => !op.cues g && (g.perform op).uncued rest

theorem load_refused {g : Game} {index : Int}
    (outside : (0 ≤ index && index < g.session.levelIds.length) = false) : (g.load index).2 = g := by
  rw [load_outside (by simpa using outside)]

/-- What gets no load under way and is no tick leaves the level and its cues alone, and makes no session
active. -/
theorem perform_stays {g : Game} {op : Op} (begins : op.begins g = false) (other : op.isTick = false) :
    (g.perform op).backstage.cues = g.backstage.cues ∧
    ((g.perform op).session.isActive = true → g.session.isActive = true ∧
      (g.perform op).session.level = g.session.level ∧ (g.perform op).session.frame = g.session.frame) := by
  cases op with
  | load index =>
    rw [perform, load_refused begins]
    exact ⟨rfl, fun active => ⟨active, rfl, rfl⟩⟩
  | jump index =>
    rw [perform, jump_outside (by simpa [Op.begins] using begins)]
    exact ⟨rfl, fun active => ⟨active, rfl, rfl⟩⟩
  | advance =>
    have none : g.session.levelIds = [] := by simpa [Op.begins] using begins
    have refused : (g.resetDeaths.load (nextIndex g.session)).2 = g.resetDeaths :=
      load_refused (by simp [resetDeaths, none])
    rw [perform, advance_eq, refused]
    exact ⟨rfl, fun active => ⟨active, rfl, rfl⟩⟩
  | push | rewrite => exact ⟨rfl, fun active => ⟨active, rfl, rfl⟩⟩
  | finish => exact ⟨rfl, fun active => absurd active Bool.false_ne_true⟩
  | retry | tick => contradiction

section
variable {g : Game} {level : Level} {due : List (Int × Cue)} {frames : Nat}

/-- One more operation that gets no load under way. -/
theorem perform_awaits {op : Op} (coherent : g.session.Coherent)
    (awaits : g.session.isActive = true → g.Awaits level due frames)
    (begins : op.begins g = false) (works : op.isTick = true → op.works g = true)
    (active : (g.perform op).session.isActive = true) :
    (g.perform op).Awaits level due (frames + [op].countP Op.isTick) := by
  by_cases ticks : op.isTick = true
  · have works := works ticks
    cases op with
    | tick =>
      rcases ticked : g.tick with ⟨f | result, after⟩
      · rw [Op.works, Op.result, ticked] at works
        contradiction
      · obtain ⟨stage, shows, _⟩ := tick_awaits coherent awaits ticked
        rw [perform, ticked] at active ⊢
        exact (shows (stage.trans (by simpa [Session.isActive] using active))).2
    | load | retry | advance | jump | push | finish | rewrite => contradiction
  · have other : op.isTick = false := by simpa using ticks
    obtain ⟨cues, stays⟩ := perform_stays begins other
    obtain ⟨before, placed, frame⟩ := stays active
    have awaits := awaits before
    -- The frame only counts ticks, so other operations leave the cues where they were.
    rw [List.countP_singleton, other]
    exact ⟨placed ▸ awaits.placed, frame.trans awaits.frame, cues.trans awaits.cues⟩

theorem play_awaits {ops : List Op} (coherent : g.session.Coherent)
    (awaits : g.session.isActive = true → g.Awaits level due frames) (steady : g.steady ops = true) :
    (g.play ops).session.Coherent ∧ ((g.play ops).session.isActive = true →
      (g.play ops).Awaits level due (frames + ops.countP Op.isTick)) := by
  induction ops generalizing g frames with
  | nil => exact ⟨coherent, awaits⟩
  | cons op rest ih =>
    simp only [Game.steady, Bool.and_eq_true, Bool.not_eq_true', Bool.or_eq_true] at steady
    obtain ⟨⟨begins, works⟩, steady⟩ := steady
    have later := ih (perform_coherent g op coherent) (fun active =>
      perform_awaits coherent awaits begins (fun ticks => works.resolve_left (by simp [ticks])) active) steady
    rw [← List.singleton_append, List.countP_append, ← Nat.add_assoc]
    exact later

end

/-- A load that succeeds awaits all cues of its level. -/
theorem load_awaits {g : Game} {index : Int} (opens : isTrue (g.load index).1 = true) :
    ∃ level due, schedule g.session.config level.cues = .ok due ∧
      (g.load index).2.Awaits level due 0 := by
  rcases g.load_cases index with refused | ⟨position, id, _, _, loads⟩
  · rw [refused] at opens
    contradiction
  · rw [loads] at opens ⊢
    rcases g.beginLoading.loadId_cases id (openLevel position) with
      ⟨f, _, failed⟩ | ⟨_, absent⟩ | ⟨level, _, ⟨f, _, failed⟩ | ⟨finished, done⟩⟩
    · rw [failed] at opens
      contradiction
    · rw [absent] at opens
      contradiction
    · rw [failed] at opens
      contradiction
    · have after : (openLevel position g.beginLoading level).2.session.level = some level ∧
          (openLevel position g.beginLoading level).2.session.frame = 0 := by
        rw [openLevel_session]
        exact ⟨rfl, rfl⟩
      rw [done]
      cases scheduled : schedule g.session.config level.cues with
      | error f =>
        rw [openLevel_result] at finished
        have broken : schedule g.beginLoading.session.config level.cues = .error f := scheduled
        rw [broken] at finished
        cases finished
      | ok due =>
        have cues : (openLevel position g.beginLoading level).2.backstage.cues = due := by
          have planned : schedule (g.beginLoading.install level position).session.config level.cues =
            .ok due := scheduled
          simp only [openLevel, planned]
        have all : due.filter (fun c => decide (((0 : Nat) : Int) < max 1 c.1)) = due :=
          List.filter_eq_self.mpr fun c _ => by simp only [decide_eq_true_eq]; omega
        exact ⟨level, due, scheduled, ⟨level.board, after.1⟩, after.2, cues.trans all.symm⟩

/-- A load that opens a level with its cues awaits all of them. -/
theorem perform_cues {g : Game} {op : Op} (opens : op.cues g = true) :
    ∃ level due, schedule g.session.config level.cues = .ok due ∧ (g.perform op).Awaits level due 0 := by
  cases op with
  | load index => exact load_awaits opens
  | advance =>
    simp only [Op.cues, Op.opens, Op.result, advance_eq, Op.isLoad, Bool.true_and] at opens
    rw [perform, advance_eq]
    exact load_awaits opens
  | jump index =>
    rcases g.jump_cases index with refused | loads
    · simp only [Op.cues, Op.opens, Op.result, refused] at opens
      contradiction
    · simp only [Op.cues, Op.opens, Op.result, loads, Op.isLoad, Bool.true_and] at opens
      rw [perform, loads]
      exact load_awaits opens
  | retry | push | tick | finish | rewrite => contradiction

/-- What gets a load under way does not depend on the cues that were still to come. -/
theorem perform_recue {g : Game} {op : Op} (begins : op.begins g = true) (cues : List (Int × Cue)) :
    op.result (g.recue cues) = op.result g ∧ (g.recue cues).perform op = g.perform op := by
  have loads {h : Game} {index : Int} (inside : 0 ≤ index ∧ index < h.session.levelIds.length) :
      (h.recue cues).load index = h.load index := by
    obtain ⟨position, rfl⟩ := Int.eq_ofNat_of_zero_le inside.1
    have listed := List.getElem?_eq_getElem (Int.ofNat_lt.mp inside.2)
    rw [load_inside listed]
    exact load_inside listed
  cases op with
  | load index =>
    have same := loads (h := g) (by simpa [Op.begins] using begins)
    exact ⟨congrArg Prod.fst same, congrArg Prod.snd same⟩
  | retry => exact ⟨rfl, rfl⟩
  | advance =>
    have listed : g.session.levelIds ≠ [] := by simpa [Op.begins] using begins
    have inside := nextIndex_lt listed
    have same : (g.recue cues).advance = g.advance := by
      rw [advance_eq, advance_eq]
      exact loads (h := g.resetDeaths) ⟨by omega, Int.ofNat_lt.mpr inside⟩
    exact ⟨congrArg Prod.fst same, congrArg Prod.snd same⟩
  | jump index =>
    have inside : 0 ≤ index ∧ index < g.session.levelIds.length := by simpa [Op.begins] using begins
    have same : (g.recue cues).jump index = g.jump index := by
      rw [jump_inside inside, jump_inside (g := g.recue cues) inside]
      exact loads (h := g.resetDeaths) inside
    exact ⟨congrArg Prod.fst same, congrArg Prod.snd same⟩
  | push | tick | finish | rewrite => contradiction

/-- A load that does not open a level leaves no cues, whatever keeps it from that. -/
theorem load_cleared {g : Game} {index : Int} (inside : 0 ≤ index ∧ index < g.session.levelIds.length)
    (misses : isTrue (g.load index).1 = false) : (g.load index).2.backstage.cues = [] := by
  obtain ⟨position, rfl⟩ := Int.eq_ofNat_of_zero_le inside.1
  have listed := List.getElem?_eq_getElem (Int.ofNat_lt.mp inside.2)
  rw [load_inside listed] at misses ⊢
  rcases g.beginLoading.loadId_cases _ (openLevel position) with
    ⟨f, _, failed⟩ | ⟨_, absent⟩ | ⟨level, _, ⟨f, broken, failed⟩ | ⟨_, done⟩⟩
  · rw [failed]; rfl
  · rw [absent]; rfl
  · rw [failed]
    unfold openLevel at broken ⊢
    simp only at broken ⊢
    split at broken
    · rfl
    · cases broken
  · rw [done] at misses
    contradiction

/-- A load that got under way leaves no cues, unless it opens a level with its own. -/
theorem begun_cleared {g : Game} {op : Op} (begins : op.begins g = true) (misses : op.cues g = false) :
    (g.perform op).backstage.cues = [] := by
  cases op with
  | load index => exact load_cleared (by simpa [Op.begins] using begins) misses
  | retry =>
    change g.retry.2.backstage.cues = []
    rcases g.retry_cases with refused | ⟨id, _, loads⟩
    · rw [refused]; rfl
    · rw [loads]
      exact loadId_keeps (P := fun h => h.backstage.cues = []) rfl rfl fun _ _ => ⟨rfl, rfl⟩
  | advance =>
    have listed : g.session.levelIds ≠ [] := by simpa [Op.begins] using begins
    have inside := nextIndex_lt listed
    simp only [Op.cues, Op.opens, Op.result, advance_eq, Op.isLoad, Bool.true_and] at misses
    rw [perform, advance_eq]
    exact load_cleared ⟨by omega, Int.ofNat_lt.mpr inside⟩ misses
  | jump index =>
    have inside : 0 ≤ index ∧ index < g.session.levelIds.length := by simpa [Op.begins] using begins
    simp only [Op.cues, Op.opens, Op.result, jump_inside inside, Op.isLoad, Bool.true_and] at misses
    rw [perform, jump_inside inside]
    exact load_cleared inside misses
  | push | tick | finish | rewrite => contradiction

theorem tick_uncued {g : Game} (uncued : g.backstage.cues = []) : g.tick.2.backstage.cues = [] := by
  by_cases idle : g.session.level = none ∨ g.session.isActive = false
  · rw [tick_idle idle]
    exact uncued
  · rw [not_or, Bool.not_eq_false] at idle
    obtain ⟨level, here⟩ := Option.ne_none_iff_exists'.mp idle.1
    rw [tick_active here idle.2]
    change (playFrame g.session level g.backstage.cues).2.2 = []
    rw [uncued]
    unfold playFrame
    generalize simulate g.session level = outcome
    obtain ⟨result, t⟩ := outcome
    cases result with
    | error f => rfl
    | ok _ =>
      simp only [emitDue]
      split <;> rfl

theorem play_uncued {g : Game} {ops : List Op} (uncued : g.backstage.cues = [])
    (misses : g.uncued ops = true) : (g.play ops).backstage.cues = [] := by
  induction ops generalizing g with
  | nil => exact uncued
  | cons op rest ih =>
    simp only [Game.uncued, Bool.and_eq_true, Bool.not_eq_true'] at misses
    refine ih ?_ misses.2
    by_cases begins : op.begins g = true
    · exact begun_cleared begins misses.1
    · by_cases ticks : op.isTick = true
      · cases op with
        | tick => exact tick_uncued uncued
        | load | retry | advance | jump | push | finish | rewrite => contradiction
      · rw [(perform_stays (by simpa using begins) (by simpa using ticks)).1]
        exact uncued

/-- Which cues are shown from a game on. After a load that opens a level with its cues, and until the next
load that gets under way, a tick that leaves the session active is the frame of its number and ends with
the events of just the cues that are due at it; other ticks show none. A load that gets under way does the
same whatever cues were still to come, and unless it opens a level with its cues, none are shown until a
load does. A position that there is not is refused, and nothing changes. -/
structure CuesShown (config : Config) (g : Game) : Prop where
  due : ∀ op, op.cues g = true → ∃ level, (g.perform op).session.level = some level ∧
    ∀ ops, (g.perform op).steady ops = true →
      let k := (g.perform op).play ops
      ∀ result after, k.tick = (.ok result, after) →
        (result.stage = .active → result.frame = ops.countP Op.isTick + 1) ∧
        k.Adds level.blueprint.patterns (if result.stage = .active then
          level.cues.filter (Cue.isDueAt config result.frame) else []) result
  cleared : ∀ op, op.begins g = true → ∀ cues,
    op.result (g.recue cues) = op.result g ∧ (g.recue cues).perform op = g.perform op
  uncued : ∀ op, op.begins g = true → op.cues g = false →
    ∀ ops, (g.perform op).uncued ops = true →
      let k := (g.perform op).play ops
      ∀ patterns result after, k.tick = (.ok result, after) → k.Adds patterns [] result
  loadOutside : ∀ index : Int, ¬(0 ≤ index ∧ index < g.session.levelIds.length) →
    g.load index = (.error (.levelOutOfRange index g.session.levelIds.length), g)
  jumpOutside : ∀ index : Int, ¬(0 ≤ index ∧ index < g.session.levelIds.length) →
    g.jump index = (.error (.levelOutOfRange index g.session.levelIds.length), g)

/-- Cues are shown once, at their frame, in all runs from any game. -/
theorem play_cues {config : Config} {levels : LevelSet} {predicates : Predicates} {now : Number}
    {s : Session} (created : Session.create config levels predicates now = .ok s) (listeners : Nat)
    (before : List Op) {g : Game} (here : g = (ofSession s listeners).play before) :
    CuesShown config g := by
  obtain ⟨settings, _⟩ := play_created created listeners before
  rw [← here] at settings
  have coherent : g.session.Coherent := by
    rw [here]
    exact play_keeps (P := fun h => h.session.Coherent) (fun h op => perform_coherent h op)
      (Session.create_coherent created) before
  constructor
  case due =>
    intro op opens
    obtain ⟨level, due, scheduled, awaits⟩ := perform_cues opens
    rw [settings] at scheduled
    obtain ⟨board, placed⟩ := awaits.placed
    refine ⟨{ level with board }, placed, ?_⟩
    intro ops steady k result after ticked
    obtain ⟨still, later⟩ :=
      play_awaits (perform_coherent g op coherent) (fun _ => awaits) steady
    obtain ⟨_, next, adds⟩ := tick_awaits still later ticked
    rw [Nat.zero_add] at next adds
    refine ⟨fun active => (next active).1, ?_⟩
    by_cases active : result.stage = .active
    · rw [if_pos active, schedule_due scheduled] at adds
      rw [if_pos active, (next active).1]
      exact adds
    · rw [if_neg active] at adds ⊢
      exact adds
  case cleared => exact fun op begins => perform_recue begins
  case uncued =>
    intro op begins misses ops unopened k patterns result after ticked
    have none : k.backstage.cues = [] := play_uncued (begun_cleared begins misses) unopened
    have bare : k.recue [] = k := by rw [recue, ← none]
    exact adds_none (by rw [bare, ticked]) patterns
  case loadOutside => exact fun _ => load_outside
  case jumpOutside => exact fun _ => jump_outside

/-- Of three cues the first is due at the first frame, and the others at the second; for one of these
there is no event. -/
theorem play_cues_second :
    let cue (kind : String) (delay : Int) : Value := .obj [("type", .str kind), ("delay", .int delay)]
    let level : Value := .obj [("on_start",
      .arr [cue "show_hint" (-1), cue "fireworks" 17, cue "play_sound" 33])]
    let levels : LevelSet := .catalog ⟨[(.int 1, level)], [.int 1]⟩
    ∃ session, Session.create {} levels [] (.int 0) = .ok session ∧
      let start := ofSession session 0
      let g := start.perform (.load 0)
      let k := g.play [.tick, .jump 9]
      (Op.load 0).cues start = true ∧ g.steady [.tick, .jump 9] = true ∧
      ∃ level result after, g.session.level = some level ∧ k.tick = (.ok result, after) ∧
        result.stage = .active ∧ result.frame = 2 ∧
        (level.cues.filter (Cue.isDueAt {} result.frame)).map Cue.kind = ["fireworks", "play_sound"] ∧
        k.Adds level.blueprint.patterns (level.cues.filter (Cue.isDueAt {} result.frame)) result := by
  intro cue level levels
  refine ⟨_, rfl, ?_⟩
  intro start g k
  have opens : (Op.load 0).cues start = true := by decide +kernel
  have steady : g.steady [.tick, .jump 9] = true := by decide +kernel
  have shown := @play_cues {} levels [] (.int 0) _ rfl 0 [] start rfl
  obtain ⟨level, here, shows⟩ := shown.due (.load 0) opens
  have active : (k.tick.1.toOption.map TickResult.stage) = some .active := by decide +kernel
  have kinds : (g.session.level.map fun level => (level.cues.filter (Cue.isDueAt {} 2)).map Cue.kind) =
      some ["fireworks", "play_sound"] := by decide +kernel
  rcases ticked : k.tick with ⟨f | result, after⟩
  · rw [ticked] at active
    contradiction
  · rw [ticked] at active
    have stage : result.stage = .active := Option.some.inj active
    obtain ⟨frame, adds⟩ := shows _ steady result after ticked
    rw [if_pos stage] at adds
    refine ⟨opens, steady, level, result, after, here, rfl, stage, frame stage, ?_, adds⟩
    rw [here] at kinds
    rw [frame stage]
    exact Option.some.inj kinds

/-- A jump to a position that there is not is refused, and the hint that was still to come is shown. -/
theorem jump_keeps_cues :
    let hint : Value := .obj [("type", .str "show_hint"), ("hint_text", .str "Still here")]
    let levels : LevelSet := .catalog ⟨[(.int 1, .obj [("on_start", .arr [hint])])], [.int 1]⟩
    ∃ session, Session.create {} levels [] (.int 0) = .ok session ∧
      let g := (ofSession session 0).play [.load 0]
      (Op.jump 99).isLoad = true ∧ (Op.jump 99).opens g = false ∧
      let k := g.perform (.jump 99)
      (Op.tick.delivers k).map Event.name = ["level_started", "hint_shown"] ∧
      (Op.tick.delivers (k.recue [])).map Event.name = ["level_started"] := by
  intro hint levels
  refine ⟨_, rfl, ?_⟩
  decide +kernel

end Game
end TilePuzzle
