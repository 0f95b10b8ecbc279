import TilePuzzle.Proofs.Coherence
import TilePuzzle.Proofs.Number
import TilePuzzle.Proofs.Reading

/-! How loading ends. A position outside of the set is refused and nothing happens; a position of the
set is played, or its level is absent, or loading breaks off half-way, and what breaks it is told by
the levels alone. -/
namespace TilePuzzle

def Cue.Overlong (config : Config) (cue : Cue) : Prop :=
  0 < cue.delay ∧ Binary64.beyond * 1000 ≤ (cue.delay * config.tickRate).natAbs

namespace Game

theorem schedule_error_iff (config : Config) (cues : List Cue) (f : Fault) :
    schedule config cues = .error f ↔
      f = .quotientTooLarge ∧ ∃ cue ∈ cues, cue.Overlong config := by
  induction cues with
  | nil => simp [schedule]
  | cons cue rest ih =>
    have first (g : Fault) : config.ticks (.int cue.delay) = .error g ↔
        g = .quotientTooLarge ∧ cue.Overlong config := Config.ticks_error_iff config
    simp only [schedule, bind_error_iff, pure, Except.pure, reduceCtorEq, and_false, exists_false,
      or_false, first, ih, List.mem_cons, exists_eq_or_imp, exists_and_right]
    cases ticks : config.ticks (.int cue.delay) with
    | error g =>
      have overlong := (first g).mp ticks
      simp [overlong.2]
    | ok due =>
      have fine : ¬cue.Overlong config := by
        intro overlong
        rw [(first .quotientTooLarge).mpr ⟨rfl, overlong⟩] at ticks
        contradiction
      simp [fine]

/-- What breaks the load of a level that starts anew: the level does, or one of its cues is overlong. -/
inductive OpenBreaks (set : LevelSet) (config : Config) (id : Value) : Fault → Prop
  | level {f : Fault} : set.Breaks id f → OpenBreaks set config id f
  | cue {level : Level} {cue : Cue} : set.load id = .ok (some level) →
      cue ∈ level.cues → cue.Overlong config → OpenBreaks set config id .quotientTooLarge

/-- How the load ends of the level with this id at this position, with `before` in place: the level
is played, or it is absent and nothing else comes in place, or something breaks the load. -/
inductive Ends (set : LevelSet) (before : Option Level) (id : Value) (position : Nat)
    (breaks : Fault → Prop) : Except Fault Bool × Game → Prop
  | played {level : Level} {after : Game} : (∀ f, ¬breaks f) →
      set.load id = .ok (some level) → after.session.stage = .active →
      after.session.level = some level → after.session.levelIndex = position →
      Ends set before id position breaks (.ok true, after)
  | absent {after : Game} : (∀ f, ¬breaks f) → set.load id = .ok none →
      after.session.stage = .loadFailed → after.session.level = before →
      Ends set before id position breaks (.ok false, after)
  | broken {f : Fault} {after : Game} : breaks f → after.session.stage = .loading →
      Ends set before id position breaks (.error f, after)

theorem not_breaks_of_load {set : LevelSet} {id : Value} {found : Option Level}
    (loaded : set.load id = .ok found) (f : Fault) : ¬set.Breaks id f := by
  rw [← LevelSet.load_error_iff, loaded]
  simp

theorem openBreaks_iff {set : LevelSet} {id : Value} {level : Level}
    (found : set.load id = .ok (some level)) (config : Config) (f : Fault) :
    OpenBreaks set config id f ↔ schedule config level.cues = .error f := by
  rw [schedule_error_iff]
  constructor
  · intro breaks
    cases breaks with
    | level broken => exact absurd broken (not_breaks_of_load found f)
    | cue other member overlong =>
      rw [found] at other
      cases other
      exact ⟨rfl, _, member, overlong⟩
  · rintro ⟨rfl, cue, member, overlong⟩
    exact .cue found member overlong

theorem openBreaks_unique {set : LevelSet} {config : Config} {id : Value} {f g : Fault}
    (first : OpenBreaks set config id f) (second : OpenBreaks set config id g) : f = g := by
  cases first with
  | level broken =>
    have failed := (LevelSet.load_error_iff set id f).mpr broken
    cases second with
    | level other =>
      rw [(LevelSet.load_error_iff set id g).mpr other] at failed
      cases failed
      rfl
    | cue found => rw [found] at failed; contradiction
  | cue found =>
    cases second with
    | level other => exact absurd other (not_breaks_of_load found g)
    | cue => rfl

theorem openLevel_result (index : Nat) (g : Game) (level : Level) :
    (openLevel index g level).1 = (schedule g.session.config level.cues).map fun _ => () := by
  unfold openLevel
  simp only [install, post, hear]
  cases schedule g.session.config level.cues <;> rfl

/-- A load by its id, for which it is known what breaks it once the level is there. -/
theorem loadId_ends {g : Game} {id : Value} {position : Nat} {breaks : Fault → Prop}
    {finish : Game → Level → Except Fault Unit × Game} (loading : g.session.stage = .loading)
    (installs : ∀ level, (finish g level).2.session = (g.install level position).session)
    (unreadable : ∀ f, g.session.levels.Breaks id f → breaks f)
    (missing : g.session.levels.load id = .ok none → ∀ f, ¬breaks f)
    (finished : ∀ level, g.session.levels.load id = .ok (some level) →
      ∀ f, breaks f ↔ (finish g level).1 = .error f) :
    Ends g.session.levels g.session.level id position breaks (g.loadId id finish) := by
  rcases g.loadId_cases id finish with ⟨f, failed, ends⟩ | ⟨absent, ends⟩ | ⟨level, found, ends⟩
  · rw [ends]
    exact .broken (unreadable f ((LevelSet.load_error_iff _ id f).mp failed)) loading
  · rw [ends]
    exact .absent (missing absent) absent rfl rfl
  · have session := installs level
    rcases ends with ⟨f, failed, ends⟩ | ⟨opened, ends⟩
    · rw [ends]
      refine .broken ((finished level found f).mpr failed) ?_
      rw [session]
      exact loading
    · rw [ends]
      refine .played ?_ found rfl ?_ ?_
      · intro f broken
        rw [(finished level found f).mp broken] at opened
        contradiction
      · change (finish g level).2.session.level = _
        rw [session]
        rfl
      · change (finish g level).2.session.levelIndex = _
        rw [session]
        rfl

theorem load_ends (g : Game) {position : Nat} {id : Value}
    (listed : g.session.levelIds[position]? = some id) :
    Ends g.session.levels g.session.level id position
      (OpenBreaks g.session.levels g.session.config id) (g.load position) := by
  rw [load_inside listed]
  refine g.beginLoading.loadId_ends rfl (openLevel_session position _) (fun _ => .level) ?_ ?_
  · intro absent f breaks
    cases breaks with
    | level broken => exact not_breaks_of_load absent f broken
    | cue found => exact nomatch absent.symm.trans found
  · intro level found f
    rw [openLevel_result, map_error_iff]
    exact openBreaks_iff found g.session.config f

theorem retry_ends (g : Game) {id : Value}
    (listed : g.session.levelIds[g.session.levelIndex]? = some id) :
    Ends g.session.levels g.session.level id g.session.levelIndex (g.session.levels.Breaks id)
      g.retry := by
  rw [retry_listed listed]
  refine g.beginLoading.loadId_ends rfl (reopenLevel_session _) (fun _ broken => broken)
    not_breaks_of_load ?_
  intro level found f
  exact iff_of_false (not_breaks_of_load found f) nofun

/-- The same ids and constants, and a position of the set if there was one before. -/
structure SameSet (g after : Game) : Prop where
  config : after.session.config = g.session.config
  createdAt : after.session.createdAt = g.session.createdAt
  levelIds : after.session.levelIds = g.session.levelIds
  position : g.session.levelIndex < g.session.levelIds.length →
    after.session.levelIndex < after.session.levelIds.length

theorem SameSet.trans {g h k : Game} (first : g.SameSet h) (second : h.SameSet k) : g.SameSet k where
  config := second.config.trans first.config
  createdAt := second.createdAt.trans first.createdAt
  levelIds := second.levelIds.trans first.levelIds
  position := fun inside => second.position (first.position inside)

theorem sameSet_of_eq {g after : Game} (config : after.session.config = g.session.config)
    (createdAt : after.session.createdAt = g.session.createdAt)
    (levelIds : after.session.levelIds = g.session.levelIds)
    (levelIndex : after.session.levelIndex = g.session.levelIndex) : g.SameSet after :=
  ⟨config, createdAt, levelIds, fun inside => by rw [levelIndex, levelIds]; exact inside⟩

theorem loadId_sameSet (g : Game) {id : Value} {index : Nat}
    (inside : index < g.session.levelIds.length) {finish : Game → Level → Except Fault Unit × Game}
    (installs : ∀ level, (finish g level).2.session = (g.install level index).session) :
    g.SameSet (g.loadId id finish).2 := by
  refine loadId_keeps (sameSet_of_eq rfl rfl rfl rfl) (sameSet_of_eq rfl rfl rfl rfl) fun level _ => ?_
  have after : g.SameSet (finish g level).2 := by
    constructor
    · rw [installs]; rfl
    · rw [installs]; rfl
    · rw [installs]; rfl
    · intro _
      rw [installs]
      exact inside
  exact ⟨after, after.trans (sameSet_of_eq rfl rfl rfl rfl)⟩

theorem load_sameSet (g : Game) (index : Int) : g.SameSet (g.load index).2 := by
  have begun : g.SameSet g.beginLoading := sameSet_of_eq rfl rfl rfl rfl
  rcases g.load_cases index with refused | ⟨position, id, rfl, listed, loads⟩
  · rw [refused]; exact sameSet_of_eq rfl rfl rfl rfl
  · rw [loads]
    exact begun.trans (g.beginLoading.loadId_sameSet (List.getElem?_eq_some_iff.mp listed).1
      (openLevel_session position _))

theorem retry_sameSet (g : Game) : g.SameSet g.retry.2 := by
  have begun : g.SameSet g.beginLoading := sameSet_of_eq rfl rfl rfl rfl
  rcases g.retry_cases with refused | ⟨id, listed, loads⟩
  · rw [refused]; exact begun
  · rw [loads]
    exact begun.trans (g.beginLoading.loadId_sameSet (List.getElem?_eq_some_iff.mp listed).1
      (reopenLevel_session _))

theorem tick_sameSet {g : Game} (coherent : g.session.Coherent) : g.SameSet g.tick.2 := by
  cases here : g.session.level with
  | none => rw [tick_idle (.inl here)]; exact sameSet_of_eq rfl rfl rfl rfl
  | some level =>
    cases active : g.session.isActive with
    | false => rw [tick_idle (.inr active)]; exact sameSet_of_eq rfl rfl rfl rfl
    | true =>
      rw [tick_active here active]
      obtain ⟨config, createdAt, levelIds, levelIndex⟩ :=
        playFrame_set (coherent.inPlace level here) g.backstage.cues
      exact sameSet_of_eq config createdAt levelIds levelIndex

theorem perform_sameSet {g : Game} (coherent : g.session.Coherent) (op : Op) :
    g.SameSet (g.perform op) := by
  have reset : g.SameSet g.resetDeaths := sameSet_of_eq rfl rfl rfl rfl
  cases op with
  | load index => exact g.load_sameSet index
  | retry => exact g.retry_sameSet
  | advance =>
    change g.SameSet g.advance.2
    rw [advance_eq]
    exact reset.trans (load_sameSet _ _)
  | jump index =>
    change g.SameSet (g.jump index).2
    rcases g.jump_cases index with refused | loads
    · rw [refused]; exact sameSet_of_eq rfl rfl rfl rfl
    · rw [loads]; exact reset.trans (load_sameSet _ _)
  | tick => exact tick_sameSet coherent
  | push | finish | rewrite => exact sameSet_of_eq rfl rfl rfl rfl

theorem play_sameSet {g : Game} (coherent : g.session.Coherent) (ops : List Op) :
    (g.play ops).session.Coherent ∧ g.SameSet (g.play ops) := by
  refine play_keeps (P := fun h => h.session.Coherent ∧ g.SameSet h) ?_
    ⟨coherent, sameSet_of_eq rfl rfl rfl rfl⟩ ops
  rintro h op ⟨still, same⟩
  exact ⟨perform_coherent h op still, same.trans (perform_sameSet still op)⟩

def Op.Breaks (g : Game) : Op → Prop
  | .load index | .jump index => 0 ≤ index ∧ ∃ id f,
      g.session.levelIds[index.toNat]? = some id ∧ OpenBreaks g.session.levels g.session.config id f
  | .retry => ∃ id f,
      g.session.levelIds[g.session.levelIndex]? = some id ∧ g.session.levels.Breaks id f
  | .advance => ∃ id f, g.session.levelIds[nextIndex g.session]? = some id ∧
      OpenBreaks g.session.levels g.session.config id f
  | .push _ | .tick | .finish | .rewrite _ => False

theorem Ends.notLoading {set : LevelSet} {before : Option Level} {id : Value} {position : Nat}
    {breaks : Fault → Prop} {result : Except Fault Bool × Game}
    (ends : Ends set before id position breaks result) (unbroken : ∀ f, ¬breaks f) :
    result.2.session.stage ≠ .loading := by
  cases ends with
  | played _ _ stage => rw [stage]; decide
  | absent _ _ stage => rw [stage]; decide
  | broken broken => exact absurd broken (unbroken _)

theorem tick_notLoading {g : Game} (coherent : g.session.Coherent)
    (stage : g.session.stage ≠ .loading) : g.tick.2.session.stage ≠ .loading := by
  cases here : g.session.level with
  | none => rw [tick_idle (.inl here)]; exact stage
  | some level =>
    cases active : g.session.isActive with
    | false => rw [tick_idle (.inr active)]; exact stage
    | true =>
      have plays := coherent.inPlace level here
      obtain ⟨t, steps, ends⟩ :=
        playFrame_cases g.session level g.backstage.cues plays.board plays.player
      have kept : t.session.stage ≠ .loading := steps.notLoading stage
      rw [tick_active here active]
      change (playFrame g.session level g.backstage.cues).2.1.session.stage ≠ _
      rcases ends with ⟨f, failed⟩ | ⟨f, _, failed⟩ | ⟨_, played⟩
      · rw [failed]; exact kept
      · rw [failed]; exact kept
      · rw [played]
        unfold emitDue
        split <;> exact kept

theorem load_notLoading {g : Game} {index : Int} (unbroken : ¬(Op.load index).Breaks g)
    (stage : g.session.stage ≠ .loading) : (g.load index).2.session.stage ≠ .loading := by
  rcases g.load_cases index with refused | ⟨position, id, rfl, listed, _⟩
  · rw [refused]; exact stage
  · exact (g.load_ends listed).notLoading fun f broken =>
      unbroken ⟨Int.natCast_nonneg position, id, f, listed, broken⟩

theorem perform_notLoading {g : Game} (coherent : g.session.Coherent)
    (inside : g.session.levelIndex < g.session.levelIds.length) {op : Op}
    (unbroken : ¬op.Breaks g) (stage : g.session.stage ≠ .loading) :
    (g.perform op).session.stage ≠ .loading := by
  cases op with
  | load index => exact load_notLoading unbroken stage
  | retry =>
    have listed := List.getElem?_eq_getElem inside
    exact (g.retry_ends listed).notLoading fun f broken => unbroken ⟨_, f, listed, broken⟩
  | advance =>
    change g.advance.2.session.stage ≠ .loading
    rw [advance_eq]
    refine load_notLoading ?_ stage
    rintro ⟨_, id, f, listed, broken⟩
    exact unbroken ⟨id, f, listed, broken⟩
  | jump index =>
    change (g.jump index).2.session.stage ≠ .loading
    rcases g.jump_cases index with refused | loads
    · rw [refused]; exact stage
    · rw [loads]; exact load_notLoading unbroken stage
  | tick => exact tick_notLoading coherent stage
  | push | rewrite => exact stage
  | finish => exact nofun

theorem play_loading {g : Game} (coherent : g.session.Coherent)
    (inside : g.session.levelIndex < g.session.levelIds.length) (fresh : g.session.stage ≠ .loading)
    (ops : List Op) (loading : (g.play ops).session.stage = .loading) :
    ∃ before op after, ops = before ++ op :: after ∧ op.Breaks (g.play before) := by
  induction ops generalizing g with
  | nil => exact absurd loading fresh
  | cons op rest ih =>
    by_cases broken : op.Breaks g
    · exact ⟨[], op, rest, rfl, broken⟩
    · obtain ⟨before, other, after, rfl, breaks⟩ := ih (perform_coherent g op coherent)
        ((perform_sameSet coherent op).position inside)
        (perform_notLoading coherent inside broken fresh) loading
      exact ⟨op :: before, other, after, rfl, breaks⟩

/-- How loads end in a game that some operations led to. A position outside of the set is refused, and
nothing happens. A load of any position of the set is played, absent or broken, and it is broken just
when the level or one of its cues says so; a retry repeats no cues. The game is left loading only by a
load that was broken. -/
structure LoadsEnd (start : Game) (ops : List Op) (g : Game) : Prop where
  loadOutside : ∀ index : Int, ¬(0 ≤ index ∧ index < g.session.levelIds.length) →
    g.load index = (.error (.levelOutOfRange index g.session.levelIds.length), g)
  jumpOutside : ∀ index : Int, ¬(0 ≤ index ∧ index < g.session.levelIds.length) →
    g.jump index = (.error (.levelOutOfRange index g.session.levelIds.length), g)
  load : ∀ position id, g.session.levelIds[position]? = some id →
    Ends g.session.levels g.session.level id position
      (OpenBreaks g.session.levels g.session.config id) (g.load position)
  jump : ∀ position id, g.session.levelIds[position]? = some id →
    Ends g.session.levels g.session.level id position
      (OpenBreaks g.session.levels g.session.config id) (g.jump position)
  retry : ∃ id, g.session.levelIds[g.session.levelIndex]? = some id ∧
    Ends g.session.levels g.session.level id g.session.levelIndex
      (g.session.levels.Breaks id) g.retry
  advance : ∃ id, g.session.levelIds[nextIndex g.session]? = some id ∧
    Ends g.session.levels g.session.level id (nextIndex g.session)
      (OpenBreaks g.session.levels g.session.config id) g.advance
  loading : g.session.stage = .loading → ∃ before op more, ops = before ++ op :: more ∧
    op.Breaks (start.play before)

/-- Loads end as they should in every session that was created over a set with levels, after any
operations. -/
theorem play_load_ends {lobby after : Lobby} {levels : LevelSet} {predicates : Predicates}
    {now : Number} {id : String} {session : Session}
    (created : lobby.create levels predicates now = (.ok (id, session), after))
    (listed : session.levelIds ≠ []) (listeners : Nat) (ops : List Op) (g : Game)
    (here : g = (ofSession session listeners).play ops) :
    LoadsEnd (ofSession session listeners) ops g := by
  obtain ⟨made, _, _⟩ := Lobby.create_ok created
  obtain ⟨start, stage, _⟩ := Session.create_fresh made
  have coherent : (ofSession session listeners).session.Coherent := Session.create_coherent made
  have first : session.levelIndex < session.levelIds.length := by
    rw [start]
    exact List.length_pos_iff.mpr listed
  obtain ⟨_, same⟩ := play_sameSet coherent ops
  rw [← here] at same
  have inside := same.position first
  have still : g.session.levelIds ≠ [] := by rw [same.levelIds]; exact listed
  constructor
  case loadOutside => exact fun _ => load_outside
  case jumpOutside => exact fun _ => jump_outside
  case load => exact fun _ _ => g.load_ends
  case jump =>
    intro position id member
    have lt := (List.getElem?_eq_some_iff.mp member).1
    rw [jump_inside (by omega)]
    exact g.resetDeaths.load_ends member
  case retry =>
    have member := List.getElem?_eq_getElem inside
    exact ⟨_, member, g.retry_ends member⟩
  case advance =>
    have member := List.getElem?_eq_getElem (nextIndex_lt still)
    refine ⟨_, member, ?_⟩
    rw [advance_eq]
    exact g.resetDeaths.load_ends member
  case loading =>
    intro loading
    rw [here] at loading
    exact play_loading coherent first (by rw [ofSession, stage]; decide) ops loading

/-- A level file that holds no text. -/
theorem play_load_ends_undecodable :
    let files := ((FileTree.folder []).insert [0x5b, 0x31, 0x5d] ["levels", "index.json"]).insert
      [0xff] ["levels", "level_01.json"]
    ∃ session after,
      ({} : Lobby).create (.folder files.read "levels") [] (.int 0) = (.ok ("s0", session), after) ∧
      session.levelIds = [.int 1] ∧
      Ends session.levels none (.int 1) 0 (OpenBreaks session.levels session.config (.int 1))
        ((ofSession session 0).load 0) ∧
      ((ofSession session 0).load 0).1.isOk = false ∧
      ((ofSession session 0).load 0).2.session.stage = .loading := by
  intro files
  refine ⟨_, _, rfl, rfl, ?_, rfl, rfl⟩
  have ends := @play_load_ends {} _ (.folder files.read "levels") [] (.int 0) "s0" _ rfl (by nofun)
    0 [] _ rfl
  exact ends.load 0 (.int 1) rfl

end Game
end TilePuzzle
