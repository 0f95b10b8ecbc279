import TilePuzzle.Proofs.Coherence
import TilePuzzle.Proofs.Insertion
import TilePuzzle.Review

/-! What a review finds in the rules of a level, and what the referee makes of them. The findings are read
off the conditions one by one, however deep they are; a teleport is found fault with just if the referee
would ignore it. So on a level without errors no teleport comes to nothing. -/
namespace TilePuzzle

namespace Condition

mutual
/-- A condition and all those below it, each one before those below it. -/
def nodes : Condition → List Condition
  | all conditions => all conditions :: nodesOf conditions
  | any conditions => any conditions :: nodesOf conditions
  | c => [c]

def nodesOf : List Condition → List Condition
  | [] => []
  | c :: rest => c.nodes ++ nodesOf rest
end

def flaw? : Condition → Option String
  | patternBreak pattern => if pattern = [] then some "pattern_break has an empty pattern" else none
  | sequenceViolates sequence =>
    if sequence = [] then some "sequence_violates has an empty sequence" else none
  | idleSeconds seconds => if seconds.atMost (.int 0) then some "idle_seconds must be positive" else none
  | touchTile _ | touchColor _ | reachExit | repeated _ | repeatedSolid _ | musicPlaying | totalSteps _
  | all _ | any _ | custom _ | unsupported _ => none

def doubt? (known : List String) : Condition → Option String
  | unsupported typeName => some ("unknown condition type '" ++ typeName ++ "'")
  | custom name => if name ∈ known then none else some ("custom_rule '" ++ name ++ "' is not registered")
  | touchTile _ | touchColor _ | reachExit | repeated _ | repeatedSolid _ | patternBreak _
  | sequenceViolates _ | idleSeconds _ | musicPlaying | totalSteps _ | all _ | any _ => none

end Condition

namespace Effect

def flaw? (size : Nat) : Effect → Option String
  | teleport col row => if (Place.mk col row).within size then none else
      some ("teleport target " ++ Review.placeText ⟨col, row⟩ ++ " is outside the grid")
  | kill | win | showHint .. | playSound _ | stopSound | unsupported _ => none

def doubt? (patterns : Fields) : Effect → Option String
  | unsupported typeName => some ("unknown effect type '" ++ typeName ++ "'")
  | playSound sound => if Review.hasPattern patterns sound then none else
      some ("sound '" ++ sound.getD "None" ++ "' not found in music_patterns")
  | kill | win | teleport .. | showHint .. | stopSound => none

end Effect

namespace Rule

def flaws (size : Nat) (rule : Rule) : List String :=
  rule.condition.nodes.filterMap Condition.flaw? ++ (rule.effect.flaw? size).toList

def doubts (known : List String) (patterns : Fields) (rule : Rule) : List String :=
  rule.condition.nodes.filterMap (Condition.doubt? known) ++ (rule.effect.doubt? patterns).toList

end Rule

namespace Review

def say (label text : String) : String := label ++ ": " ++ text

/-- A text that does not open another one is not that one with more after it. -/
theorem append_ne {first rest s : String} (differs : ¬first.toList <+: s.toList) : first ++ rest ≠ s := by
  intro same
  apply differs
  rw [← same, String.toList_append]
  exact List.prefix_append _ _

def sayAll (texts : Rule → List String) (index : Nat) (rules : List Rule) : List String :=
  (rules.zipIdx index).flatMap fun numbered => (texts numbered.1).map (say ("Rule " ++ toString numbered.2))

-- These two spell a finding as the review does: what its text is put together from first, then the
-- colon, which belongs to the first part.
@[simp]
theorem say_append (label first rest : String) : say label (first ++ rest) = say label first ++ rest := by
  rw [say, say, String.append_assoc, String.append_assoc, String.append_assoc]

@[simp low]
theorem say_eq (label text : String) : say label text = label ++ (": " ++ text) := by
  rw [say, String.append_assoc]

theorem append_eq (a b : Review) : a ++ b = ⟨a.errors ++ b.errors, a.warnings ++ b.warnings⟩ := rfl

theorem when_error (condition : Bool) (s : String) :
    when condition (error s) = ⟨if condition then [s] else [], []⟩ := by
  cases condition <;> rfl

theorem when_warning (condition : Bool) (s : String) :
    when condition (warning s) = ⟨[], if condition then [s] else []⟩ := by
  cases condition <;> rfl

def noted (known : List String) (label : String) (nodes : List Condition) : Review where
  errors := (nodes.filterMap Condition.flaw?).map (say label)
  warnings := (nodes.filterMap (Condition.doubt? known)).map (say label)

theorem noted_append (known : List String) (label : String) (first second : List Condition) :
    noted known label (first ++ second) = noted known label first ++ noted known label second := by
  simp only [noted, List.filterMap_append, List.map_append, append_eq]

mutual
/-- A review of a condition notes what is to be said of it and those below it, one after the other. -/
theorem ofCondition_eq (known : List String) (label : String) : (c : Condition) →
    ofCondition known label c = noted known label c.nodes
  | .all conditions => by
    rw [ofCondition, ofConditions_eq known label conditions]
    rfl
  | .any conditions => by
    rw [ofCondition, ofConditions_eq known label conditions]
    rfl
  | .unsupported typeName => by
    simp [ofCondition, warning, noted, Condition.nodes, Condition.flaw?, Condition.doubt?]
  | .patternBreak pattern => by
    cases pattern <;>
      simp [ofCondition, when_error, noted, Condition.nodes, Condition.flaw?, Condition.doubt?]
  | .sequenceViolates sequence => by
    cases sequence <;>
      simp [ofCondition, when_error, noted, Condition.nodes, Condition.flaw?, Condition.doubt?]
  | .idleSeconds seconds => by
    cases waits : seconds.atMost (.int 0) <;>
      simp [ofCondition, when_error, noted, Condition.nodes, Condition.flaw?, Condition.doubt?, waits]
  | .custom name => by
    by_cases listed : name ∈ known <;>
      simp [ofCondition, when_warning, noted, Condition.nodes, Condition.flaw?, Condition.doubt?, listed]
  | .touchTile _ | .touchColor _ | .reachExit | .repeated _ | .repeatedSolid _ | .musicPlaying
  | .totalSteps _ => rfl

theorem ofConditions_eq (known : List String) (label : String) : (conditions : List Condition) →
    ofConditions known label conditions = noted known label (Condition.nodesOf conditions)
  | [] => rfl
  | c :: rest => by
    rw [ofConditions, ofCondition_eq known label c, ofConditions_eq known label rest, Condition.nodesOf,
      noted_append]
end

theorem ofEffect_eq (b : Blueprint) (label : String) (effect : Effect) : ofEffect b label effect =
    ⟨(effect.flaw? b.size).toList.map (say label), (effect.doubt? b.patterns).toList.map (say label)⟩ := by
  cases effect with
  | kill | win | showHint | stopSound => rfl
  | unsupported typeName =>
    simp [ofEffect, warning, Effect.flaw?, Effect.doubt?]
  | teleport col row =>
    cases inside : (Place.mk col row).within b.size <;>
      simp [ofEffect, when_error, Effect.flaw?, Effect.doubt?, inside]
  | playSound sound =>
    cases found : hasPattern b.patterns sound <;>
      simp [ofEffect, when_warning, Effect.flaw?, Effect.doubt?, found]

/-- The review of a rule is what is wrong with it and what is doubtful about it. -/
theorem ofRule_eq (b : Blueprint) (known : List String) (label : String) (rule : Rule) :
    ofCondition known label rule.condition ++ ofEffect b label rule.effect =
      ⟨(rule.flaws b.size).map (say label), (rule.doubts known b.patterns).map (say label)⟩ := by
  simp only [ofCondition_eq, ofEffect_eq, append_eq, noted, Rule.flaws, Rule.doubts, List.map_append]

theorem sayAll_cons (texts : Rule → List String) (index : Nat) (rule : Rule) (rest : List Rule) :
    sayAll texts index (rule :: rest) =
      (texts rule).map (say ("Rule " ++ toString index)) ++ sayAll texts (index + 1) rest := by
  simp only [sayAll, List.zipIdx_cons, List.flatMap_cons]

/-- Rules are reviewed one after the other, once all of them are read. -/
theorem ofRules_eq (b : Blueprint) (known : List String) (items : List Fields) (index : Nat) :
    ofRules b known index items = (Rule.ofItems (items.map .obj)).map fun rules =>
      ⟨sayAll (Rule.flaws b.size) index rules, sayAll (Rule.doubts known b.patterns) index rules⟩ := by
  induction items generalizing index with
  | nil => rfl
  | cons fields rest ih =>
    rw [List.map_cons, Rule.ofItems, Rule.ofFields, ofRules, ih]
    cases Condition.ofValue (Value.get fields "condition") with
    | error f => rfl
    | ok condition =>
      cases Effect.ofValue (Value.get fields "effect") with
      | error f => rfl
      | ok effect =>
        cases Rule.ofItems (rest.map .obj) with
        | error f => rfl
        | ok later =>
          have noted := ofRule_eq b known ("Rule " ++ toString index) ⟨condition, effect⟩
          simp only at noted
          simp only [ok_bind, Except.map, pure, Except.pure, noted]
          rw [append_eq, sayAll_cons, sayAll_cons]

def before (b : Blueprint) : Review :=
  ofCorner b.size "start" b.start ++ ofCorner b.size "exit" b.exit ++ ofMeeting b ++ ofBorder b.border ++
    ofTiles b.size [] b.tiles

def after (b : Blueprint) : Review :=
  concat (b.hints.map ofHint) ++ concat (b.cues.map ofCue) ++ ofWinning b

/-- A warning makes nothing invalid. -/
theorem when_warning_errors (condition : Bool) (s : String) : (when condition (warning s)).errors = [] := by
  rw [when_warning]

theorem ofCorner_errors (size : Nat) (label : String) (authored : Option Place) :
    (ofCorner size label authored).errors = [] := by
  cases authored with
  | none => rfl
  | some p => exact when_warning_errors _ _

theorem ofBorder_errors (border : Option String) : (ofBorder border).errors = [] := by
  cases border with
  | none => rfl
  | some s => exact when_warning_errors _ _

theorem ofTiles_errors (size : Nat) (seen : List Key) (tiles : List TileEntry) :
    (ofTiles size seen tiles).errors = [] := by
  induction tiles generalizing seen with
  | nil => rfl
  | cons entry rest ih =>
    rw [ofTiles]
    split
    · simp only [append_eq, when_warning_errors, ih, List.append_nil]
    · simp only [append_eq, ih, warning, List.append_nil]

/-- What holds of nothing, and of two reviews together, holds of any number of them. -/
theorem concat_keeps {P : Review → Prop} (nothing : P clean) (both : ∀ {a b}, P a → P b → P (a ++ b))
    {reviews : List Review} (all : ∀ r ∈ reviews, P r) : P (concat reviews) := by
  have folded (first : Review) (holds : P first) (rest : List Review) (others : ∀ r ∈ rest, P r) :
      P (rest.foldl (· ++ ·) first) := by
    induction rest generalizing first with
    | nil => exact holds
    | cons r rest ih =>
      rw [List.forall_mem_cons] at others
      exact ih (first ++ r) (both holds others.1) others.2
  exact folded clean nothing reviews all

theorem concat_harmless {reviews : List Review} (harmless : ∀ r ∈ reviews, r.errors = []) :
    (concat reviews).errors = [] := by
  refine concat_keeps (P := fun r => r.errors = []) rfl ?_ harmless
  intro a b first second
  rw [append_eq, first, second]
  rfl

theorem before_errors (b : Blueprint) : (before b).errors = [] := by
  simp only [before, append_eq, ofCorner_errors, ofBorder_errors, ofTiles_errors, ofMeeting,
    when_warning_errors, List.append_nil]

theorem after_errors (b : Blueprint) : (after b).errors = [] := by
  have hints : (concat (b.hints.map ofHint)).errors = [] :=
    concat_harmless (List.forall_mem_map.mpr fun _ _ => when_warning_errors _ _)
  have cues : (concat (b.cues.map ofCue)).errors = [] :=
    concat_harmless (List.forall_mem_map.mpr fun _ _ => when_warning_errors _ _)
  simp only [after, append_eq, hints, cues, ofWinning, when_warning_errors, List.append_nil]

/-- A review is what is wrong with the rules, and no other errors; its warnings are what is doubtful about
the rules, between those on what is authored before and after them. -/
theorem ofBlueprint_eq (b : Blueprint) (known : List String) {rules : List Rule}
    (read : Rule.ofItems (b.rules.map .obj) = .ok rules) : ofBlueprint b known = .ok
      ⟨sayAll (Rule.flaws b.size) 0 rules,
        (before b).warnings ++ sayAll (Rule.doubts known b.patterns) 0 rules ++ (after b).warnings⟩ := by
  have first := before_errors b
  have last := after_errors b
  rw [ofBlueprint, ofRules_eq, read, Except.map, ok_bind]
  simp only [before, after, append_eq, List.append_eq_nil_iff] at first last ⊢
  simp only [pure, Except.pure, first, last, List.append_assoc, List.nil_append, List.append_nil]

theorem sayAll_eq_nil_iff {texts : Rule → List String} {index : Nat} {rules : List Rule} :
    sayAll texts index rules = [] ↔ ∀ rule ∈ rules, texts rule = [] := by
  induction rules generalizing index with
  | nil => exact iff_of_true rfl nofun
  | cons rule rest ih =>
    rw [sayAll_cons, List.append_eq_nil_iff, List.map_eq_nil_iff, ih, List.forall_mem_cons]

end Review

theorem Rule.flaws_eq_nil_iff {size : Nat} {rule : Rule} : rule.flaws size = [] ↔
    (∀ c ∈ rule.condition.nodes, c.flaw? = none) ∧ rule.effect.flaw? size = none := by
  rw [flaws, List.append_eq_nil_iff, List.filterMap_eq_nil_iff, Option.toList_eq_nil_iff]

namespace Referee

structure Judges (r : Referee) (rules : List Rule) (size : Nat) : Prop where
  rules : r.rules = rules
  board : ∃ board, r.board = some board ∧ board.size = size

theorem firstDue_mem {context : Context} {idles : List (Number × Effect)} {effect : Effect}
    (first : firstDue context idles = .ok (some effect)) : ∃ idle ∈ idles, idle.2 = effect := by
  induction idles with
  | nil => cases first
  | cons idle rest ih =>
    simp only [firstDue] at first
    split at first
    · contradiction
    · cases first
      exact ⟨idle, List.mem_cons_self, rfl⟩
    · obtain ⟨other, member, same⟩ := ih first
      exact ⟨other, List.mem_cons_of_mem _ member, same⟩

theorem idleRules_mem {rules : List Rule} {idle : Number × Effect} (listed : idle ∈ idleRules rules) :
    ∃ rule ∈ rules, rule.effect = idle.2 := by
  obtain ⟨rule, member, same⟩ := List.mem_filterMap.mp listed
  refine ⟨rule, member, ?_⟩
  split at same
  · cases same
    rfl
  · contradiction

theorem Call.events_of_outcome {s : Referee} {call : Call} {m : Memory} {effect : Effect}
    (outcome : call.outcome s = s.told m (some effect)) : call.events s = (s.execute effect).1 := by
  have answer : (s.attend call).1 = .ok ({ s with memory := m }.execute effect).1 :=
    congrArg Prod.fst outcome
  rw [Call.events, answer]
  exact s.execute_events m effect

/-- What a call returns is what its effect comes to; the effect is that of a rule, or the border's. -/
theorem Call.fires {s : Referee} {call : Call} {effect : Effect} (fires : effect ∈ call.effect s) :
    call.events s = (s.execute effect).1 ∧
      ((∃ rule ∈ s.rules, rule.effect = effect) ∨ effect = .kill ∨ effect = .win) := by
  cases call with
  | hints | repaint => contradiction
  | borderHit border =>
    cases border with
    | block | wrap => contradiction
    | kill =>
      cases List.mem_singleton.mp fires
      exact ⟨rfl, .inr (.inl rfl)⟩
    | exit =>
      cases List.mem_singleton.mp fires
      exact ⟨rfl, .inr (.inr rfl)⟩
  | land place =>
    rw [Call.effect, firstMatch_decides rfl] at fires
    obtain ⟨rule, first, rfl⟩ := Option.map_eq_some_iff.mp (Option.mem_toList.mp fires)
    have listed : rule ∈ s.rules := List.mem_of_find?_eq_some first
    refine ⟨events_of_outcome (m := (s.landing place).memory) ?_, .inl ⟨rule, listed, rfl⟩⟩
    have holds : s.rules.find? (s.holdsAt place) = some rule := first
    rw [land_outcome, holds]
    rfl
  | tick moving =>
    simp only [Call.effect] at fires
    cases due : firstDue (s.passing moving) (idleRules s.rules) with
    | error f =>
      rw [due] at fires
      contradiction
    | ok first =>
      rw [due] at fires
      cases Option.mem_toList.mp fires
      obtain ⟨idle, listed, rfl⟩ := firstDue_mem due
      refine ⟨events_of_outcome (m := { s.memory with idle := 0 }) ?_, .inl (idleRules_mem listed)⟩
      rw [tick_outcome, due]
      rfl

section
variable {r s : Referee} {rules : List Rule} {size : Nat}

/-- A teleport comes to nothing just if a review finds fault with it. -/
theorem Judges.ignores_iff (judges : r.Judges rules size) (col row : Int) :
    (r.execute (.teleport col row)).1 = [] ↔ ((Effect.teleport col row).flaw? size).isSome = true := by
  obtain ⟨_, board, judged, rfl⟩ := judges
  cases inside : (Place.mk col row).within board.size <;>
    simp [execute, judged, Effect.flaw?, Board.contains, inside]

/-- A teleport that fires tells of itself, once, if no review finds fault with it. -/
theorem Judges.teleports (judges : r.Judges rules size)
    (sound : ∀ rule ∈ rules, rule.effect.flaw? size = none) {call : Call} {col row : Int}
    (fires : .teleport col row ∈ call.effect r) :
    call.events r = [.teleported ⟨col, row⟩] ∧ (Place.mk col row).within size = true := by
  obtain ⟨events, ⟨rule, member, same⟩ | other | other⟩ := Call.fires fires
  · have inside : (Place.mk col row).within size = true := by
      have none := sound rule (judges.rules ▸ member)
      rw [same, Effect.flaw?] at none
      by_contra outside
      rw [if_neg outside] at none
      contradiction
    obtain ⟨_, board, judged, rfl⟩ := judges
    refine ⟨?_, inside⟩
    rw [events]
    simp only [execute, judged, Board.contains, inside, if_true]
  · contradiction
  · contradiction

theorem Judges.keeps (judges : r.Judges rules size) (keeps : r.Keeps s) : s.Judges rules size where
  rules := keeps.rules.trans judges.rules
  board := by
    obtain ⟨board, judged, same⟩ := judges.board
    exact ⟨board, keeps.board.trans judged, same⟩

theorem Judges.attend (judges : r.Judges rules size) {call : Call}
    (painted : ∀ board, call = .repaint board → board.size = size) :
    (r.attend call).2.Judges rules size := by
  cases call with
  | land place => exact judges.keeps (r.land_keeps place)
  | tick moving => exact judges.keeps (r.tick_keeps moving)
  | borderHit border => exact judges.keeps (r.borderHit_keeps border)
  | hints => exact judges
  | repaint board => exact ⟨judges.rules, board, rfl, painted board rfl⟩

theorem Judges.attendAll (judges : r.Judges rules size) {calls : List Call}
    (painted : ∀ board, .repaint board ∈ calls → board.size = size) :
    (r.attendAll calls).Judges rules size := by
  induction calls generalizing r with
  | nil => exact judges
  | cons call rest ih =>
    refine ih (judges.attend fun board same => painted board ?_) fun board member => painted board ?_
    · rw [same]
      exact List.mem_cons_self
    · exact List.mem_cons_of_mem _ member

end

end Referee

/-- The rules of a level are those that its blueprint describes. -/
def Level.Described (level : Level) : Prop :=
  Rule.ofItems (level.blueprint.rules.map .obj) = .ok level.rules

theorem LevelSet.load_described {set : LevelSet} {id : Value} {level : Level}
    (loaded : set.load id = .ok (some level)) : level.Described := by
  obtain ⟨b, fresh, built, rfl⟩ := LevelSet.load_built loaded
  obtain ⟨_, named⟩ := fresh.named_eq id
  unfold Level.Described
  rw [named]
  unfold Level.build at built
  cases read : Rule.ofItems (b.rules.map .obj) with
  | error f =>
    rw [read] at built
    cases built
  | ok rules =>
    rw [read] at built
    cases built
    exact read

def Session.Described (s : Session) : Prop := ∀ level, s.level = some level → level.Described

namespace Game

theorem loadId_described {g : Game} (described : g.session.Described) (id : Value) {index : Nat}
    {finish : Game → Level → Except Fault Unit × Game}
    (installs : ∀ level, (finish g level).2.session = (g.install level index).session) :
    (g.loadId id finish).2.session.Described := by
  refine loadId_keeps (P := fun g => g.session.Described) described described fun level found => ?_
  have after : (finish g level).2.session.Described := by
    rw [installs]
    rintro _ ⟨⟩
    exact LevelSet.load_described found
  exact ⟨after, after⟩

theorem load_described {g : Game} (described : g.session.Described) (index : Int) :
    (g.load index).2.session.Described := by
  rcases g.load_cases index with refused | ⟨position, id, rfl, listed, loads⟩
  · rw [refused]; exact described
  · rw [loads]; exact loadId_described (g := g.beginLoading) described id (openLevel_session position _)

theorem perform_described (g : Game) (op : Op)
    (known : g.session.Coherent ∧ g.session.Described) :
    (g.perform op).session.Coherent ∧ (g.perform op).session.Described := by
  refine ⟨g.perform_coherent op known.1, ?_⟩
  obtain ⟨coherent, described⟩ := known
  cases op with
  | load index => exact load_described described index
  | retry =>
    rcases g.retry_cases with refused | ⟨id, listed, loads⟩
    · simp only [perform, refused]; exact described
    · simp only [perform, loads]
      exact loadId_described (g := g.beginLoading) described id (reopenLevel_session _)
  | advance =>
    unfold perform
    rw [advance_eq]
    exact load_described (g := g.resetDeaths) described _
  | jump index =>
    rcases g.jump_cases index with refused | loads
    · simp only [perform, refused]; exact described
    · simp only [perform, loads]; exact load_described (g := g.resetDeaths) described index
  | push v => exact described
  | tick =>
    cases here : g.session.level with
    | none =>
      simp only [perform, tick_idle (.inl here)]; exact described
    | some level =>
      cases active : g.session.isActive with
      | false => simp only [perform, tick_idle (.inr active)]; exact described
      | true =>
        obtain ⟨board, _, sound⟩ :=
          playFrame_sound here (coherent.inPlace level here) g.backstage.cues
        simp only [perform, tick_active here active]
        intro other placed
        -- A frame repaints the board; the rules and the blueprint are those of the level before.
        have same : other = { level with board } :=
          Option.some.inj (Eq.trans placed.symm sound.here)
        rw [same]
        exact described level here
  | finish =>
    intro level here
    cases here
  | rewrite read => exact described

/-- Whatever was done to a game, its referee judges the rules that the level in place describes, on a board
of the size that it describes. -/
theorem play_judges {lobby after : Lobby} {levels : LevelSet} {predicates : Predicates} {now : Number}
    {id : String} {session : Session}
    (created : lobby.create levels predicates now = (.ok (id, session), after))
    (listeners : Nat) (ops : List Op) {level : Level}
    (here : ((ofSession session listeners).play ops).session.level = some level) :
    level.Described ∧
    ((ofSession session listeners).play ops).session.referee.Judges level.rules level.blueprint.size := by
  obtain ⟨made, _, _⟩ := Lobby.create_ok created
  obtain ⟨_, _, none, _⟩ := Session.create_fresh made
  have described : session.Described := fun other placed => by
    rw [none] at placed
    contradiction
  obtain ⟨coherent, still⟩ := play_keeps perform_described
    (P := fun g => g.session.Coherent ∧ g.session.Described) (g := ofSession session listeners)
    ⟨Session.create_coherent made, described⟩ ops
  have plays := coherent.inPlace level here
  refine ⟨still level here, plays.rules, level.board, plays.board, ?_⟩
  rw [Board.size_of_bare plays.authored, Board.build_size]

end Game

/-- What a review of a blueprint with these rules says. Its errors are what is wrong with the rules, in their
order, and in a rule with its conditions one by one, then with its effect. It is valid just if nothing is,
whatever is doubtful. Fault is found with a teleport just if the referee of the level ignores it; so on a
valid level every teleport that fires tells of one place, on the board, be it in calls of the referee or in a
game. -/
structure Review.Exact (b : Blueprint) (known : List String) (rules : List Rule) (review : Review) : Prop where
  errors : review.errors = sayAll (Rule.flaws b.size) 0 rules
  warnings : review.warnings =
    (before b).warnings ++ sayAll (Rule.doubts known b.patterns) 0 rules ++ (after b).warnings
  valid : review.isValid = true ↔ ∀ rule ∈ rules,
    (∀ c ∈ rule.condition.nodes, c.flaw? = none) ∧ rule.effect.flaw? b.size = none
  ignored : ∀ (r : Referee) col row,
    ((r.load rules (Board.build b) b.patterns).execute (.teleport col row)).1 = [] ↔
      ((Effect.teleport col row).flaw? b.size).isSome = true
  calls : review.isValid = true → ∀ (r : Referee) (calls : List Referee.Call),
    (∀ board, .repaint board ∈ calls → board.size = b.size) →
    let s := (r.load rules (Board.build b) b.patterns).attendAll calls
    ∀ (call : Referee.Call) col row, .teleport col row ∈ call.effect s →
      call.events s = [.teleported ⟨col, row⟩] ∧ (Place.mk col row).within b.size = true
  games : review.isValid = true → ∀ (lobby after : Lobby) levels predicates now id session,
    lobby.create levels predicates now = (.ok (id, session), after) →
    ∀ listeners ops, let g := (Game.ofSession session listeners).play ops
    ∀ level, g.session.level = some level → level.blueprint = b →
    ∀ s, g.session.referee.Keeps s → ∀ (call : Referee.Call) col row, .teleport col row ∈ call.effect s →
      call.events s = [.teleported ⟨col, row⟩] ∧ (Place.mk col row).within b.size = true

/-- A level whose rules can be read is reviewed, and what the review says is exact. -/
theorem Review.ofBlueprint_exact (b : Blueprint) (known : List String) (rules : List Rule)
    (read : Rule.ofItems (b.rules.map .obj) = .ok rules) :
    ∃ review, ofBlueprint b known = .ok review ∧ Exact b known rules review := by
  have loaded (r : Referee) : (r.load rules (Board.build b) b.patterns).Judges rules b.size :=
    ⟨rfl, Board.build b, rfl, Board.build_size b⟩
  have valid : (sayAll (Rule.flaws b.size) 0 rules).isEmpty = true ↔ ∀ rule ∈ rules,
      (∀ c ∈ rule.condition.nodes, c.flaw? = none) ∧ rule.effect.flaw? b.size = none := by
    simp only [List.isEmpty_iff, sayAll_eq_nil_iff, Rule.flaws_eq_nil_iff]
  have harmless (sound : (sayAll (Rule.flaws b.size) 0 rules).isEmpty = true) (rule : Rule)
      (member : rule ∈ rules) : rule.effect.flaw? b.size = none :=
    (valid.mp sound rule member).2
  refine ⟨_, ofBlueprint_eq b known read, rfl, rfl, valid, fun r => (loaded r).ignores_iff, ?_, ?_⟩
  · intro sound r calls painted s call col row
    exact ((loaded r).attendAll painted).teleports (harmless sound)
  · rintro sound lobby after levels predicates now id session created listeners ops g level here rfl s keeps
      call col row
    obtain ⟨described, judges⟩ := Game.play_judges created listeners ops here
    have same : level.rules = rules := Except.ok.inj (Eq.trans described.symm read)
    rw [same] at judges
    exact (judges.keeps keeps).teleports (harmless sound)

/-- A rule with two flaws at different depths, a warning between them, and a teleport off the board; and a
level where the exit sends the token back, without errors: it tells of the place where the token goes. -/
theorem Review.ofBlueprint_exact_nested :
    let tag (name : String) (more : Fields) : Value := .obj (("type", .str name) :: more)
    let deep := tag "AND" [("conditions", .arr [tag "pattern_break" [], tag "OR" [("conditions",
      .arr [tag "moon_phase" [], tag "idle_seconds" [("seconds", .int 0)]])]])]
    let away (n : Int) := tag "teleport" [("target_col", .int n), ("target_row", .int 0)]
    let authored (condition effect : Value) : Blueprint :=
      .build none "" ⟨2, by decide, by decide⟩ none none [] [[("condition", condition), ("effect", effect)]]
        [] none [] [] none "" "" []
    (∃ review, ofBlueprint (authored deep (away 2)) [] = .ok review ∧
      review.errors = ["Rule 0: pattern_break has an empty pattern", "Rule 0: idle_seconds must be positive",
        "Rule 0: teleport target [2, 0] is outside the grid"] ∧
      review.warnings = ["Rule 0: unknown condition type 'moon_phase'"] ∧ review.isValid = false) ∧
    ∃ rules review, Rule.ofItems [.obj [("condition", tag "reach_exit" []), ("effect", away 0)]] = .ok rules ∧
      ofBlueprint (authored (tag "reach_exit" []) (away 0)) [] = .ok review ∧ review.isValid = true ∧
      (Referee.Call.land ⟨1, 1⟩).events
        (({} : Referee).load rules (Board.build (authored (tag "reach_exit" []) (away 0))) []) =
          [.teleported ⟨0, 0⟩] := by
  intro tag deep away authored
  constructor
  · let rules : List Rule :=
      [⟨.all [.patternBreak [], .any [.unsupported "moon_phase", .idleSeconds (.int 0)]], .teleport 2 0⟩]
    obtain ⟨review, reviewed, verdict⟩ := ofBlueprint_exact (authored deep (away 2)) [] rules rfl
    refine ⟨review, reviewed, verdict.errors.trans rfl, verdict.warnings.trans rfl, ?_⟩
    rw [isValid, verdict.errors]
    rfl
  · let rules : List Rule := [⟨.reachExit, .teleport 0 0⟩]
    obtain ⟨review, reviewed, verdict⟩ :=
      ofBlueprint_exact (authored (tag "reach_exit" []) (away 0)) [] rules rfl
    have valid : review.isValid = true := by
      rw [isValid, verdict.errors]
      rfl
    have told := verdict.calls valid {} [] nofun (.land ⟨1, 1⟩) 0 0 (List.mem_singleton.mpr rfl)
    exact ⟨rules, review, rfl, reviewed, valid, told.1⟩

end TilePuzzle
