import TilePuzzle.Proofs.Attempt

/-! What tiles look like, over whole runs. On each frame every tile looks as its mechanic makes it
look at the number of the frame, whatever came before; a landing is judged by the looks of the frame
before it. -/
namespace TilePuzzle

namespace Board

def Plain (b : Board) : Prop := ∀ t ∈ b.tiles, t.look = { color := t.base }

theorem mem_modifyAt {b : Board} {p : Place} {f : Tile → Tile} {t : Tile}
    (member : t ∈ (b.modifyAt p f).tiles) : t ∈ b.tiles ∨ ∃ u ∈ b.tiles, t = f u := by
  unfold modifyAt at member
  split at member
  next =>
    simp only [tiles, List.mem_flatten] at member ⊢
    obtain ⟨row, listed, member⟩ := member
    obtain ⟨i, below, rfl⟩ := List.getElem_of_mem listed
    obtain ⟨j, inside, rfl⟩ := List.getElem_of_mem member
    simp only [List.length_modify] at below
    rw [List.getElem_modify] at inside
    have original : b.rows[i] ∈ b.rows := List.getElem_mem below
    by_cases here : p.row.toNat = i
    · simp only [if_pos here, List.length_modify] at inside
      have found : b.rows[i][j] ∈ b.rows[i] := List.getElem_mem inside
      by_cases there : p.col.toNat = j
      · exact .inr ⟨_, ⟨_, original, found⟩, by simp [here, there]⟩
      · exact .inl ⟨_, original, by simp [here, there]⟩
    · simp only [if_neg here] at inside
      have found : b.rows[i][j] ∈ b.rows[i] := List.getElem_mem inside
      exact .inl ⟨_, original, by simp [here]⟩
  next => exact .inl member

theorem Plain.modifyAt {b : Board} (plain : b.Plain) (p : Place) {f : Tile → Tile}
    (keeps : ∀ t, t.look = { color := t.base } → (f t).look = { color := (f t).base }) :
    (b.modifyAt p f).Plain := by
  intro t member
  rcases mem_modifyAt member with before | ⟨u, before, rfl⟩
  · exact plain t before
  · exact keeps u (plain u before)

theorem blank_plain (size : Nat) : (blank size).Plain := by
  intro t member
  simp only [blank, tiles, List.mem_flatten, List.mem_map] at member
  obtain ⟨_, ⟨r, _, rfl⟩, member⟩ := member
  obtain ⟨c, _, rfl⟩ := List.mem_map.mp member
  rfl

theorem Plain.author {b : Board} (plain : b.Plain) (entries : List TileEntry) :
    (entries.foldl (fun board entry => board.modifyAt entry.place (·.author entry)) b).Plain := by
  induction entries generalizing b with
  | nil => exact plain
  | cons entry rest ih =>
    refine ih (plain.modifyAt entry.place fun t built => ?_)
    rw [Tile.author, built]

theorem build_plain (b : Blueprint) : (build b).Plain := by
  unfold build
  apply Plain.author
  refine Plain.modifyAt ((blank_plain b.size).modifyAt _ ?_) _ ?_
  · exact fun _ plain => plain
  · exact fun _ plain => plain

/-- A refresh that is not broken off gives every tile its look. -/
theorem refreshRow_ok {tick : Int} {row : List Tile} (done : (refreshRow tick row).1 = .ok ()) :
    ∀ u ∈ (refreshRow tick row).2, ∃ t ∈ row, t.refresh tick = .ok u := by
  induction row with
  | nil => intro u member; cases member
  | cons t rest ih =>
    simp only [refreshRow] at done ⊢
    cases refreshed : t.refresh tick with
    | error f => rw [refreshed] at done; contradiction
    | ok first =>
      simp only [refreshed] at done ⊢
      intro u member
      rcases List.mem_cons.mp member with rfl | later
      · exact ⟨t, List.mem_cons_self .., refreshed⟩
      · obtain ⟨s, before, same⟩ := ih done u later
        exact ⟨s, List.mem_cons_of_mem _ before, same⟩

theorem refreshRows_ok {tick : Int} {rows : List (List Tile)}
    (done : (refreshRows tick rows).1 = .ok ()) :
    ∀ u ∈ (refreshRows tick rows).2.flatten, ∃ t ∈ rows.flatten, t.refresh tick = .ok u := by
  induction rows with
  | nil => intro u member; cases member
  | cons row rest ih =>
    have first := @refreshRow_ok tick row
    simp only [refreshRows] at done ⊢
    generalize refreshRow tick row = outcome at done first ⊢
    obtain ⟨result, after⟩ := outcome
    cases result with
    | error f => contradiction
    | ok _ =>
      simp only [List.flatten_cons, List.mem_append] at done ⊢
      intro u member
      rcases member with here | later
      · obtain ⟨t, before, same⟩ := first rfl u here
        exact ⟨t, .inl before, same⟩
      · obtain ⟨t, before, same⟩ := ih done u later
        exact ⟨t, .inr before, same⟩

theorem refresh_ok {tick : Int} {b after : Board} (done : b.refresh tick = (.ok (), after)) :
    ∀ u ∈ after.tiles, ∃ t ∈ b.tiles, t.refresh tick = .ok u := by
  have result : (refreshRows tick b.rows).1 = .ok () := congrArg Prod.fst done
  have board : { b with rows := (refreshRows tick b.rows).2 } = after := congrArg Prod.snd done
  subst board
  exact refreshRows_ok result

def shape (b : Board) : List Nat := b.rows.map List.length

theorem bare_shape (b : Board) : b.bare.shape = b.shape := by
  simp [bare, shape, Function.comp_def]

theorem modifyAt_shape (b : Board) (p : Place) (f : Tile → Tile) :
    (b.modifyAt p f).shape = b.shape := by
  unfold modifyAt
  split
  · apply List.ext_getElem?
    intro i
    simp only [shape, List.getElem?_map, List.getElem?_modify, Option.map_eq_map]
    cases b.rows[i]? with
    | none => rfl
    | some row => by_cases here : p.row.toNat = i <;> simp [here]
  · rfl

theorem author_shape (entries : List TileEntry) (b : Board) :
    (entries.foldl (fun board entry => board.modifyAt entry.place (·.author entry)) b).shape =
      b.shape := by
  induction entries generalizing b with
  | nil => rfl
  | cons entry rest ih => rw [List.foldl_cons, ih, modifyAt_shape]

theorem build_shape (b : Blueprint) : (build b).shape = List.replicate b.size b.size := by
  have blank_shape : (blank b.size).shape = List.replicate b.size b.size := by
    simp [blank, shape, Function.comp_def]
  simp only [build, author_shape, modifyAt_shape, blank_shape]

/-- On the board of a blueprint, however its tiles look, every place has a tile. -/
theorem exists_tileAt {board : Board} {b : Blueprint} (authored : board.bare = (build b).bare)
    {p : Place} (inside : board.contains p = true) :
    ∃ t ∈ board.tiles, board.tileAt p = some t := by
  have shape : board.shape = List.replicate b.size b.size := by
    rw [← bare_shape, authored, bare_shape, build_shape]
  have size : board.size = b.size := by rw [size_of_bare authored, build_size]
  obtain ⟨_, right, _, bottom⟩ := (Place.within_iff _ _).mp inside
  have below : p.row.toNat < board.rows.length := by
    have rows := congrArg List.length shape
    simp only [Board.shape, List.length_map, List.length_replicate] at rows
    omega
  have row : board.rows[p.row.toNat].length = b.size := by
    have lengths : board.shape[p.row.toNat]? = some b.size := by
      rw [shape, List.getElem?_replicate, if_pos (by omega)]
    simpa [Board.shape, List.getElem?_eq_getElem below] using lengths
  have beyond : p.col.toNat < board.rows[p.row.toNat].length := by omega
  refine ⟨board.rows[p.row.toNat][p.col.toNat], ?_, ?_⟩
  · exact List.mem_flatten.mpr ⟨_, List.getElem_mem below, List.getElem_mem beyond⟩
  · simp [tileAt, inside, List.getElem?_eq_getElem below, List.getElem?_eq_getElem beyond]

end Board

/-- What a session shows of the level in place: its clock is the number of the frame, tiles are what
they were built as, and they look as that number makes them look. -/
structure Session.Looks (s : Session) (level : Level) : Prop where
  clock : s.clock = s.frame
  authored : level.board.bare = (Board.build level.blueprint).bare
  unplayed : s.frame = 0 → level.board = Board.build level.blueprint
  marked : ∀ t ∈ level.board.tiles, (t.isStart || t.isExit) = true → t.look = { color := t.base }
  animated : s.frame ≠ 0 → ∀ t ∈ level.board.tiles, (t.isStart || t.isExit) = false →
    Mechanic.look s.frame t.mechanic t.params t.base = .ok t.look

theorem Tile.refresh_marked {tick : Int} {t u : Tile} (refreshed : t.refresh tick = .ok u)
    (marked : (t.isStart || t.isExit) = true) (plain : t.look = { color := t.base }) :
    u.look = { color := u.base } := by
  simp only [refresh, marked, if_true] at refreshed
  cases refreshed
  simp only [plain]

theorem Tile.refresh_look {tick : Int} {t u : Tile} (refreshed : t.refresh tick = .ok u)
    (unmarked : (t.isStart || t.isExit) = false) :
    Mechanic.look tick u.mechanic u.params u.base = .ok u.look := by
  simp only [refresh, unmarked, Bool.false_eq_true, if_false] at refreshed
  cases look : Mechanic.look tick t.mechanic t.params t.base with
  | error f => rw [look] at refreshed; contradiction
  | ok shown => rw [look] at refreshed; cases refreshed; exact look

theorem Tile.refresh_flags {tick : Int} {t u : Tile} (refreshed : t.refresh tick = .ok u) :
    (u.isStart || u.isExit) = (t.isStart || t.isExit) := by
  have same := refresh_bare refreshed
  have start : u.bare.isStart = t.bare.isStart := congrArg Tile.isStart same
  have exit : u.bare.isExit = t.bare.isExit := congrArg Tile.isExit same
  change (u.bare.isStart || u.bare.isExit) = (t.bare.isStart || t.bare.isExit)
  rw [start, exit]

namespace Game

/-- What holds of the tiles of a game on which nothing failed. -/
structure Shows (g : Game) : Prop where
  coherent : g.session.Coherent
  looks : ∀ level, g.session.level = some level → g.session.Looks level
  moving : g.session.isActive = true → g.session.player.phase = .moving → g.session.frame ≠ 0

theorem opened_looks (g : Game) {level : Level} (index : Nat) (hints : List Event)
    (cues : List (Int × Cue)) (fresh : level.board = Board.build level.blueprint) :
    (g.opened level index hints cues).session.Looks level where
  clock := rfl
  authored := congrArg Board.bare fresh
  unplayed := fun _ => fresh
  marked := fun t member _ => by
    rw [fresh] at member
    exact Board.build_plain level.blueprint t member
  animated := fun played => absurd rfl played

/-- A frame that is played to its end shows every tile at its number. -/
theorem playFrame_looks {s : Session} {level : Level} {cues left : List (Int × Cue)} {t : Turn}
    (plays : s.Plays level) (looks : s.Looks level)
    (played : playFrame s level cues = (.ok (), t, left)) :
    t.session.frame = s.frame + 1 ∧ ∃ after, t.session.level = some after ∧
      after = { level with board := after.board } ∧ after.board.bare = level.board.bare ∧
      t.session.Looks after := by
  obtain ⟨u, steps, ends⟩ := playFrame_cases s level cues plays.board plays.player
  have stays := steps.stays
  have clock : u.session.clock = s.clock := stays.clock
  have frame : u.session.frame = s.frame + 1 := stays.frame
  rcases ends with ⟨f, failed⟩ | ⟨f, _, failed⟩ | ⟨animates, shows⟩
  · rw [played] at failed; cases failed
  · rw [played] at failed; cases failed
  · have session : t.session = (u.animate level).2.session := by
      have due := congrArg (fun outcome => outcome.2.1.session) (played.symm.trans shows)
      rw [show t.session = (emitDue cues level (u.animate level).2).2.1.session from due]
      unfold emitDue
      split <;> rfl
    rw [Turn.animate_eq] at animates session
    generalize refreshes : level.board.refresh (u.session.clock + 1 : Nat) = outcome at animates session
    obtain ⟨result, board⟩ := outcome
    obtain rfl : result = .ok () := animates
    have bare : board.bare = level.board.bare := by
      have same := Board.refresh_bare (u.session.clock + 1 : Nat) level.board
      rw [refreshes] at same
      exact same
    rw [session]
    refine ⟨frame, { level with board }, rfl, rfl, bare, ?_⟩
    have ticks : (u.session.clock + 1 : Nat) = s.frame + 1 := by rw [clock, looks.clock]
    constructor
    · exact ticks.trans frame.symm
    · exact bare.trans looks.authored
    · intro unplayed
      exact absurd (frame.symm.trans unplayed) (Nat.succ_ne_zero _)
    · intro tile member marked
      obtain ⟨before, listed, refreshed⟩ := Board.refresh_ok refreshes tile member
      rw [Tile.refresh_flags refreshed] at marked
      exact Tile.refresh_marked refreshed marked (looks.marked before listed marked)
    · intro _ tile member unmarked
      obtain ⟨before, listed, refreshed⟩ := Board.refresh_ok refreshes tile member
      rw [Tile.refresh_flags refreshed] at unmarked
      have shown := Tile.refresh_look refreshed unmarked
      change Mechanic.look (u.session.frame : Nat) tile.mechanic tile.params tile.base = .ok tile.look
      rw [frame, ← ticks]
      exact shown

/-- What does not fail and opens no level leaves the level in place as it was but for its looks, or
takes it away. -/
theorem Leaves.level {g h : Game} {op : Op} {events : List Event} (leaves : g.Leaves op events h)
    (shows : g.Shows) (misses : op.opens g = false) {after : Level}
    (placed : h.session.level = some after) :
    ∃ level, g.session.level = some level ∧ after = { level with board := after.board } ∧
      after.board.bare = level.board.bare := by
  cases leaves with
  | opened _ _ _ opens => rw [opens] at misses; contradiction
  | missed =>
    have same : (op.cleared g).missed.session.level = g.session.level := by cases op <;> rfl
    exact ⟨after, same ▸ placed, rfl, rfl⟩
  | pushed | waited | rewritten => exact ⟨after, placed, rfl, rfl⟩
  | @played level t cues here active played =>
    obtain ⟨_, next, leads, same, bare, _⟩ :=
      playFrame_looks (shows.coherent.inPlace level here) (shows.looks level here) played
    obtain rfl : next = after := Option.some.inj (leads.symm.trans placed)
    exact ⟨level, here, same, bare⟩
  | finished => contradiction

theorem perform_shows {g : Game} {op : Op} (works : op.works g = true) (shows : g.Shows) :
    (g.perform op).Shows := by
  have coherent := perform_coherent g op shows.coherent
  have leaves := perform_leaves works
  generalize g.emitted op = events at leaves
  generalize g.perform op = after at coherent leaves ⊢
  refine ⟨coherent, ?_, ?_⟩
  · intro level here
    cases leaves with
    | opened opened index cues _ fresh =>
      obtain rfl : opened = level := Option.some.inj here
      exact opened_looks _ index _ cues fresh
    | missed =>
      have before : g.session.level = some level := by cases op <;> exact here
      cases op <;> exact { shows.looks level before with }
    | pushed | waited | rewritten => exact { shows.looks level here with }
    | @played earlier t cues before active played =>
      obtain ⟨_, next, leads, _, _, looks⟩ :=
        playFrame_looks (shows.coherent.inPlace earlier before) (shows.looks earlier before) played
      obtain rfl : next = level := Option.some.inj (leads.symm.trans here)
      exact looks
    | finished => contradiction
  · intro active moving
    cases leaves with
    | @opened _ level index cues =>
      have idle : ((op.cleared g).session.player.reset level.start).2.phase = .idle :=
        Player.reset_idle _ (Board.startPlace_within level.blueprint) level.blueprint.size_le
      exact absurd (idle.symm.trans moving) Phase.noConfusion
    | missed | finished => contradiction
    | pushed | waited | rewritten => exact shows.moving active moving
    | @played level t cues here _ played =>
      obtain ⟨frame, _⟩ :=
        playFrame_looks (shows.coherent.inPlace level here) (shows.looks level here) played
      change t.session.frame ≠ 0
      rw [frame]
      exact Nat.succ_ne_zero _

end Game

/-- Only a move under way lands, where it leads to. -/
theorem Player.update_landed {p : Player} {intent : Except Fault (Option Direction)} {size : Int}
    {border : Border} {place : Place}
    (lands : (p.update intent size border).1 = .ok [.landed place]) :
    p.phase = .moving ∧ p.target = place := by
  unfold update at lands
  split at lands
  · cases lands
  next moving =>
    refine ⟨moving, ?_⟩
    simp only [advance] at lands
    split at lands
    · obtain ⟨x, y, frame⟩ := showAt_frame
        { p.hover with elapsed := p.hover.elapsed + 1, phase := .idle, place := p.hover.target }
        (floatOfInt p.hover.target.col) (floatOfInt p.hover.target.row)
      generalize showAt _ _ _ = shown at frame lands
      obtain ⟨result, after⟩ := shown
      subst frame
      cases result <;> cases lands
      rfl
    · generalize showAt _ _ _ = shown at lands
      obtain ⟨result, after⟩ := shown
      cases result <;> cases lands
  · split at lands
    · cases lands
    · cases lands
    · rcases tryMove_events (Prod.ext lands rfl) with none | border
      · cases none
      · cases border

namespace Event

def landing? : Event → Option Place
  | landed place => some place
  | _ => none

theorem eq_landed {event : Event} {place : Place} (lands : event.landing? = some place) :
    event = .landed place := by
  cases event <;> cases lands
  rfl

theorem Shown.unlanded {event : Event} (shown : event.Shown) : event.landing? = none := by
  cases shown <;> rfl

end Event

/-- Rules send the token elsewhere, but they do not land it. -/
theorem Referee.Rules.unlanded {r after : Referee} {events : List Event} (rules : r.Rules events after) :
    ∀ event ∈ events, event.landing? = none := by
  intro event member
  cases rules with
  | silent => contradiction
  | @plain ruling _ plain =>
    obtain rfl := List.mem_singleton.mp member
    cases event <;> first | rfl | contradiction
  | death | victory =>
    obtain rfl := List.mem_singleton.mp member
    rfl

theorem Referee.hints_unlanded (r : Referee) (hints : List Hint) :
    ∀ event ∈ r.hints hints, event.landing? = none := by
  intro event member
  obtain ⟨hint, _, rfl⟩ := List.mem_map.mp member
  rfl

namespace Turn

/-- The second turn tells more than the first, and nothing of a landing. -/
def Adds (t u : Turn) : Prop :=
  ∃ more, u.events = t.events ++ more ∧ ∀ event ∈ more, event.landing? = none

theorem Passes.adds {t u : Turn} (passes : t.Passes u) : t.Adds u := by
  cases passes with
  | past => exact ⟨[], by simp, nofun⟩
  | judged active passed =>
    have rules := Referee.tick_rules passed
    exact ⟨_, (ruled_told active rules).1, rules.unlanded⟩

theorem Shows.adds {t u : Turn} {level : Level} {cues left : List (Int × Cue)}
    (shows : t.Shows level cues u left) : t.Adds u := by
  cases shows with
  | past => exact ⟨[], by simp, nofun⟩
  | @due shown active listed =>
    refine ⟨shown, rfl, fun event member => ?_⟩
    have among := Cue.eventsOf_shown level.blueprint.patterns _ event (by rw [listed]; exact member)
    exact among.unlanded

theorem mem_of_adds {t u : Turn} (adds : t.Adds u) {place : Place} (member : .landed place ∈ u.events) :
    .landed place ∈ t.events := by
  obtain ⟨more, told, unlanded⟩ := adds
  rw [told] at member
  rcases List.mem_append.mp member with before | new
  · exact before
  · exact absurd (unlanded _ new) (Option.some_ne_none _)

/-- Whoever hears of a landing in a move hears of it first, and then what the referee says to it. -/
theorem Moves.landing {t u : Turn} {level : Level} (moves : t.Moves level u)
    (active : t.session.isActive = true) (silent : t.events = []) {place : Place}
    (member : .landed place ∈ u.events) :
    (stride t.session level).1 = .ok [.landed place] ∧
    ∃ events after later, t.session.referee.land place = (.ok events, after) ∧
      u.events = .landed place :: events ++ later := by
  have unmoved : (t.moved level).events = [] := silent
  cases moves with
  | quiet => rw [unmoved] at member; contradiction
  | @met direction =>
    have rules := Referee.borderHit_rules t.session.referee level.border
    rw [(ruled_told (t := (t.moved level).emit (.borderHit direction)) active rules).1, emit, unmoved]
      at member
    rcases List.mem_append.mp member with before | ruled
    · cases List.mem_singleton.mp before
    · exact absurd (rules.unlanded _ ruled) (Option.some_ne_none _)
  | @landed landing events after strides lands =>
    have rules := Referee.land_rules lands
    have ruling : (((t.moved level).emit (.landed landing)).ruled after events).events =
        .landed landing :: events := by
      rw [(ruled_told (t := (t.moved level).emit (.landed landing)) active rules).1, emit, unmoved]
      rfl
    rw [hinted_eq, ruling] at member ⊢
    have same : place = landing := by
      rcases List.mem_cons.mp member with same | told
      · cases same; rfl
      · rcases List.mem_append.mp told with ruled | hint
        · exact absurd (rules.unlanded _ ruled) (Option.some_ne_none _)
        · exact absurd (Referee.hints_unlanded _ _ _ hint) (Option.some_ne_none _)
    subst same
    exact ⟨strides, events, after, _, lands, rfl⟩

end Turn

namespace Game

/-- A landing is the first thing that its frame tells, with what the referee says to it. -/
theorem Frame.landing {s : Session} {level : Level} {cues left : List (Int × Cue)} {t : Turn}
    (frame : Frame s level cues t left) (active : s.isActive = true) {place : Place}
    (member : .landed place ∈ t.events) :
    (Turn.stride (opening s).session level).1 = .ok [.landed place] ∧
    ∃ events after later, s.referee.land place = (.ok events, after) ∧
      t.events = .landed place :: events ++ later := by
  obtain ⟨u, v, board, moves, passes, _, shows⟩ := frame.steps
  have earlier : .landed place ∈ (v.animated level board).events := Turn.mem_of_adds shows.adds member
  obtain ⟨strides, events, after, later, lands, first⟩ :=
    moves.landing active rfl (Turn.mem_of_adds passes.adds earlier)
  obtain ⟨idle, passed, _⟩ := passes.adds
  obtain ⟨shown, ends, _⟩ := shows.adds
  have passed : (v.animated level board).events = u.events ++ idle := passed
  refine ⟨strides, events, after, later ++ idle ++ shown, lands, ?_⟩
  rw [ends, passed, first]
  simp only [List.append_assoc]

/-- The next frame lands on a place: the landing is told first, and what follows is what the referee
says to it, who looks at the tile there as it looks on the frame before. -/
structure Lands (g : Game) (place : Place) : Prop where
  next : ∃ result, g.tick.1 = .ok result ∧ result.frame = g.session.frame + 1
  judged : ∃ tile events after later, g.session.referee.tileAt place = some tile ∧
    g.session.referee.land place = (.ok events, after) ∧
    g.emitted .tick = .landed place :: events ++ later ∧
    ((tile.isStart || tile.isExit) = false →
      Mechanic.look g.session.frame tile.mechanic tile.params tile.base = .ok tile.look)

theorem tick_lands {g : Game} (shows : g.Shows) (works : Op.tick.works g = true) {place : Place}
    (member : .landed place ∈ g.emitted .tick) : g.Lands place := by
  have leaves : g.Leaves .tick (g.emitted .tick) g.tick.2 := perform_leaves works
  generalize told : g.emitted .tick = events at leaves member
  generalize g.tick.2 = h at leaves
  cases leaves with
  | opened _ _ _ opens => contradiction
  | missed load => contradiction
  | waited => contradiction
  | @played level t cues here active played =>
    have plays := shows.coherent.inPlace level here
    have looks := shows.looks level here
    obtain ⟨strides, events, after, later, lands, first⟩ :=
      (playFrame_frame played).landing active member
    obtain ⟨moving, target⟩ := Player.update_landed strides
    have inside : level.board.contains place = true := target ▸ plays.player.target moving
    obtain ⟨tile, listed, found⟩ := Board.exists_tileAt plays.authored inside
    have judged : g.session.referee.tileAt place = some tile := by
      simp only [Referee.tileAt, plays.board, Option.bind_some, found]
    refine ⟨?_, tile, events, after, later, judged, lands, told.trans first, ?_⟩
    · rw [tick_active here active, played]
      exact ⟨_, rfl, (playFrame_looks plays looks played).1⟩
    · exact looks.animated (shows.moving active moving) tile listed

theorem ofSession_shows {config : Config} {levels : LevelSet} {predicates : Predicates}
    {now : Number} {session : Session}
    (created : Session.create config levels predicates now = .ok session) (listeners : Nat) :
    (ofSession session listeners).Shows := by
  obtain ⟨_, stage, none, _⟩ := Session.create_fresh created
  refine ⟨Session.create_coherent created, ?_, ?_⟩
  · intro level here
    exact absurd (none.symm.trans here) (Option.some_ne_none level).symm
  · intro active
    rw [Session.isActive_iff] at active
    exact absurd (stage.symm.trans active) Stage.noConfusion

/-- In any run without a fault the clock of a session with a level is the number of its frame, and
every tile is what it was built as and looks as that number makes it look. An operation that opens no
level changes nothing of the level but its looks, and a landing on the next frame is judged by the
looks of this one. -/
theorem play_looks {lobby after : Lobby} {levels : LevelSet} {predicates : Predicates}
    {now : Number} {id : String} {session : Session}
    (created : lobby.create levels predicates now = (.ok (id, session), after)) (listeners : Nat)
    (ops : List Op) (sound : (ofSession session listeners).faultless ops = true) (g : Game)
    (here : g = (ofSession session listeners).play ops) :
    (∀ level, g.session.level = some level → g.session.Looks level) ∧
    (∀ op, op.works g = true → op.opens g = false →
      ∀ next, (g.perform op).session.level = some next →
        ∃ level, g.session.level = some level ∧ next = { level with board := next.board } ∧
          next.board.bare = level.board.bare) ∧
    (Op.tick.works g = true → ∀ place, .landed place ∈ g.emitted .tick → g.Lands place) := by
  obtain ⟨made, _, _⟩ := Lobby.create_ok created
  have shows : g.Shows := by
    rw [here]
    exact play_keeps_faultless (fun _ _ => perform_shows) (ofSession_shows made listeners) sound
  refine ⟨shows.looks, ?_, fun works _ => tick_lands shows works⟩
  intro op works misses next placed
  exact (perform_leaves works).level shows misses placed

/-- A step to the right on the first level of the campaign: after eleven ticks the next one lands. -/
theorem play_looks_step :
    let ops : List Op := .load 0 :: .push (.str "right") :: .replicate 11 .tick
    ∃ session after, ({} : Lobby).create Campaign.levelSet [] (.int 0) = (.ok ("s0", session), after) ∧
      (ofSession session 0).faultless ops = true ∧
      let g := (ofSession session 0).play ops
      (∃ level, g.session.level = some level ∧ g.session.Looks level) ∧ g.session.frame = 11 ∧
      g.Lands ⟨1, 0⟩ := by
  intro ops
  refine ⟨_, _, rfl, by decide +kernel, ?_⟩
  intro g
  obtain ⟨looks, _, lands⟩ :=
    @play_looks {} _ Campaign.levelSet [] (.int 0) "s0" _ rfl 0 ops (by decide +kernel) g rfl
  have placed : g.session.level.isSome = true := by decide +kernel
  obtain ⟨level, here⟩ := Option.isSome_iff_exists.mp placed
  have landings : (g.emitted .tick).filterMap Event.landing? = [⟨1, 0⟩] := by decide +kernel
  have listed : (⟨1, 0⟩ : Place) ∈ (g.emitted .tick).filterMap Event.landing? :=
    landings ▸ List.mem_cons_self ..
  obtain ⟨event, member, landing⟩ := List.mem_filterMap.mp listed
  rw [Event.eq_landed landing] at member
  exact ⟨⟨level, here, looks level here⟩, by decide +kernel, lands (by decide +kernel) _ member⟩

end Game
end TilePuzzle
