import TilePuzzle.Proofs.Registry

/-! Sessions do not interfere. A request about one session is decided by what is kept under its id,
and a request about something else leaves that alone; so however the requests are mixed, a session
answers, and ends up, as if nothing else had been asked. -/
namespace TilePuzzle

namespace Service

def Request.about (a : String) : Request → Bool
  | call id _ | finish id | drop id => id = a
  | create .. | list | review _ => false

def answersTo (a : String) (s : Service) : List Request → List (Except Failure Reply)
  | [] => []
  | r :: rest => if r.about a then (s.serve r).1 :: answersTo a (s.serve r).2 rest
    else answersTo a (s.serve r).2 rest

section step
variable {s t : Service} {a : String} {r : Request}

/-- What is asked about another session, or about none, changes nothing of this one. -/
theorem serve_other (given : ∃ n < s.lobby.issued, a = Lobby.idOf n) (other : r.about a = false) :
    (s.serve r).2.kept a = s.kept a := by
  cases r with
  | call id c =>
    have apart : ¬a = id := fun same => of_decide_eq_false other same.symm
    rcases s.call_leaves id c with stays | ⟨g, ops, _, moves⟩
    · exact congrArg (kept · a) stays
    · exact (moves.kept a).trans (if_neg apart)
  | create r time =>
    rcases s.create_kept a r (.float time) with same | ⟨new, _⟩
    · exact same
    · obtain ⟨n, less, old⟩ := given
      have := Lobby.idOf_injective (old.symm.trans new)
      omega
  | finish id =>
    have apart : ¬a = id := fun same => of_decide_eq_false other same.symm
    exact (s.finish_kept id a).trans (if_neg apart)
  | drop id =>
    have apart : ¬a = id := fun same => of_decide_eq_false other same.symm
    refine (s.drop_kept id a).trans ?_
    rw [if_neg apart]
  | list | review => rfl

/-- What is asked about a session is answered alike wherever the same is kept under its id, and leaves
the same there. -/
theorem serve_same (same : s.kept a = t.kept a) (about : r.about a = true) :
    (s.serve r).1 = (t.serve r).1 ∧ (s.serve r).2.kept a = (t.serve r).2.kept a := by
  have ended : (.ok (.finished (s.finish a).1) : Except Failure Reply) =
      .ok (.finished (t.finish a).1) := by
    rw [finish_found, finish_found, same]
  cases r with
  | call id c =>
    cases of_decide_eq_true about
    change (s.call a c).1 = (t.call a c).1 ∧ (s.call a c).2.kept a = (t.call a c).2.kept a
    obtain ⟨move, decides⟩ := call_decides a c
    cases playing : t.game? a with
    | none =>
      rw [decides.missing s ((kept_game same).trans playing), decides.missing t playing]
      exact ⟨rfl, same⟩
    | some g =>
      have here := (kept_game same).trans playing
      refine ⟨(decides.answer s g here).trans (decides.answer t g playing).symm, ?_⟩
      rw [(decides.moves s g here).kept, (decides.moves t g playing).kept, if_pos rfl, if_pos rfl]
  | finish id =>
    cases of_decide_eq_true about
    refine ⟨ended, ?_⟩
    change (s.finish a).2.kept a = (t.finish a).2.kept a
    rw [finish_kept, finish_kept, same]
  | drop id =>
    cases of_decide_eq_true about
    refine ⟨ended, ?_⟩
    change Service.kept { s with lobby := _ } a = Service.kept { t with lobby := _ } a
    rw [drop_kept, drop_kept, same]
  | create | list | review => contradiction

end step

theorem serve_given {s : Service} (issued : s.Issued) {a : String}
    (given : ∃ n < s.lobby.issued, a = Lobby.idOf n) (r : Request) :
    (s.serve r).2.Issued ∧ ∃ n < (s.serve r).2.lobby.issued, a = Lobby.idOf n := by
  rcases serve_performs r with stays | ⟨op, performs⟩
  · rw [stays]
    exact ⟨issued, given⟩
  · rw [performs]
    obtain ⟨n, less, same⟩ := given
    exact ⟨perform_issued issued op, n, Nat.lt_of_lt_of_le less (perform_issued_le issued op), same⟩

/-- Two services that keep the same under an id, of which one is asked everything and the other only
what is about that session. -/
theorem answersTo_only {s t : Service} (issued : s.Issued) {a : String}
    (given : ∃ n < s.lobby.issued, a = Lobby.idOf n) (same : s.kept a = t.kept a)
    (requests : List Request) :
    s.answersTo a requests = t.answersTo a (requests.filter (·.about a)) ∧
    (s.serveAll requests).kept a = (t.serveAll (requests.filter (·.about a))).kept a := by
  induction requests generalizing s t with
  | nil => exact ⟨rfl, same⟩
  | cons r rest ih =>
    obtain ⟨later, still⟩ := serve_given issued given r
    by_cases about : r.about a = true
    · obtain ⟨answer, kept⟩ := serve_same same about
      obtain ⟨answers, ends⟩ := ih later still kept
      rw [List.filter_cons_of_pos about]
      simp only [answersTo, about, if_true, answer, answers, true_and]
      exact ends
    · have other := Bool.eq_false_iff.mpr about
      obtain ⟨answers, ends⟩ := ih later still ((serve_other given other).trans same)
      rw [List.filter_cons_of_neg about]
      simp only [answersTo, other, Bool.false_eq_true, if_false]
      exact ⟨answers, ends⟩

/-- Whatever was done to a service before, and whatever is then asked of it: a session that is listed
answers the requests about it as if nothing else had been asked, and what is kept of it in the end is
the same, be it that other sessions are played, opened or ended in between. -/
theorem session_isolated (config : Config) (folder : Option (FileReader × String))
    (predicates : Predicates) (ops : List Op) (s : Service)
    (here : s = (started config folder predicates).performAll ops) (a : String) (live : a ∈ s.ids)
    (requests : List Request) :
    s.answersTo a requests = s.answersTo a (requests.filter (·.about a)) ∧
    (s.serveAll requests).kept a = (s.serveAll (requests.filter (·.about a))).kept a := by
  have issued : s.Issued := here ▸ performAll_issued config folder predicates ops
  exact answersTo_only issued (issued.sessions a live) rfl requests

/-- Another session is played in between and ended by its lobby, and a third one is opened. -/
theorem session_isolated_ended :
    let levels : Option (List Fields) := some [[]]
    let s := (started {} none []).performAll [.create { levels } 0, .create { levels } 0]
    let requests : List Request := [.call "s0" (.input ⟨"right"⟩), .call "s1" (.tick {}),
      .call "s0" (.tick { count := 2 }), .drop "s1", .create { levels } 0, .call "s0" .get]
    "s0" ∈ s.ids ∧
    (s.serveAll requests).ids = ["s0", "s2"] ∧
    ((s.serveAll requests).game? "s0").map (·.session.frame) = some 2 ∧
    s.answersTo "s0" requests = s.answersTo "s0" (requests.filter (·.about "s0")) ∧
    (s.serveAll requests).kept "s0" = (s.serveAll (requests.filter (·.about "s0"))).kept "s0" := by
  intro levels s requests
  have live : "s0" ∈ s.ids := by decide +kernel
  exact ⟨live, by decide +kernel, by decide +kernel,
    session_isolated {} none [] _ s rfl "s0" live requests⟩

end Service
end TilePuzzle
