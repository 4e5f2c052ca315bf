import DocTable.Engine.Rules
import DocTable.Proofs.Console.Footprint
/-!
# DocTable.Proofs.Console.Closing

Which databases are closed again.

A database is open as soon as the engine has answered the call that opens it, but opening it goes on
with statements that set it up. If they can all be written and the engine answers them as well, the
database is closed once, after everything else; if not, it is never closed (`closed_iff_accepts`).
-/

namespace DocTable

namespace Session

/-! ### Dialogues and engines -/

/-- An engine answers calls one after another with rows that are accepted. -/
def Accepts (engine : Engine) : (history : List Call) → List Demand → Prop
  | _, [] => True
  | history, d :: ds =>
    (∃ rows changes, engine history d.call = .rows rows changes ∧ d.accepts rows = .ok ()) ∧
      Accepts engine (history ++ [d.call]) ds

variable {engine : Engine} {history calls : List Call} {xs : List Exchange}

namespace Dialogue

variable {ds : List Demand} {r : Except Error Unit}

/-- A dialogue with an engine comes to its end if and only if the engine answers as is demanded. -/
theorem accepts_iff (h : Dialogue ds r (exchanges engine history calls)) :
    r = .ok () ↔ Accepts engine history ds := by
  generalize hxs : exchanges engine history calls = xs at h
  induction h generalizing history calls with
  | done => exact iff_of_true rfl trivial
  | step rows changes hrows _ ih =>
    obtain ⟨hreply, hrest⟩ := exchanges_eq_cons hxs
    rw [Accepts, ih hrest]
    exact (and_iff_right ⟨rows, changes, hreply.symm, hrows⟩).symm
  | refused rows changes hrows =>
    obtain ⟨hreply, -⟩ := exchanges_eq_cons hxs
    refine iff_of_false nofun ?_
    rintro ⟨⟨rows', changes', hrows', hok⟩, -⟩
    cases hreply.trans hrows'
    cases hrows.symm.trans hok
  | failed e =>
    obtain ⟨hreply, -⟩ := exchanges_eq_cons hxs
    refine iff_of_false nofun ?_
    rintro ⟨⟨rows', changes', hrows', -⟩, -⟩
    cases hreply.trans hrows'

/-- The first call of a dialogue is made, and then others that are demanded. -/
theorem exists_cons {d : Demand} (h : Dialogue (d :: ds) r xs) :
    ∃ reply ys, xs = (d.call, reply) :: ys ∧ ∀ y ∈ ys, y.1 ∈ ds.map Demand.call := by
  cases h with
  | step rows changes _ hrest => exact ⟨_, _, rfl, fun y hy => hrest.mem_calls hy⟩
  | refused rows changes _ => exact ⟨_, [], rfl, nofun⟩
  | failed e => exact ⟨_, [], rfl, nofun⟩

end Dialogue

/-- The calls that open a database: one that opens it, and then statements. -/
theorem exists_connect {path : Text} {config : Config} {setMode : Bool} {r : Except Error Unit}
    (h : Dialogue (opening path config setMode) r xs) :
    ∃ others, xs.map Prod.fst = .connect path :: others ∧ ∀ c ∈ others, c.IsStatement := by
  obtain ⟨reply, ys, rfl, hys⟩ := h.exists_cons
  refine ⟨ys.map Prod.fst, rfl, fun c hc => ?_⟩
  obtain ⟨y, hy, rfl⟩ := List.mem_map.1 hc
  have hmem := hys y hy
  rw [List.map_append, List.mem_append] at hmem
  rcases hmem with hmem | hmem
  · split at hmem
    · rw [List.mem_singleton.1 hmem]
      trivial
    · cases hmem
  · rw [List.mem_singleton.1 hmem]
    trivial

end Session

namespace Console

open Session

namespace Invocation

variable {i : Invocation} {s : Surroundings} {v : Version} {config : Config}
  {r : Except Failure (List Text)} {xs : List Exchange}

/-- Between opening and closing the database, statements are run. -/
theorem Does.statements (h : i.Does s v config r xs) : ∀ x ∈ xs, x.1.IsStatement := by
  unfold Does at h
  split at h
  · exact fun x hx => (h x hx).1
  · obtain ⟨front, back, rfl, hfront, hback⟩ := h.split
    refine List.forall_mem_append.2 ⟨fun x hx => (hfront x hx).1, ?_⟩
    rcases hback with rfl | ⟨t, -, hback⟩
    · nofun
    · exact statements_performs hback

/-- The engine answers the calls that open the database, and all of them can be written. -/
def AcceptsOpening (i : Invocation) (engine : Engine) (config : Config) : Prop :=
  Accepts engine [] (opening i.database config i.setsMode)

end Invocation

/-- **Opening and closing.** Whatever a command line asks for and whatever the engine does: if the
engine has opened a database, that was the first call. If the statements that set the database up
could be written and it has answered them, too, all others are statements but for the last one,
which closes the database; if not, the database is never closed. -/
theorem closed_iff_accepts (i : Invocation) (s : Surroundings) (engine : Engine)
    (version : Version) (ids : Nat → Text) :
    let calls := ((Request.run i).perform s (Session.start engine version ids)).session.calls
    (∃ path rows changes, (Call.connect path, Reply.rows rows changes) ∈
      exchanges engine [] calls) →
    ∃ config others, i.config s = .ok config ∧ calls = .connect i.database :: others ∧
      ((i.AcceptsOpening engine config ∧
          ∃ body, others = body ++ [.close] ∧ ∀ c ∈ body, c.IsStatement) ∨
        (¬ i.AcceptsOpening engine config ∧ ∀ c ∈ others, c.IsStatement)) := by
  intro calls hopened
  obtain ⟨r, hruns, -, -⟩ := exists_runs i s engine version ids
  have hcalls := map_fst_exchanges engine [] calls
  generalize hxs : exchanges engine [] calls = xs at hruns hopened hcalls
  cases hruns with
  | unopened hopen =>
    cases hopen with
    | missing | unset =>
      obtain ⟨_, _, _, hmem⟩ := hopened
      cases hmem
    | failed hconfig hd =>
      obtain ⟨others, hothers, hstatements⟩ := exists_connect hd
      refine ⟨_, others, hconfig, hcalls.symm.trans hothers, .inr ⟨fun haccepts => ?_, hstatements⟩⟩
      rw [← hxs] at hd
      cases hd.accepts_iff.2 haccepts
  | opened hopen hdoes =>
    cases hopen with
    | opened hconfig hd =>
      obtain ⟨others, hothers, hstatements⟩ := exists_connect hd
      rw [List.map_append, List.map_append, hothers] at hcalls
      refine ⟨_, _, hconfig, hcalls.symm, .inl ⟨?_, _, rfl, ?_⟩⟩
      · rw [List.append_assoc] at hxs
        rw [← exchanges_eq_append hxs] at hd
        exact hd.accepts_iff.1 rfl
      · refine List.forall_mem_append.2 ⟨hstatements, fun c hc => ?_⟩
        obtain ⟨x, hx, rfl⟩ := List.mem_map.1 hc
        exact hdoes.statements x hx

/-- A search that fails leaves no database open. -/
theorem closed_iff_accepts_find :
    let s : Surroundings := ⟨[("d.db".toList, [])], []⟩
    let query : Query := ⟨none, [], [], none, none, false, none⟩
    let i : Invocation := ⟨"d.db".toList, none, .plain, false, .find "t".toList query⟩
    let engine : Engine := Rules.engine
      [ ⟨"SELECT name".toList, .rows [[.text "t".toList]] 0⟩,
        ⟨"select json".toList, .fail ⟨"OperationalError".toList, "no such column".toList⟩⟩ ]
    let calls := ((Request.run i).perform s
      (Session.start engine [3, 45, 1] fun _ => [])).session.calls
    (Call.connect "d.db".toList, Reply.rows [] 0) ∈ exchanges engine [] calls ∧
      ∃ body, calls = .connect "d.db".toList :: (body ++ [.close]) ∧
        ∀ c ∈ body, c.IsStatement := by
  intro s query i engine calls
  have hfirst : calls = .connect "d.db".toList :: calls.tail := by decide +kernel
  have hopened : (Call.connect "d.db".toList, Reply.rows [] 0) ∈ exchanges engine [] calls := by
    rw [hfirst]
    exact List.mem_cons_self
  obtain ⟨config, others, hconfig, hcalls, hclosed⟩ :=
    closed_iff_accepts i s engine [3, 45, 1] (fun _ => []) ⟨_, _, _, hopened⟩
  have hdefault : i.config s = .ok Config.default := rfl
  cases hdefault.symm.trans hconfig
  have haccepts : i.AcceptsOpening engine Config.default :=
    ⟨⟨_, _, rfl, rfl⟩, ⟨_, _, rfl, rfl⟩, ⟨_, _, rfl, rfl⟩, trivial⟩
  rcases hclosed with ⟨-, body, rfl, hbody⟩ | ⟨hrefused, -⟩
  · exact ⟨hopened, body, hcalls, hbody⟩
  · exact absurd haccepts hrefused

/-- An engine that opens a database but does not take the time to wait for locks. -/
theorem never_closed_busy_timeout :
    let s : Surroundings := ⟨[("d.db".toList, [])], []⟩
    let i : Invocation := ⟨"d.db".toList, none, .plain, false, .listIndexes "t".toList⟩
    let engine : Engine := Rules.engine
      [⟨"PRAGMA busy_timeout".toList,
        .fail ⟨"OperationalError".toList, "database is locked".toList⟩⟩]
    let calls := ((Request.run i).perform s
      (Session.start engine [3, 45, 1] fun _ => [])).session.calls
    (Call.connect "d.db".toList, Reply.rows [] 0) ∈ exchanges engine [] calls ∧
      .close ∉ calls := by
  intro s i engine calls
  have hfirst : calls = .connect "d.db".toList :: calls.tail := by decide +kernel
  constructor
  · rw [hfirst]
    exact List.mem_cons_self
  · decide +kernel

end Console

end DocTable
