import DocTable.Proofs.Result
import DocTable.Proofs.Session.Calls
/-!
# DocTable.Proofs.Session.Record

What a computation and the engine say to each other.

An `Exchange` is a call with the reply to it. `Follows m Q` says that `m`, wherever it starts and
whatever the engine does, comes to a result after exchanges that `Q` relates to it. The rules follow
the ways in which computations are put together: `bind` puts the exchanges of its parts one after
another, and a computation that fails has only those of its first part.
-/

namespace DocTable

/-- Whether a call hands a statement to the engine. -/
def Call.IsStatement : Call → Prop
  | .run .. | .runMany .. => True
  | .connect _ | .close => False

/-- A call, and what the engine replies to it. The reply to `close` is never looked at. -/
abbrev Exchange := Call × Reply

/-- The exchanges of calls that are made one after another, after others. -/
def exchanges (engine : Engine) : (history calls : List Call) → List Exchange
  | _, [] => []
  | history, c :: cs => (c, engine history c) :: exchanges engine (history ++ [c]) cs

theorem exchanges_append (engine : Engine) (history cs ds : List Call) :
    exchanges engine history (cs ++ ds) =
      exchanges engine history cs ++ exchanges engine (history ++ cs) ds := by
  induction cs generalizing history with
  | nil => simp [exchanges]
  | cons c cs ih => simp [exchanges, ih, List.append_assoc]

@[simp] theorem map_fst_exchanges (engine : Engine) (history cs : List Call) :
    (exchanges engine history cs).map Prod.fst = cs := by
  induction cs generalizing history with
  | nil => rfl
  | cons c cs ih => rw [exchanges, List.map_cons, ih]

/-- The first exchange is with the first call. -/
theorem exchanges_eq_cons {engine : Engine} {history calls : List Call} {x : Exchange}
    {xs : List Exchange} (h : exchanges engine history calls = x :: xs) :
    x.2 = engine history x.1 ∧ exchanges engine (history ++ [x.1]) (xs.map Prod.fst) = xs := by
  cases calls with
  | nil => cases h
  | cons c cs =>
    obtain ⟨rfl, rfl⟩ := List.cons.inj h
    rw [map_fst_exchanges]
    exact ⟨rfl, rfl⟩

theorem exchanges_eq_append {engine : Engine} {history calls : List Call}
    {xs ys : List Exchange} (h : exchanges engine history calls = xs ++ ys) :
    exchanges engine history (xs.map Prod.fst) = xs := by
  induction xs generalizing history calls with
  | nil => rfl
  | cons x xs ih =>
    obtain ⟨hx, hxs⟩ := exchanges_eq_cons h
    rw [List.map_cons, exchanges, ih hxs, ← hx]

/-- The exchanges behind others are those of the calls behind theirs. -/
theorem exchanges_of_append {engine : Engine} {history calls : List Call} {xs ys : List Exchange}
    (h : exchanges engine history calls = xs ++ ys) :
    exchanges engine (history ++ xs.map Prod.fst) (ys.map Prod.fst) = ys := by
  have hfront := exchanges_eq_append h
  have hcalls := map_fst_exchanges engine history calls
  rw [h, List.map_append] at hcalls
  rw [← hcalls, exchanges_append, hfront] at h
  exact List.append_cancel_left h

/-- Every reply is the engine's, after some of the calls. -/
theorem exists_of_mem_exchanges {engine : Engine} {history calls : List Call} {x : Exchange}
    (h : x ∈ exchanges engine history calls) : ∃ before, x.2 = engine before x.1 := by
  induction calls generalizing history with
  | nil => cases h
  | cons c cs ih =>
    rcases List.mem_cons.1 h with rfl | h
    · exact ⟨history, rfl⟩
    · exact ih h

namespace Session

/-- A session that has gone on with some calls, of the same engine. -/
structure Extends (s s' : Session) (made : List Call) : Prop where
  engine : s'.engine = s.engine
  version : s'.version = s.version
  calls : s'.calls = s.calls ++ made

theorem Extends.trans {s s' s'' : Session} {cs ds : List Call} (h : Extends s s' cs)
    (h' : Extends s' s'' ds) : Extends s s'' (cs ++ ds) where
  engine := h'.engine.trans h.engine
  version := h'.version.trans h.version
  calls := by rw [h'.calls, h.calls, List.append_assoc]

variable {ε ε' α β : Type}

/-- Wherever a computation starts with an engine of a version, its result and its exchanges are in a
relation. -/
def FollowsAt (v : Version) (m : ExceptT ε (StateM Session) α)
    (Q : Except ε α → List Exchange → Prop) : Prop :=
  ∀ s : Session, s.version = v → ∃ made, Extends s (m.run.run s).2 made ∧
    Q (m.run.run s).1 (exchanges s.engine s.calls made)

/-- Wherever a computation starts, its result and its exchanges are in a relation. -/
def Follows (m : ExceptT ε (StateM Session) α) (Q : Except ε α → List Exchange → Prop) : Prop :=
  ∀ s : Session, ∃ made, Extends s (m.run.run s).2 made ∧
    Q (m.run.run s).1 (exchanges s.engine s.calls made)

section

variable {v : Version} {m : ExceptT ε (StateM Session) α}
  {f : α → ExceptT ε (StateM Session) β}
  {P Q : Except ε α → List Exchange → Prop} {R : Except ε β → List Exchange → Prop}

/-! ### Rules -/

theorem Follows.at (h : Follows m Q) (v : Version) : FollowsAt v m Q := fun s _ => h s

theorem FollowsAt.mono (h : FollowsAt v m P) (himp : ∀ r xs, P r xs → Q r xs) :
    FollowsAt v m Q := by
  intro s hs
  obtain ⟨made, hext, hP⟩ := h s hs
  exact ⟨made, hext, himp _ _ hP⟩

theorem Follows.mono (h : Follows m P) (himp : ∀ r xs, P r xs → Q r xs) : Follows m Q := fun s =>
  (h.at s.version).mono himp s rfl

/-- A computation that leaves the engine alone. -/
theorem follows_silent (h : ∀ s, Extends s (m.run.run s).2 [] ∧ Q (m.run.run s).1 []) :
    Follows m Q := fun s => ⟨[], h s⟩

theorem follows_pure {a : α} (h : Q (.ok a) []) : Follows (pure a) Q :=
  follows_silent fun _ => ⟨⟨rfl, rfl, (List.append_nil _).symm⟩, h⟩

theorem follows_throw {e : ε} (h : Q (.error e) []) : Follows (throw e) Q :=
  follows_silent fun _ => ⟨⟨rfl, rfl, (List.append_nil _).symm⟩, h⟩

theorem FollowsAt.bind (hm : FollowsAt v m P)
    (hf : ∀ a xs, P (.ok a) xs → FollowsAt v (f a) fun r ys => R r (xs ++ ys))
    (hfail : ∀ e xs, P (.error e) xs → R (.error e) xs) : FollowsAt v (m >>= f) R := by
  intro s hs
  obtain ⟨made, hext, hP⟩ := hm s hs
  rw [run_bind]
  rcases hrun : m.run.run s with ⟨_ | a, s'⟩
  · rw [hrun] at hext hP
    exact ⟨made, hext, hfail _ _ hP⟩
  · rw [hrun] at hext hP
    obtain ⟨made', hext', hR⟩ := hf a _ hP s' (hext.version.trans hs)
    refine ⟨made ++ made', hext.trans hext', ?_⟩
    -- The second part talks to the same engine, which has heard the calls of the first one.
    rw [exchanges_append, ← hext.engine, ← hext.calls]
    rw [hext.engine] at hR ⊢
    exact hR

theorem Follows.bind (hm : Follows m P)
    (hf : ∀ a xs, P (.ok a) xs → Follows (f a) fun r ys => R r (xs ++ ys))
    (hfail : ∀ e xs, P (.error e) xs → R (.error e) xs) : Follows (m >>= f) R := fun s =>
  (hm.at s.version).bind (fun a xs h => (hf a xs h).at s.version) hfail s rfl

theorem followsAt_get {f : Session → ExceptT ε (StateM Session) β}
    (h : ∀ s : Session, s.version = v → FollowsAt v (f s) R) : FollowsAt v (get >>= f) R :=
  fun s hs => h s hs s hs

theorem follows_get {f : Session → ExceptT ε (StateM Session) β} (h : ∀ s, Follows (f s) R) :
    Follows (get >>= f) R := fun s => h s s

/-- Closing comes after everything else, and does not change the result. -/
theorem followsAt_closing
    (h : FollowsAt v m fun r xs => ∀ reply, Q r (xs ++ [(.close, reply)])) :
    FollowsAt v (closing m) Q := by
  intro s hs
  obtain ⟨made, hext, hQ⟩ := h s hs
  refine ⟨made ++ [.close], ⟨hext.engine, hext.version, ?_⟩, ?_⟩
  · rw [← List.append_assoc, ← hext.calls]
    rfl
  · rw [exchanges_append]
    exact hQ _

end

section

variable {m : SessionM α} {f : α → SessionM β}
  {Q : Except Error α → List Exchange → Prop} {R : Except Error β → List Exchange → Prop}

theorem follows_lift {r : Except Error α} (h : Q r []) : Follows (lift r) Q :=
  follows_silent fun _ => ⟨⟨rfl, rfl, (List.append_nil _).symm⟩, h⟩

/-- Writing to the log is no exchange. -/
theorem follows_logEntry {Q : Except Error Unit → List Exchange → Prop} (h : Q (.ok ()) [])
    (level : Level) (source : Source) (message : Text) :
    Follows (logEntry level source message) Q :=
  follows_silent fun _ => ⟨⟨rfl, rfl, (List.append_nil _).symm⟩, h⟩

theorem Follows.logged (h : Follows m Q) (level : Level) (source : Source) (message : Text) :
    Follows (logEntry level source message >>= fun _ => m) Q := by
  intro s
  obtain ⟨made, hext, hQ⟩ := h { s with log := s.log ++ [⟨level, source, message⟩] }
  exact ⟨made, ⟨hext.engine, hext.version, hext.calls⟩, hQ⟩

theorem follows_changed {f : Int → SessionM β} (h : ∀ n, Follows (f n) R) :
    Follows (changed >>= f) R := fun s => h s.changes s

/-! ### One call -/

/-- One call, and a result that is read from its rows. -/
def Asks (c : Call) (k : List Row → Except Error α) (r : Except Error α)
    (xs : List Exchange) : Prop :=
  (∃ rows changes, xs = [(c, .rows rows changes)] ∧ r = k rows) ∨
    ∃ e, xs = [(c, .fail e)] ∧ r = .error (.engine e)

theorem Asks.congr {c : Call} {k k' : List Row → Except Error α} {r : Except Error α}
    {xs : List Exchange} (h : Asks c k r xs) (hk : ∀ rows, k rows = k' rows) : Asks c k' r xs := by
  rwa [← funext hk]

theorem Asks.mem {c : Call} {k : List Row → Except Error α} {r : Except Error α}
    {xs : List Exchange} (h : Asks c k r xs) : ∃ reply, (c, reply) ∈ xs := by
  rcases h with ⟨rows, changes, rfl, -⟩ | ⟨e, rfl, -⟩
  · exact ⟨_, List.mem_singleton.2 rfl⟩
  · exact ⟨_, List.mem_singleton.2 rfl⟩

/-- A result is read from some rows. -/
theorem Asks.exists_rows {c : Call} {k : List Row → Except Error α} {a : α} {xs : List Exchange}
    (h : Asks c k (.ok a) xs) : ∃ rows, k rows = .ok a := by
  rcases h with ⟨rows, _, -, hr⟩ | ⟨_, -, hr⟩
  · exact ⟨rows, hr.symm⟩
  · cases hr

theorem follows_call (c : Call) : Follows (call c) (Asks c .ok) := by
  intro s
  rw [run_call]
  cases hreply : s.engine s.calls c with
  | fail e => exact ⟨[c], ⟨rfl, rfl, rfl⟩, .inr ⟨e, by rw [exchanges, hreply]; rfl, rfl⟩⟩
  | rows rows changes =>
    exact ⟨[c], ⟨rfl, rfl, rfl⟩, .inl ⟨rows, changes, by rw [exchanges, hreply]; rfl, rfl⟩⟩

/-- A reply with rows decides the result. -/
theorem Asks.of_reply {c : Call} {k : List Row → Except Error α} {r : Except Error α}
    {engine : Engine} {history made : List Call} {rows : List Row} {changes : Int}
    (h : Asks c k r (exchanges engine history made))
    (hreply : engine history c = .rows rows changes) : made = [c] ∧ r = k rows := by
  have hmade := map_fst_exchanges engine history made
  rcases h with ⟨rows', changes', hxs, hr⟩ | ⟨e, hxs, -⟩
  · rw [hxs] at hmade
    cases (exchanges_eq_cons hxs).1.trans hreply
    exact ⟨hmade.symm, hr⟩
  · cases (exchanges_eq_cons hxs).1.trans hreply

theorem Asks.bind {c : Call} {k : List Row → Except Error α} (g : α → Except Error β)
    {r : Except Error α} {xs : List Exchange} (h : Asks c k r xs) :
    Asks c (fun rows => k rows >>= g) (r >>= g) xs := by
  rcases h with ⟨rows, changes, rfl, rfl⟩ | ⟨e, rfl, rfl⟩
  · exact .inl ⟨rows, changes, rfl, rfl⟩
  · exact .inr ⟨e, rfl, rfl⟩

/-- What is done with the rows of a call needs no engine. -/
theorem Follows.asks_bind {c : Call} {k : List Row → Except Error α} (hm : Follows m (Asks c k))
    {g : α → Except Error β} (hf : ∀ a, Follows (f a) fun r xs => r = g a ∧ xs = []) :
    Follows (m >>= f) (Asks c fun rows => k rows >>= g) := by
  refine hm.bind (fun a xs h => (hf a).mono ?_) fun e xs h => h.bind g
  rintro r ys ⟨rfl, rfl⟩
  rw [List.append_nil]
  exact h.bind g

theorem Follows.asks_lift {c : Call} {k : List Row → Except Error α} (hm : Follows m (Asks c k))
    (g : α → Except Error β) :
    Follows (m >>= fun a => lift (g a)) (Asks c fun rows => k rows >>= g) :=
  hm.asks_bind fun _ => follows_lift ⟨rfl, rfl⟩

theorem Follows.asks_discard {c : Call} {k : List Row → Except Error α}
    (hm : Follows m (Asks c k)) : Follows (discard m) (Asks c fun rows => discard (k rows)) :=
  hm.asks_bind fun _ => follows_pure ⟨rfl, rfl⟩

/-- One call, and a result unless the engine fails. -/
def Tells (c : Call) (r : Except Error α) (xs : List Exchange) : Prop :=
  (∃ rows changes a, xs = [(c, .rows rows changes)] ∧ r = .ok a) ∨
    ∃ e, xs = [(c, .fail e)] ∧ r = .error (.engine e)

theorem Asks.tells {c : Call} {a : α} {r : Except Error α} {xs : List Exchange}
    (h : Asks c (fun _ => .ok a) r xs) : Tells c r xs := by
  rcases h with ⟨rows, changes, rfl, rfl⟩ | h
  · exact .inl ⟨rows, changes, a, rfl, rfl⟩
  · exact .inr h

theorem Tells.eq_of_mem {c : Call} {r : Except Error α} {xs : List Exchange} (h : Tells c r xs)
    {x : Exchange} (hx : x ∈ xs) : x.1 = c := by
  rcases h with ⟨rows, changes, _, rfl, -⟩ | ⟨e, rfl, -⟩
  · rw [List.mem_singleton.1 hx]
  · rw [List.mem_singleton.1 hx]

theorem Tells.of_ok {c : Call} {a : α} {xs : List Exchange} (h : Tells c (.ok a) xs) (b : β) :
    Tells c (.ok b) xs := by
  rcases h with ⟨rows, changes, _, rfl, -⟩ | ⟨e, -, h⟩
  · exact .inl ⟨rows, changes, b, rfl, rfl⟩
  · cases h

theorem Tells.of_error {c : Call} {e : Error} {xs : List Exchange}
    (h : Tells c (.error e : Except Error α) xs) : Tells c (.error e : Except Error β) xs := by
  rcases h with ⟨_, _, _, -, h⟩ | ⟨e', rfl, h⟩
  · cases h
  · cases h
    exact .inr ⟨e', rfl, rfl⟩

/-- What follows the call cannot fail and leaves the engine alone. -/
theorem Follows.tells_bind {c : Call} (hm : Follows m (Tells c))
    (hf : ∀ a, Follows (f a) fun r xs => xs = [] ∧ ∃ b, r = .ok b) :
    Follows (m >>= f) (Tells c) := by
  refine hm.bind (fun a xs h => (hf a).mono ?_) fun e xs h => h.of_error
  rintro r ys ⟨rfl, b, rfl⟩
  rw [List.append_nil]
  exact h.of_ok b

/-! ### Checks before calls -/

/-- A check that has to pass before there are any exchanges. -/
def Attempts (p : Except Error α) (R : α → Except Error β → List Exchange → Prop)
    (r : Except Error β) (xs : List Exchange) : Prop :=
  (∃ e, p = .error e ∧ r = .error e ∧ xs = []) ∨ ∃ a, p = .ok a ∧ R a r xs

theorem follows_attempts {p : Except Error α} {R : α → Except Error β → List Exchange → Prop}
    (h : ∀ a, p = .ok a → Follows (f a) (R a)) : Follows (lift p >>= f) (Attempts p R) := by
  cases p with
  | error e =>
    have hthrow : (lift (.error e) >>= f) = lift (.error e) := rfl
    rw [hthrow]
    exact follows_lift (.inl ⟨e, rfl, rfl, rfl⟩)
  | ok a => exact (h a rfl).mono fun r xs hR => .inr ⟨a, rfl, hR⟩

theorem Follows.of_attempts {p : Except Error β} {R : β → Except Error α → List Exchange → Prop}
    (hm : Follows m (Attempts p R)) {b : β} (hp : p = .ok b) : Follows m (R b) := by
  subst hp
  refine hm.mono fun r xs h => ?_
  rcases h with ⟨e, hp, -⟩ | ⟨a, hp, h⟩
  · cases hp
  · cases hp
    exact h

theorem Attempts.mono {p : Except Error α} {R R' : α → Except Error β → List Exchange → Prop}
    {r : Except Error β} {xs : List Exchange} (h : Attempts p R r xs)
    (hR : ∀ a, p = .ok a → R a r xs → R' a r xs) : Attempts p R' r xs :=
  h.imp_right fun ⟨a, hp, h⟩ => ⟨a, hp, hR a hp h⟩

/-- Where there are exchanges, the check has passed. -/
theorem Attempts.of_mem {p : Except Error α} {R : α → Except Error β → List Exchange → Prop}
    {r : Except Error β} {xs : List Exchange} (h : Attempts p R r xs) {x : Exchange}
    (hx : x ∈ xs) : ∃ a, p = .ok a ∧ R a r xs := by
  rcases h with ⟨e, -, -, rfl⟩ | h
  · cases hx
  · exact h

/-- Two computations that begin with one check fail alike, or both go on. -/
theorem Attempts.compare {γ : Type} {p : Except Error α}
    {R : α → Except Error β → List Exchange → Prop}
    {R' : α → Except Error γ → List Exchange → Prop} {r : Except Error β} {r' : Except Error γ}
    {xs xs' : List Exchange} (h : Attempts p R r xs) (h' : Attempts p R' r' xs') :
    (∃ e, r = .error e ∧ r' = .error e) ∨ ∃ a, p = .ok a ∧ R a r xs ∧ R' a r' xs' := by
  rcases h with ⟨e, he, hr, -⟩ | ⟨a, ha, h⟩
  · rcases h' with ⟨e', he', hr', -⟩ | ⟨a', ha', -⟩
    · cases he.symm.trans he'
      exact .inl ⟨e, hr, hr'⟩
    · cases he.symm.trans ha'
  · rcases h' with ⟨e', he', -⟩ | ⟨a', ha', h'⟩
    · cases ha.symm.trans he'
    · cases ha.symm.trans ha'
      exact .inr ⟨a, ha, h, h'⟩

theorem Attempts.asks_bind {γ : Type} {p : Except Error γ} {c : γ → Call}
    {k : γ → List Row → Except Error α} (g : α → Except Error β) {r : Except Error α}
    {xs : List Exchange} (h : Attempts p (fun a => Asks (c a) (k a)) r xs) :
    Attempts p (fun a => Asks (c a) fun rows => k a rows >>= g) (r >>= g) xs := by
  rcases h with ⟨e, hp, rfl, rfl⟩ | ⟨a, hp, h⟩
  · exact .inl ⟨e, hp, rfl, rfl⟩
  · exact .inr ⟨a, hp, h.bind g⟩

theorem Follows.attempts_asks_bind {γ : Type} {p : Except Error γ} {c : γ → Call}
    {k : γ → List Row → Except Error α} (hm : Follows m (Attempts p fun a => Asks (c a) (k a)))
    {g : α → Except Error β} (hf : ∀ a, Follows (f a) fun r xs => r = g a ∧ xs = []) :
    Follows (m >>= f) (Attempts p fun a => Asks (c a) fun rows => k a rows >>= g) := by
  refine hm.bind (fun a xs h => (hf a).mono ?_) fun e xs h => h.asks_bind g
  rintro r ys ⟨rfl, rfl⟩
  rw [List.append_nil]
  exact h.asks_bind g

/-- At most one statement, whose failure is that of the computation. -/
def Once (r : Except Error α) (xs : List Exchange) : Prop :=
  xs = [] ∨ ∃ c, c.IsStatement ∧ Tells c r xs

theorem Tells.once {c : Call} {r : Except Error α} {xs : List Exchange} (h : Tells c r xs)
    (hc : c.IsStatement) : Once r xs :=
  .inr ⟨c, hc, h⟩

theorem Attempts.once {γ : Type} {p : Except Error γ}
    {R : γ → Except Error α → List Exchange → Prop}
    {r : Except Error α} {xs : List Exchange} (h : Attempts p R r xs)
    (hR : ∀ a, R a r xs → Once r xs) : Once r xs := by
  rcases h with ⟨e, -, -, hxs⟩ | ⟨a, -, h⟩
  · exact .inl hxs
  · exact hR a h

end

/-! ### Several calls -/

/-- A call, and what has to hold of its rows before anything else is done. -/
structure Demand where
  call : Call
  accepts : List Row → Except Error Unit

/-- Calls one after another, up to the first one that fails or whose rows are not accepted. -/
inductive Dialogue : List Demand → Except Error Unit → List Exchange → Prop
  | done : Dialogue [] (.ok ()) []
  | step {d : Demand} {ds : List Demand} {r : Except Error Unit} {xs : List Exchange}
    (rows : List Row) (changes : Int) : d.accepts rows = .ok () → Dialogue ds r xs →
      Dialogue (d :: ds) r ((d.call, .rows rows changes) :: xs)
  | refused {d : Demand} {ds : List Demand} {e : Error} (rows : List Row) (changes : Int) :
    d.accepts rows = .error e → Dialogue (d :: ds) (.error e) [(d.call, .rows rows changes)]
  | failed {d : Demand} {ds : List Demand} (e : EngineError) :
    Dialogue (d :: ds) (.error (.engine e)) [(d.call, .fail e)]

namespace Dialogue

variable {ds : List Demand} {r : Except Error Unit} {xs : List Exchange}

/-- No call is made that is not demanded. -/
theorem mem_calls (h : Dialogue ds r xs) {x : Exchange} (hx : x ∈ xs) :
    x.1 ∈ ds.map Demand.call := by
  induction h with
  | done => cases hx
  | step _ _ _ _ ih =>
    rcases List.mem_cons.1 hx with rfl | hx
    · exact List.mem_cons_self
    · exact List.mem_cons_of_mem _ (ih hx)
  | refused | failed =>
    rw [List.mem_singleton.1 hx]
    exact List.mem_cons_self

/-- A dialogue that comes to its end makes all calls that are demanded. -/
theorem calls_of_ok (h : Dialogue ds (.ok ()) xs) : xs.map Prod.fst = ds.map Demand.call := by
  induction ds generalizing xs with
  | nil =>
    cases h
    rfl
  | cons d ds ih =>
    cases h with
    | step rows changes _ hrest => rw [List.map_cons, List.map_cons, ih hrest]

theorem accepted_of_ok (h : Dialogue ds (.ok ()) xs) :
    ∀ d ∈ ds, ∃ rows, d.accepts rows = .ok () := by
  induction ds generalizing xs with
  | nil => exact List.forall_mem_nil _
  | cons d ds ih =>
    cases h with
    | step rows changes hrows hrest => exact List.forall_mem_cons.2 ⟨⟨rows, hrows⟩, ih hrest⟩

/-- A dialogue ends early with the engine, or with rows that are not accepted. -/
theorem cause_of_error {e : Error} (h : Dialogue ds (.error e) xs) :
    (∃ cause, e = .engine cause) ∨ ∃ d ∈ ds, ∃ rows, d.accepts rows = .error e := by
  induction ds generalizing xs with
  | nil => cases h
  | cons d ds ih =>
    cases h with
    | step rows changes hrows hrest =>
      refine (ih hrest).imp_right ?_
      rintro ⟨d', hd', hcause⟩
      exact ⟨d', List.mem_cons_of_mem _ hd', hcause⟩
    | refused rows changes hrows => exact .inr ⟨d, List.mem_cons_self, rows, hrows⟩
    | failed cause => exact .inl ⟨cause, rfl⟩

theorem append_ok {es : List Demand} {ys : List Exchange} (h : Dialogue ds (.ok ()) xs)
    (h' : Dialogue es r ys) : Dialogue (ds ++ es) r (xs ++ ys) := by
  induction ds generalizing xs with
  | nil =>
    cases h
    exact h'
  | cons d ds ih =>
    cases h with
    | step rows changes hrows hrest => exact .step rows changes hrows (ih hrest)

/-- A dialogue that fails is not continued. -/
theorem append_error {e : Error} (h : Dialogue ds (.error e) xs) (es : List Demand) :
    Dialogue (ds ++ es) (.error e) xs := by
  induction ds generalizing xs with
  | nil => cases h
  | cons d ds ih =>
    cases h with
    | step rows changes hrows hrest => exact .step rows changes hrows (ih hrest)
    | refused rows changes hrows => exact .refused rows changes hrows
    | failed e => exact .failed e

end Dialogue

/-- The first call of a dialogue, and then the others. -/
theorem Follows.dialogue_cons {m : SessionM α} {f : α → SessionM Unit} {c : Call}
    {k : List Row → Except Error α} (hm : Follows m (Asks c k)) {ds : List Demand}
    (hf : ∀ a rows, k rows = .ok a → Follows (f a) (Dialogue ds)) :
    Follows (m >>= f) (Dialogue (⟨c, fun rows => discard (k rows)⟩ :: ds)) := by
  refine hm.bind (fun a xs h => ?_) fun e xs h => ?_
  · rcases h with ⟨rows, changes, rfl, hk⟩ | ⟨e, -, h⟩
    · refine (hf a rows hk.symm).mono fun r ys hd => .step rows changes ?_ hd
      show discard (k rows) = .ok ()
      rw [← hk]
      rfl
    · cases h
  · rcases h with ⟨rows, changes, rfl, hk⟩ | ⟨e', rfl, h⟩
    · refine .refused rows changes ?_
      show discard (k rows) = .error e
      rw [← hk]
      rfl
    · cases h
      exact .failed e'

/-- A check between the first call of a dialogue and the others. -/
theorem Follows.dialogue_checked {γ : Type} {m : SessionM α} {p : Except Error γ}
    {f : γ → SessionM Unit} {c : Call} {k : List Row → Except Error α} (hm : Follows m (Asks c k))
    {ds : List Demand} (hf : ∀ a, p = .ok a → Follows (f a) (Dialogue ds)) :
    Follows (m >>= fun _ => lift p >>= f)
      (Dialogue (⟨c, fun rows => k rows >>= fun _ => discard p⟩ :: ds)) := by
  have hnext : ∀ a rows, (k rows >>= fun _ => p) = .ok a → Follows (f a) (Dialogue ds) := by
    intro a rows h
    obtain ⟨_, -, hp⟩ := bind_eq_ok_iff.1 h
    exact hf a hp
  have hchecked := (hm.asks_lift fun _ => p).dialogue_cons hnext
  rw [bind_assoc] at hchecked
  have hdiscard : ∀ rows, discard (k rows >>= fun _ => p) = k rows >>= fun _ => discard p := by
    intro rows
    cases k rows with
    | error e => rfl
    | ok a => rfl
  simpa only [hdiscard] using hchecked

/-- A call for each member of a list, and a value that is read from its rows, up to the first call
that fails or whose rows hold no value. -/
inductive Collects {γ : Type} (c : γ → Call) (k : γ → List Row → Except Error α) :
    List γ → Except Error (List α) → List Exchange → Prop
  | done : Collects c k [] (.ok []) []
  | next {g : γ} {gs : List γ} {a : α} {r : Except Error (List α)} {xs : List Exchange}
    (rows : List Row) (changes : Int) : k g rows = .ok a → Collects c k gs r xs →
      Collects c k (g :: gs) ((a :: ·) <$> r) ((c g, .rows rows changes) :: xs)
  | refused {g : γ} {gs : List γ} {e : Error} (rows : List Row) (changes : Int) :
    k g rows = .error e → Collects c k (g :: gs) (.error e) [(c g, .rows rows changes)]
  | failed {g : γ} {gs : List γ} (e : EngineError) :
    Collects c k (g :: gs) (.error (.engine e)) [(c g, .fail e)]

theorem follows_collects {γ : Type} {f : γ → SessionM α} {c : γ → Call}
    {k : γ → List Row → Except Error α} (hf : ∀ g, Follows (f g) (Asks (c g) (k g)))
    (gs : List γ) : Follows (gs.mapM f) (Collects c k gs) := by
  induction gs with
  | nil => exact follows_pure .done
  | cons g gs ih =>
    rw [List.mapM_cons]
    refine (hf g).bind (fun a xs h => ?_) fun e xs h => ?_
    · rcases h with ⟨rows, changes, rfl, ha⟩ | ⟨e, -, ha⟩
      · refine ih.bind (fun as ys h => follows_pure ?_) fun e ys h => ?_
        · rw [List.append_nil]
          exact .next rows changes ha.symm h
        · exact .next rows changes ha.symm h
      · cases ha
    · rcases h with ⟨rows, changes, rfl, he⟩ | ⟨cause, rfl, he⟩
      · exact .refused rows changes he.symm
      · cases he
        exact .failed cause

namespace Collects

variable {γ : Type} {c : γ → Call} {gs : List γ} {r : Except Error (List α)} {xs : List Exchange}

/-- The calls are made in order, and none of them is left out. -/
theorem calls_prefix {k : γ → List Row → Except Error α} (h : Collects c k gs r xs) :
    xs.map Prod.fst <+: gs.map c := by
  induction h with
  | done => exact List.prefix_rfl
  | next rows changes _ _ ih => exact List.cons_prefix_cons.2 ⟨rfl, ih⟩
  | refused rows changes _ => exact List.cons_prefix_cons.2 ⟨rfl, List.nil_prefix⟩
  | failed e => exact List.cons_prefix_cons.2 ⟨rfl, List.nil_prefix⟩

/-- Where values are collected, all calls have been made. -/
theorem calls_of_ok {k : γ → List Row → Except Error α} {as : List α}
    (h : Collects c k gs (.ok as) xs) : xs.map Prod.fst = gs.map c := by
  induction gs generalizing as xs with
  | nil =>
    cases h
    rfl
  | cons g gs ih =>
    generalize hr : (Except.ok as : Except Error (List α)) = r at h
    cases h with
    | @next _ _ _ r' _ rows changes _ hrest =>
      cases r' with
      | error e => cases hr
      | ok rest => rw [List.map_cons, List.map_cons, ih hrest]
    | refused | failed => cases hr

/-- Where the rows do not matter, only the engine can fail. -/
theorem dialogue {v : γ → α} (h : Collects c (fun g _ => .ok (v g)) gs r xs) :
    ∃ done, Dialogue (gs.map fun g => ⟨c g, fun _ => .ok ()⟩) done xs ∧
      r = done.map fun _ => gs.map v := by
  induction h with
  | done => exact ⟨.ok (), .done, rfl⟩
  | next rows changes ha _ ih =>
    obtain ⟨done, hdone, rfl⟩ := ih
    cases ha
    refine ⟨done, .step rows changes rfl hdone, ?_⟩
    cases done with
    | error e => rfl
    | ok u => rfl
  | refused rows changes he => cases he
  | failed e => exact ⟨_, .failed e, rfl⟩

end Collects

/-- A call for each member of a list; the rows do not matter. -/
theorem follows_mapM_asks {γ : Type} {f : γ → SessionM α} {c : γ → Call} {g : γ → α}
    (hf : ∀ a, Follows (f a) (Asks (c a) fun _ => .ok (g a))) (as : List γ) :
    Follows (as.mapM f) fun r xs =>
      ∃ done, Dialogue (as.map fun a => ⟨c a, fun _ => .ok ()⟩) done xs ∧
        r = done.map fun _ => as.map g :=
  (follows_collects hf as).mono fun _ _ h => h.dialogue

/-! ### Computations that make only some calls -/

/-- All calls of a computation are of one sort. -/
def Only (P : Call → Prop) (m : ExceptT ε (StateM Session) α) : Prop :=
  Follows m fun _ xs => ∀ x ∈ xs, P x.1

section

variable {P : Call → Prop}

theorem only_pure (a : α) : Only P (pure a : ExceptT ε (StateM Session) α) :=
  follows_pure nofun

theorem only_lift (r : Except Error α) : Only P (lift r) :=
  follows_lift nofun

theorem Only.bind {m : ExceptT ε (StateM Session) α} {f : α → ExceptT ε (StateM Session) β}
    (hm : Only P m) (hf : ∀ a, Only P (f a)) : Only P (m >>= f) := by
  refine Follows.bind hm (fun a xs hxs => (hf a).mono fun r ys hys => ?_) fun e xs hxs => hxs
  intro x hx
  rcases List.mem_append.1 hx with hx | hx
  · exact hxs x hx
  · exact hys x hx

theorem only_mapM {f : α → ExceptT ε (StateM Session) β} (hf : ∀ a, Only P (f a)) (as : List α) :
    Only P (as.mapM f) := by
  induction as with
  | nil => exact only_pure []
  | cons a as ih =>
    rw [List.mapM_cons]
    exact (hf a).bind fun _ => ih.bind fun _ => only_pure _

theorem Asks.only {c : Call} {k : List Row → Except Error α} {r : Except Error α}
    {xs : List Exchange} (h : Asks c k r xs) (hc : P c) : ∀ x ∈ xs, P x.1 := by
  rcases h with ⟨rows, changes, rfl, -⟩ | ⟨e, rfl, -⟩
  · exact List.forall_mem_singleton.2 hc
  · exact List.forall_mem_singleton.2 hc

theorem Attempts.only {p : Except Error β} {c : β → Call} {k : β → List Row → Except Error α}
    {r : Except Error α} {xs : List Exchange} (h : Attempts p (fun b => Asks (c b) (k b)) r xs)
    (hc : ∀ b, p = .ok b → P (c b)) : ∀ x ∈ xs, P x.1 := by
  rcases h with ⟨e, -, -, rfl⟩ | ⟨b, hp, h⟩
  · nofun
  · exact h.only (hc b hp)

theorem Follows.only_of_asks {m : SessionM α} {c : Call} {k : List Row → Except Error α}
    (hm : Follows m (Asks c k)) (hc : P c) : Only P m :=
  hm.mono fun _ _ h => h.only hc

end

end Session

end DocTable
