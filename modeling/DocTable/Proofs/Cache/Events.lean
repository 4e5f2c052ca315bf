import DocTable.Cache.Run
/-!
# DocTable.Proofs.Cache.Events

What happens to a cache in the course of a run.

`events` tells a run as a list of events, those inside of computations included, so that the points
of a run are the places between its events. An event is one change of the cache (`Event.apply`),
and a run is the replay of its events (`replay_eventsAll`). Not every event can happen to every
cache: `Event.Fits` says when it can, and the events of a run fit one after another
(`fits_of_eventsAll`), which is what invariants are proved from.

Lookups stand at some depth of a run. `Performs` says of an operation that the run performs it, in
which state, and which events come before; its own events come next (`Performs.eventsAll_eq`).
-/

namespace DocTable.Cache

variable {κ α : Type} [DecidableEq κ]

/-! ### Events -/

/-- Something that happens to a cache. -/
inductive Event (κ α : Type) where
  /-- A lookup finds its key and answers the value. -/
  | hit (key : κ) (value : α)
  /-- A lookup misses its key, and its computation starts. -/
  | start (key : κ)
  /-- A computation fails, and its lookup with it. -/
  | fail (key : κ) (message : Text)
  /-- A computation comes to a value, which is stored and answered. -/
  | store (key : κ) (value : α)
  /-- A computation comes to a value of its own, but its key has been stored in the meantime: the
  stored value is answered. -/
  | discard (key : κ) (own stored : α)
  /-- Somebody asks whether a key is stored. -/
  | ask (key : κ)
  | resize (limit : Option Nat)
  /-- A bound is refused. -/
  | refuse (limit : Option Int)
  | clear

namespace Event

/-- The cache after an event. -/
def apply (c : Cache κ α) : Event κ α → Cache κ α
  | hit _ _ => c.hit
  | store key value => (c.settle key value).2
  | discard key own _ => (c.settle key own).2
  | resize limit => c.resize limit
  | clear => c.clear
  | start _ | fail _ _ | ask _ | refuse _ => c

/-- An event can happen to a cache. -/
def Fits (c : Cache κ α) : Event κ α → Prop
  | hit key value => c.find? key = some value
  | start key => c.find? key = none
  | store key _ => c.find? key = none
  | discard key _ stored => c.find? key = some stored
  | resize limit => ∃ raw, checkLimit raw = some limit
  | refuse raw => checkLimit raw = none
  | fail _ _ | ask _ | clear => True

end Event

/-- The cache after events. -/
def replay (c : Cache κ α) (es : List (Event κ α)) : Cache κ α :=
  es.foldl Event.apply c

@[simp] theorem replay_nil (c : Cache κ α) : replay c [] = c := rfl

@[simp] theorem replay_cons (c : Cache κ α) (e : Event κ α) (es : List (Event κ α)) :
    replay c (e :: es) = replay (e.apply c) es := rfl

@[simp] theorem replay_append (c : Cache κ α) (es fs : List (Event κ α)) :
    replay c (es ++ fs) = replay (replay c es) fs :=
  List.foldl_append

/-! ### The events of a run -/

/-- The beginning of a run on a new cache. -/
def RunState.new (limit : Option Nat) : RunState κ α := ⟨empty limit, []⟩

/-- The state in which the computation of a key starts. -/
def RunState.starting (s : RunState κ α) (key : κ) : RunState κ α :=
  { s with computed := s.computed ++ [key] }

/-- The event that ends a computation. -/
def ending (c : Cache κ α) (key : κ) : Except Text α → Event κ α
  | .error message => .fail key message
  | .ok own =>
    match c.find? key with
    | some stored => .discard key own stored
    | none => .store key own

mutual

/-- The events of an operation, in order. -/
def events (s : RunState κ α) : Operation κ α → List (Event κ α)
  | .get key inner outcome =>
    match s.cache.find? key with
    | some v => [.hit key v]
    | none =>
      .start key :: (eventsAll (s.starting key) inner ++
        [ending (performAll (s.starting key) inner).cache key outcome])
  | .has key => [.ask key]
  | .resize raw =>
    match checkLimit raw with
    | none => [.refuse raw]
    | some limit => [.resize limit]
  | .clear => [.clear]

/-- The events of operations that are performed one after another. -/
def eventsAll (s : RunState κ α) : List (Operation κ α) → List (Event κ α)
  | [] => []
  | op :: rest => events s op ++ eventsAll (perform s op).2 rest

end

/-! ### Lookups -/

variable {s : RunState κ α} {key : κ} {inner : List (Operation κ α)} {outcome : Except Text α}

theorem perform_hit {v : α} (h : s.cache.find? key = some v) :
    perform s (.get key inner outcome) = (.value v, { s with cache := s.cache.hit }) := by
  rw [perform, h]

theorem perform_fail (h : s.cache.find? key = none) (message : Text) :
    perform s (.get key inner (.error message)) =
      (.failed message, performAll (s.starting key) inner) := by
  rw [perform, h]
  rfl

theorem perform_settle (h : s.cache.find? key = none) (own : α) :
    perform s (.get key inner (.ok own)) =
      (.value ((performAll (s.starting key) inner).cache.settle key own).1,
        { performAll (s.starting key) inner with
          cache := ((performAll (s.starting key) inner).cache.settle key own).2 }) := by
  rw [perform, h]
  rfl

theorem settle_of_some {c : Cache κ α} {own stored : α} (h : c.find? key = some stored) :
    c.settle key own = (stored, { c with misses := c.misses + 1 }) := by
  rw [settle, h]

theorem settle_of_none {c : Cache κ α} {own : α} (h : c.find? key = none) :
    c.settle key own = (own,
      { c with misses := c.misses + 1, entries := c.roomForOne ++ [(key, own)] }) := by
  rw [settle, h]

theorem events_hit {v : α} (h : s.cache.find? key = some v) :
    events s (.get key inner outcome) = [.hit key v] := by
  rw [events, h]

theorem events_miss (h : s.cache.find? key = none) :
    events s (.get key inner outcome) =
      .start key :: (eventsAll (s.starting key) inner ++
        [ending (performAll (s.starting key) inner).cache key outcome]) := by
  rw [events, h]

/-- The event that ends a computation is the change that its lookup makes to the cache. -/
theorem apply_ending (h : s.cache.find? key = none) :
    (ending (performAll (s.starting key) inner).cache key outcome).apply
        (performAll (s.starting key) inner).cache =
      (perform s (.get key inner outcome)).2.cache := by
  cases outcome with
  | error message => rw [perform_fail h]; rfl
  | ok own =>
    rw [perform_settle h, ending]
    cases (performAll (s.starting key) inner).cache.find? key with
    | none => rfl
    | some stored => rfl

theorem fits_ending (c : Cache κ α) : (ending c key outcome).Fits c := by
  cases outcome with
  | error message => exact trivial
  | ok own =>
    rw [ending]
    cases h : c.find? key with
    | none => exact h
    | some stored => exact h

/-! ### A run is the replay of its events -/

mutual

theorem replay_events : (s : RunState κ α) → (op : Operation κ α) →
    replay s.cache (events s op) = (perform s op).2.cache
  | s, .get key inner outcome => by
    cases h : s.cache.find? key with
    | some v => rw [events_hit h, perform_hit h]; rfl
    | none =>
      have hinner : replay s.cache (eventsAll (s.starting key) inner) =
          (performAll (s.starting key) inner).cache := replay_eventsAll (s.starting key) inner
      rw [events_miss h, replay_cons, replay_append]
      simp only [Event.apply, hinner, replay_cons, replay_nil]
      exact apply_ending h
  | s, .has key => rfl
  | s, .resize raw => by
    rw [events, perform]
    cases checkLimit raw with
    | none => rfl
    | some limit => rfl
  | s, .clear => rfl

theorem replay_eventsAll : (s : RunState κ α) → (ops : List (Operation κ α)) →
    replay s.cache (eventsAll s ops) = (performAll s ops).cache
  | s, [] => rfl
  | s, op :: rest => by
    rw [eventsAll, replay_append, replay_events s op, performAll]
    exact replay_eventsAll (perform s op).2 rest

end

/-! ### The events of a run fit -/

/-- Events that fit one after another. -/
def Course (c : Cache κ α) : List (Event κ α) → Prop
  | [] => True
  | e :: es => e.Fits c ∧ Course (e.apply c) es

theorem course_append {c : Cache κ α} {es fs : List (Event κ α)} :
    Course c (es ++ fs) ↔ Course c es ∧ Course (replay c es) fs := by
  induction es generalizing c with
  | nil => simp [Course]
  | cons e es ih => simp [Course, ih, and_assoc]

mutual

theorem course_events : (s : RunState κ α) → (op : Operation κ α) → Course s.cache (events s op)
  | s, .get key inner outcome => by
    cases h : s.cache.find? key with
    | some v => rw [events_hit h]; exact ⟨h, trivial⟩
    | none =>
      rw [events_miss h]
      -- A computation that starts leaves the cache as it is.
      have hinner : Course s.cache (eventsAll (s.starting key) inner) :=
        course_eventsAll (s.starting key) inner
      have hreplay : replay s.cache (eventsAll (s.starting key) inner) =
          (performAll (s.starting key) inner).cache := replay_eventsAll (s.starting key) inner
      refine ⟨h, course_append.2 ⟨hinner, ?_⟩⟩
      change Course (replay s.cache (eventsAll (s.starting key) inner)) _
      rw [hreplay]
      exact ⟨fits_ending _, trivial⟩
  | s, .has key => ⟨trivial, trivial⟩
  | s, .resize raw => by
    rw [events]
    cases h : checkLimit raw with
    | none => exact ⟨h, trivial⟩
    | some limit => exact ⟨⟨raw, h⟩, trivial⟩
  | s, .clear => ⟨trivial, trivial⟩

theorem course_eventsAll : (s : RunState κ α) → (ops : List (Operation κ α)) →
    Course s.cache (eventsAll s ops)
  | s, [] => trivial
  | s, op :: rest => by
    rw [eventsAll, course_append, replay_events]
    exact ⟨course_events s op, course_eventsAll (perform s op).2 rest⟩

end

/-! ### Operations at any depth -/

/-- A run from a state performs an operation, itself or inside of a computation: the events before
it, the state in which it is performed, and the operation. -/
inductive Performs : RunState κ α → List (Operation κ α) → List (Event κ α) → RunState κ α →
    Operation κ α → Prop
  | first {s : RunState κ α} {op : Operation κ α} {rest : List (Operation κ α)} :
      Performs s (op :: rest) [] s op
  | later {s s' : RunState κ α} {op op' : Operation κ α} {rest : List (Operation κ α)}
      {before : List (Event κ α)} :
      Performs (perform s op).2 rest before s' op' →
      Performs s (op :: rest) (events s op ++ before) s' op'
  | inside {s s' : RunState κ α} {key : κ} {inner rest : List (Operation κ α)}
      {outcome : Except Text α} {before : List (Event κ α)} {op' : Operation κ α} :
      s.cache.find? key = none → Performs (s.starting key) inner before s' op' →
      Performs s (.get key inner outcome :: rest) (.start key :: before) s' op'

variable {s' : RunState κ α} {ops : List (Operation κ α)} {op' : Operation κ α}
  {before : List (Event κ α)}

/-- The events of an operation stand in the run behind the events before it. -/
theorem Performs.eventsAll_eq (h : Performs s ops before s' op') :
    ∃ after, eventsAll s ops = before ++ (events s' op' ++ after) := by
  induction h with
  | first => exact ⟨_, rfl⟩
  | later _ ih =>
    obtain ⟨after, hafter⟩ := ih
    exact ⟨after, by rw [eventsAll, hafter, List.append_assoc]⟩
  | inside hmiss _ ih =>
    obtain ⟨after, hafter⟩ := ih
    rw [eventsAll, events_miss hmiss, hafter]
    simp only [List.cons_append, List.append_assoc]
    exact ⟨_, rfl⟩

/-- An operation finds the cache that the events before it have left. -/
theorem Performs.cache_eq (h : Performs s ops before s' op') :
    s'.cache = replay s.cache before := by
  induction h with
  | first => rfl
  | later _ ih => rw [ih, replay_append, replay_events]
  | inside _ _ ih => exact ih

end DocTable.Cache
