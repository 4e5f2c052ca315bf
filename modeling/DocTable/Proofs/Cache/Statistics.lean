import DocTable.Proofs.Cache.Queue
import Mathlib.Data.List.DropRight
/-!
# DocTable.Proofs.Cache.Statistics

The statistics of a cache account for its lookups.

A lookup is complete when it has an answer, and perhaps the result of a computation
(`Lookup.completion`). A run completes its lookups in the order of the events that end them
(`completions_eventsAll`), those inside of a computation before the one it is performed for. Each
event moves the counters by what it completes (`Accounts.apply`), so at every point of a run they
are the numbers of completed lookups since the cache was cleared (`statistics_count_lookups`).
-/

namespace DocTable.Cache

variable {κ α : Type}

/-! ### Completed lookups -/

/-- How a lookup has come to its end. -/
structure Completion (α : Type) where
  answer : Answer α
  /-- The result of its computation, if there was one. -/
  result : Option (Except Text α)

namespace Completion

/-- The lookup has returned a value. -/
def returned (d : Completion α) : Bool :=
  match d.answer with
  | .value _ => true
  | _ => false

/-- The computation of the lookup has come to a value. -/
def computed (d : Completion α) : Bool :=
  match d.result with
  | some (.ok _) => true
  | _ => false

end Completion

namespace Event

/-- The completion of the lookup that ends with an event. -/
def completion? : Event κ α → Option (Completion α)
  | hit _ value => some ⟨.value value, none⟩
  | store _ value => some ⟨.value value, some (.ok value)⟩
  | discard _ own stored => some ⟨.value stored, some (.ok own)⟩
  | fail _ message => some ⟨.failed message, some (.error message)⟩
  | start _ | ask _ | resize _ | refuse _ | clear => none

/-- Whether an event clears the cache. -/
def isClear : Event κ α → Bool
  | clear => true
  | _ => false

end Event

/-- The completions among events, in order. -/
def completions (es : List (Event κ α)) : List (Completion α) :=
  es.filterMap Event.completion?

/-- The events since the cache was last cleared. -/
def sinceClear (es : List (Event κ α)) : List (Event κ α) :=
  es.rtakeWhile fun e => !e.isClear

theorem completions_concat (es : List (Event κ α)) (e : Event κ α) :
    completions (es ++ [e]) = completions es ++ e.completion?.toList := by
  cases h : e.completion? <;> simp [completions, List.filterMap_append, h]

theorem sinceClear_concat (es : List (Event κ α)) (e : Event κ α) :
    sinceClear (es ++ [e]) = if e.isClear then [] else sinceClear es ++ [e] := by
  rw [sinceClear, List.rtakeWhile_concat]
  cases e.isClear <;> rfl

variable [DecidableEq κ]

/-! ### The lookups of a run -/

/-- A lookup, and the state in which it is performed. -/
structure Lookup (κ α : Type) where
  state : RunState κ α
  key : κ
  inner : List (Operation κ α)
  outcome : Except Text α

/-- The answer of a lookup, and the result of its computation if its key is missing. -/
def Lookup.completion (l : Lookup κ α) : Completion α where
  answer := (perform l.state (.get l.key l.inner l.outcome)).1
  result := if (l.state.cache.find? l.key).isSome then none else some l.outcome

mutual

/-- The lookups of an operation, in the order in which they end: those that a computation performs
come before the one it is performed for. -/
def lookups (s : RunState κ α) : Operation κ α → List (Lookup κ α)
  | .get key inner outcome =>
    match s.cache.find? key with
    | some _ => [⟨s, key, inner, outcome⟩]
    | none => lookupsAll (s.starting key) inner ++ [⟨s, key, inner, outcome⟩]
  | .has _ | .resize _ | .clear => []

/-- The lookups of operations that are performed one after another. -/
def lookupsAll (s : RunState κ α) : List (Operation κ α) → List (Lookup κ α)
  | [] => []
  | op :: rest => lookups s op ++ lookupsAll (perform s op).2 rest

end

section

variable {s : RunState κ α} {key : κ} {inner : List (Operation κ α)} {outcome : Except Text α}

theorem completion_hit {v : α} (h : s.cache.find? key = some v) :
    (⟨s, key, inner, outcome⟩ : Lookup κ α).completion = ⟨.value v, none⟩ := by
  rw [Lookup.completion, perform_hit h, h]
  rfl

/-- The event that ends a computation completes its lookup. -/
theorem completion?_ending (h : s.cache.find? key = none) :
    (ending (performAll (s.starting key) inner).cache key outcome).completion? =
      some (⟨s, key, inner, outcome⟩ : Lookup κ α).completion := by
  cases outcome with
  | error message =>
    rw [Lookup.completion, perform_fail h, h]
    rfl
  | ok own =>
    rw [Lookup.completion, perform_settle h, h, ending]
    cases hstored : (performAll (s.starting key) inner).cache.find? key with
    | none =>
      rw [settle_of_none hstored]
      rfl
    | some stored =>
      rw [settle_of_some hstored]
      rfl

end

-- By induction on the operations. The lookup itself is completed by the last of its events.
mutual

theorem completions_events : (s : RunState κ α) → (op : Operation κ α) →
    completions (events s op) = (lookups s op).map Lookup.completion
  | s, .get key inner outcome => by
    cases h : s.cache.find? key with
    | some v =>
      rw [events_hit h, lookups, h, List.map_singleton, completion_hit h]
      rfl
    | none =>
      rw [events_miss h, lookups, h, ← List.cons_append, completions_concat,
        completion?_ending h, List.map_append, ← completions_eventsAll (s.starting key) inner]
      rfl
  | s, .has key => by rw [events, lookups]; rfl
  | s, .resize raw => by
    rw [events, lookups]
    cases checkLimit raw with
    | none => rfl
    | some limit => rfl
  | s, .clear => by rw [events, lookups]; rfl

/-- The events of a run complete its lookups, each of them once. -/
theorem completions_eventsAll : (s : RunState κ α) → (ops : List (Operation κ α)) →
    completions (eventsAll s ops) = (lookupsAll s ops).map Lookup.completion
  | s, [] => rfl
  | s, op :: rest => by
    rw [eventsAll, lookupsAll, List.map_append, ← completions_events s op,
      ← completions_eventsAll (perform s op).2 rest]
    exact List.filterMap_append

end

/-! ### Counters -/

/-- What an event completes is what it adds to the counters, unless it clears the cache. It adds
an entry only if a computation has come to a value. -/
theorem Event.counters_apply {c : Cache κ α} {e : Event κ α} (he : e.Fits c)
    (hclear : e.isClear = false) :
    (e.apply c).hits + (e.apply c).misses =
        c.hits + c.misses + e.completion?.toList.countP Completion.returned ∧
      (e.apply c).misses = c.misses + e.completion?.toList.countP Completion.computed ∧
      (e.apply c).size ≤ c.size + e.completion?.toList.countP Completion.computed := by
  cases e with
  | clear => cases hclear
  | hit key value => exact ⟨Nat.succ_add c.hits c.misses, rfl, Nat.le_refl _⟩
  | store key value =>
    have hroom : c.roomForOne.length ≤ c.size := by
      rw [size, entries_eq_append_roomForOne c key value, List.length_append]
      exact Nat.le_add_left _ _
    rw [apply, settle_of_none he]
    refine ⟨rfl, rfl, ?_⟩
    rw [size, List.length_append]
    exact Nat.add_le_add_right hroom 1
  | discard key own stored =>
    rw [apply, settle_of_some he]
    exact ⟨rfl, rfl, Nat.le_add_right _ _⟩
  | resize limit =>
    cases limit with
    | none => exact ⟨rfl, rfl, Nat.le_refl _⟩
    | some n => exact ⟨rfl, rfl, (List.drop_suffix _ c.entries).length_le⟩
  | start | fail | ask | refuse => exact ⟨rfl, rfl, Nat.le_refl _⟩

/-- The counters of a cache are those of completed lookups, and there are no more entries than
computations that have come to a value. -/
structure Accounts (c : Cache κ α) (done : List (Completion α)) : Prop where
  returned : c.hits + c.misses = done.countP Completion.returned
  computed : c.misses = done.countP Completion.computed
  size_le : c.size ≤ c.misses

omit [DecidableEq κ] in
theorem accounts_empty (limit : Option Nat) : Accounts (empty limit : Cache κ α) [] :=
  ⟨rfl, rfl, Nat.le_refl 0⟩

/-- Every event that can happen to a cache leaves one that accounts for what has been completed
since it was cleared. -/
theorem Accounts.apply {c : Cache κ α} {es : List (Event κ α)}
    (h : Accounts c (completions (sinceClear es))) {e : Event κ α} (he : e.Fits c) :
    Accounts (e.apply c) (completions (sinceClear (es ++ [e]))) := by
  rw [sinceClear_concat]
  cases hclear : e.isClear with
  | true =>
    cases e with
    | clear => exact accounts_empty c.limit
    | _ => cases hclear
  | false =>
    obtain ⟨hreturned, hcomputed, hsize⟩ := e.counters_apply he hclear
    rw [if_neg Bool.false_ne_true, completions_concat]
    refine ⟨?_, ?_, ?_⟩
    · rw [hreturned, h.returned, List.countP_append]
    · rw [hcomputed, h.computed, List.countP_append]
    · rw [hcomputed]
      exact Nat.le_trans hsize (Nat.add_le_add_right h.size_le _)

theorem accounts_replay {limit : Option Nat} {es : List (Event κ α)}
    (hes : Course (empty limit) es) :
    Accounts (replay (empty limit) es) (completions (sinceClear es)) := by
  induction es using List.reverseRecOn with
  | nil => exact accounts_empty limit
  | append_singleton es e ih =>
    obtain ⟨hbefore, hlast⟩ := course_append.1 hes
    rw [replay_append]
    exact (ih hbefore).apply hlast.1

/-! ### Runs -/

/-- At every point of a run on a new cache, inside of computations too, hits and misses together are
the lookups that have returned since the cache was cleared, misses are the computations that have
come to a value since then, and the entries are no more than those. The lookups are those of the
run, each completed once. -/
theorem statistics_count_lookups (limit : Option Nat) (ops : List (Operation κ α)) :
    let run := eventsAll (.new limit) ops
    (∀ n : Nat,
      let c := replay (empty limit) (run.take n)
      let done := completions (sinceClear (run.take n))
      c.hits + c.misses = done.countP Completion.returned ∧
        c.misses = done.countP Completion.computed ∧ c.size ≤ c.misses) ∧
      completions run = (lookupsAll (.new limit) ops).map Lookup.completion ∧
      replay (empty limit) run = (performAll (.new limit) ops).cache := by
  intro run
  refine ⟨?_, completions_eventsAll _ ops, replay_eventsAll (.new limit) ops⟩
  intro n c done
  have hcourse : Course (empty limit) (run.take n ++ run.drop n) := by
    rw [List.take_append_drop]
    exact course_eventsAll (.new limit) ops
  have haccounts : Accounts c done := accounts_replay (course_append.1 hcourse).1
  exact ⟨haccounts.returned, haccounts.computed, haccounts.size_le⟩

/-- A computation that looks up another key and then clears the cache: only its own lookup, which
comes to an end after that, is counted. -/
example :
    let run := eventsAll (.new none) [.get 1 [.get 2 [] (.ok 20), .clear] (.ok 10)]
    let c := replay (empty none) run
    c.misses = 1 ∧ c.size = 1 ∧ (completions run).countP Completion.computed = 2 ∧
      (completions (sinceClear run)).countP Completion.computed = 1 := by
  decide

end DocTable.Cache
