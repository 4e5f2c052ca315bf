import DocTable.Proofs.Cache.Queue
/-!
# DocTable.Proofs.Cache.FirstValue

The first value of a key stays.

A value that a lookup answers is stored when it answers (`find?_perform`), and nothing takes it away
but events that take entries out (`Keeps`, `find?_replay`). So all lookups agree on one value as
long as its entry is there, at whatever depth of a run they stand (`first_value_stays`): those that
start later find it, and those that have started before discard their own.
-/

namespace DocTable.Cache

variable {κ α : Type} [DecidableEq κ]

/-! ### Entries that stay -/

/-- No event takes the entry of a key out. -/
def Keeps (key : κ) (c : Cache κ α) : List (Event κ α) → Prop
  | [] => True
  | e :: es => key ∉ (e.evicted c).map (·.1) ∧ Keeps key (e.apply c) es

theorem find?_append {c : Cache κ α} {front kept : List (κ × α)} (h : c.entries = front ++ kept)
    {key : κ} (hkey : key ∉ front.map (·.1)) :
    c.find? key = (kept.find? fun e => e.1 = key).map (·.2) := by
  have hfront : front.find? (fun e => e.1 = key) = none := by
    refine List.find?_eq_none.2 fun e he => ?_
    have hne : e.1 ≠ key := fun heq => hkey (heq ▸ List.mem_map_of_mem he)
    simpa using hne
  rw [find?, h, List.find?_append, hfront, Option.none_or]

/-- An event that does not take the entry of a key out leaves its value. -/
theorem find?_apply {c : Cache κ α} {e : Event κ α} (he : e.Fits c) {key : κ}
    (hkey : key ∉ (e.evicted c).map (·.1)) {v : α} (hv : c.find? key = some v) :
    (e.apply c).find? key = some v := by
  obtain ⟨kept, hentries, happly⟩ := Event.entries_apply he
  rw [find?_append hentries hkey] at hv
  obtain ⟨entry, hentry, rfl⟩ := Option.map_eq_some_iff.1 hv
  rw [find?, happly, List.find?_append, hentry]
  rfl

theorem find?_replay {c : Cache κ α} {es : List (Event κ α)} (hes : Course c es) {key : κ}
    (hkeeps : Keeps key c es) {v : α} (hv : c.find? key = some v) :
    (replay c es).find? key = some v := by
  induction es generalizing c with
  | nil => exact hv
  | cons e es ih => exact ih hes.2 hkeeps.2 (find?_apply hes.1 hkeeps.1 hv)

/-! ### Values that are answered -/

/-- A value that has been settled on is stored. -/
theorem find?_settle (c : Cache κ α) (key : κ) (own : α) :
    (c.settle key own).2.find? key = some (c.settle key own).1 := by
  cases h : c.find? key with
  | some stored =>
    rw [settle_of_some h]
    exact h
  | none =>
    rw [settle_of_none h]
    have hroom : key ∉ c.roomForOne.map (·.1) := by
      intro hmem
      obtain ⟨e, he, rfl⟩ := List.mem_map.1 hmem
      exact find?_eq_none_iff.1 h (List.mem_map_of_mem (mem_of_mem_roomForOne he))
    rw [find?_append rfl hroom]
    simp

variable {s : RunState κ α} {key : κ} {inner : List (Operation κ α)} {outcome : Except Text α}

/-- A lookup that answers a value leaves a cache that holds it. -/
theorem find?_perform {v : α} (h : (perform s (.get key inner outcome)).1 = .value v) :
    (perform s (.get key inner outcome)).2.cache.find? key = some v := by
  cases hfind : s.cache.find? key with
  | some stored =>
    rw [perform_hit hfind] at h ⊢
    cases h
    exact hfind
  | none =>
    cases outcome with
    | error message =>
      rw [perform_fail hfind] at h
      cases h
    | ok own =>
      rw [perform_settle hfind] at h ⊢
      have hvalue := Answer.value.inj h
      rw [← hvalue]
      exact find?_settle _ key own

/-! ### Runs -/

variable {ops : List (Operation κ α)} {before : List (Event κ α)} {s₀ : RunState κ α}

/-- What happens between two operations of a run fits the cache that the first one leaves. -/
theorem Performs.course_between {s' : RunState κ α} {op op' : Operation κ α}
    {between : List (Event κ α)} (h : Performs s₀ ops before s op)
    (h' : Performs s₀ ops (before ++ events s op ++ between) s' op') :
    Course (perform s op).2.cache between ∧ s'.cache = replay (perform s op).2.cache between := by
  have hended : (perform s op).2.cache = replay s₀.cache (before ++ events s op) := by
    rw [replay_append, ← h.cache_eq, replay_events]
  obtain ⟨after, hafter⟩ := h'.eventsAll_eq
  have hcourse : Course s₀.cache (before ++ events s op ++ between ++ (events s' op' ++ after)) :=
    hafter ▸ course_eventsAll s₀ ops
  obtain ⟨hfront, -⟩ := course_append.1 hcourse
  rw [hended]
  exact ⟨(course_append.1 hfront).2, by rw [h'.cache_eq, replay_append]⟩

/-- The first value of a key stays. For every lookup that a run performs, at any depth:

* if it answers a value, the cache holds that value then, and every lookup of the key that starts
  later answers it at once, unless the entry has been taken out in between;
* if its computation comes to a value, that value is the answer, unless the key has been stored in
  the meantime: then the stored value is the answer, and the cache counts the computation and is
  otherwise left alone;
* if its computation fails, so does the lookup, and the state is the one that the operations of the
  computation have left. -/
theorem first_value_stays (h : Performs s₀ ops before s (.get key inner outcome)) :
    (∀ v, (perform s (.get key inner outcome)).1 = .value v →
      (perform s (.get key inner outcome)).2.cache.find? key = some v ∧
      ∀ between s' inner' outcome',
        Performs s₀ ops (before ++ events s (.get key inner outcome) ++ between) s'
          (.get key inner' outcome') →
        Keeps key (perform s (.get key inner outcome)).2.cache between →
        perform s' (.get key inner' outcome') = (.value v, { s' with cache := s'.cache.hit })) ∧
    (s.cache.find? key = none →
      let run := performAll (s.starting key) inner
      (∀ own, outcome = .ok own →
        (run.cache.find? key = none → (perform s (.get key inner outcome)).1 = .value own) ∧
        ∀ stored, run.cache.find? key = some stored →
          perform s (.get key inner outcome) =
            (.value stored,
              { run with cache := { run.cache with misses := run.cache.misses + 1 } })) ∧
      ∀ message, outcome = .error message →
        perform s (.get key inner outcome) = (.failed message, run)) := by
  refine ⟨fun v hv => ⟨find?_perform hv, ?_⟩, fun hmiss => ⟨?_, ?_⟩⟩
  · intro between s' inner' outcome' hlater hkeeps
    obtain ⟨hcourse, hcache⟩ := h.course_between hlater
    have hfind : s'.cache.find? key = some v := by
      rw [hcache]
      exact find?_replay hcourse hkeeps (find?_perform hv)
    exact perform_hit hfind
  · intro own hok
    subst hok
    rw [perform_settle hmiss]
    refine ⟨?_, ?_⟩
    · intro hnone
      rw [settle_of_none hnone]
    · intro stored hstored
      rw [settle_of_some hstored]
  · intro message herror
    subst herror
    exact perform_fail hmiss message

/-- The computation of a key looks the same key up: the inner value is the answer of both, and of
the next lookup. -/
theorem first_value_stays_inside :
    let s : RunState Nat Nat := .new (some 1)
    let inner : List (Operation Nat Nat) := [.get 1 [] (.ok 10)]
    let outer : Operation Nat Nat := .get 1 inner (.ok 11)
    let ended := (perform s outer).2
    Performs s [outer, .get 1 [] (.ok 12)] [] s outer ∧
      (perform s outer).1 = .value 10 ∧ ended.cache.find? 1 = some 10 ∧
      perform ended (.get 1 [] (.ok 12)) =
        (.value 10, { ended with cache := ended.cache.hit }) := by
  intro s inner outer ended
  have houter : Performs s [outer, .get 1 [] (.ok 12)] [] s outer := .first
  have hnext : Performs s [outer, .get 1 [] (.ok 12)] (events s outer ++ []) ended
      (.get 1 [] (.ok 12)) := .later .first
  obtain ⟨hheld, hlater⟩ := (first_value_stays houter).1 10 rfl
  exact ⟨houter, rfl, hheld, hlater [] ended [] (.ok 12) hnext trivial⟩

end DocTable.Cache
