import DocTable.Proofs.Cache.Events
/-!
# DocTable.Proofs.Cache.Queue

A cache is a queue: first in, first out.

What an event does to the entries of a cache is one law (`Event.entries_apply`): it takes entries
out at the old end (`Event.evicted`) and may add one at the new end (`Event.added`). So at every
point of a run the entries are the last ones that have been stored since the cache was cleared, with
different keys and within the bound (`IsQueue`, `fifo_queue`).
-/

namespace DocTable.Cache

variable {κ α : Type}

/-! ### Bounds -/

theorem checkLimit_eq_none_iff {raw : Option Int} :
    checkLimit raw = none ↔ ∃ n < 1, raw = some n := by
  cases raw with
  | none => simp [checkLimit]
  | some n => simp [checkLimit]

/-- Accepted bounds leave room for an entry. -/
theorem pos_of_checkLimit {raw : Option Int} {n : Nat} (h : checkLimit raw = some (some n)) :
    0 < n := by
  cases raw with
  | none => simp [checkLimit] at h
  | some m =>
    simp only [checkLimit] at h
    split at h
    · simp at h
    · simp only [Option.some.injEq] at h
      omega

/-! ### What an event takes out and what it adds -/

namespace Event

/-- The entries that an event takes out of a cache: all of them, those that exceed a new bound, or
the oldest one of a full cache. -/
def evicted (c : Cache κ α) : Event κ α → List (κ × α)
  | clear => c.entries
  | resize (some n) => c.entries.take (c.size - n)
  | store _ _ =>
    match c.limit with
    | some n => if n ≤ c.size then c.entries.take 1 else []
    | none => []
  | _ => []

/-- The entry that an event adds to a cache. -/
def added : Event κ α → List (κ × α)
  | store key value => [(key, value)]
  | _ => []

end Event

/-- The oldest entry is the one that makes room. -/
theorem entries_eq_append_roomForOne (c : Cache κ α) (key : κ) (value : α) :
    c.entries = (Event.store key value).evicted c ++ c.roomForOne := by
  unfold Event.evicted roomForOne size
  cases c.limit with
  | none => rfl
  | some n =>
    dsimp only
    split
    · exact (List.take_append_drop 1 c.entries).symm
    · rfl

section

variable [DecidableEq κ]

/-- An event takes entries out at the old end of a cache and adds one at the new end. -/
theorem Event.entries_apply {c : Cache κ α} {e : Event κ α} (h : e.Fits c) :
    ∃ kept, c.entries = e.evicted c ++ kept ∧ (e.apply c).entries = kept ++ e.added := by
  cases e with
  | hit | start | fail | ask | refuse => exact ⟨c.entries, rfl, (List.append_nil _).symm⟩
  | store key value =>
    refine ⟨c.roomForOne, entries_eq_append_roomForOne c key value, ?_⟩
    rw [apply, settle_of_none h]
    rfl
  | discard key own stored =>
    refine ⟨c.entries, rfl, ?_⟩
    rw [apply, settle_of_some h]
    exact (List.append_nil _).symm
  | resize limit =>
    cases limit with
    | none => exact ⟨c.entries, rfl, (List.append_nil _).symm⟩
    | some n =>
      refine ⟨c.entries.drop (c.size - n), (List.take_append_drop _ _).symm, ?_⟩
      exact (List.append_nil _).symm
  | clear => exact ⟨[], (List.append_nil _).symm, rfl⟩

end

/-! ### Queues -/

/-- The entries that are on record after an event, if some were before: those that have been stored
since the cache was last cleared. -/
def Event.record (log : List (κ × α)) : Event κ α → List (κ × α)
  | clear => []
  | store key value => log ++ [(key, value)]
  | _ => log

/-- The entries that have been stored since the cache was last cleared, in order. -/
def stored (es : List (Event κ α)) : List (κ × α) :=
  es.foldl Event.record []

/-- A cache holds the last entries of a record, with different keys and within its bound. -/
structure IsQueue (c : Cache κ α) (log : List (κ × α)) : Prop where
  recent : c.entries <:+ log
  distinct : (c.entries.map (·.1)).Nodup
  bounded : ∀ n, c.limit = some n → 0 < n ∧ c.size ≤ n

theorem isQueue_empty {raw : Option Int} {limit : Option Nat} (h : checkLimit raw = some limit) :
    IsQueue (empty limit : Cache κ α) [] where
  recent := List.suffix_refl _
  distinct := List.nodup_nil
  bounded n hn := by
    have hlimit : limit = some n := hn
    subst hlimit
    exact ⟨pos_of_checkLimit h, Nat.zero_le n⟩

/-- A cache that keeps some of its newest entries and its bound is still a queue. -/
theorem IsQueue.of_suffix {c c' : Cache κ α} {log : List (κ × α)} (h : IsQueue c log)
    (hentries : c'.entries <:+ c.entries) (hlimit : c'.limit = c.limit) : IsQueue c' log where
  recent := hentries.trans h.recent
  distinct := h.distinct.sublist (hentries.sublist.map _)
  bounded n hn := by
    obtain ⟨hpos, hsize⟩ := h.bounded n (hlimit ▸ hn)
    exact ⟨hpos, Nat.le_trans hentries.length_le hsize⟩

variable [DecidableEq κ]

theorem find?_eq_none_iff {c : Cache κ α} {key : κ} :
    c.find? key = none ↔ key ∉ c.entries.map (·.1) := by
  constructor
  · intro h hmem
    obtain ⟨e, he, hkey⟩ := List.mem_map.1 hmem
    have hnone : c.entries.find? (fun e => e.1 = key) = none := Option.map_eq_none_iff.1 h
    exact absurd hkey (by simpa using List.find?_eq_none.1 hnone e he)
  · intro h
    refine Option.map_eq_none_iff.2 (List.find?_eq_none.2 ?_)
    intro e he
    have hkey : e.1 ≠ key := fun heq => h (heq ▸ List.mem_map_of_mem he)
    simpa using hkey

/-- A queue stays one when an entry with a new key is stored. -/
theorem IsQueue.store {c : Cache κ α} {log : List (κ × α)} (h : IsQueue c log) {key : κ}
    (hkey : c.find? key = none) (value : α) :
    IsQueue ((Event.store key value).apply c) (log ++ [(key, value)]) := by
  have happly : (Event.store key value).apply c =
      { c with misses := c.misses + 1, entries := c.roomForOne ++ [(key, value)] } := by
    rw [Event.apply, settle_of_none hkey]
  have hroom : c.roomForOne <:+ c.entries := ⟨_, (entries_eq_append_roomForOne c key value).symm⟩
  rw [happly]
  refine ⟨?_, ?_, ?_⟩
  · obtain ⟨front, hfront⟩ := hroom.trans h.recent
    exact ⟨front, by rw [← hfront, List.append_assoc]⟩
  · have hfresh : key ∉ c.roomForOne.map (·.1) := fun hmem =>
      find?_eq_none_iff.1 hkey ((hroom.sublist.map _).subset hmem)
    have hold : (c.roomForOne.map (·.1)).Nodup := h.distinct.sublist (hroom.sublist.map _)
    rw [List.map_append, List.map_singleton, List.nodup_append]
    refine ⟨hold, by simp, ?_⟩
    intro a ha b hb hab
    have hb' : b = key := List.mem_singleton.1 hb
    subst hab
    exact hfresh (hb' ▸ ha)
  · intro n hn
    obtain ⟨hpos, hsize⟩ := h.bounded n hn
    refine ⟨hpos, ?_⟩
    -- A full cache has lost its oldest entry, and its bound is not zero.
    have hn' : c.limit = some n := hn
    simp only [size, roomForOne, hn'] at hsize ⊢
    split <;> simp <;> omega

/-- Every event that can happen to a queue leaves a queue. -/
theorem IsQueue.apply {c : Cache κ α} {log : List (κ × α)} (h : IsQueue c log) {e : Event κ α}
    (he : e.Fits c) : IsQueue (e.apply c) (e.record log) := by
  cases e with
  | hit => exact h.of_suffix (List.suffix_refl _) rfl
  | start | fail | ask | refuse => exact h
  | store key value => exact h.store he value
  | discard key own stored =>
    have happly : (Event.discard key own stored).apply c = { c with misses := c.misses + 1 } := by
      rw [Event.apply, settle_of_some he]
    rw [happly]
    exact h.of_suffix (List.suffix_refl _) rfl
  | resize limit =>
    obtain ⟨raw, hraw⟩ := he
    cases limit with
    | none => exact ⟨h.recent, h.distinct, nofun⟩
    | some n =>
      have hdrop : (c.resize (some n)).entries <:+ c.entries := List.drop_suffix _ _
      refine ⟨hdrop.trans h.recent, h.distinct.sublist (hdrop.sublist.map _), ?_⟩
      intro m hm
      have hm' : n = m := Option.some.inj hm
      subst hm'
      refine ⟨pos_of_checkLimit hraw, ?_⟩
      simp only [Event.apply, resize, size, List.length_drop]
      omega
  | clear =>
    refine ⟨List.suffix_refl _, List.nodup_nil, ?_⟩
    intro n hn
    exact ⟨(h.bounded n hn).1, Nat.zero_le n⟩

theorem IsQueue.replay {c : Cache κ α} {log : List (κ × α)} (h : IsQueue c log)
    {es : List (Event κ α)} (hes : Course c es) :
    IsQueue (replay c es) (es.foldl Event.record log) := by
  induction es generalizing c log with
  | nil => exact h
  | cons e es ih => exact ih (h.apply hes.1) hes.2

/-! ### Entries that are lost -/

/-- What an event may do to a cache that is a queue. -/
structure Event.Orderly (c : Cache κ α) (e : Event κ α) : Prop where
  /-- Entries are lost when the cache is cleared, when it gets a bound below its size, or when it
  is full and another entry is stored. -/
  lost : ∀ x ∈ c.entries, x ∉ (e.apply c).entries →
    e = .clear ∨ (∃ n < c.size, e = .resize (some n)) ∨
      c.limit = some c.size ∧ ∃ key value, e = .store key value
  /-- A full cache that stores another entry loses exactly the oldest one. -/
  oldest : ∀ key value, e = .store key value → c.limit = some c.size →
    ∃ x kept, c.entries = x :: kept ∧ (e.apply c).entries = kept ++ [(key, value)]
  /-- A cache that is not full keeps all entries when it stores another one. -/
  newest : ∀ key value, e = .store key value → c.limit ≠ some c.size →
    (e.apply c).entries = c.entries ++ [(key, value)]
  /-- A bound is refused if it is below one, and nothing changes. -/
  refused : ∀ raw, e = .refuse raw → (∃ n < 1, raw = some n) ∧ e.apply c = c

theorem mem_evicted {c : Cache κ α} {e : Event κ α} (he : e.Fits c) {x : κ × α}
    (hx : x ∈ c.entries) (hlost : x ∉ (e.apply c).entries) : x ∈ e.evicted c := by
  obtain ⟨kept, hentries, happly⟩ := Event.entries_apply he
  rw [hentries] at hx
  rcases List.mem_append.1 hx with hx | hx
  · exact hx
  · rw [happly] at hlost
    exact absurd (List.mem_append_left _ hx) hlost

theorem IsQueue.orderly {c : Cache κ α} {log : List (κ × α)} (h : IsQueue c log) {e : Event κ α}
    (he : e.Fits c) : e.Orderly c where
  lost x hx hlost := by
    have hmem := mem_evicted he hx hlost
    cases e with
    | hit | start | fail | discard | ask | refuse => exact absurd hmem List.not_mem_nil
    | clear => exact .inl rfl
    | resize limit =>
      cases limit with
      | none => exact absurd hmem List.not_mem_nil
      | some n =>
        refine .inr (.inl ⟨n, Nat.lt_of_not_le fun hn => ?_, rfl⟩)
        rw [Event.evicted, Nat.sub_eq_zero_of_le hn] at hmem
        exact absurd hmem List.not_mem_nil
    | store key value =>
      refine .inr (.inr ⟨?_, key, value, rfl⟩)
      rw [Event.evicted] at hmem
      cases hlimit : c.limit with
      | none =>
        rw [hlimit] at hmem
        exact absurd hmem List.not_mem_nil
      | some n =>
        have hsize := (h.bounded n hlimit).2
        simp only [hlimit] at hmem
        split at hmem
        · next hfull => rw [Nat.le_antisymm hfull hsize]
        · exact absurd hmem List.not_mem_nil
  oldest key value hevent hfull := by
    subst hevent
    have hpos := (h.bounded _ hfull).1
    obtain ⟨x, kept, hentries⟩ := List.exists_cons_of_length_pos hpos
    refine ⟨x, kept, hentries, ?_⟩
    have hroom : c.roomForOne = kept := by
      simp only [roomForOne, hfull, size]
      rw [if_pos (Nat.le_refl _), hentries]
      rfl
    rw [Event.apply, settle_of_none he, hroom]
  newest key value hevent hfree := by
    subst hevent
    have hroom : c.roomForOne = c.entries := by
      unfold roomForOne
      cases hlimit : c.limit with
      | none => rfl
      | some n =>
        have hsize := (h.bounded n hlimit).2
        refine if_neg fun hfull => hfree ?_
        rw [hlimit, Nat.le_antisymm hsize hfull]
    rw [Event.apply, settle_of_none he, hroom]
  refused raw hevent := by
    subst hevent
    exact ⟨checkLimit_eq_none_iff.1 he, rfl⟩

/-! ### Runs -/

/-- At every point of a run on a new cache, inside of computations too, the entries are the last
ones that have been stored since the cache was cleared, with different keys and within the bound,
and what happens next loses no entry but by clearing, by a lower bound, or to make room. An entry
that is stored comes last, behind all the others if the cache is not full. -/
theorem fifo_queue {raw : Option Int} {limit : Option Nat} (hlimit : checkLimit raw = some limit)
    (ops : List (Operation κ α)) {before after : List (Event κ α)}
    (hrun : eventsAll (.new limit) ops = before ++ after) :
    IsQueue (replay (empty limit) before) (stored before) ∧
      (∀ e ∈ after.head?, e.Orderly (replay (empty limit) before)) ∧
      (after = [] → replay (empty limit) before = (performAll (.new limit) ops).cache) ∧
      ∀ (s : RunState κ α) (n : Int), n < 1 → perform s (.resize (some n)) = (.badLimit, s) := by
  have hcourse : Course (empty limit) (before ++ after) := hrun ▸ course_eventsAll (.new limit) ops
  obtain ⟨hbefore, hafter⟩ := course_append.1 hcourse
  have hqueue : IsQueue (replay (empty limit) before) (stored before) :=
    (isQueue_empty hlimit).replay hbefore
  refine ⟨hqueue, ?_, ?_, ?_⟩
  · intro e he
    cases after with
    | nil => simp at he
    | cons e' after =>
      have hfirst : e' = e := by simpa using he
      subst hfirst
      exact hqueue.orderly hafter.1
  · intro hend
    rw [hend, List.append_nil] at hrun
    rw [← hrun]
    exact replay_eventsAll (.new limit) ops
  · intro s n hn
    rw [perform, checkLimit_eq_none_iff.2 ⟨n, hn, rfl⟩]

/-- With room for one entry, the computation of a key stores another key; its own entry then takes
the place of that one. -/
theorem fifo_queue_room_for_one :
    let ops : List (Operation Nat Nat) := [.get 1 [.get 2 [] (.ok 20)] (.ok 10)]
    let before : List (Event Nat Nat) := [.start 1, .start 2, .store 2 20]
    checkLimit (some 1) = some (some 1) ∧
      eventsAll (.new (some 1)) ops = before ++ [.store 1 10] ∧
      IsQueue (replay (empty (some 1)) before) [(2, 20)] ∧
      (Event.store 1 10).Orderly (replay (empty (some 1)) before) := by
  intro ops before
  have hrun : eventsAll (.new (some 1)) ops = before ++ [.store 1 10] := rfl
  have hlimit : checkLimit (some 1) = some (some 1) := rfl
  have hqueue := fifo_queue hlimit ops hrun
  exact ⟨hlimit, hrun, hqueue.1, hqueue.2.1 _ rfl⟩

end DocTable.Cache
