import DocTable.Text.Basic
/-!
# DocTable.Cache.Basic

A cache of computed values, first in, first out.

Entries are kept in the order of their insertion, the oldest first. The cache does not run
computations itself. A lookup that finds its key is a `hit`; otherwise the caller computes the
value, which may use the same cache, and hands it to `settle`. If the key has been stored in the
meantime, the stored value stays and is the answer.
-/

namespace DocTable

/-- A bounded or unbounded cache with its statistics. -/
structure Cache (κ α : Type) where
  /-- The most entries that are kept; none for no bound. -/
  limit : Option Nat
  /-- Keys and values, the oldest first. -/
  entries : List (κ × α)
  hits : Nat
  misses : Nat

namespace Cache

variable {κ α : Type}

/-- A cache that holds nothing. -/
def empty (limit : Option Nat) : Cache κ α := ⟨limit, [], 0, 0⟩

/-- Accept a bound: a positive number, or none. -/
def checkLimit : Option Int → Option (Option Nat)
  | none => some none
  | some n => if n < 1 then none else some (some n.toNat)

/-- The wording of a refused bound. -/
def limitMessage : Text := "maxsize must be a positive integer or None".toList

/-- The number of entries. -/
def size (c : Cache κ α) : Nat := c.entries.length

/-- The value of a key. -/
def find? [DecidableEq κ] (c : Cache κ α) (key : κ) : Option α :=
  (c.entries.find? fun e => e.1 = key).map (·.2)

theorem mem_of_find? [DecidableEq κ] {c : Cache κ α} {key : κ} {value : α}
    (h : c.find? key = some value) : (key, value) ∈ c.entries := by
  obtain ⟨e, he, rfl⟩ := Option.map_eq_some_iff.1 h
  have hkey : e.1 = key := by simpa using List.find?_some he
  rw [← hkey]
  exact List.mem_of_find?_eq_some he

/-- Count a lookup that found its key. -/
def hit (c : Cache κ α) : Cache κ α := { c with hits := c.hits + 1 }

/-- The entries that are left when there has to be room for one more. -/
def roomForOne (c : Cache κ α) : List (κ × α) :=
  match c.limit with
  | some n => if n ≤ c.entries.length then c.entries.drop 1 else c.entries
  | none => c.entries

theorem mem_of_mem_roomForOne {c : Cache κ α} {e : κ × α} (h : e ∈ c.roomForOne) :
    e ∈ c.entries := by
  rw [roomForOne] at h
  split at h
  · split at h
    · exact List.mem_of_mem_drop h
    · exact h
  · exact h

/-- Count a value that has been computed, and store it unless its key has been stored since. The
answer is what the cache then holds. -/
def settle [DecidableEq κ] (c : Cache κ α) (key : κ) (value : α) : α × Cache κ α :=
  let counted := { c with misses := c.misses + 1 }
  match c.find? key with
  | some stored => (stored, counted)
  | none => (value, { counted with entries := c.roomForOne ++ [(key, value)] })

/-- What is stored after a computation has been stored before, or is its result. -/
theorem mem_settle [DecidableEq κ] {c : Cache κ α} {key : κ} {value : α} {e : κ × α}
    (h : e ∈ (c.settle key value).2.entries) : e ∈ c.entries ∨ e = (key, value) := by
  rw [settle] at h
  split at h
  · exact .inl h
  · rcases List.mem_append.1 h with h | h
    · exact .inl (mem_of_mem_roomForOne h)
    · exact .inr (List.mem_singleton.1 h)

/-- Change the bound; the oldest entries that exceed it are dropped. -/
def resize (c : Cache κ α) (limit : Option Nat) : Cache κ α :=
  match limit with
  | some n => { c with limit := limit, entries := c.entries.drop (c.entries.length - n) }
  | none => { c with limit := none }

theorem mem_of_mem_resize {c : Cache κ α} {limit : Option Nat} {e : κ × α}
    (h : e ∈ (c.resize limit).entries) : e ∈ c.entries := by
  cases limit with
  | none => exact h
  | some n => exact List.mem_of_mem_drop h

/-- Drop all entries and reset the statistics. -/
def clear (c : Cache κ α) : Cache κ α := empty c.limit

end Cache

end DocTable
