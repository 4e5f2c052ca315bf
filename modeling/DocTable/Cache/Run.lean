import DocTable.Cache.Basic
/-!
# DocTable.Cache.Run

Runs of operations on one cache, in which computations may use the cache they are computed for.

An operation is a tree: a lookup carries the operations that its computation performs, and the
value or failure that the computation ends with. Every terminating run of a cache by computations
of any kind has such a tree.
-/

namespace DocTable.Cache

/-- An operation on a cache. -/
inductive Operation (κ α : Type) where
  /-- Look a key up; if it is missing, perform the operations and then yield the value, or fail
  with a message. -/
  | get (key : κ) (inner : List (Operation κ α)) (outcome : Except Text α)
  /-- Ask whether a key is stored. -/
  | has (key : κ)
  | resize (limit : Option Int)
  | clear

/-- What an operation answers. -/
inductive Answer (α : Type) where
  | value (v : α)
  | truth (b : Bool)
  | done
  /-- A computation failed. -/
  | failed (message : Text)
  /-- A bound was refused. -/
  | badLimit

/-- A cache, and the keys whose computations have been started. -/
structure RunState (κ α : Type) where
  cache : Cache κ α
  computed : List κ

variable {κ α : Type} [DecidableEq κ]

mutual

/-- Perform an operation. A failed computation stores nothing and counts nothing. -/
def perform (s : RunState κ α) : Operation κ α → Answer α × RunState κ α
  | .get key inner outcome =>
    match s.cache.find? key with
    | some v => (.value v, { s with cache := s.cache.hit })
    | none =>
      let s := performAll { s with computed := s.computed ++ [key] } inner
      match outcome with
      | .error message => (.failed message, s)
      | .ok v =>
        let (v, cache) := s.cache.settle key v
        (.value v, { s with cache })
  | .has key => (.truth (s.cache.find? key).isSome, s)
  | .resize limit =>
    match checkLimit limit with
    | none => (.badLimit, s)
    | some limit => (.done, { s with cache := s.cache.resize limit })
  | .clear => (.done, { s with cache := s.cache.clear })

/-- Perform operations one after another, whatever they answer. -/
def performAll (s : RunState κ α) : List (Operation κ α) → RunState κ α
  | [] => s
  | op :: rest => performAll (perform s op).2 rest

end

end DocTable.Cache
