import DocTable.Cache.Memo
import DocTable.Proofs.Json.ReadBack
/-!
# DocTable.Proofs.Memo.Keys

Calls of builders, and what their keys tell of them.

A `Call` is a builder with positional and named arguments that make a request. Its key is JSON
text of the arguments with the named ones in order, so it tells the positional arguments and the
named ones up to their order (`Call.arguments_of_key`). The request depends on nothing else: calls
of one builder with one key make the same request (`Call.request_of_key`).
-/

namespace DocTable.Memo

open Json (Legible legibleItems_iff legibleMembers_iff sortKeys sortKeysItems_eq_map
  sortKeysMembers_eq_map)

/-! ### Calls -/

/-- The values that builders take: nothing, a truth value, a text, or texts. -/
inductive IsArgument : Json → Prop where
  | null : IsArgument .null
  | bool (b : Bool) : IsArgument (.bool b)
  | text (t : Text) : IsArgument (.text t)
  | texts (ts : List Text) : IsArgument (.array (ts.map .text))

/-- A call of a builder with arguments, each given by position or by name. -/
structure Call where
  builder : Builder
  positional : List Json
  named : Members
  /-- What the arguments ask for. -/
  request : Request
  arguments : ∀ v ∈ positional ++ named.map (·.2), IsArgument v
  distinct : (named.map (·.1)).Nodup
  binds : Request.ofArguments? builder positional named = some request

/-- The key of a call. -/
def Call.key (c : Call) : Text :=
  Cache.canonicalKey (c.positional.map .json) (c.named.map fun m => (m.1, .json m.2))

/-! ### Arguments in keys -/

theorem IsArgument.legible {v : Json} (h : IsArgument v) : Legible v := by
  cases h with
  | null | bool | text => trivial
  | texts ts =>
    refine legibleItems_iff.2 fun v hv => ?_
    obtain ⟨t, -, rfl⟩ := List.mem_map.1 hv
    trivial

theorem IsArgument.sortKeys_eq {v : Json} (h : IsArgument v) : sortKeys v = v := by
  cases h with
  | null | bool | text => rfl
  | texts ts =>
    rw [sortKeys, sortKeysItems_eq_map, List.map_map]
    rfl

namespace Call

theorem positional_arguments (c : Call) : ∀ v ∈ c.positional, IsArgument v := fun v hv =>
  c.arguments v (List.mem_append_left _ hv)

theorem named_arguments (c : Call) : ∀ m ∈ c.named, IsArgument m.2 := fun _ hm =>
  c.arguments _ (List.mem_append_right _ (List.mem_map_of_mem hm))

/-- The named arguments of a call in the order of their names. -/
def sorted (c : Call) : Members :=
  Text.sortBy (·.1) c.named

theorem sorted_perm (c : Call) : c.sorted.Perm c.named :=
  Text.perm_sortBy _ _

/-- The value whose text is the key of a call. -/
def keyValue (c : Call) : Json :=
  .array [.array c.positional, .object c.sorted]

theorem sortKeys_positional (c : Call) : c.positional.map sortKeys = c.positional := by
  have hid : ∀ v ∈ c.positional, sortKeys v = id v := fun v hv =>
    (c.positional_arguments v hv).sortKeys_eq
  rw [List.map_congr_left hid, List.map_id]

theorem sortKeys_named (c : Call) : c.named.map (fun m => (m.1, sortKeys m.2)) = c.named := by
  have hid : ∀ m ∈ c.named, (m.1, sortKeys m.2) = id m := fun m hm =>
    Prod.ext rfl (c.named_arguments m hm).sortKeys_eq
  rw [List.map_congr_left hid, List.map_id]

theorem key_eq (c : Call) : c.key = c.keyValue.compact := by
  have hvalue : (Json.array [.array c.positional, .object c.named]).sortKeys = c.keyValue := by
    rw [sortKeys, sortKeysItems_eq_map, List.map_cons, List.map_cons, List.map_nil, sortKeys,
      sortKeys, sortKeysItems_eq_map, sortKeysMembers_eq_map, c.sortKeys_positional,
      c.sortKeys_named]
    rfl
  have hpositional : (c.positional.map .json).map Cache.Argument.value = c.positional := by
    rw [List.map_map]
    exact List.map_id _
  rw [key, Cache.canonicalKey, ← hvalue, hpositional, List.map_map]
  exact congrArg (fun ms => (Json.array [.array c.positional, .object ms]).sortKeys.compact)
    (List.map_id c.named)

theorem legible_keyValue (c : Call) : Legible c.keyValue := by
  have hpositional : ∀ v ∈ c.positional, Legible v := fun v hv =>
    (c.positional_arguments v hv).legible
  have hnamed : ∀ m ∈ c.sorted, Legible m.2 := fun m hm =>
    (c.named_arguments m (c.sorted_perm.mem_iff.1 hm)).legible
  have hdistinct : (c.sorted.map (·.1)).Nodup :=
    (c.sorted_perm.map _).nodup_iff.2 c.distinct
  exact ⟨legibleItems_iff.2 hpositional, ⟨hdistinct, legibleMembers_iff.2 hnamed⟩, trivial⟩

/-- A key tells the positional arguments, and the named ones up to their order. -/
theorem arguments_of_key {c d : Call} (h : c.key = d.key) :
    c.positional = d.positional ∧ c.named.Perm d.named := by
  rw [key_eq, key_eq] at h
  have hvalue := Json.compact_injective c.legible_keyValue d.legible_keyValue h
  simp only [keyValue, Json.array.injEq, List.cons.injEq, Json.object.injEq, and_true] at hvalue
  have hsorted : c.sorted.Perm d.named := hvalue.2 ▸ d.sorted_perm
  exact ⟨hvalue.1, c.sorted_perm.symm.trans hsorted⟩

end Call

/-! ### Requests -/

namespace Request

/-- A request depends on the values of its parameters alone. -/
theorem ofBound?_congr {ms ns : Members} (h : ∀ key, Members.get? key ms = Members.get? key ns)
    (b : Builder) : ofBound? b ms = ofBound? b ns := by
  cases b <;> simp only [ofBound?, text?, storage?, indexName?, h]

/-- What arguments of a builder ask for is a request of that builder. -/
theorem builder_of_ofBound? {b : Builder} {bound : Members} {r : Request}
    (h : ofBound? b bound = some r) : r.builder = b := by
  cases b with
  | expand | expressionName =>
    obtain ⟨_, -, h⟩ := Option.bind_eq_some_iff.1 h
    cases h
    rfl
  | createTable | insertInto =>
    obtain ⟨_, -, h⟩ := Option.bind_eq_some_iff.1 h
    obtain ⟨_, -, h⟩ := Option.bind_eq_some_iff.1 h
    cases h
    rfl
  | createIndex =>
    obtain ⟨_, -, h⟩ := Option.bind_eq_some_iff.1 h
    obtain ⟨_, -, h⟩ := Option.bind_eq_some_iff.1 h
    obtain ⟨_, -, h⟩ := Option.bind_eq_some_iff.1 h
    cases h
    rfl
  | expandParts =>
    obtain ⟨v, -, h⟩ := Option.bind_eq_some_iff.1 h
    cases v with
    | array items =>
      obtain ⟨_, -, h⟩ := Option.bind_eq_some_iff.1 h
      cases h
      rfl
    | null | bool | int | float | text | object => cases h

/-- The order of named arguments does not matter. -/
theorem ofArguments?_perm (b : Builder) (positional : List Json) {ms ns : Members}
    (h : ms.Perm ns) (hdistinct : (ms.map (·.1)).Nodup) :
    ofArguments? b positional ms = ofArguments? b positional ns := by
  have hall : ∀ p : Text × Json → Bool, ms.all p = ns.all p := fun p => h.all_eq
  rw [ofArguments?, ofArguments?, bind?, bind?]
  simp only [hall]
  split
  · exact ofBound?_congr (fun key => by
      rw [Members.get?_append, Members.get?_append, Members.get?_of_perm h hdistinct]) b
  · rfl

end Request

theorem Call.builder_eq (c : Call) : c.request.builder = c.builder := by
  obtain ⟨bound, -, hbound⟩ := Option.bind_eq_some_iff.1 c.binds
  exact Request.builder_of_ofBound? hbound

/-- Calls of one builder with one key make the same request. -/
theorem Call.request_of_key {c d : Call} (hbuilder : c.builder = d.builder)
    (hkey : c.key = d.key) : c.request = d.request := by
  obtain ⟨hpositional, hnamed⟩ := arguments_of_key hkey
  have hrequest : some c.request = some d.request := by
    rw [← c.binds, ← d.binds, hbuilder, hpositional]
    exact Request.ofArguments?_perm d.builder d.positional hnamed c.distinct
  exact Option.some.inj hrequest

end DocTable.Memo
