import DocTable.Cache.Key
import DocTable.Proofs.Json.ReadBack
import DocTable.Proofs.Text.Order
import Mathlib.Data.List.Forall2
/-!
# DocTable.Proofs.Cache.Arguments

Arguments as callers pass them, and which of them share a key.

A `Value` has sequences of two kinds and dictionaries, nested to any depth. `Alike` says which
values are one argument: the kind of a sequence and the order of a dictionary do not count, the
kinds of all other values do. The key of a call is the text of its arguments in a canonical form,
and values have one canonical form if and only if they are alike (`Value.canonical_eq_iff`), so
keys tell apart the calls that differ and no others (`Arguments.key_eq_iff_alike`).
-/

namespace DocTable.Cache

open Json (Legible legibleItems_iff legibleMembers_iff sortKeys sortKeysItems_eq_map
  sortKeysMembers_eq_map)

/-! ### Values and their canonical form -/

/-- The two kinds of sequence. -/
inductive Sequence where
  | list
  | tuple

/-- An argument as a caller passes it. -/
inductive Value where
  | null
  | bool (b : Bool)
  | int (n : Int)
  | text (t : Text)
  | sequence (kind : Sequence) (items : List Value)
  | dict (members : List (Text × Value))

namespace Value

mutual

/-- The JSON value of an argument; JSON knows one kind of sequence. -/
def json : Value → Json
  | .null => .null
  | .bool b => .bool b
  | .int n => .int n
  | .text t => .text t
  | .sequence _ items => .array (jsonItems items)
  | .dict members => .object (jsonMembers members)

/-- `json` for the items of a sequence. -/
def jsonItems : List Value → List Json
  | [] => []
  | v :: vs => json v :: jsonItems vs

/-- `json` for the members of a dictionary. -/
def jsonMembers : List (Text × Value) → Members
  | [] => []
  | (key, v) :: ms => (key, json v) :: jsonMembers ms

end

theorem jsonItems_eq_map (vs : List Value) : jsonItems vs = vs.map json := by
  induction vs with
  | nil => rfl
  | cons v vs ih => rw [jsonItems, ih, List.map_cons]

theorem jsonMembers_eq_map (ms : List (Text × Value)) :
    jsonMembers ms = ms.map fun m => (m.1, m.2.json) := by
  induction ms with
  | nil => rfl
  | cons m ms ih => rw [jsonMembers, ih, List.map_cons]

/-- The value that an argument is in a key. -/
def canonical (v : Value) : Json :=
  v.json.sortKeys

theorem canonical_sequence (kind : Sequence) (vs : List Value) :
    (sequence kind vs).canonical = .array (vs.map canonical) := by
  rw [canonical, json, sortKeys, sortKeysItems_eq_map, jsonItems_eq_map, List.map_map]
  rfl

theorem canonical_dict (ms : List (Text × Value)) :
    (dict ms).canonical = .object (Text.sortBy (·.1) (ms.map fun m => (m.1, m.2.canonical))) := by
  rw [canonical, json, sortKeys, sortKeysMembers_eq_map, jsonMembers_eq_map, List.map_map]
  rfl

/-- The values that a key can hold: whole numbers short enough to be written, and dictionaries
that do not repeat a key. -/
inductive Proper : Value → Prop
  | null : Proper .null
  | bool (b : Bool) : Proper (.bool b)
  | int {n : Int} : (Decimal.ofNat n.natAbs).length ≤ Decimal.maxDigits → Proper (.int n)
  | text (t : Text) : Proper (.text t)
  | sequence {kind : Sequence} {vs : List Value} :
    (∀ v ∈ vs, Proper v) → Proper (.sequence kind vs)
  | dict {ms : List (Text × Value)} :
    (ms.map (·.1)).Nodup → (∀ m ∈ ms, Proper m.2) → Proper (.dict ms)

theorem map_canonical_keys (ms : List (Text × Value)) :
    (ms.map fun m => (m.1, m.2.canonical)).map (·.1) = ms.map (·.1) := by
  rw [List.map_map]
  rfl

theorem Proper.legible_canonical {v : Value} (h : v.Proper) : Legible v.canonical := by
  induction h with
  | null | bool | text => trivial
  | int h => exact h
  | sequence _ ih =>
    rw [canonical_sequence]
    refine legibleItems_iff.2 ?_
    intro x hx
    obtain ⟨v, hv, rfl⟩ := List.mem_map.1 hx
    exact ih v hv
  | @dict ms hkeys _ ih =>
    rw [canonical_dict]
    have hperm := Text.perm_sortBy (·.1) (ms.map fun m => (m.1, m.2.canonical))
    refine ⟨?_, legibleMembers_iff.2 ?_⟩
    · rw [(hperm.map _).nodup_iff, map_canonical_keys]
      exact hkeys
    · intro m hm
      obtain ⟨n, hn, rfl⟩ := List.mem_map.1 (hperm.mem_iff.1 hm)
      exact ih n hn

/-! ### Values that are alike -/

/-- Values that are the same argument: sequences of either kind with like items, dictionaries
with like values for every key, and otherwise equal values of one kind. -/
inductive Alike : Value → Value → Prop
  | null : Alike .null .null
  | bool (b : Bool) : Alike (.bool b) (.bool b)
  | int (n : Int) : Alike (.int n) (.int n)
  | text (t : Text) : Alike (.text t) (.text t)
  | sequence {kind kind' : Sequence} {vs ws : List Value} :
    List.Forall₂ Alike vs ws → Alike (.sequence kind vs) (.sequence kind' ws)
  | dict {ms ns : List (Text × Value)} :
    (∀ key, Option.Rel Alike (ms.lookup key) (ns.lookup key)) → Alike (.dict ms) (.dict ns)

theorem alike_sequence_iff {kind kind' : Sequence} {vs ws : List Value} :
    Alike (.sequence kind vs) (.sequence kind' ws) ↔ List.Forall₂ Alike vs ws :=
  ⟨fun | .sequence h => h, .sequence⟩

theorem alike_dict_iff {ms ns : List (Text × Value)} :
    Alike (.dict ms) (.dict ns) ↔ ∀ key, Option.Rel Alike (ms.lookup key) (ns.lookup key) :=
  ⟨fun | .dict h => h, .dict⟩

/-- Lists of values have one canonical form if and only if the values are alike in pairs. -/
theorem map_canonical_eq_iff {vs ws : List Value}
    (h : ∀ v ∈ vs, ∀ w ∈ ws, (v.canonical = w.canonical ↔ Alike v w)) :
    vs.map canonical = ws.map canonical ↔ List.Forall₂ Alike vs ws := by
  induction vs generalizing ws with
  | nil => cases ws <;> simp
  | cons v vs ih =>
    cases ws with
    | nil => simp
    | cons w ws =>
      rw [List.map_cons, List.map_cons, List.cons.injEq, List.forall₂_cons,
        h v List.mem_cons_self w List.mem_cons_self, ih]
      intro v hv w hw
      exact h v (List.mem_cons_of_mem _ hv) w (List.mem_cons_of_mem _ hw)

/-- Values that may be missing have one canonical form if and only if both are missing or they are
alike. -/
theorem option_map_canonical_eq_iff {v? w? : Option Value}
    (h : ∀ v ∈ v?, ∀ w ∈ w?, (v.canonical = w.canonical ↔ Alike v w)) :
    v?.map canonical = w?.map canonical ↔ Option.Rel Alike v? w? := by
  match v?, w? with
  | none, none => exact iff_of_true rfl .none
  | none, some _ | some _, none => exact iff_of_false nofun nofun
  | some v, some w =>
    rw [Option.map_some, Option.map_some, Option.some.injEq, h v rfl w rfl]
    exact ⟨.some, fun | .some h => h⟩

theorem mem_of_lookup {ms : List (Text × Value)} {key : Text} {v : Value}
    (h : v ∈ ms.lookup key) : (key, v) ∈ ms := by
  obtain ⟨before, after, rfl, -⟩ := List.lookup_eq_some_iff.1 h
  exact List.mem_append_right before List.mem_cons_self

/-- Dictionaries have one canonical form if and only if their values for every key are alike. -/
theorem canonical_dict_eq_iff {ms ns : List (Text × Value)} (hms : (ms.map (·.1)).Nodup)
    (hns : (ns.map (·.1)).Nodup)
    (h : ∀ m ∈ ms, ∀ n ∈ ns, (m.2.canonical = n.2.canonical ↔ Alike m.2 n.2)) :
    (dict ms).canonical = (dict ns).canonical ↔
      ∀ key, Option.Rel Alike (ms.lookup key) (ns.lookup key) := by
  rw [← map_canonical_keys] at hms hns
  rw [canonical_dict, canonical_dict, Json.object.injEq, Text.sortBy_eq_iff_perm hms,
    Members.perm_iff_get? hms hns]
  refine forall_congr' ?_
  intro key
  rw [Members.get?_map, Members.get?_map]
  refine option_map_canonical_eq_iff ?_
  intro v hv w hw
  exact h (key, v) (mem_of_lookup hv) (key, w) (mem_of_lookup hw)

/-- Values have one canonical form if and only if they are alike. -/
theorem canonical_eq_iff {v w : Value} (hv : v.Proper) (hw : w.Proper) :
    v.canonical = w.canonical ↔ Alike v w := by
  -- By induction on the first value, since dictionaries are looked into key by key and not in step.
  -- A second value of another kind has another form and is not alike.
  induction hv generalizing w with
  | null =>
    cases hw with
    | null => exact iff_of_true rfl .null
    | _ => exact iff_of_false nofun nofun
  | bool b =>
    cases hw with
    | bool c => exact ⟨fun | rfl => .bool b, fun | .bool _ => rfl⟩
    | _ => exact iff_of_false nofun nofun
  | @int n _ =>
    cases hw with
    | int => exact ⟨fun | rfl => .int n, fun | .int _ => rfl⟩
    | _ => exact iff_of_false nofun nofun
  | text t =>
    cases hw with
    | text u => exact ⟨fun | rfl => .text t, fun | .text _ => rfl⟩
    | _ => exact iff_of_false nofun nofun
  | sequence _ ih =>
    cases hw with
    | sequence hws =>
      rw [canonical_sequence, canonical_sequence, Json.array.injEq, alike_sequence_iff]
      exact map_canonical_eq_iff fun v hv w hw => ih v hv (hws w hw)
    | _ => exact iff_of_false nofun nofun
  | dict hms _ ih =>
    cases hw with
    | dict hns hall =>
      rw [alike_dict_iff]
      exact canonical_dict_eq_iff hms hns fun m hm n hn => ih m hm (hall n hn)
    | _ => exact iff_of_false nofun nofun

end Value

/-! ### Keys -/

/-- The arguments of a call, by position and by name. -/
structure Arguments where
  positional : List Value
  named : List (Text × Value)
  positional_proper : ∀ v ∈ positional, v.Proper
  named_proper : ∀ m ∈ named, m.2.Proper
  distinct : (named.map (·.1)).Nodup

namespace Arguments

/-- The key of a call with these arguments. -/
def key (a : Arguments) : Text :=
  canonicalKey (a.positional.map fun v => .json v.json) (a.named.map fun m => (m.1, .json m.2.json))

/-- The arguments as one value, whose text is the key. -/
def value (a : Arguments) : Value :=
  .sequence .list [.sequence .list a.positional, .dict a.named]

theorem proper_value (a : Arguments) : a.value.Proper := by
  have hpositional : (Value.sequence .list a.positional).Proper := .sequence a.positional_proper
  have hnamed : (Value.dict a.named).Proper := .dict a.distinct a.named_proper
  refine .sequence ?_
  intro v hv
  simp only [List.mem_cons, List.not_mem_nil, or_false] at hv
  rcases hv with rfl | rfl
  · exact hpositional
  · exact hnamed

theorem key_eq (a : Arguments) : a.key = a.value.canonical.compact := by
  have hjson : a.value.json = .array [.array (a.positional.map Value.json),
      .object (a.named.map fun m => (m.1, m.2.json))] := by
    rw [← Value.jsonItems_eq_map, ← Value.jsonMembers_eq_map]
    rfl
  rw [key, canonicalKey, Value.canonical, hjson, List.map_map, List.map_map]
  rfl

/-- Calls share a key if and only if their arguments are alike: the positional ones in order, and
the named ones name by name. -/
theorem key_eq_iff_alike (a b : Arguments) :
    a.key = b.key ↔
      List.Forall₂ Value.Alike a.positional b.positional ∧
        ∀ name, Option.Rel Value.Alike (a.named.lookup name) (b.named.lookup name) := by
  have hcompact : a.key = b.key ↔ a.value.canonical = b.value.canonical := by
    rw [key_eq, key_eq]
    exact ⟨Json.compact_injective a.proper_value.legible_canonical
      b.proper_value.legible_canonical, congrArg Json.compact⟩
  rw [hcompact, Value.canonical_eq_iff a.proper_value b.proper_value, value, value,
    Value.alike_sequence_iff]
  simp [Value.alike_sequence_iff, Value.alike_dict_iff]

/-- Two entries in either order are alike for every key. -/
theorem rel_lookup_swap {k l : Text} (h : k ≠ l) {v v' w w' : Value} (hv : Value.Alike v v')
    (hw : Value.Alike w w') (key : Text) :
    Option.Rel Value.Alike ([(k, v), (l, w)].lookup key) ([(l, w'), (k, v')].lookup key) := by
  by_cases hk : key = k
  · subst hk
    simpa [List.lookup_cons, beq_false_of_ne h] using Option.Rel.some hv
  · by_cases hl : key = l
    · subst hl
      simpa [List.lookup_cons, beq_false_of_ne hk] using Option.Rel.some hw
    · simp [List.lookup_cons, beq_false_of_ne hk, beq_false_of_ne hl]

/-- A tuple in the place of a list, at two depths, and keys and names in another order make no
difference; one in the place of true does. -/
theorem key_eq_iff_alike_nested :
    let items (kind : Sequence) : Text × Value := ("a".toList, .sequence kind [.int 1, .null])
    let flag (v : Value) : Text × Value := ("b".toList, v)
    let named : List (Text × Value) := [("k".toList, .null), ("l".toList, .text [])]
    ∃ a b c : Arguments,
      a.positional = [.sequence .list [.dict [items .list, flag (.bool true)]]] ∧ a.named = named ∧
      b.positional = [.sequence .tuple [.dict [flag (.bool true), items .tuple]]] ∧
        b.named = named.reverse ∧
      c.positional = [.sequence .list [.dict [items .list, flag (.int 1)]]] ∧ c.named = named ∧
      a.key = b.key ∧ a.key ≠ c.key := by
  intro items flag named
  have hone : (Value.int 1).Proper := .int (by simp [Decimal.ofNat, Decimal.maxDigits])
  have hitems : ∀ kind, (items kind).2.Proper := fun kind =>
    .sequence (by simp [hone, Value.Proper.null])
  have hnamed : ∀ m ∈ named, m.2.Proper := by
    simp [named, Value.Proper.null, Value.Proper.text]
  have hsequence : ∀ (kind : Sequence) {ms : List (Text × Value)}, (ms.map (·.1)).Nodup →
      (∀ m ∈ ms, m.2.Proper) → ∀ v ∈ [Value.sequence kind [.dict ms]], v.Proper := by
    intro kind ms hkeys hms
    refine List.forall_mem_singleton.2 (.sequence (List.forall_mem_singleton.2 ?_))
    exact .dict hkeys hms
  let a : Arguments := ⟨[.sequence .list [.dict [items .list, flag (.bool true)]]], named,
    hsequence _ (by decide) (by simp [hitems, flag, Value.Proper.bool]), hnamed, by decide⟩
  let b : Arguments := ⟨[.sequence .tuple [.dict [flag (.bool true), items .tuple]]],
    named.reverse, hsequence _ (by decide) (by simp [hitems, flag, Value.Proper.bool]),
    fun m hm => hnamed m (List.mem_reverse.1 hm), by decide⟩
  let c : Arguments := ⟨[.sequence .list [.dict [items .list, flag (.int 1)]]], named,
    hsequence _ (by decide) (by simp [hitems, flag, hone]), hnamed, by decide⟩
  refine ⟨a, b, c, rfl, rfl, rfl, rfl, rfl, rfl, ?_, ?_⟩
  · have hlike : Value.Alike (items .list).2 (items .tuple).2 :=
      .sequence (.cons (.int 1) (.cons .null .nil))
    have hkeys : "a".toList ≠ "b".toList := by decide
    have hnames : "k".toList ≠ "l".toList := by decide
    have hdict := Value.Alike.dict (rel_lookup_swap hkeys hlike (.bool true))
    refine (key_eq_iff_alike a b).2 ⟨.cons (.sequence (.cons hdict .nil)) .nil, ?_⟩
    exact rel_lookup_swap hnames .null (.text [])
  · intro hkey
    obtain ⟨hpositional, -⟩ := (key_eq_iff_alike a c).1 hkey
    have hdict := (List.forall₂_cons.1 (Value.alike_sequence_iff.1
      (List.forall₂_cons.1 hpositional).1)).1
    have hflag : Option.Rel Value.Alike (some (.bool true)) (some (.int 1)) :=
      Value.alike_dict_iff.1 hdict "b".toList
    cases hflag with
    | some h => cases h

end Arguments

end DocTable.Cache
