import DocTable.Number.Binary64
/-!
# DocTable.Json.Value

JSON values. Whole numbers and floating-point numbers are different kinds of value, and the
members of an object keep their order.

* `Members` is the view of an object as a list of keyed values: `get?`, `put` and `erase`.
* `Json.kind` names the kind of a value in messages, `Json.given` says whether it counts as
  present where a place may be left empty.
-/

namespace DocTable

/-- A JSON value. -/
inductive Json where
  | null
  | bool (b : Bool)
  | int (n : Int)
  | float (x : Binary64)
  | text (t : Text)
  | array (items : List Json)
  | object (members : List (Text × Json))

/-- The members of an object, in order. -/
abbrev Members := List (Text × Json)

namespace Json

mutual

/-- Whether two values are the same, kinds and order of members included. -/
def decEq : (a b : Json) → Decidable (a = b)
  | .null, .null => isTrue rfl
  | .bool a, .bool b =>
    if h : a = b then isTrue (h ▸ rfl) else isFalse fun e => h (Json.bool.inj e)
  | .int a, .int b =>
    if h : a = b then isTrue (h ▸ rfl) else isFalse fun e => h (Json.int.inj e)
  | .float a, .float b =>
    if h : a = b then isTrue (h ▸ rfl) else isFalse fun e => h (Json.float.inj e)
  | .text a, .text b =>
    if h : a = b then isTrue (h ▸ rfl) else isFalse fun e => h (Json.text.inj e)
  | .array a, .array b =>
    match decEqItems a b with
    | isTrue h => isTrue (h ▸ rfl)
    | isFalse h => isFalse fun e => h (Json.array.inj e)
  | .object a, .object b =>
    match decEqMembers a b with
    | isTrue h => isTrue (h ▸ rfl)
    | isFalse h => isFalse fun e => h (Json.object.inj e)
  | .null, .bool _ | .null, .int _ | .null, .float _ | .null, .text _ | .null, .array _
  | .null, .object _ | .bool _, .null | .bool _, .int _ | .bool _, .float _ | .bool _, .text _
  | .bool _, .array _ | .bool _, .object _ | .int _, .null | .int _, .bool _ | .int _, .float _
  | .int _, .text _ | .int _, .array _ | .int _, .object _ | .float _, .null | .float _, .bool _
  | .float _, .int _ | .float _, .text _ | .float _, .array _ | .float _, .object _
  | .text _, .null | .text _, .bool _ | .text _, .int _ | .text _, .float _ | .text _, .array _
  | .text _, .object _ | .array _, .null | .array _, .bool _ | .array _, .int _
  | .array _, .float _ | .array _, .text _ | .array _, .object _ | .object _, .null
  | .object _, .bool _ | .object _, .int _ | .object _, .float _ | .object _, .text _
  | .object _, .array _ => isFalse (by simp)

/-- `decEq` for the items of an array. -/
def decEqItems : (a b : List Json) → Decidable (a = b)
  | [], [] => isTrue rfl
  | [], _ :: _ | _ :: _, [] => isFalse (by simp)
  | x :: xs, y :: ys =>
    match decEq x y, decEqItems xs ys with
    | isTrue h, isTrue hs => isTrue (h ▸ hs ▸ rfl)
    | isFalse h, _ => isFalse fun e => h (List.cons.inj e).1
    | _, isFalse hs => isFalse fun e => hs (List.cons.inj e).2

/-- `decEq` for the members of an object. -/
def decEqMembers : (a b : List (Text × Json)) → Decidable (a = b)
  | [], [] => isTrue rfl
  | [], _ :: _ | _ :: _, [] => isFalse (by simp)
  | (k, x) :: xs, (l, y) :: ys =>
    if hk : k = l then
      match decEq x y, decEqMembers xs ys with
      | isTrue h, isTrue hs => isTrue (by rw [hk, h, hs])
      | isFalse h, _ => isFalse fun e => h (Prod.mk.inj (List.cons.inj e).1).2
      | _, isFalse hs => isFalse fun e => hs (List.cons.inj e).2
    else isFalse fun e => hk (Prod.mk.inj (List.cons.inj e).1).1

end

instance : DecidableEq Json := decEq

instance : Inhabited Json := ⟨.null⟩

/-- The name of a value's kind in messages. -/
def kind : Json → Text
  | .null => "NoneType".toList
  | .bool _ => "bool".toList
  | .int _ => "int".toList
  | .float _ => "float".toList
  | .text _ => "str".toList
  | .array _ => "list".toList
  | .object _ => "dict".toList

/-- Whether a value counts as given: null, false, zero and everything empty does not. -/
def given : Json → Bool
  | .null => false
  | .bool b => b
  | .int n => n ≠ 0
  | .float x => !x.isZero
  | .text t => !t.isEmpty
  | .array items => !items.isEmpty
  | .object members => !members.isEmpty

/-- The members of an object. -/
def members? : Json → Option Members
  | .object members => some members
  | _ => none

/-- The text of a text value. -/
def text? : Json → Option Text
  | .text t => some t
  | _ => none

end Json

namespace Members

/-- The value of a key. -/
def get? (key : Text) : Members → Option Json
  | [] => none
  | (k, v) :: rest => if k = key then some v else get? key rest

/-- Set a key: in its place if the object has it, behind all others if not. -/
def put (key : Text) (value : Json) : Members → Members
  | [] => [(key, value)]
  | (k, v) :: rest => if k = key then (k, value) :: rest else (k, v) :: put key value rest

/-- Remove a key. -/
def erase (key : Text) (members : Members) : Members :=
  members.filter fun m => m.1 ≠ key

/-- An object from keyed values: a repeated key keeps its first place and its last value. -/
def ofPairs (pairs : List (Text × Json)) : Members :=
  pairs.foldl (fun done m => put m.1 m.2 done) []

@[simp] theorem get?_nil (key : Text) : get? key [] = none := rfl

theorem get?_put (key other : Text) (value : Json) (members : Members) :
    get? key (put other value members) = if other = key then some value else get? key members := by
  induction members with
  | nil => simp [put, get?]
  | cons m rest ih =>
    obtain ⟨k, v⟩ := m
    by_cases hk : k = other
    · subst hk
      by_cases h : k = key <;> simp [put, get?, h]
    · by_cases h : k = key
      · subst h; simp [put, get?, hk, Ne.symm hk]
      · simp [put, get?, hk, h, ih]

theorem get?_erase (key other : Text) (members : Members) :
    get? key (erase other members) = if other = key then none else get? key members := by
  induction members with
  | nil => simp [erase]
  | cons m rest ih =>
    obtain ⟨k, v⟩ := m
    simp only [erase] at ih ⊢
    by_cases hk : k = other
    · subst hk
      by_cases h : k = key
      · subst h; simpa using ih
      · simpa [get?, h] using ih
    · by_cases h : k = key
      · subst h; simp [get?, hk, Ne.symm hk]
      · simpa [get?, hk, h] using ih

theorem get?_eq_none_iff {key : Text} {members : Members} :
    get? key members = none ↔ key ∉ members.map (·.1) := by
  induction members with
  | nil => simp
  | cons m rest ih =>
    obtain ⟨k, v⟩ := m
    rw [get?, List.map_cons, List.mem_cons, not_or]
    by_cases hk : k = key
    · simp [hk]
    · simp [hk, Ne.symm hk, ih]

theorem mem_of_get?_eq_some {key : Text} {value : Json} {members : Members}
    (h : get? key members = some value) : (key, value) ∈ members := by
  induction members with
  | nil => cases h
  | cons m rest ih =>
    obtain ⟨k, v⟩ := m
    rw [get?] at h
    by_cases hk : k = key
    · rw [if_pos hk] at h
      rw [hk, Option.some.inj h]
      exact List.mem_cons_self
    · rw [if_neg hk] at h
      exact List.mem_cons_of_mem _ (ih h)

/-- Setting a key to the value that it has changes nothing. -/
theorem put_eq_self {key : Text} {value : Json} {members : Members}
    (h : get? key members = some value) : put key value members = members := by
  induction members with
  | nil => cases h
  | cons m rest ih =>
    obtain ⟨k, v⟩ := m
    rw [get?] at h
    rw [put]
    by_cases hk : k = key
    · rw [if_pos hk] at h ⊢
      rw [Option.some.inj h]
    · rw [if_neg hk] at h ⊢
      rw [ih h]

/-- Removing a key that is not there changes nothing. -/
theorem erase_eq_self {key : Text} {members : Members} (h : get? key members = none) :
    erase key members = members := by
  rw [get?_eq_none_iff] at h
  refine List.filter_eq_self.2 ?_
  intro m hm
  have hne : m.1 ≠ key := by
    rintro rfl
    exact h (List.mem_map_of_mem hm)
  simp [hne]

theorem erase_put (key : Text) (value : Json) (members : Members) :
    erase key (put key value members) = erase key members := by
  induction members with
  | nil => simp [erase, put]
  | cons m members ih =>
    obtain ⟨k, v⟩ := m
    rw [put]
    by_cases hk : k = key
    · simp [erase, hk]
    · simpa [erase, hk] using ih

theorem keys_put (key : Text) (value : Json) (members : Members) :
    (put key value members).map (·.1) =
      if key ∈ members.map (·.1) then members.map (·.1) else members.map (·.1) ++ [key] := by
  induction members with
  | nil => rfl
  | cons m members ih =>
    obtain ⟨k, v⟩ := m
    rw [put]
    by_cases hk : k = key
    · simp [hk]
    · rw [if_neg hk, List.map_cons, List.map_cons, ih]
      by_cases hmem : key ∈ members.map (·.1)
      · simp only [if_pos hmem, if_pos (List.mem_cons_of_mem k hmem)]
      · have hmem' : key ∉ k :: members.map (·.1) := by
          rw [List.mem_cons, not_or]
          exact ⟨Ne.symm hk, hmem⟩
        simp only [if_neg hmem, if_neg hmem', List.cons_append]

theorem keys_erase (key : Text) (members : Members) :
    (erase key members).map (·.1) = (members.map (·.1)).filter (· ≠ key) := by
  rw [erase, List.filter_map]
  rfl

theorem mem_put {key : Text} {value : Json} {members : Members} {m : Text × Json}
    (h : m ∈ put key value members) : m = (key, value) ∨ m ∈ members := by
  induction members with
  | nil => exact .inl (List.mem_singleton.1 h)
  | cons m' members ih =>
    obtain ⟨k, v⟩ := m'
    rw [put] at h
    split at h
    · next hk =>
      rcases List.mem_cons.1 h with h | h
      · exact .inl (hk ▸ h)
      · exact .inr (List.mem_cons_of_mem _ h)
    · rcases List.mem_cons.1 h with h | h
      · exact .inr (h ▸ List.mem_cons_self)
      · exact (ih h).imp_right (List.mem_cons_of_mem _)

theorem get?_append (key : Text) (ms ns : Members) :
    get? key (ms ++ ns) = (get? key ms).or (get? key ns) := by
  induction ms with
  | nil => rfl
  | cons m rest ih =>
    rw [List.cons_append, get?, get?]
    split
    · rfl
    · exact ih

theorem get?_map {α : Type} (f : α → Json) (key : Text) (ms : List (Text × α)) :
    get? key (ms.map fun m => (m.1, f m.2)) = (ms.lookup key).map f := by
  induction ms with
  | nil => rfl
  | cons m ms ih =>
    obtain ⟨k, v⟩ := m
    rw [List.map_cons, get?, List.lookup_cons, ih]
    by_cases hk : k = key
    · simp [hk]
    · have hother : (key == k) = false := beq_false_of_ne (Ne.symm hk)
      rw [if_neg hk, hother]

theorem get?_eq_some_iff {key : Text} {value : Json} {members : Members}
    (h : (members.map (·.1)).Nodup) : get? key members = some value ↔ (key, value) ∈ members := by
  induction members with
  | nil => simp
  | cons m rest ih =>
    obtain ⟨k, v⟩ := m
    rw [List.map_cons, List.nodup_cons] at h
    rw [get?, List.mem_cons, Prod.mk.injEq]
    split
    · next hk =>
      have hrest : (key, value) ∉ rest := fun hmem => h.1 (List.mem_map.2 ⟨_, hmem, hk.symm⟩)
      simp [hk, hrest, eq_comm]
    · next hk => simp [ih h.2, Ne.symm hk]

/-- The order of members does not matter for their values. -/
theorem get?_of_perm {ms ns : Members} (h : ms.Perm ns) (hkeys : (ms.map (·.1)).Nodup)
    (key : Text) : get? key ms = get? key ns := by
  have hkeys' : (ns.map (·.1)).Nodup := (h.map _).nodup_iff.1 hkeys
  refine Option.ext fun v => ?_
  rw [get?_eq_some_iff hkeys, get?_eq_some_iff hkeys', h.mem_iff]

/-- Objects without repeated keys have the same members if and only if they have the same value for
every key. -/
theorem perm_iff_get? {ms ns : Members} (hms : (ms.map (·.1)).Nodup)
    (hns : (ns.map (·.1)).Nodup) : ms.Perm ns ↔ ∀ key, get? key ms = get? key ns := by
  constructor
  · intro h key
    exact get?_of_perm h hms key
  · intro h
    have hnodup : ∀ {members : Members}, (members.map (·.1)).Nodup → members.Nodup :=
      List.Pairwise.of_map _ fun _ _ hne heq => hne (congrArg Prod.fst heq)
    refine (List.perm_ext_iff_of_nodup (hnodup hms) (hnodup hns)).2 ?_
    intro m
    rw [← get?_eq_some_iff hms, ← get?_eq_some_iff hns, h]

theorem put_of_notMem {key : Text} (value : Json) {members : Members}
    (h : key ∉ members.map (·.1)) : put key value members = members ++ [(key, value)] := by
  induction members with
  | nil => rfl
  | cons m rest ih =>
    rw [List.map_cons, List.mem_cons, not_or] at h
    rw [put, if_neg (Ne.symm h.1), ih h.2, List.cons_append]

theorem foldl_put {done pairs : Members} (h : ((done ++ pairs).map (·.1)).Nodup) :
    pairs.foldl (fun done m => put m.1 m.2 done) done = done ++ pairs := by
  induction pairs generalizing done with
  | nil => rw [List.append_nil]; rfl
  | cons m pairs ih =>
    have hm : m.1 ∉ done.map (·.1) := by
      rw [List.map_append, List.nodup_append] at h
      exact fun hmem => h.2.2 _ hmem _ List.mem_cons_self rfl
    rw [List.append_cons] at h ⊢
    rw [List.foldl_cons, put_of_notMem m.2 hm, ih h]

/-- Keyed values without repeated keys are the members of their object. -/
theorem ofPairs_eq_self {pairs : Members} (h : (pairs.map (·.1)).Nodup) : ofPairs pairs = pairs :=
  foldl_put (List.nil_append pairs ▸ h)

theorem mem_foldl_put {m : Text × Json} {done pairs : Members}
    (h : m ∈ pairs.foldl (fun done m => put m.1 m.2 done) done) : m ∈ pairs ∨ m ∈ done := by
  induction pairs generalizing done with
  | nil => exact .inr h
  | cons p pairs ih =>
    rcases ih h with hmem | hput
    · exact .inl (List.mem_cons_of_mem _ hmem)
    · rcases mem_put hput with rfl | hdone
      · exact .inl List.mem_cons_self
      · exact .inr hdone

theorem mem_of_mem_ofPairs {m : Text × Json} {pairs : Members} (h : m ∈ ofPairs pairs) :
    m ∈ pairs :=
  (mem_foldl_put h).resolve_right List.not_mem_nil

theorem get?_foldl_put {key : Text} {pairs : Members} (h : key ∉ pairs.map (·.1))
    (done : Members) :
    get? key (pairs.foldl (fun done m => put m.1 m.2 done) done) = get? key done := by
  induction pairs generalizing done with
  | nil => rfl
  | cons m pairs ih =>
    rw [List.map_cons, List.mem_cons, not_or] at h
    rw [List.foldl_cons, ih h.2, get?_put, if_neg (Ne.symm h.1)]

/-- A repeated key has its last value. -/
theorem get?_ofPairs {key : Text} {value : Json} {pairs : Members} {k : Nat}
    (hk : pairs[k]? = some (key, value)) (hlast : key ∉ (pairs.drop (k + 1)).map (·.1)) :
    get? key (ofPairs pairs) = some value := by
  obtain ⟨hlt, hvalue⟩ := List.getElem?_eq_some_iff.1 hk
  have hsplit : pairs = pairs.take k ++ (key, value) :: pairs.drop (k + 1) := by
    rw [← hvalue, ← List.drop_eq_getElem_cons hlt, List.take_append_drop]
  rw [ofPairs, hsplit, List.foldl_append, List.foldl_cons, get?_foldl_put hlast, get?_put,
    if_pos rfl]

end Members

end DocTable
