import DocTable.Document
/-!
# DocTable.Proofs.Document.Merging

What merge patches make of documents.

A patch that is an object is merged into its target member by member (`mergeOne`). Since no key is
repeated in it, each key is looked at once, so that the value of a key afterwards depends on its
value before and on that in the patch alone (`get?_mergeMembers`), and keys that stay keep their
places (`keys_mergeMembers`). Both together say what the result is (`mergePatch_memberwise`). No key
is repeated in the result either (`distinctKeys_mergePatch`). A second application of the same patch
finds each member as the first one has left it, so it changes nothing (`mergePatch_again`).
-/

namespace DocTable

namespace Json

/-- A value in which no object repeats a key, at any depth. -/
inductive DistinctKeys : Json → Prop
  | null : DistinctKeys .null
  | bool (b : Bool) : DistinctKeys (.bool b)
  | int (n : Int) : DistinctKeys (.int n)
  | float (x : Binary64) : DistinctKeys (.float x)
  | text (t : Text) : DistinctKeys (.text t)
  | array {items : List Json} : (∀ x ∈ items, DistinctKeys x) → DistinctKeys (.array items)
  | object {ms : Members} : (ms.map (·.1)).Nodup → (∀ m ∈ ms, DistinctKeys m.2) →
      DistinctKeys (.object ms)

theorem distinctKeys_object_iff {ms : Members} :
    DistinctKeys (.object ms) ↔ (ms.map (·.1)).Nodup ∧ ∀ m ∈ ms, DistinctKeys m.2 := by
  constructor
  · intro h
    cases h with
    | object hkeys hvalues => exact ⟨hkeys, hvalues⟩
  · intro h
    exact .object h.1 h.2

end Json

namespace Document

open Json (DistinctKeys distinctKeys_object_iff)
open Members

/-! ### One member -/

/-- What a value, which may be missing, becomes under a value of a patch: null removes it, and
anything else is merged into it. -/
def mergedMember (old : Option Json) (v : Json) : Option Json :=
  if v = .null then none else some (mergePatch (old.getD .null) v)

/-- The members of a target with one member of a patch merged into them. -/
def mergeOne (target : Members) (m : Text × Json) : Members :=
  match mergedMember (get? m.1 target) m.2 with
  | none => erase m.1 target
  | some v => put m.1 v target

@[simp] theorem mergedMember_null (old : Option Json) : mergedMember old .null = none := rfl

theorem mergedMember_of_ne {v : Json} (h : v ≠ .null) (old : Option Json) :
    mergedMember old v = some (mergePatch (old.getD .null) v) :=
  if_neg h

theorem mergedMember_mergedMember {v w : Json} (hv : v ≠ .null) (hw : w ≠ .null)
    (old : Option Json) :
    mergedMember (mergedMember old v) w = some (mergePatch (mergePatch (old.getD .null) v) w) := by
  rw [mergedMember_of_ne hv, mergedMember_of_ne hw, Option.getD_some]

theorem mergedMember_eq_none_iff {old : Option Json} {v : Json} :
    mergedMember old v = none ↔ v = .null := by
  simp [mergedMember]

theorem get?_mergeOne (key : Text) (target : Members) (m : Text × Json) :
    get? key (mergeOne target m) =
      if m.1 = key then mergedMember (get? key target) m.2 else get? key target := by
  rw [mergeOne]
  by_cases hk : m.1 = key
  · subst hk
    cases mergedMember (get? m.1 target) m.2 with
    | none => simp [get?_erase]
    | some v => simp [get?_put]
  · cases mergedMember (get? m.1 target) m.2 with
    | none => simp [get?_erase, hk]
    | some v => simp [get?_put, hk]

/-- Merging a member removes its key, or keeps all keys and adds its own if it is new. -/
theorem keys_mergeOne (target : Members) (m : Text × Json) :
    (mergeOne target m).map (·.1) =
      if m.2 = .null then (target.map (·.1)).filter (· ≠ m.1)
      else if m.1 ∈ target.map (·.1) then target.map (·.1) else target.map (·.1) ++ [m.1] := by
  rw [mergeOne]
  by_cases hnull : m.2 = .null
  · rw [mergedMember_eq_none_iff.2 hnull, if_pos hnull, keys_erase]
  · rw [mergedMember_of_ne hnull, if_neg hnull, keys_put]

/-- A member that is as the patch would leave it makes no difference. -/
theorem mergeOne_eq_self {target : Members} {m : Text × Json}
    (h : mergedMember (get? m.1 target) m.2 = get? m.1 target) : mergeOne target m = target := by
  rw [mergeOne, h]
  cases hget : get? m.1 target with
  | none => exact erase_eq_self hget
  | some v => exact put_eq_self hget

/-! ### All members -/

theorem mergeMembers_cons (target : Members) (m : Text × Json) (ms : Members) :
    mergeMembers target (m :: ms) = mergeMembers (mergeOne target m) ms := by
  obtain ⟨key, v⟩ := m
  cases v with
  | null => rfl
  | _ => rfl

/-- The value of a key after a patch is merged depends on its value before and on that in the patch
alone. -/
theorem get?_mergeMembers {patch : Members} (h : (patch.map (·.1)).Nodup) (key : Text)
    (target : Members) :
    get? key (mergeMembers target patch) =
      match get? key patch with
      | none => get? key target
      | some v => mergedMember (get? key target) v := by
  induction patch generalizing target with
  | nil => rfl
  | cons m patch ih =>
    obtain ⟨hm, hpatch⟩ := List.nodup_cons.1 h
    rw [mergeMembers_cons, ih hpatch, get?_mergeOne, get?]
    by_cases hk : m.1 = key
    · rw [if_pos hk, if_pos hk, get?_eq_none_iff.2 (hk ▸ hm)]
    · rw [if_neg hk, if_neg hk]

theorem mergePatch_object (t : Json) (patch : Members) :
    mergePatch t (.object patch) = .object (mergeMembers (t.members?.getD []) patch) := by
  rw [mergePatch]

theorem mergePatch_mergePatch_object (t : Json) (ps qs : Members) :
    mergePatch (mergePatch t (.object ps)) (.object qs) =
      .object (mergeMembers (mergeMembers (t.members?.getD []) ps) qs) := by
  rw [mergePatch_object t, mergePatch_object, Json.members?, Option.getD_some]

/-! ### Keys -/

/-- The keys after a patch is merged: those that it does not remove, in their places, and behind
them those of its own that are new. -/
def mergedKeys (keys : List Text) (patch : Members) : List Text :=
  keys.filter (fun key => get? key patch ≠ some .null) ++
    (patch.map (·.1)).filter fun key => key ∉ keys ∧ get? key patch ≠ some .null

section

variable {keys : List Text} {m : Text × Json} {patch : Members}

theorem mergedKeys_nil (keys : List Text) : mergedKeys keys [] = keys := by
  rw [mergedKeys, List.filter_eq_self.2 (by simp)]
  exact List.append_nil _

theorem get?_cons_ne_null_iff (hm : m.1 ∉ patch.map (·.1)) (hnull : m.2 ≠ .null) (key : Text) :
    get? key (m :: patch) ≠ some .null ↔ get? key patch ≠ some .null := by
  by_cases hk : m.1 = key
  · subst hk
    simp [get?, hnull, get?_eq_none_iff.2 hm]
  · simp [get?, hk]

/-- A member does not matter for which of the others are new. -/
theorem newKeys_cons {keys' : List Text} (hm : m.1 ∉ patch.map (·.1))
    (h : ∀ key, key ≠ m.1 → (key ∈ keys ↔ key ∈ keys')) :
    (patch.map (·.1)).filter (fun key => key ∉ keys ∧ get? key (m :: patch) ≠ some .null) =
      (patch.map (·.1)).filter fun key => key ∉ keys' ∧ get? key patch ≠ some .null := by
  refine List.filter_congr ?_
  intro key hkey
  have hother : key ≠ m.1 := fun heq => hm (heq ▸ hkey)
  simp [get?, Ne.symm hother, h key hother]

/-- A key that is removed is not among those that are still to come. -/
theorem mergedKeys_cons_null (hm : m.1 ∉ patch.map (·.1)) (hnull : m.2 = .null) :
    mergedKeys keys (m :: patch) = mergedKeys (keys.filter (· ≠ m.1)) patch := by
  have hkept : ∀ key, get? key (m :: patch) ≠ some .null ↔
      get? key patch ≠ some .null ∧ key ≠ m.1 := by
    intro key
    by_cases hk : m.1 = key
    · simp [get?, hk, hnull]
    · simp [get?, hk, Ne.symm hk]
  have hothers : ∀ key, key ≠ m.1 → (key ∈ keys ↔ key ∈ keys.filter (· ≠ m.1)) := by
    intro key hother
    simp [hother]
  rw [mergedKeys, mergedKeys, List.map_cons, List.filter_cons_of_neg (by simp [get?, hnull]),
    newKeys_cons hm hothers, List.filter_filter]
  simp only [hkept, Bool.decide_and]

theorem mergedKeys_cons_old (hm : m.1 ∉ patch.map (·.1)) (hnull : m.2 ≠ .null)
    (hold : m.1 ∈ keys) : mergedKeys keys (m :: patch) = mergedKeys keys patch := by
  rw [mergedKeys, mergedKeys, List.map_cons, List.filter_cons_of_neg (by simp [hold]),
    newKeys_cons hm fun _ _ => Iff.rfl]
  simp only [get?_cons_ne_null_iff hm hnull]

/-- A new key comes behind those that are there, before those that are still to come. -/
theorem mergedKeys_cons_new (hm : m.1 ∉ patch.map (·.1)) (hnull : m.2 ≠ .null)
    (hnew : m.1 ∉ keys) : mergedKeys keys (m :: patch) = mergedKeys (keys ++ [m.1]) patch := by
  have hnone : get? m.1 patch = none := get?_eq_none_iff.2 hm
  have hothers : ∀ key, key ≠ m.1 → (key ∈ keys ↔ key ∈ keys ++ [m.1]) := by
    intro key hother
    simp [hother]
  rw [mergedKeys, mergedKeys, List.map_cons,
    List.filter_cons_of_pos (by simp [get?, hnew, hnull]), newKeys_cons hm hothers,
    List.filter_append, List.filter_cons_of_pos (by simp [hnone]), List.filter_nil,
    List.append_assoc, List.singleton_append]
  simp only [get?_cons_ne_null_iff hm hnull]

end

/-- Merging members in order keeps, removes and adds keys in that order. -/
theorem keys_mergeMembers {patch : Members} (h : (patch.map (·.1)).Nodup) (target : Members) :
    (mergeMembers target patch).map (·.1) = mergedKeys (target.map (·.1)) patch := by
  induction patch generalizing target with
  | nil => exact (mergedKeys_nil _).symm
  | cons m patch ih =>
    obtain ⟨hm, hpatch⟩ := List.nodup_cons.1 h
    rw [mergeMembers_cons, ih hpatch, keys_mergeOne]
    by_cases hnull : m.2 = .null
    · rw [if_pos hnull, mergedKeys_cons_null hm hnull]
    · rw [if_neg hnull]
      by_cases hold : m.1 ∈ target.map (·.1)
      · rw [if_pos hold, mergedKeys_cons_old hm hnull hold]
      · rw [if_neg hold, mergedKeys_cons_new hm hnull hold]

/-! ### Distinct keys -/

theorem distinctKeys_members {t : Json} (h : t.DistinctKeys) :
    (Json.object (t.members?.getD [])).DistinctKeys := by
  cases t with
  | object target => exact h
  | _ => exact distinctKeys_object_iff.2 ⟨List.nodup_nil, List.forall_mem_nil _⟩

theorem distinctKeys_get? {target : Members} (h : (Json.object target).DistinctKeys) (key : Text) :
    ((get? key target).getD .null).DistinctKeys := by
  obtain ⟨hkeys, hvalues⟩ := distinctKeys_object_iff.1 h
  cases hget : get? key target with
  | none => exact .null
  | some v => exact hvalues _ ((get?_eq_some_iff hkeys).1 hget)

theorem distinctKeys_mergeOne {target : Members} {m : Text × Json}
    (h : (Json.object target).DistinctKeys)
    (hm : ∀ t : Json, t.DistinctKeys → (mergePatch t m.2).DistinctKeys) :
    (Json.object (mergeOne target m)).DistinctKeys := by
  obtain ⟨hkeys, hvalues⟩ := distinctKeys_object_iff.1 h
  refine distinctKeys_object_iff.2 ⟨?_, ?_⟩
  · rw [keys_mergeOne]
    split
    · exact hkeys.filter _
    · split
      · exact hkeys
      · next hnew =>
        refine List.nodup_append.2 ⟨hkeys, List.pairwise_singleton _ _, ?_⟩
        intro key hkey other hother heq
        exact hnew (List.mem_singleton.1 hother ▸ heq ▸ hkey)
  · intro n hn
    rw [mergeOne] at hn
    by_cases hnull : m.2 = .null
    · rw [mergedMember_eq_none_iff.2 hnull] at hn
      exact hvalues n (List.mem_filter.1 hn).1
    · rw [mergedMember_of_ne hnull] at hn
      cases mem_put hn with
      | inl hput => exact hput ▸ hm _ (distinctKeys_get? h m.1)
      | inr hmem => exact hvalues n hmem

theorem distinctKeys_mergeMembers {target patch : Members} (h : (Json.object target).DistinctKeys)
    (hpatch : ∀ m ∈ patch, ∀ t : Json, t.DistinctKeys → (mergePatch t m.2).DistinctKeys) :
    (Json.object (mergeMembers target patch)).DistinctKeys := by
  induction patch generalizing target with
  | nil => exact h
  | cons m patch ih =>
    rw [List.forall_mem_cons] at hpatch
    rw [mergeMembers_cons]
    exact ih (distinctKeys_mergeOne h hpatch.1) hpatch.2

/-- Merging does not make objects that repeat a key. -/
theorem distinctKeys_mergePatch {t p : Json} (ht : t.DistinctKeys) (hp : p.DistinctKeys) :
    (mergePatch t p).DistinctKeys := by
  induction hp generalizing t with
  | null => exact .null
  | bool b => exact .bool b
  | int n => exact .int n
  | float x => exact .float x
  | text u => exact .text u
  | array hitems => exact .array hitems
  | object _ _ ih =>
    rw [mergePatch_object]
    exact distinctKeys_mergeMembers (distinctKeys_members ht) fun m hm _ => ih m hm

/-! ### Patches -/

/-- **What a merge patch makes of a target, member by member.** A patch that is no object is the
result. Otherwise the result is an object. Its keys are those of the target that the patch does not
map to null, in the order of the target, and then those of the patch that are new and not mapped to
null, in the order of the patch; a target that is no object has no keys. The value of a key is that
in the target where the patch does not mention it, and otherwise the value in the target, or null if
it is missing there, with that in the patch merged into it. -/
theorem mergePatch_memberwise (t : Json) {p : Json} (hp : p.DistinctKeys) :
    match p with
    | .object patch =>
      ∃ merged, mergePatch t p = .object merged ∧
        merged.map (·.1) = mergedKeys ((t.members?.getD []).map (·.1)) patch ∧
        ∀ key ∈ merged.map (·.1),
          get? key merged =
            match get? key patch with
            | none => get? key (t.members?.getD [])
            | some v => some (mergePatch ((get? key (t.members?.getD [])).getD .null) v)
    | _ => mergePatch t p = p := by
  cases p with
  | object patch =>
    have hkeys : (patch.map (·.1)).Nodup := (distinctKeys_object_iff.1 hp).1
    refine ⟨_, mergePatch_object t patch, keys_mergeMembers hkeys _, ?_⟩
    intro key hkey
    have hthere : get? key (mergeMembers (t.members?.getD []) patch) ≠ none :=
      fun hnone => get?_eq_none_iff.1 hnone hkey
    rw [get?_mergeMembers hkeys] at hthere ⊢
    cases hv : get? key patch with
    | none => rfl
    | some v =>
      rw [hv] at hthere
      exact mergedMember_of_ne (mt mergedMember_eq_none_iff.2 hthere) _
  | _ => rfl

/-- The members of a target: a number, an object and a text. -/
def sampleTarget : Members :=
  [(['b'], .int 1), (['a'], .object [(['x'], .int 1), (['y'], .int 2)]), (['c'], .text ['s'])]

/-- A patch for `sampleTarget`, in another order: it removes the number, merges into the object,
replaces the text by an object and adds a member. -/
def samplePatch : Members :=
  [(['c'], .object [(['m'], .null), (['n'], .int 0)]), (['b'], .null),
    (['a'], .object [(['x'], .null)]), (['d'], .object [(['m'], .null)])]

theorem distinctKeys_samplePatch : (Json.object samplePatch).DistinctKeys := by
  simp [samplePatch, distinctKeys_object_iff, DistinctKeys.null, DistinctKeys.int]

theorem mergePatch_memberwise_sample :
    (Json.object samplePatch).DistinctKeys ∧
      ∃ merged, mergePatch (.object sampleTarget) (.object samplePatch) = .object merged ∧
        merged.map (·.1) = [['a'], ['c'], ['d']] ∧
        get? ['a'] merged = some (.object [(['y'], .int 2)]) ∧
        get? ['c'] merged = some (.object [(['n'], .int 0)]) ∧
        get? ['d'] merged = some (.object []) := by
  obtain ⟨merged, hmerged, hkeys, hvalues⟩ :=
    mergePatch_memberwise (.object sampleTarget) distinctKeys_samplePatch
  have hall : merged.map (·.1) = [['a'], ['c'], ['d']] := hkeys.trans (by decide)
  rw [hall] at hvalues
  exact ⟨distinctKeys_samplePatch, merged, hmerged, hall, hvalues _ (by decide),
    hvalues _ (by decide), hvalues _ (by decide)⟩

/-! ### The same patch again -/

/-- A patch whose members are all merged already makes no difference. -/
theorem mergeMembers_eq_self {target patch : Members}
    (h : ∀ m ∈ patch, mergeOne target m = target) : mergeMembers target patch = target := by
  induction patch with
  | nil => rfl
  | cons m patch ih =>
    rw [List.forall_mem_cons] at h
    rw [mergeMembers_cons, h.1, ih h.2]

theorem mergedMember_again {v : Json} (h : ∀ t, mergePatch (mergePatch t v) v = mergePatch t v)
    (old : Option Json) : mergedMember (mergedMember old v) v = mergedMember old v := by
  by_cases hnull : v = .null
  · simp [hnull]
  · rw [mergedMember_mergedMember hnull hnull, mergedMember_of_ne hnull, h]

/-- **Merging the same patch a second time changes nothing**, not even the order of keys. -/
theorem mergePatch_again (t : Json) {p : Json} (hp : p.DistinctKeys) :
    mergePatch (mergePatch t p) p = mergePatch t p := by
  -- By induction on the patch, at all targets: a member of the result is the target of the next.
  induction hp generalizing t with
  | null | bool | int | float | text | array => rfl
  | @object patch hkeys _ ih =>
    rw [mergePatch_mergePatch_object, mergePatch_object]
    refine congrArg Json.object (mergeMembers_eq_self ?_)
    intro m hm
    have hmerged : get? m.1 (mergeMembers (t.members?.getD []) patch) =
        mergedMember (get? m.1 (t.members?.getD [])) m.2 := by
      rw [get?_mergeMembers hkeys, (get?_eq_some_iff hkeys).2 hm]
    refine mergeOne_eq_self ?_
    rw [hmerged, mergedMember_again (ih m hm)]

theorem mergePatch_again_sample :
    (Json.object samplePatch).DistinctKeys ∧
      mergePatch (mergePatch (.text ['s']) (.object samplePatch)) (.object samplePatch) =
        .object [(['c'], .object [(['n'], .int 0)]), (['a'], .object []), (['d'], .object [])] :=
  ⟨distinctKeys_samplePatch, mergePatch_again _ distinctKeys_samplePatch⟩

end Document

end DocTable
