import DocTable.Json.Writer
import DocTable.Proofs.Document.Merging
import DocTable.Proofs.Text.Order
/-!
# DocTable.Proofs.Document.Independent

Patches that do not get in each other's way.

Two patches are `Independent` if what they share are the objects on the way to different members.
They can be merged in either order (`mergePatch_comm`). A patch changes what the other one finds,
but only at keys that both have; there both are objects again, and the argument goes on below.

The results have the same keys in another order, since new keys go behind the others. So they are
compared by their forms with sorted keys, which are equal exactly if the values of every key have
equal forms (`sortKeys_object_eq_iff`).
-/

namespace DocTable

namespace Json

open Members

/-! ### Values up to the order of keys -/

theorem keys_sortKeysMembers (ms : Members) :
    (sortKeysMembers ms).map (·.1) = ms.map (·.1) := by
  rw [sortKeysMembers_eq_map, List.map_map]
  rfl

theorem get?_sortKeysMembers (key : Text) (ms : Members) :
    get? key (sortKeysMembers ms) = (get? key ms).map sortKeys := by
  induction ms with
  | nil => rfl
  | cons m ms ih =>
    rw [sortKeysMembers, get?, get?, ih]
    split
    · rfl
    · rfl

/-- Objects are the same up to the order of keys if and only if their values of every key are. -/
theorem sortKeys_object_eq_iff {ms ns : Members} (hms : (ms.map (·.1)).Nodup)
    (hns : (ns.map (·.1)).Nodup) :
    (object ms).sortKeys = (object ns).sortKeys ↔
      ∀ key, (get? key ms).map sortKeys = (get? key ns).map sortKeys := by
  rw [← keys_sortKeysMembers] at hms hns
  rw [sortKeys, sortKeys, object.injEq, Text.sortBy_eq_iff_perm hms, perm_iff_get? hms hns]
  simp only [get?_sortKeysMembers]

end Json

namespace Document

open Json Members

/-! ### Independent patches -/

/-- Patches that nowhere disagree: both are objects, and at each key that they share the values are
such patches in turn. -/
inductive Independent : Json → Json → Prop
  | objects {ps qs : Members} :
    (∀ m ∈ ps, ∀ n ∈ qs, m.1 = n.1 → Independent m.2 n.2) → Independent (.object ps) (.object qs)

theorem independent_objects_iff {ps qs : Members} :
    Independent (.object ps) (.object qs) ↔
      ∀ m ∈ ps, ∀ n ∈ qs, m.1 = n.1 → Independent m.2 n.2 := by
  constructor
  · intro h
    cases h with
    | objects hshared => exact hshared
  · exact .objects

/-- Neither of two independent patches is null. -/
theorem Independent.ne_null {p q : Json} (h : Independent p q) : p ≠ .null ∧ q ≠ .null := by
  cases h
  exact ⟨nofun, nofun⟩

/-- **Independent patches can be merged in either order**, up to the order of keys. -/
theorem mergePatch_comm {t p q : Json} (ht : t.DistinctKeys) (hp : p.DistinctKeys)
    (hq : q.DistinctKeys) (h : Independent p q) :
    (mergePatch (mergePatch t p) q).sortKeys = (mergePatch (mergePatch t q) p).sortKeys := by
  -- By induction on both patches at once, at all targets: below a key that both have, the target is
  -- its value.
  induction h generalizing t with
  | @objects ps qs hshared ih =>
    have hpq := distinctKeys_mergePatch (distinctKeys_mergePatch ht hp) hq
    have hqp := distinctKeys_mergePatch (distinctKeys_mergePatch ht hq) hp
    rw [mergePatch_mergePatch_object, distinctKeys_object_iff] at hpq hqp
    rw [mergePatch_mergePatch_object, mergePatch_mergePatch_object,
      sortKeys_object_eq_iff hpq.1 hqp.1]
    rw [distinctKeys_object_iff] at hp hq
    intro key
    rw [get?_mergeMembers hq.1, get?_mergeMembers hp.1, get?_mergeMembers hp.1,
      get?_mergeMembers hq.1]
    cases hv : get? key ps with
    | none => rfl
    | some v =>
      cases hw : get? key qs with
      | none => rfl
      | some w =>
        have hps : (key, v) ∈ ps := (get?_eq_some_iff hp.1).1 hv
        have hqs : (key, w) ∈ qs := (get?_eq_some_iff hq.1).1 hw
        have hne := (hshared _ hps _ hqs rfl).ne_null
        have hbelow := ih _ hps _ hqs rfl (distinctKeys_get? (distinctKeys_members ht) key)
          (hp.2 _ hps) (hq.2 _ hqs)
        simp only [mergedMember_mergedMember hne.1 hne.2, mergedMember_mergedMember hne.2 hne.1,
          Option.map_some, hbelow]

/-- A patch for `sampleTarget` that changes other things than `samplePatch`, in objects that both
go through. -/
def otherPatch : Members :=
  [(['a'], .object [(['y'], .int 3), (['z'], .null)]), (['d'], .object [(['n'], .bool true)]),
    (['e'], .null), (['c'], .object [(['o'], .object [])])]

theorem mergePatch_comm_sample :
    (Json.object sampleTarget).DistinctKeys ∧ (Json.object samplePatch).DistinctKeys ∧
      (Json.object otherPatch).DistinctKeys ∧
      Independent (.object samplePatch) (.object otherPatch) ∧
      (mergePatch (mergePatch (.object sampleTarget) (.object samplePatch))
        (.object otherPatch)).sortKeys =
      (mergePatch (mergePatch (.object sampleTarget) (.object otherPatch))
        (.object samplePatch)).sortKeys := by
  have htarget : (Json.object sampleTarget).DistinctKeys := by
    simp [sampleTarget, distinctKeys_object_iff, DistinctKeys.int, DistinctKeys.text]
  have hother : (Json.object otherPatch).DistinctKeys := by
    simp [otherPatch, distinctKeys_object_iff, DistinctKeys.null, DistinctKeys.bool,
      DistinctKeys.int]
  have hindependent : Independent (.object samplePatch) (.object otherPatch) := by
    simp [samplePatch, otherPatch, independent_objects_iff]
  exact ⟨htarget, distinctKeys_samplePatch, hother, hindependent,
    mergePatch_comm htarget distinctKeys_samplePatch hother hindependent⟩

end Document

end DocTable
