import DocTable.Proofs.Document.Merging
/-!
# DocTable.Proofs.Document.NullMembers

Merge patches store no null.

A null in a patch removes a member, so it must not become one, wherever in the patch it stands:
below a key that the target lacks or has another kind of value for, or inside an object that the
patch has just created. `mergePatch_nullFree` says so of the members that are reached through
objects. Arrays are replaced as a whole, and their nulls stay.

An object of the patch is merged into what is there as if each member were written in turn, so the
law for one member (`nullFree_mergeOne`) is carried along the members of an object, and that for
one patch (`nullFree_mergePatch`) along a sequence of patches (`nullFree_foldl_mergePatch`).
-/

namespace DocTable

namespace Json

/-! ### Members that are reached -/

/-- A value is reached from another one through members of objects, in any number of steps. -/
inductive Reached (u : Json) : Json → Prop
  | here : Reached u u
  | member {ms : Members} {m : Text × Json} : m ∈ ms → Reached u m.2 → Reached u (.object ms)

/-- No object that is reached has a null member. -/
def NullFree (v : Json) : Prop :=
  ∀ ms, Reached (.object ms) v → ∀ m ∈ ms, m.2 ≠ .null

theorem nullFree_object_iff {ms : Members} :
    NullFree (.object ms) ↔ ∀ m ∈ ms, m.2 ≠ .null ∧ NullFree m.2 := by
  constructor
  · intro h m hm
    exact ⟨h ms .here m hm, fun ns hns => h ns (.member hm hns)⟩
  · intro h ns hns
    cases hns with
    | here => exact fun m hm => (h m hm).1
    | member hm hns => exact (h _ hm).2 ns hns

/-- A value that is no object has no members to be reached. -/
theorem nullFree_of_members?_eq_none {v : Json} (h : v.members? = none) : NullFree v := by
  intro ms hms
  cases hms with
  | here => cases h
  | member => cases h

end Json

namespace Document

open Json (NullFree nullFree_object_iff nullFree_of_members?_eq_none)
open Members

/-! ### One patch -/

theorem mergePatch_ne_null {p : Json} (h : p ≠ .null) (t : Json) : mergePatch t p ≠ .null := by
  cases p with
  | null => exact absurd rfl h
  | object ms => exact nofun
  | _ => exact h

theorem nullFree_members {t : Json} (h : t.NullFree) :
    (Json.object (t.members?.getD [])).NullFree := by
  cases t with
  | object target => exact h
  | _ => exact nullFree_object_iff.2 (List.forall_mem_nil _)

/-- What is at a key, or the null that stands for nothing there. -/
theorem nullFree_get? {target : Members} (h : (Json.object target).NullFree) (key : Text) :
    ((get? key target).getD .null).NullFree := by
  cases hget : get? key target with
  | none => exact nullFree_of_members?_eq_none rfl
  | some v => exact (nullFree_object_iff.1 h _ (mem_of_get?_eq_some hget)).2

/-- A member of a patch removes its key, or sets it to what is not null. -/
theorem nullFree_mergeOne {target : Members} {m : Text × Json}
    (h : (Json.object target).NullFree)
    (hm : ∀ t : Json, t.NullFree → (mergePatch t m.2).NullFree) :
    (Json.object (mergeOne target m)).NullFree := by
  rw [nullFree_object_iff] at h ⊢
  intro n hn
  rw [mergeOne] at hn
  by_cases hnull : m.2 = .null
  · rw [mergedMember_eq_none_iff.2 hnull] at hn
    exact h n (List.mem_filter.1 hn).1
  · rw [mergedMember_of_ne hnull] at hn
    cases mem_put hn with
    | inl hput =>
      rw [hput]
      exact ⟨mergePatch_ne_null hnull _, hm _ (nullFree_get? (nullFree_object_iff.2 h) m.1)⟩
    | inr hmem => exact h n hmem

-- By induction on the patch, at all targets: a member of the patch is merged into what the members
-- before it have left.
mutual

theorem nullFree_mergePatch : (p : Json) → {t : Json} → t.NullFree → (mergePatch t p).NullFree
  | .object ms, t, ht => by
    rw [mergePatch_object]
    exact nullFree_mergeMembers ms (nullFree_members ht)
  | .null, _, _ | .bool _, _, _ | .int _, _, _ | .float _, _, _ | .text _, _, _ | .array _, _, _ =>
    nullFree_of_members?_eq_none rfl

theorem nullFree_mergeMembers : (ms : List (Text × Json)) → {target : Members} →
    (Json.object target).NullFree → (Json.object (mergeMembers target ms)).NullFree
  | [], _, h => h
  | (key, v) :: ms, target, h => by
    rw [mergeMembers_cons]
    exact nullFree_mergeMembers ms (nullFree_mergeOne h fun _ ht => nullFree_mergePatch v ht)

end

/-- **A merge patch stores no null.** Where no object that is reached in the target has a null
member, none has one afterwards, whatever nulls the patch has, at any depth. Only the null patch
leaves null itself behind. -/
theorem mergePatch_nullFree {t : Json} (ht : t.NullFree) (p : Json) :
    (mergePatch t p).NullFree ∧ (mergePatch t p = .null ↔ p = .null) := by
  refine ⟨nullFree_mergePatch p ht, ?_, ?_⟩
  · exact Decidable.not_imp_not.1 fun hp => mergePatch_ne_null hp t
  · rintro rfl
    rfl

theorem mergePatch_nullFree_sample :
    (Json.object sampleTarget).NullFree ∧
      (mergePatch (.object sampleTarget) (.object samplePatch)).NullFree := by
  have hint : ∀ n, (Json.int n).NullFree := fun _ => nullFree_of_members?_eq_none rfl
  have htext : ∀ t, (Json.text t).NullFree := fun _ => nullFree_of_members?_eq_none rfl
  have htarget : (Json.object sampleTarget).NullFree := by
    simp [sampleTarget, nullFree_object_iff, hint, htext]
  exact ⟨htarget, (mergePatch_nullFree htarget (.object samplePatch)).1⟩

/-! ### Sequences of patches -/

/-- A document that patches are merged into one after the other never holds a null member. -/
theorem nullFree_foldl_mergePatch {t : Json} (ht : t.NullFree) (patches : List Json) :
    (patches.foldl mergePatch t).NullFree := by
  induction patches generalizing t with
  | nil => exact ht
  | cons p patches ih => exact ih (nullFree_mergePatch p ht)

/-- Nulls below a key that the target lacks, below one with a number, and in an array. -/
example :
    mergePatch (.object [(['n'], .int 1)])
        (.object [(['n'], .object [(['x'], .null)]), (['m'], .object [(['y'], .null)]),
          (['a'], .array [.null])]) =
      .object [(['n'], .object []), (['m'], .object []), (['a'], .array [.null])] := rfl

end Document

end DocTable
