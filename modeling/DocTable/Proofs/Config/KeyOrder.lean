import DocTable.Config.File
import DocTable.Proofs.Result
/-!
# DocTable.Proofs.Config.KeyOrder

Which keys can be put in order.

Keys of a mapping may be of any kind, and only keys that are ordered in the same way can be compared
(`keyBelow_eq_ok_iff`). Insertion compares a key with at least one of those that are in order
already, which can all be compared with each other. So it fails exactly if the key does not belong
with them (`insertKey_eq_ok_iff`), and a list of keys can be put in order exactly if any two of them
can be compared (`sortKeys_eq_ok_iff`).
-/

namespace DocTable.ConfigFile

open Yaml (Value)

/-- The ways in which keys are ordered. Times are ordered with those that have a zone as they do, or
have none as they do. -/
inductive KeyOrder where
  | texts
  | bytes
  | numbers
  | dates
  | times (zoned : Bool)

/-- How a key is ordered; null and collections are not. -/
def keyOrder? : Value → Option KeyOrder
  | .text _ => some .texts
  | .bytes _ => some .bytes
  | .bool _ | .int _ | .float _ => some .numbers
  | .date _ => some .dates
  | .moment m => some (.times m.zone.isSome)
  | .null | .list _ | .pairs _ | .set _ | .dict _ | .cycle _ => none

/-- Two keys have a common order. -/
def Comparable (a b : Value) : Prop :=
  ∃ order, keyOrder? a = some order ∧ keyOrder? b = some order

theorem Comparable.symm {a b : Value} (h : Comparable a b) : Comparable b a := by
  obtain ⟨order, ha, hb⟩ := h
  exact ⟨order, hb, ha⟩

theorem Comparable.trans {a b c : Value} (hab : Comparable a b) (hbc : Comparable b c) :
    Comparable a c := by
  obtain ⟨order, ha, hb⟩ := hab
  obtain ⟨order', hb', hc⟩ := hbc
  obtain rfl : order = order' := Option.some.inj (hb.symm.trans hb')
  exact ⟨order, ha, hc⟩

theorem keyBelow_eq_ok_iff {a b : Value} : (∃ r, keyBelow a b = .ok r) ↔ Comparable a b := by
  cases a <;> cases b
  case moment.moment m n =>
    rw [keyBelow]
    by_cases h : m.zone.isSome = n.zone.isSome
    · simp [h, Comparable, keyOrder?]
    · simp [h, Ne.symm h, Comparable, keyOrder?]
  all_goals simp [keyBelow, Comparable, keyOrder?, Value.worth?, Json.worth?]

theorem perm_insertKey {key : Value} {done r : List Value} (h : insertKey key done = .ok r) :
    r.Perm (key :: done) := by
  induction done generalizing r with
  | nil =>
    cases h
    exact .refl _
  | cons k rest ih =>
    rw [insertKey] at h
    obtain ⟨below, -, h⟩ := bind_eq_ok_iff.1 h
    cases below with
    | true =>
      obtain ⟨r', hr', h⟩ := bind_eq_ok_iff.1 h
      cases h
      exact ((ih hr').cons k).trans (.swap key k rest)
    | false =>
      cases h
      exact .refl _

theorem insertKey_eq_ok {key : Value} {done : List Value} (h : ∀ k ∈ done, Comparable key k) :
    ∃ r, insertKey key done = .ok r := by
  induction done with
  | nil => exact ⟨[key], rfl⟩
  | cons k rest ih =>
    rw [List.forall_mem_cons] at h
    obtain ⟨below, hbelow⟩ := keyBelow_eq_ok_iff.2 h.1
    obtain ⟨r, hr⟩ := ih h.2
    rw [insertKey]
    cases below with
    | true => exact ⟨k :: r, bind_eq_ok_iff.2 ⟨true, hbelow, bind_eq_ok_iff.2 ⟨r, hr, rfl⟩⟩⟩
    | false => exact ⟨key :: k :: rest, bind_eq_ok_iff.2 ⟨false, hbelow, rfl⟩⟩

/-- A key is compared with the last of the keys that are in order, and those are all of its kind. -/
theorem insertKey_eq_ok_iff {key : Value} {done : List Value} (hdone : done.Pairwise Comparable) :
    (∃ r, insertKey key done = .ok r) ↔ ∀ k ∈ done, Comparable key k := by
  refine ⟨?_, insertKey_eq_ok⟩
  rintro ⟨r, hr⟩
  cases done with
  | nil => exact List.forall_mem_nil _
  | cons last rest =>
    rw [insertKey] at hr
    obtain ⟨below, hbelow, -⟩ := bind_eq_ok_iff.1 hr
    have hlast : Comparable key last := keyBelow_eq_ok_iff.1 ⟨below, hbelow⟩
    refine List.forall_mem_cons.2 ⟨hlast, fun k hk => ?_⟩
    exact hlast.trans ((List.pairwise_cons.1 hdone).1 k hk)

theorem pairwise_iff_of_perm {as bs : List Value} (h : as.Perm bs) :
    as.Pairwise Comparable ↔ bs.Pairwise Comparable :=
  h.pairwise_iff Comparable.symm

/-- The keys that are in order already can be compared with each other, and those that are inserted
one after the other join them as long as they can be compared with all of them. -/
theorem foldlM_insertKey_eq_ok_iff {keys done : List Value} (hdone : done.Pairwise Comparable) :
    (∃ r, keys.foldlM (fun done k => insertKey k done) done = .ok r) ↔
      (keys ++ done).Pairwise Comparable := by
  induction keys generalizing done with
  | nil => exact ⟨fun _ => hdone, fun _ => ⟨done, rfl⟩⟩
  | cons k keys ih =>
    have hnext : ∀ {next}, insertKey k done = .ok next →
        ((keys ++ next).Pairwise Comparable ↔ (k :: keys ++ done).Pairwise Comparable) :=
      fun h => pairwise_iff_of_perm
        (((perm_insertKey h).append_left keys).trans List.perm_middle)
    rw [List.foldlM_cons]
    constructor
    · rintro ⟨r, h⟩
      obtain ⟨next, hinsert, h⟩ := bind_eq_ok_iff.1 h
      have hjoined : next.Pairwise Comparable := by
        rw [pairwise_iff_of_perm (perm_insertKey hinsert), List.pairwise_cons]
        exact ⟨(insertKey_eq_ok_iff hdone).1 ⟨next, hinsert⟩, hdone⟩
      exact (hnext hinsert).1 ((ih hjoined).1 ⟨r, h⟩)
    · intro h
      have hk : ∀ k' ∈ done, Comparable k k' := fun k' hk' =>
        (List.pairwise_cons.1 h).1 k' (List.mem_append_right _ hk')
      obtain ⟨next, hinsert⟩ := insertKey_eq_ok hk
      have hrest := (hnext hinsert).2 h
      obtain ⟨r, hr⟩ := (ih (List.pairwise_append.1 hrest).2.1).2 hrest
      exact ⟨r, bind_eq_ok_iff.2 ⟨next, hinsert, hr⟩⟩

theorem perm_foldlM_insertKey {keys done r : List Value}
    (h : keys.foldlM (fun done k => insertKey k done) done = .ok r) : r.Perm (keys ++ done) := by
  induction keys generalizing done with
  | nil =>
    cases h
    exact .refl _
  | cons k keys ih =>
    rw [List.foldlM_cons] at h
    obtain ⟨next, hinsert, h⟩ := bind_eq_ok_iff.1 h
    exact (ih h).trans (((perm_insertKey hinsert).append_left keys).trans List.perm_middle)

/-- Keys can be put in order exactly if any two of them can be compared. -/
theorem sortKeys_eq_ok_iff {keys : List Value} :
    (∃ sorted, sortKeys keys = .ok sorted) ↔ keys.Pairwise Comparable := by
  have hfold := @foldlM_insertKey_eq_ok_iff keys [] .nil
  rw [List.append_nil] at hfold
  rw [← hfold]
  constructor
  · rintro ⟨sorted, h⟩
    obtain ⟨r, hr, -⟩ := map_eq_ok_iff.1 h
    exact ⟨r, hr⟩
  · rintro ⟨r, hr⟩
    exact ⟨r.reverse, map_eq_ok_iff.2 ⟨r, hr, rfl⟩⟩

/-- No key is lost when keys are put in order. -/
theorem perm_sortKeys {keys sorted : List Value} (h : sortKeys keys = .ok sorted) :
    sorted.Perm keys := by
  obtain ⟨r, hr, rfl⟩ := map_eq_ok_iff.1 h
  have hperm := perm_foldlM_insertKey hr
  rw [List.append_nil] at hperm
  exact r.reverse_perm.trans hperm

end DocTable.ConfigFile
