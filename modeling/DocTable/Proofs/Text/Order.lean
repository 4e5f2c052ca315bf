import DocTable.Text.Basic
import Mathlib.Data.List.Nodup
/-!
# DocTable.Proofs.Text.Order

The order of texts, and lists that are ordered by it.

`before` is a linear order, so a list ordered by a text key is the only ordered arrangement of its
items as long as no key is repeated: two such lists are ordered to the same one if and only if they
have the same items (`sortBy_eq_iff_perm`).
-/

namespace DocTable.Text

/-! ### The order of texts -/

@[simp] theorem before_nil (t : Text) : before [] t = true := by
  rw [before]

@[simp] theorem before_cons_nil (c : Char) (s : Text) : before (c :: s) [] = false := rfl

@[simp] theorem before_cons_cons {a b : Char} {s t : Text} :
    before (a :: s) (b :: t) = true ↔ a.toNat < b.toNat ∨ a = b ∧ before s t = true := by
  simp [before]

theorem before_total : (s t : Text) → before s t = true ∨ before t s = true
  | [], t => .inl (before_nil t)
  | a :: s, [] => .inr (before_nil (a :: s))
  | a :: s, b :: t => by
    rw [before_cons_cons, before_cons_cons]
    rcases Nat.lt_trichotomy a.toNat b.toNat with hlt | heq | hgt
    · exact .inl (.inl hlt)
    · have hab : a = b := Char.toNat_inj.1 heq
      rcases before_total s t with h | h
      · exact .inl (.inr ⟨hab, h⟩)
      · exact .inr (.inr ⟨hab.symm, h⟩)
    · exact .inr (.inl hgt)

theorem before_trans : {s t u : Text} → before s t = true → before t u = true → before s u = true
  | [], _, u, _, _ => before_nil u
  | a :: s, b :: t, c :: u, hst, htu => by
    rw [before_cons_cons] at hst htu ⊢
    rcases hst with hab | ⟨rfl, hst⟩
    · rcases htu with hbc | ⟨rfl, -⟩
      · exact .inl (Nat.lt_trans hab hbc)
      · exact .inl hab
    · exact htu.imp_right fun ⟨hac, htu⟩ => ⟨hac, before_trans hst htu⟩

theorem before_antisymm : {s t : Text} → before s t = true → before t s = true → s = t
  | [], [], _, _ => rfl
  | a :: s, b :: t, hst, hts => by
    rw [before_cons_cons] at hst hts
    rcases hst with hab | ⟨rfl, hst⟩
    · rcases hts with hba | ⟨rfl, -⟩
      · exact absurd hba (Nat.lt_asymm hab)
      · exact absurd hab (Nat.lt_irrefl _)
    · rcases hts with haa | ⟨-, hts⟩
      · exact absurd haa (Nat.lt_irrefl _)
      · rw [before_antisymm hst hts]

/-! ### Ordered lists -/

section

variable {α : Type} {key : α → Text}

/-- A list ordered by a text key. -/
def Ordered (key : α → Text) (xs : List α) : Prop :=
  xs.Pairwise fun x y => before (key x) (key y) = true

theorem ordered_insertBy (x : α) {ys : List α} (h : Ordered key ys) :
    Ordered key (insertBy key x ys) := by
  induction ys with
  | nil => exact List.pairwise_singleton _ x
  | cons y ys ih =>
    obtain ⟨hy, hys⟩ := List.pairwise_cons.1 h
    rw [insertBy]
    split
    · next hyx =>
      refine List.pairwise_cons.2 ⟨?_, ih hys⟩
      intro z hz
      rcases List.mem_cons.1 ((perm_insertBy key x ys).mem_iff.1 hz) with rfl | hz
      · exact hyx
      · exact hy z hz
    · next hyx =>
      have hxy : before (key x) (key y) = true := (before_total _ _).resolve_right hyx
      refine List.pairwise_cons.2 ⟨?_, h⟩
      intro z hz
      rcases List.mem_cons.1 hz with rfl | hz
      · exact hxy
      · exact before_trans hxy (hy z hz)

theorem ordered_sortBy (xs : List α) : Ordered key (sortBy key xs) := by
  have hfold : ∀ done, Ordered key done →
      Ordered key (xs.foldl (fun done x => insertBy key x done) done) := by
    induction xs with
    | nil => exact fun _ h => h
    | cons x xs ih => exact fun _ h => ih _ (ordered_insertBy x h)
  exact hfold [] List.Pairwise.nil

/-- Lists without repeated keys are ordered to the same list if and only if they have the same
items. -/
theorem sortBy_eq_iff_perm {xs ys : List α} (hkeys : (xs.map key).Nodup) :
    sortBy key xs = sortBy key ys ↔ xs.Perm ys := by
  have hxs := perm_sortBy key xs
  have hys := perm_sortBy key ys
  constructor
  · intro h
    exact hxs.symm.trans (h ▸ hys)
  · intro h
    -- Items with one key are one item, so no two of them can change places.
    refine List.Perm.eq_of_pairwise ?_ (ordered_sortBy xs) (ordered_sortBy ys)
      (hxs.trans (h.trans hys.symm))
    intro x y hx hy hxy hyx
    have hx' : x ∈ xs := hxs.mem_iff.1 hx
    have hy' : y ∈ xs := h.mem_iff.2 (hys.mem_iff.1 hy)
    exact List.inj_on_of_nodup_map hkeys hx' hy' (before_antisymm hxy hyx)

end

end DocTable.Text
