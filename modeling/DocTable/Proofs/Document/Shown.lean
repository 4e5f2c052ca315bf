import DocTable.Proofs.Document.Merging
import DocTable.Proofs.Json.Numbers
import DocTable.Proofs.Result
/-!
# DocTable.Proofs.Document.Shown

What has been read may be shown.

The reader takes no whole number that is too long to be written again (`isShowable_of_read`), and a
merge patch makes no numbers of its own (`isShowable_mergePatch`).
-/

namespace DocTable

/-! ### Numbers -/

namespace Decimal

theorem fits_push {count n d : Nat} (h : fits count n = true) (hd : d < 10) :
    fits (count + 1) (n * 10 + d) = true := by
  have hpow : tenTo (count + 1) = tenTo count * 10 := rfl
  rw [fits_iff] at h ⊢
  omega

theorem fits_mono {count count' n : Nat} (h : fits count n = true) (hle : count ≤ count') :
    fits count' n = true := by
  rw [fits_iff] at h ⊢
  exact Nat.lt_of_lt_of_le h (Nat.pow_le_pow_right (by decide) hle)

theorem digit_lt_ten {c : Char} (h : Text.isDigit c = true) : c.toNat - 0x30 < 10 := by
  rw [Text.isDigit, Bool.and_eq_true, decide_eq_true_iff, decide_eq_true_iff] at h
  have hle : c.toNat ≤ 0x39 := h.2
  omega

/-- Every digit that is read needs one digit more. -/
theorem fits_foldl {ds : Text} (hds : ∀ c ∈ ds, Text.isDigit c = true) {count n : Nat}
    (hn : fits count n = true) :
    fits (count + ds.length)
      (ds.foldl (fun acc c => acc * 10 + (c.toNat - 0x30)) n) = true := by
  induction ds generalizing count n with
  | nil => exact hn
  | cons c ds ih =>
    rw [List.forall_mem_cons] at hds
    rw [List.length_cons, Nat.add_comm ds.length, ← Nat.add_assoc]
    exact ih hds.2 (fits_push hn (digit_lt_ten hds.1))

/-- As many digits as stand for a number are enough for it. -/
theorem fits_value {ds : Text} (h : ∀ c ∈ ds, Text.isDigit c = true) :
    fits ds.length (value ds) = true := by
  have hall : fits (0 + ds.length) (value ds) = true := fits_foldl h rfl
  rwa [Nat.zero_add] at hall

end Decimal

namespace Json

/-! ### Readers -/

theorem isDigit_of_mem_wholeDigits? {s whole rest : Text}
    (h : wholeDigits? s = some (whole, rest)) : ∀ c ∈ whole, Text.isDigit c = true := by
  unfold wholeDigits? at h
  split at h
  · cases h
    exact List.forall_mem_singleton.2 rfl
  · split at h
    · cases h
    · next digits _ =>
      cases h
      exact fun c hc => List.all_eq_true.1 List.all_takeWhile c hc

/-- Digits with or without a fraction and an exponent behind them. -/
theorem isShowable_of_numeral {whole rest rest' : Text} {negative scaled : Bool} {x : Binary64}
    {halt : Halt} {v : Json} (hwhole : ∀ c ∈ whole, Text.isDigit c = true)
    (h : (if scaled then .ok (.float x, rest)
      else if Decimal.maxDigits < whole.length then .error halt
      else .ok (.int (if negative then -Decimal.value whole else Decimal.value whole), rest) :
        Except Halt (Json × Text)) = .ok (v, rest')) : v.isShowable = true := by
  split at h
  · cases h
    exact isShowable_float x
  · split at h
    · cases h
    · next hlength =>
      cases h
      have hfits := Decimal.fits_mono (Decimal.fits_value hwhole) (Nat.not_lt.1 hlength)
      rw [isShowable_int, Decimal.isShowable]
      cases negative with
      | true => rwa [if_pos rfl, Int.natAbs_neg, Int.natAbs_natCast]
      | false => rwa [if_neg Bool.false_ne_true, Int.natAbs_natCast]

theorem isShowable_of_readNumber {s rest : Text} {v : Json} (h : readNumber s = .ok (v, rest)) :
    v.isShowable = true := by
  unfold readNumber at h
  dsimp only at h
  split at h
  · cases h
  · next hwhole =>
    have hdigits := isDigit_of_mem_wholeDigits? hwhole
    split at h
    · split at h
      · exact isShowable_of_numeral hdigits h
      · exact isShowable_of_numeral hdigits h
    · split at h
      · exact isShowable_of_numeral hdigits h
      · exact isShowable_of_numeral hdigits h

theorem isShowable_of_name? {s rest : Text} {v : Json} (h : name? s = some (v, rest)) :
    v.isShowable = true := by
  obtain ⟨⟨name, w⟩, hmem, hv⟩ := List.exists_of_findSome?_eq_some h
  obtain ⟨rest', -, hv⟩ := Option.map_eq_some_iff.1 hv
  cases hv
  have hall : ∀ named ∈ names, named.2.isShowable = true := by
    simp [names, isShowable, writeError?]
  exact hall _ hmem

/-- An object that is put together from pairs has only the values of the pairs. -/
theorem isShowable_ofPairs {pairs : List (Text × Json)}
    (h : ∀ m ∈ pairs, m.2.isShowable = true) :
    (Json.object (Members.ofPairs pairs)).isShowable = true :=
  isShowable_object_iff.2 fun m hm => h m (Members.mem_of_mem_ofPairs hm)

-- The readers call each other with less fuel.
mutual

theorem isShowable_of_readValue {s rest : Text} {v : Json} :
    {fuel : Nat} → readValue fuel s = .ok (v, rest) → v.isShowable = true
  | 0, h => by
    rw [readValue] at h
    cases h
  | fuel + 1, h => by
    rw [readValue.eq_def] at h
    dsimp only at h
    split at h
    · obtain ⟨⟨t, rest⟩, -, h⟩ := bind_eq_ok_iff.1 h
      cases h
      rfl
    · split at h
      · cases h
        rfl
      · obtain ⟨⟨items, rest⟩, hread, h⟩ := bind_eq_ok_iff.1 h
        cases h
        exact isShowable_array_iff.2 (isShowable_of_readItems hread)
    · split at h
      · cases h
        rfl
      · obtain ⟨⟨pairs, rest⟩, hread, h⟩ := bind_eq_ok_iff.1 h
        cases h
        exact isShowable_ofPairs (isShowable_of_readMembers hread)
    · split at h
      · next hname =>
        cases h
        exact isShowable_of_name? hname
      · exact isShowable_of_readNumber h

theorem isShowable_of_readItems {s rest : Text} {items : List Json} :
    {fuel : Nat} → readItems fuel s = .ok (items, rest) → ∀ x ∈ items, x.isShowable = true
  | 0, h => by
    rw [readItems] at h
    cases h
  | fuel + 1, h => by
    rw [readItems] at h
    obtain ⟨⟨item, rest⟩, hitem, h⟩ := bind_eq_ok_iff.1 h
    dsimp only at h
    split at h
    · cases h
      exact List.forall_mem_singleton.2 (isShowable_of_readValue hitem)
    · obtain ⟨⟨others, rest⟩, hothers, h⟩ := bind_eq_ok_iff.1 h
      cases h
      exact List.forall_mem_cons.2
        ⟨isShowable_of_readValue hitem, isShowable_of_readItems hothers⟩
    · cases h

theorem isShowable_of_readMembers {s rest : Text} {pairs : Members} :
    {fuel : Nat} → readMembers fuel s = .ok (pairs, rest) → ∀ m ∈ pairs, m.2.isShowable = true
  | 0, h => by
    rw [readMembers] at h
    cases h
  | fuel + 1, h => by
    rw [readMembers.eq_def] at h
    dsimp only at h
    split at h
    · obtain ⟨⟨key, rest⟩, -, h⟩ := bind_eq_ok_iff.1 h
      dsimp only at h
      split at h
      · obtain ⟨⟨value, rest⟩, hread, h⟩ := bind_eq_ok_iff.1 h
        dsimp only at h
        split at h
        · cases h
          exact List.forall_mem_singleton.2 (isShowable_of_readValue hread)
        · obtain ⟨⟨others, rest⟩, hothers, h⟩ := bind_eq_ok_iff.1 h
          cases h
          exact List.forall_mem_cons.2
            ⟨isShowable_of_readValue hread, isShowable_of_readMembers hothers⟩
        · cases h
      · cases h
    · cases h

end

/-- **What has been read may be shown.** -/
theorem isShowable_of_read {t : Text} {v : Json} (h : read t = .ok v) : v.isShowable = true := by
  unfold read at h
  split at h
  · cases h
  · obtain ⟨⟨w, rest⟩, hread, h⟩ := bind_eq_ok_iff.1 (mapError_eq_ok_iff.1 h)
    dsimp only at h
    split at h
    · cases h
      exact isShowable_of_readValue hread
    · cases h

/-- What has been read can be stored unless a number in it is not finite. -/
theorem unwritable_iff_of_read {t : Text} {v : Json} (h : read t = .ok v) :
    v.Unwritable ↔ v.HasNonFinite :=
  unwritable_iff_of_isShowable (isShowable_of_read h)

end Json

/-! ### Merge patches -/

namespace Document

open Members

/-- A member of a patch brings in no number but its own. -/
theorem isShowable_mergeOne {target : Members} {m : Text × Json}
    (h : (Json.object target).isShowable = true)
    (hm : ∀ t : Json, t.isShowable = true → (mergePatch t m.2).isShowable = true) :
    (Json.object (mergeOne target m)).isShowable = true := by
  have hget : ((get? m.1 target).getD .null).isShowable = true := by
    cases hget : get? m.1 target with
    | none => rfl
    | some v => exact Json.isShowable_object_iff.1 h _ (mem_of_get?_eq_some hget)
  rw [Json.isShowable_object_iff] at h ⊢
  intro n hn
  rw [mergeOne] at hn
  by_cases hnull : m.2 = .null
  · rw [mergedMember_eq_none_iff.2 hnull] at hn
    exact h n (List.mem_filter.1 hn).1
  · rw [mergedMember_of_ne hnull] at hn
    cases mem_put hn with
    | inl hput =>
      rw [hput]
      exact hm _ hget
    | inr hmem => exact h n hmem

-- By induction on the patch, at all targets.
mutual

theorem isShowable_mergePatch : (p : Json) → p.isShowable = true → {t : Json} →
    t.isShowable = true → (mergePatch t p).isShowable = true
  | .object ms, hp, t, ht => by
    rw [mergePatch_object]
    refine isShowable_mergeMembers ms (Json.isShowable_object_iff.1 hp) ?_
    cases t with
    | object => exact ht
    | null | bool | int | float | text | array => rfl
  | .null, hp, _, _ | .bool _, hp, _, _ | .int _, hp, _, _ | .float _, hp, _, _ | .text _, hp, _, _
  | .array _, hp, _, _ => hp

theorem isShowable_mergeMembers : (ms : List (Text × Json)) →
    (∀ m ∈ ms, m.2.isShowable = true) → {target : Members} →
    (Json.object target).isShowable = true →
    (Json.object (mergeMembers target ms)).isShowable = true
  | [], _, _, h => h
  | (key, v) :: ms, hms, target, h => by
    rw [List.forall_mem_cons] at hms
    rw [mergeMembers_cons]
    exact isShowable_mergeMembers ms hms.2
      (isShowable_mergeOne h fun _ ht => isShowable_mergePatch v hms.1 ht)

end

end Document

end DocTable
