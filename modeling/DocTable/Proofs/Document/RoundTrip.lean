import DocTable.Proofs.Json.Ascii
import DocTable.Proofs.Json.Numbers
import DocTable.Proofs.Json.Floats
/-!
# DocTable.Proofs.Document.RoundTrip

Documents come back from storage as they were.

A value is `Storable` if its numbers are finite and not too long, and no object in it repeats a
key. `encode_round_trip` says that such a value has a stored text, which is one line of ASCII, and
that the value is read back from it: with the same kinds of numbers and the same order of keys,
since both are part of the value.
-/

namespace DocTable

namespace Json

/-! ### Storable values -/

/-- A value that can be stored: its numbers are finite and not too long to be read, and no object
in it repeats a key. -/
structure Storable (v : Json) : Prop where
  digits : ∀ n, Occurs (.int n) v → (Decimal.ofNat n.natAbs).length ≤ Decimal.maxDigits
  finite : ¬ v.HasNonFinite
  keys : ∀ ms, Occurs (.object ms) v → (ms.map (·.1)).Nodup

theorem Storable.writable {v : Json} (h : Storable v) : ¬ v.Unwritable := by
  rintro (hfinite | ⟨n, hlong, hoccurs⟩)
  · exact h.finite hfinite
  · rw [Decimal.isShowable_iff.2 (h.digits n hoccurs)] at hlong
    cases hlong

theorem Storable.isShowable {v : Json} (h : Storable v) : v.isShowable = true :=
  isShowable_iff_not_hasLongNumber.2 fun hlong => h.writable (.inr hlong)

/-- The values right inside an array or an object. -/
def parts : Json → List Json
  | .array items => items
  | .object members => members.map (·.2)
  | .null | .bool _ | .int _ | .float _ | .text _ => []

theorem occurs_iff {u v : Json} : Occurs u v ↔ u = v ∨ ∃ x ∈ v.parts, Occurs u x := by
  constructor
  · intro h
    cases h with
    | here => exact .inl rfl
    | item hmem h => exact .inr ⟨_, hmem, h⟩
    | member hmem h => exact .inr ⟨_, List.mem_map.2 ⟨_, hmem, rfl⟩, h⟩
  · rintro (rfl | ⟨x, hx, h⟩)
    · exact .here
    · cases v with
      | array items => exact .item hx h
      | object members =>
        obtain ⟨m, hm, rfl⟩ := List.mem_map.1 hx
        exact .member hm h
      | _ => cases hx

/-- What makes a value storable beside the values inside. -/
def Fits : Json → Prop
  | .int n => (Decimal.ofNat n.natAbs).length ≤ Decimal.maxDigits
  | .float x => x.isFinite = true
  | .object members => (members.map (·.1)).Nodup
  | .null | .bool _ | .text _ | .array _ => True

theorem storable_iff {v : Json} : Storable v ↔ v.Fits ∧ ∀ x ∈ v.parts, Storable x := by
  have hinside : ∀ {u x}, x ∈ v.parts → Occurs u x → Occurs u v :=
    fun hx h => occurs_iff.2 (.inr ⟨_, hx, h⟩)
  constructor
  · intro h
    refine ⟨?_, fun x hx => ?_⟩
    · cases v with
      | int n => exact h.digits n .here
      | float x =>
        rw [Fits, ← Bool.not_eq_false]
        exact fun hx => h.finite ⟨x, hx, .here⟩
      | object members => exact h.keys members .here
      | _ => trivial
    · constructor
      · exact fun n hn => h.digits n (hinside hx hn)
      · exact fun ⟨y, hy, hoccurs⟩ => h.finite ⟨y, hy, hinside hx hoccurs⟩
      · exact fun ms hms => h.keys ms (hinside hx hms)
  · rintro ⟨hfits, hparts⟩
    constructor
    · intro n hn
      rcases occurs_iff.1 hn with rfl | ⟨x, hx, hn⟩
      · exact hfits
      · exact (hparts x hx).digits n hn
    · rintro ⟨y, hy, hoccurs⟩
      rcases occurs_iff.1 hoccurs with rfl | ⟨x, hx, hoccurs⟩
      · exact absurd hfits (Bool.eq_false_iff.1 hy)
      · exact (hparts x hx).finite ⟨y, hy, hoccurs⟩
    · intro ms hms
      rcases occurs_iff.1 hms with rfl | ⟨x, hx, hms⟩
      · exact hfits
      · exact (hparts x hx).keys ms hms

/-- A value with nothing inside. -/
theorem storable_of_leaf {v : Json} (h : v.parts = []) (hfits : v.Fits) : Storable v :=
  storable_iff.2 ⟨hfits, h ▸ List.forall_mem_nil _⟩

@[simp]
theorem storable_null : Storable .null := storable_of_leaf rfl trivial

@[simp]
theorem storable_bool (b : Bool) : Storable (.bool b) := storable_of_leaf rfl trivial

@[simp]
theorem storable_text (t : Text) : Storable (.text t) := storable_of_leaf rfl trivial

theorem storable_int {n : Int} (h : (Decimal.ofNat n.natAbs).length ≤ Decimal.maxDigits) :
    Storable (.int n) := storable_of_leaf rfl h

theorem storable_array_iff {items : List Json} :
    Storable (.array items) ↔ ∀ x ∈ items, Storable x := by
  rw [storable_iff, parts]
  exact ⟨And.right, fun h => ⟨trivial, h⟩⟩

theorem storable_object_iff {members : Members} :
    Storable (.object members) ↔
      (members.map (·.1)).Nodup ∧ ∀ m ∈ members, Storable m.2 := by
  rw [storable_iff, parts, List.forall_mem_map]
  exact Iff.rfl

-- By induction on the value. Floating-point numbers are read back in any case.
mutual

theorem Storable.legible : {v : Json} → Storable v → Legible v
  | .null, _ | .bool _, _ | .text _, _ => trivial
  | .int n, h => h.digits n .here
  | .float x, _ => floatReadsBack x
  | .array _, h => legibleItems_of_storable (storable_array_iff.1 h)
  | .object _, h => ⟨(storable_object_iff.1 h).1,
      legibleMembers_of_storable (storable_object_iff.1 h).2⟩

theorem legibleItems_of_storable : {items : List Json} → (∀ x ∈ items, Storable x) →
    LegibleItems items
  | [], _ => trivial
  | _ :: _, h => ⟨(h _ List.mem_cons_self).legible,
      legibleItems_of_storable fun x hx => h x (List.mem_cons_of_mem _ hx)⟩

theorem legibleMembers_of_storable : {members : List (Text × Json)} →
    (∀ m ∈ members, Storable m.2) → LegibleMembers members
  | [], _ => trivial
  | (_, _) :: _, h => ⟨(h _ List.mem_cons_self).legible,
      legibleMembers_of_storable fun m hm => h m (List.mem_cons_of_mem _ hm)⟩

end

end Json

namespace Document

open Json Text

/-- A storable value has a stored text, which is one line of ASCII, and is read back from it. -/
theorem encode_round_trip {v : Json} (h : Storable v) :
    ∃ t, encode? v = some t ∧ AsciiLine t ∧ Json.read t = .ok v :=
  ⟨v.compact, encode?_eq_some h.writable, asciiLine_writeAt Layout.onLine_compact v 0,
    read_write Layout.blank_compact h.legible⟩

/-- A document with numbers of all kinds, characters that are escaped and parts that are empty. -/
def sample : Json :=
  .object [
    ("id".toList, .text "é\n\"😀".toList),
    ("numbers".toList,
      .array [.int 1, .float (.ofInt 1), .bool true, .int (-1000000000000000000000)]),
    ("empty".toList, .object [("b".toList, .array []), ([], .object []), ("a".toList, .null)])]

theorem encode_round_trip_sample :
    Storable sample ∧
      ∃ t, encode? sample = some t ∧ AsciiLine t ∧ Json.read t = .ok sample := by
  have h : Storable sample := by
    have hnull : Storable .null := storable_of_leaf rfl trivial
    have hbool : Storable (.bool true) := storable_of_leaf rfl trivial
    have htext : ∀ t, Storable (.text t) := fun _ => storable_of_leaf rfl trivial
    have hfloat : Storable (.float (.ofInt 1)) :=
      storable_of_leaf rfl (show (Binary64.ofInt 1).isFinite = true by decide +kernel)
    have hone : Storable (.int 1) :=
      storable_of_leaf rfl (by simp [Fits, Decimal.ofNat, Decimal.maxDigits])
    have hlarge : Storable (.int (-1000000000000000000000)) :=
      storable_of_leaf rfl (by simp [Fits, Decimal.ofNat, Decimal.maxDigits])
    simp [sample, storable_object_iff, storable_array_iff, hnull, hbool, htext, hfloat, hone,
      hlarge]
  exact ⟨h, encode_round_trip h⟩

end Document

end DocTable
