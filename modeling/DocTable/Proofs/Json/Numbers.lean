import DocTable.Document
/-!
# DocTable.Proofs.Json.Numbers

Numbers inside values, at any depth.

A document can be stored unless a number occurs in it somewhere that is not finite or too long
(`encode?_eq_none_iff`). Giving a document an id makes no difference: an id that is replaced has no
such number inside, since it counts as missing (`unwritable_identify`).
-/

namespace DocTable

namespace Json

/-- A value occurs in another one, at any depth. -/
inductive Occurs (v : Json) : Json → Prop
  | here : Occurs v v
  | item {x : Json} {items : List Json} : x ∈ items → Occurs v x → Occurs v (.array items)
  | member {key : Text} {x : Json} {members : Members} : (key, x) ∈ members → Occurs v x →
      Occurs v (.object members)

/-- A number that is not finite occurs in a value. -/
def HasNonFinite (v : Json) : Prop :=
  ∃ x : Binary64, x.isFinite = false ∧ Occurs (.float x) v

/-- A whole number with too many digits occurs in a value. -/
def HasLongNumber (v : Json) : Prop :=
  ∃ n : Int, Decimal.isShowable n = false ∧ Occurs (.int n) v

/-- A number occurs in a value that cannot be stored. -/
def Unwritable (v : Json) : Prop :=
  v.HasNonFinite ∨ v.HasLongNumber

variable {finite : Bool} {v : Json}

theorem writeErrorItems?_eq_none_iff {items : List Json} :
    writeErrorItems? finite items = none ↔ ∀ x ∈ items, writeError? finite x = none := by
  induction items with
  | nil => simp [writeErrorItems?]
  | cons x items ih => simp [writeErrorItems?, ih]

theorem writeErrorMembers?_eq_none_iff {members : Members} :
    writeErrorMembers? finite members = none ↔ ∀ m ∈ members, writeError? finite m.2 = none := by
  induction members with
  | nil => simp [writeErrorMembers?]
  | cons m members ih => simp [writeErrorMembers?, ih]

/-- What occurs in a value that is written could be written, too. -/
theorem Occurs.writeError?_eq_none {w : Json} (h : Occurs v w)
    (hw : writeError? finite w = none) : writeError? finite v = none := by
  induction h with
  | here => exact hw
  | item hmem _ ih =>
    rw [writeError?, writeErrorItems?_eq_none_iff] at hw
    exact ih (hw _ hmem)
  | member hmem _ ih =>
    rw [writeError?, writeErrorMembers?_eq_none_iff] at hw
    exact ih (hw _ hmem)

/-- The number that is the reason for an error occurs in a value. -/
def WriteError.IsDue (finite : Bool) : WriteError → Json → Prop
  | .notFinite, v => finite = true ∧ v.HasNonFinite
  | .notShowable, v => v.HasLongNumber

theorem WriteError.IsDue.of_occurs {e : WriteError} {w : Json} (h : e.IsDue finite v)
    (hw : ∀ u, Occurs u v → Occurs u w) : e.IsDue finite w := by
  cases e with
  | notFinite =>
    obtain ⟨hfinite, x, hx, hoccurs⟩ := h
    exact ⟨hfinite, x, hx, hw _ hoccurs⟩
  | notShowable =>
    obtain ⟨n, hn, hoccurs⟩ := h
    exact ⟨n, hn, hw _ hoccurs⟩

-- By induction on the value: an error is that of a number right here, or of one in a part.
mutual

theorem isDue_of_writeError? {e : WriteError} :
    ∀ {v : Json}, writeError? finite v = some e → e.IsDue finite v
  | .int n, h => by
    rw [writeError?] at h
    split at h
    · cases h
    · next hlong =>
      cases h
      exact ⟨n, by simpa using hlong, .here⟩
  | .float x, h => by
    rw [writeError?] at h
    split at h
    · next hbad =>
      cases h
      rw [Bool.and_eq_true, Bool.not_eq_true'] at hbad
      exact ⟨hbad.1, x, hbad.2, .here⟩
    · cases h
  | .array items, h => by
    obtain ⟨x, hx, hdue⟩ := isDue_of_writeErrorItems? h
    exact hdue.of_occurs fun _ => .item hx
  | .object members, h => by
    obtain ⟨m, hm, hdue⟩ := isDue_of_writeErrorMembers? h
    exact hdue.of_occurs fun _ => .member hm

theorem isDue_of_writeErrorItems? {e : WriteError} :
    ∀ {items : List Json}, writeErrorItems? finite items = some e → ∃ x ∈ items, e.IsDue finite x
  | x :: items, h => by
    rw [writeErrorItems?, Option.or_eq_some_iff] at h
    rcases h with h | ⟨-, h⟩
    · exact ⟨x, List.mem_cons_self, isDue_of_writeError? h⟩
    · obtain ⟨y, hy, hdue⟩ := isDue_of_writeErrorItems? h
      exact ⟨y, List.mem_cons_of_mem _ hy, hdue⟩

theorem isDue_of_writeErrorMembers? {e : WriteError} :
    ∀ {members : List (Text × Json)}, writeErrorMembers? finite members = some e →
      ∃ m ∈ members, e.IsDue finite m.2
  | (key, v) :: members, h => by
    rw [writeErrorMembers?, Option.or_eq_some_iff] at h
    rcases h with h | ⟨-, h⟩
    · exact ⟨(key, v), List.mem_cons_self, isDue_of_writeError? h⟩
    · obtain ⟨m, hm, hdue⟩ := isDue_of_writeErrorMembers? h
      exact ⟨m, List.mem_cons_of_mem _ hm, hdue⟩

end

/-- Any number that is not written is found, at any depth. -/
theorem writeError?_eq_none_iff :
    writeError? finite v = none ↔ ¬ v.HasLongNumber ∧ (finite = true → ¬ v.HasNonFinite) := by
  constructor
  · intro h
    constructor
    · rintro ⟨n, hn, hoccurs⟩
      have hnone := hoccurs.writeError?_eq_none h
      rw [writeError?, hn] at hnone
      cases hnone
    · rintro rfl ⟨x, hx, hoccurs⟩
      have hnone := hoccurs.writeError?_eq_none h
      rw [writeError?, hx] at hnone
      cases hnone
  · rintro ⟨hshort, hfinite⟩
    cases herror : writeError? finite v with
    | none => rfl
    | some e =>
      have hdue := isDue_of_writeError? herror
      cases e with
      | notFinite => exact absurd hdue.2 (hfinite hdue.1)
      | notShowable => exact absurd hdue hshort

theorem isShowable_iff_not_hasLongNumber : v.isShowable = true ↔ ¬ v.HasLongNumber := by
  rw [isShowable, Option.isNone_iff_eq_none, writeError?_eq_none_iff]
  simp

theorem not_hasNonFinite_int (n : Int) : ¬ (Json.int n).HasNonFinite := by
  rintro ⟨x, -, hoccurs⟩
  cases hoccurs

theorem hasNonFinite_object_iff {members : Members} :
    (Json.object members).HasNonFinite ↔ ∃ m ∈ members, m.2.HasNonFinite := by
  constructor
  · rintro ⟨x, hx, hoccurs⟩
    cases hoccurs with
    | member hmem hinner => exact ⟨_, hmem, x, hx, hinner⟩
  · rintro ⟨m, hm, x, hx, hoccurs⟩
    exact ⟨x, hx, .member hm hoccurs⟩

theorem not_hasNonFinite_member (key : Text) (n : Int) :
    ¬ (Json.object [(key, .int n)]).HasNonFinite := by
  rw [hasNonFinite_object_iff]
  rintro ⟨m, hm, hnumber⟩
  rw [List.mem_singleton.1 hm] at hnumber
  exact not_hasNonFinite_int n hnumber

theorem hasLongNumber_object {members : Members} {key : Text} {n : Nat}
    (hmem : (key, .int n) ∈ members) (hn : Decimal.tenTo Decimal.maxDigits ≤ n) :
    (Json.object members).HasLongNumber :=
  ⟨n, Decimal.isShowable_eq_false hn, .member hmem .here⟩

theorem unwritable_iff : v.Unwritable ↔ writeError? true v ≠ none := by
  rw [Ne, writeError?_eq_none_iff, Unwritable, Classical.not_and_iff_not_or_not, or_comm]
  simp

/-- Where no number is too long, only one that is not finite is not stored. -/
theorem unwritable_iff_of_isShowable (h : v.isShowable = true) :
    v.Unwritable ↔ v.HasNonFinite :=
  or_iff_left (isShowable_iff_not_hasLongNumber.1 h)

theorem isShowable_array_iff {items : List Json} :
    (Json.array items).isShowable = true ↔ ∀ x ∈ items, x.isShowable = true := by
  simp only [isShowable, Option.isNone_iff_eq_none, writeError?, writeErrorItems?_eq_none_iff]

theorem isShowable_object_iff {members : Members} :
    (Json.object members).isShowable = true ↔ ∀ m ∈ members, m.2.isShowable = true := by
  simp only [isShowable, Option.isNone_iff_eq_none, writeError?, writeErrorMembers?_eq_none_iff]

theorem isShowable_float (x : Binary64) : (Json.float x).isShowable = true := by
  simp [isShowable, writeError?]

theorem isShowable_int (n : Int) : (Json.int n).isShowable = Decimal.isShowable n := by
  rw [isShowable, writeError?]
  cases Decimal.isShowable n with
  | true | false => rfl

/-- A value that counts as missing has nothing inside. -/
theorem writeError?_of_not_given (h : v.given = false) : writeError? finite v = none := by
  cases v with
  | null | bool | text => rfl
  | int n =>
    obtain rfl : n = 0 := by simpa [given] using h
    rfl
  | float x =>
    cases x with
    | finite => rw [writeError?]; simp [Binary64.isFinite]
    | nan | infinite => cases h
  | array items =>
    cases items with
    | nil => rfl
    | cons => cases h
  | object members =>
    cases members with
    | nil => rfl
    | cons => cases h

/-- A value that is written in the place of another one, or of none, makes no difference. -/
theorem writeErrorMembers?_put {key : Text} (hv : writeError? finite v = none) {members : Members}
    (hold : ∀ w, Members.get? key members = some w → writeError? finite w = none) :
    writeErrorMembers? finite (Members.put key v members) =
      writeErrorMembers? finite members := by
  induction members with
  | nil => simp [Members.put, writeErrorMembers?, hv]
  | cons m members ih =>
    obtain ⟨key', w⟩ := m
    rw [Members.put]
    by_cases hkey : key' = key
    · have hw : writeError? finite w = none := hold w (by rw [Members.get?, if_pos hkey])
      rw [if_pos hkey, writeErrorMembers?, writeErrorMembers?, hv, hw]
    · rw [Members.get?, if_neg hkey] at hold
      rw [if_neg hkey, writeErrorMembers?, writeErrorMembers?, ih hold]

end Json

namespace Document

variable {doc : Json}

theorem encode_eq_ok (h : ¬ doc.Unwritable) : encode doc = .ok doc.compact := by
  rw [Json.unwritable_iff, Classical.not_not] at h
  rw [encode, Json.writeChecked, h]
  rfl

theorem exists_encode_eq_error (h : doc.Unwritable) : ∃ e, encode doc = .error e := by
  obtain ⟨e, he⟩ := Option.ne_none_iff_exists'.1 (Json.unwritable_iff.1 h)
  exact ⟨e, by rw [encode, Json.writeChecked, he]⟩

/-- What is stored may be shown. -/
theorem isShowable_of_encode {t : Text} (h : encode doc = .ok t) : doc.isShowable = true := by
  refine Json.isShowable_iff_not_hasLongNumber.2 fun hlong => ?_
  obtain ⟨e, he⟩ := exists_encode_eq_error (.inr hlong)
  cases he.symm.trans h

theorem encode?_eq_some (h : ¬ doc.Unwritable) : encode? doc = some doc.compact := by
  rw [encode?, encode_eq_ok h]
  rfl

theorem encode?_eq_none_iff : encode? doc = none ↔ doc.Unwritable := by
  constructor
  · intro h
    refine Classical.byContradiction fun hwritten => ?_
    rw [encode?_eq_some hwritten] at h
    cases h
  · intro h
    obtain ⟨e, he⟩ := exists_encode_eq_error h
    rw [encode?, he]
    rfl

/-- A document with its id can be stored if it could be without. -/
theorem writeError?_identify (finite : Bool) (fresh : Text) (members : Members) :
    (Json.object (identify fresh members)).writeError? finite =
      (Json.object members).writeError? finite := by
  rw [identify]
  by_cases hid : hasId members = true
  · rw [if_pos hid]
  · rw [if_neg hid, Json.writeError?, Json.writeError?]
    refine Json.writeErrorMembers?_put rfl fun w hw => Json.writeError?_of_not_given ?_
    rw [hasId, hw] at hid
    exact Bool.eq_false_iff.2 hid

theorem unwritable_identify (fresh : Text) (members : Members) :
    (Json.object (identify fresh members)).Unwritable ↔ (Json.object members).Unwritable := by
  rw [Json.unwritable_iff, Json.unwritable_iff, writeError?_identify]

end Document

end DocTable
