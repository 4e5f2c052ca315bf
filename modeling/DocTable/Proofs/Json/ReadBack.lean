import DocTable.Proofs.Json.Texts
/-!
# DocTable.Proofs.Json.ReadBack

Written values can be read back.

`Legible` values are those that have a text of their own: objects do not repeat a key, whole
numbers are not too long to be read, and floating-point numbers are read back from their text.
`readValue_writeAt` says that the reader takes the text of a legible value as that value, whatever
stands behind it, in every layout that puts blanks between the parts (`Layout.Blank`). So
documents have different texts (`compact_injective`).
-/

namespace DocTable.Json

open Text

/-! ### What may follow a value -/

/-- Characters that would lengthen a number. -/
def extendsNumber (c : Char) : Bool :=
  isDigit c || c == '.' || c == 'e' || c == 'E'

/-- A number that stands before the text ends there. -/
def Ends (s : Text) : Prop :=
  ∀ c ∈ s.head?, extendsNumber c = false

theorem ends_cons {c : Char} {s : Text} : Ends (c :: s) ↔ extendsNumber c = false := by
  simp [Ends]

/-- Digits that stand before the text end there. -/
def NoDigit (s : Text) : Prop :=
  ∀ c ∈ s.head?, isDigit c = false

theorem noDigit_cons {c : Char} {s : Text} : NoDigit (c :: s) ↔ isDigit c = false := by
  simp [NoDigit]

theorem Ends.noDigit {s : Text} (h : Ends s) : NoDigit s := by
  intro c hc
  have hend := h c hc
  rw [extendsNumber] at hend
  simp_all

/-! ### Numbers -/

theorem takeWhile_digits {ds rest : Text} (hds : ∀ c ∈ ds, isDigit c = true)
    (hrest : NoDigit rest) :
    (ds ++ rest).takeWhile isDigit = ds ∧ (ds ++ rest).dropWhile isDigit = rest := by
  rw [List.takeWhile_append_of_pos hds, List.dropWhile_append_of_pos hds]
  cases rest with
  | nil => simp
  | cons c rest =>
    have hc : isDigit c = false := noDigit_cons.1 hrest
    simp [hc]

/-- Digits stand before the point together, unless they begin with a zero. -/
theorem wholeDigits?_digits {ds rest : Text} (hds : ∀ c ∈ ds, isDigit c = true) (hne : ds ≠ [])
    (hzero : ds.head? = some '0' → ds = ['0']) (hrest : NoDigit rest) :
    wholeDigits? (ds ++ rest) = some (ds, rest) := by
  obtain ⟨htake, hdrop⟩ := takeWhile_digits hds hrest
  obtain ⟨c, ds, rfl⟩ := List.exists_cons_of_ne_nil hne
  rw [wholeDigits?.eq_def]
  split
  · next heq =>
    obtain ⟨rfl, rfl⟩ := List.cons.inj heq
    obtain rfl := (List.cons.inj (hzero rfl)).2
    rfl
  · rw [htake, hdrop]

theorem wholeDigits?_ofNat (n : Nat) {rest : Text} (hrest : NoDigit rest) :
    wholeDigits? (Decimal.ofNat n ++ rest) = some (Decimal.ofNat n, rest) := by
  refine wholeDigits?_digits (fun _ => Decimal.isDigit_of_mem_ofNat) (Decimal.ofNat_ne_nil n)
    (fun hhead => ?_) hrest
  rcases Nat.eq_zero_or_pos n with rfl | hpos
  · rw [Decimal.ofNat]
    rfl
  · exact absurd hhead (Decimal.head_ofNat_ne_zero hpos)

/-- A sign is cut off in front of a digit. -/
theorem minus_signed (negative : Bool) {c : Char} (hc : isDigit c = true) (s : Text) :
    minus ((if negative then ['-'] else []) ++ c :: s) = (negative, c :: s) := by
  cases negative with
  | true => rfl
  | false =>
    refine minus.eq_2 _ fun _ heq => ?_
    rw [(List.cons.inj heq).1] at hc
    exact absurd hc (by decide)

theorem fraction?_of_ends {rest : Text} (h : Ends rest) : fraction? rest = none := by
  cases rest with
  | nil => rfl
  | cons c rest =>
    rw [fraction?]
    intro _ heq
    rw [(List.cons.inj heq).1, ends_cons] at h
    exact absurd h (by decide)

theorem exponent?_of_ends {rest : Text} (h : Ends rest) : exponent? rest = none := by
  cases rest with
  | nil => rfl
  | cons c rest =>
    rw [ends_cons, extendsNumber] at h
    have hmark : (decide (c = 'e') || decide (c = 'E')) = false := by
      simp_all
    rw [exponent?.eq_def]
    simp only [hmark, Bool.false_eq_true, if_false]

/-- Digits behind a sign, which may be missing. -/
theorem readNumber_signed (negative : Bool) {n : Nat}
    (hn : (Decimal.ofNat n).length ≤ Decimal.maxDigits) {rest : Text} (hrest : Ends rest) :
    readNumber ((if negative then ['-'] else []) ++ Decimal.ofNat n ++ rest) =
      .ok (.int (if negative then -n else n), rest) := by
  have hsign : minus ((if negative then ['-'] else []) ++ Decimal.ofNat n ++ rest) =
      (negative, Decimal.ofNat n ++ rest) := by
    obtain ⟨c, ds, hcons⟩ := List.exists_cons_of_ne_nil (Decimal.ofNat_ne_nil n)
    have hc : isDigit c = true := Decimal.isDigit_of_mem_ofNat (hcons ▸ List.mem_cons_self)
    rw [hcons, List.append_assoc]
    exact minus_signed negative hc _
  have hshort : ¬Decimal.maxDigits < (Decimal.ofNat n).length := Nat.not_lt.2 hn
  unfold readNumber
  simp only [hsign, wholeDigits?_ofNat n hrest.noDigit, fraction?_of_ends hrest,
    exponent?_of_ends hrest, Bool.or_false, Bool.false_eq_true, if_false, if_neg hshort,
    Decimal.value_ofNat]

theorem readNumber_ofInt {n : Int} (hn : (Decimal.ofNat n.natAbs).length ≤ Decimal.maxDigits)
    {rest : Text} (hrest : Ends rest) :
    readNumber (Decimal.ofInt n ++ rest) = .ok (.int n, rest) := by
  cases n with
  | ofNat n => exact readNumber_signed false hn hrest
  | negSucc n => exact readNumber_signed true hn hrest

/-! ### Names -/

theorem name?_of_digit {c : Char} (hc : isDigit c = true) (s : Text) :
    name? (c :: s) = none ∧ name? ('-' :: c :: s) = none := by
  have hne : ∀ d, isDigit d = false → d ≠ c := by
    rintro d hd rfl
    rw [hd] at hc
    exact absurd hc (by decide)
  simp [name?, names, afterStart?, hne 'n' (by decide), hne 't' (by decide), hne 'f' (by decide),
    hne 'N' (by decide), hne 'I' (by decide), hne '-' (by decide)]

/-! ### Blanks -/

theorem skipBlanks_append {u : Text} (hu : ∀ c ∈ u, isBlank c = true) (s : Text) :
    skipBlanks (u ++ s) = skipBlanks s :=
  List.dropWhile_append_of_pos hu

theorem skipBlanks_cons {c : Char} (hc : isBlank c = false) (s : Text) :
    skipBlanks (c :: s) = c :: s := by
  rw [skipBlanks, List.dropWhile_cons_of_neg (by simp [hc])]

/-- A layout that puts nothing but blanks between the parts. -/
structure Layout.Blank (layout : Layout) : Prop where
  gap : ∀ depth, ∀ c ∈ layout.gap depth, isBlank c = true
  colon : ∃ u, layout.colon = ':' :: u ∧ ∀ c ∈ u, isBlank c = true

theorem Layout.blank_compact : Layout.compact.Blank :=
  ⟨fun _ _ h => absurd h List.not_mem_nil, [], rfl, fun _ h => absurd h List.not_mem_nil⟩

/-- Characters that do not begin a value, and that a reader could take for something else. -/
def isStray (c : Char) : Bool :=
  isBlank c || c == ']' || c == '\ufeff'

theorem readValue_stray {c : Char} (hc : isStray c = true) (fuel : Nat) (s : Text) :
    ∃ e, readValue fuel (c :: s) = .error e := by
  have hc : c ∈ [' ', '\t', '\n', '\r', ']', '\ufeff'] := by
    simpa [isStray, isBlank, or_assoc] using hc
  cases fuel with
  | zero => exact ⟨_, rfl⟩
  | succ fuel =>
    simp only [List.mem_cons, List.not_mem_nil, or_false] at hc
    rcases hc with rfl | rfl | rfl | rfl | rfl | rfl <;> exact ⟨_, rfl⟩

theorem readItems_stray {c : Char} (hc : isStray c = true) (fuel : Nat) (s : Text) :
    ∃ e, readItems fuel (c :: s) = .error e := by
  cases fuel with
  | zero => exact ⟨_, rfl⟩
  | succ fuel =>
    obtain ⟨e, he⟩ := readValue_stray hc fuel s
    exact ⟨e, by rw [readItems, he]; rfl⟩

theorem skipBlanks_of_read {fuel : Nat} {s : Text} {r : Json × Text}
    (h : readValue fuel s = .ok r) : skipBlanks s = s := by
  cases s with
  | nil => rfl
  | cons c s =>
    refine skipBlanks_cons (Bool.not_eq_true _ ▸ fun hc => ?_) s
    obtain ⟨e, he⟩ := readValue_stray (c := c) (by rw [isStray, hc]; rfl) fuel s
    rw [he] at h
    cases h

variable {fuel : Nat} {x v : Json} {xs : List Json} {k inner s t u rest : Text} {ms : Members}

theorem readItems_last (hx : readValue fuel s = .ok (x, t)) (ht : skipBlanks t = ']' :: rest) :
    readItems (fuel + 1) s = .ok ([x], rest) := by
  rw [readItems, hx]
  simp only [bind, Except.bind, ht]
  rfl

theorem readItems_more (hx : readValue fuel s = .ok (x, ',' :: t))
    (hxs : readItems fuel (skipBlanks t) = .ok (xs, rest)) :
    readItems (fuel + 1) s = .ok (x :: xs, rest) := by
  have hcomma : skipBlanks (',' :: t) = ',' :: t := skipBlanks_cons (by decide) t
  rw [readItems, hx]
  simp only [bind, Except.bind, hcomma, hxs]
  rfl

theorem readValue_array (h : readItems fuel (skipBlanks inner) = .ok (xs, rest)) :
    readValue (fuel + 1) ('[' :: inner) = .ok (.array xs, rest) := by
  rw [readValue]
  split
  · next hclose =>
    obtain ⟨e, he⟩ := readItems_stray (c := ']') (by decide) fuel _
    rw [hclose, he] at h
    cases h
  · rw [h]
    rfl

theorem readMembers_last (hv : readValue fuel (skipBlanks u) = .ok (v, t))
    (ht : skipBlanks t = '\x7d' :: rest) :
    readMembers (fuel + 1) (writeText k ++ ':' :: u) = .ok ([(k, v)], rest) := by
  have hcolon : skipBlanks (':' :: u) = ':' :: u := skipBlanks_cons (by decide) u
  rw [writeText_append, readMembers, ← writeText_append, readText_writeText]
  simp only [bind, Except.bind, hcolon, hv, ht]
  rfl

theorem readMembers_more (hv : readValue fuel (skipBlanks u) = .ok (v, ',' :: t))
    (hms : readMembers fuel (skipBlanks t) = .ok (ms, rest)) :
    readMembers (fuel + 1) (writeText k ++ ':' :: u) = .ok ((k, v) :: ms, rest) := by
  have hcolon : skipBlanks (':' :: u) = ':' :: u := skipBlanks_cons (by decide) u
  have hcomma : skipBlanks (',' :: t) = ',' :: t := skipBlanks_cons (by decide) t
  rw [writeText_append, readMembers, ← writeText_append, readText_writeText]
  simp only [bind, Except.bind, hcolon, hv, hcomma, hms]
  rfl

theorem readValue_object (h : readMembers fuel (skipBlanks inner) = .ok (ms, rest)) :
    readValue (fuel + 1) ('{' :: inner) = .ok (.object (Members.ofPairs ms), rest) := by
  rw [readValue]
  split
  · next hclose =>
    rw [hclose] at h
    cases fuel <;> cases h
  · rw [h]
    rfl

/-! ### Values -/

/-- A floating-point number is read back from its text. -/
def FloatReadsBack (x : Binary64) : Prop :=
  ∀ (fuel : Nat) (rest : Text), Ends rest →
    readValue (fuel + 1) (FloatStyle.document.write x ++ rest) = .ok (.float x, rest)

mutual

/-- A value that has a text of its own. -/
def Legible : Json → Prop
  | .int n => (Decimal.ofNat n.natAbs).length ≤ Decimal.maxDigits
  | .float x => FloatReadsBack x
  | .array items => LegibleItems items
  | .object members => (members.map (·.1)).Nodup ∧ LegibleMembers members
  | .null | .bool _ | .text _ => True

/-- `Legible` for the items of an array. -/
def LegibleItems : List Json → Prop
  | [] => True
  | x :: xs => Legible x ∧ LegibleItems xs

/-- `Legible` for the values of an object's members. -/
def LegibleMembers : List (Text × Json) → Prop
  | [] => True
  | (_, v) :: ms => Legible v ∧ LegibleMembers ms

end

theorem legibleItems_iff {xs : List Json} : LegibleItems xs ↔ ∀ x ∈ xs, Legible x := by
  induction xs with
  | nil => simp [LegibleItems]
  | cons x xs ih => rw [LegibleItems, ih, List.forall_mem_cons]

theorem legibleMembers_iff {ms : Members} : LegibleMembers ms ↔ ∀ m ∈ ms, Legible m.2 := by
  induction ms with
  | nil => simp [LegibleMembers]
  | cons m ms ih => rw [LegibleMembers, ih, List.forall_mem_cons]

theorem readValue_number {c : Char} (hc : isDigit c = true ∨ c = '-')
    (hname : name? (c :: s) = none) : readValue (fuel + 1) (c :: s) = readNumber (c :: s) := by
  have hne : ∀ d, ¬(isDigit d = true ∨ d = '-') → ∀ t, c :: s ≠ d :: t := by
    rintro d hd t heq
    exact hd ((List.cons.inj heq).1 ▸ hc)
  rw [readValue, hname]
  · exact hne '"' (by decide)
  · exact hne '[' (by decide)
  · exact hne '\x7b' (by decide)

theorem readValue_int {n : Int} (hn : (Decimal.ofNat n.natAbs).length ≤ Decimal.maxDigits)
    (hrest : Ends rest) : readValue (fuel + 1) (Decimal.ofInt n ++ rest) = .ok (.int n, rest) := by
  obtain ⟨c, ds, hcons⟩ := List.exists_cons_of_ne_nil (Decimal.ofNat_ne_nil n.natAbs)
  have hc : isDigit c = true := Decimal.isDigit_of_mem_ofNat (hcons ▸ List.mem_cons_self)
  rw [← readNumber_ofInt hn hrest]
  cases n with
  | ofNat n =>
    rw [Decimal.ofInt, show Decimal.ofNat n = c :: ds from hcons]
    exact readValue_number (.inl hc) (name?_of_digit hc _).1
  | negSucc n =>
    rw [Decimal.ofInt, show Decimal.ofNat (n + 1) = c :: ds from hcons]
    exact readValue_number (.inr rfl) (name?_of_digit hc _).2

theorem extendsNumber_blank {c : Char} (hc : isBlank c = true) : extendsNumber c = false := by
  simp only [isBlank, Bool.or_eq_true, beq_iff_eq, or_assoc] at hc
  rcases hc with rfl | rfl | rfl | rfl <;> rfl

theorem ends_blanks (hu : ∀ c ∈ u, isBlank c = true) {c : Char} (hc : extendsNumber c = false)
    (s : Text) : Ends (u ++ c :: s) := by
  cases u with
  | nil => exact ends_cons.2 hc
  | cons b u => exact ends_cons.2 (extendsNumber_blank (hu b List.mem_cons_self))

theorem ends_of_blanks (hu : ∀ c ∈ u, isBlank c = true) : Ends u := fun c hc =>
  extendsNumber_blank (hu c (List.mem_of_mem_head? hc))

variable (layout : Layout) (depth : Nat)

theorem ends_writeItems (xs : List Json) (hu : ∀ c ∈ u, isBlank c = true)
    (s : Text) : Ends (writeItems layout depth xs ++ u ++ ']' :: s) := by
  cases xs with
  | nil => exact ends_blanks hu (by decide) s
  | cons x xs => exact ends_cons.2 (by decide)

theorem ends_writeMembers (ms : Members) (hu : ∀ c ∈ u, isBlank c = true)
    (s : Text) : Ends (writeMembers layout depth ms ++ u ++ '\x7d' :: s) := by
  cases ms with
  | nil => exact ends_blanks hu (by decide) s
  | cons m ms => exact ends_cons.2 (by decide)

variable {layout} (hl : layout.Blank)

include hl

-- By induction on the value, as it is written. Fuel is spent on characters that are read, so the
-- length of a text pays for reading it. What stands in front of items and members has been read
-- when they are reached, so their statements begin with the value before them.
mutual

/-- The text of a value is read as the value. -/
theorem readValue_writeAt : (v : Json) → Legible v → ∀ (depth fuel : Nat) {rest : Text},
    (writeAt layout depth v).length < fuel → Ends rest →
      readValue fuel (writeAt layout depth v ++ rest) = .ok (v, rest)
  | .null, _, _, fuel + 1, _, _, _ => rfl
  | .bool true, _, _, fuel + 1, _, _, _ => rfl
  | .bool false, _, _, fuel + 1, _, _, _ => rfl
  | .int n, hn, _, fuel + 1, _, _, hrest => readValue_int hn hrest
  | .float x, hx, _, fuel + 1, _, _, hrest => hx fuel _ hrest
  | .text t, _, _, fuel + 1, rest, _, _ => by
    rw [writeAt, writeText_append, readValue, ← writeText_append, readText_writeText]
    rfl
  | .array [], _, _, fuel + 1, _, _, _ => rfl
  | .object [], _, _, fuel + 1, _, _, _ => rfl
  | .array (x :: xs), ⟨hx, hxs⟩, depth, fuel, rest, hfuel, _ => by
    rw [writeAt] at hfuel ⊢
    simp only [List.length_append, List.length_cons, List.length_nil] at hfuel
    -- The brackets pay for the steps to the items and to the first of them.
    obtain ⟨fuel, rfl⟩ : ∃ f, fuel = f + 2 := ⟨fuel - 2, by omega⟩
    have hvalue := readValue_writeAt x hx (depth + 1) fuel (by omega)
      (ends_writeItems layout (depth + 1) xs (hl.gap depth) rest)
    have hitems := readItems_writeItems xs hxs hvalue (by omega) (hl.gap depth)
    simp only [List.append_assoc, List.cons_append, List.nil_append] at hvalue hitems ⊢
    refine readValue_array ?_
    rwa [skipBlanks_append (hl.gap (depth + 1)), skipBlanks_of_read hvalue]
  | .object ((k, v) :: ms), ⟨hkeys, hv, hms⟩, depth, fuel, rest, hfuel, _ => by
    obtain ⟨w, hcolon, hw⟩ := hl.colon
    rw [writeAt, hcolon] at hfuel ⊢
    simp only [List.length_append, List.length_cons, List.length_nil] at hfuel
    obtain ⟨fuel, rfl⟩ : ∃ f, fuel = f + 2 := ⟨fuel - 2, by omega⟩
    have hvalue := readValue_writeAt v hv (depth + 1) fuel (by omega)
      (ends_writeMembers layout (depth + 1) ms (hl.gap depth) rest)
    rw [← skipBlanks_of_read hvalue, ← skipBlanks_append hw] at hvalue
    have hmembers := readMembers_writeMembers ms hms (k := k) hvalue (by omega) (hl.gap depth)
    -- The reader collects keyed values; without repeated keys they are the members.
    have hpairs : Members.ofPairs ((k, v) :: ms) = (k, v) :: ms := Members.ofPairs_eq_self hkeys
    simp only [List.append_assoc, List.cons_append, List.nil_append] at hmembers ⊢
    rw [← hpairs]
    refine readValue_object ?_
    rw [skipBlanks_append (hl.gap (depth + 1))]
    exact hmembers

theorem readItems_writeItems : (xs : List Json) → LegibleItems xs →
    ∀ {depth fuel : Nat} {x : Json} {s u rest : Text},
    readValue fuel s = .ok (x, writeItems layout depth xs ++ u ++ ']' :: rest) →
    (writeItems layout depth xs).length < fuel → (∀ c ∈ u, isBlank c = true) →
      readItems (fuel + 1) s = .ok (x :: xs, rest)
  | [], _, depth, fuel, x, s, u, rest, hx, _, hu => by
    refine readItems_last hx ?_
    rw [writeItems, List.nil_append, skipBlanks_append hu]
    exact skipBlanks_cons (by decide) rest
  | y :: ys, ⟨hy, hys⟩, depth, fuel + 1, x, s, u, rest, hx, hfuel, hu => by
    rw [writeItems] at hfuel hx
    simp only [List.length_append, List.length_cons] at hfuel
    have hvalue := readValue_writeAt y hy depth fuel (by omega)
      (ends_writeItems layout depth ys hu rest)
    have hitems := readItems_writeItems ys hys hvalue (by omega) hu
    simp only [List.append_assoc, List.cons_append] at hx hvalue hitems
    refine readItems_more hx ?_
    rwa [skipBlanks_append (hl.gap depth), skipBlanks_of_read hvalue]

theorem readMembers_writeMembers : (ms : Members) → LegibleMembers ms →
    ∀ {depth fuel : Nat} {k : Text} {v : Json} {t u rest : Text},
    readValue fuel (skipBlanks t) = .ok (v, writeMembers layout depth ms ++ u ++ '\x7d' :: rest) →
    (writeMembers layout depth ms).length < fuel → (∀ c ∈ u, isBlank c = true) →
      readMembers (fuel + 1) (writeText k ++ ':' :: t) = .ok ((k, v) :: ms, rest)
  | [], _, depth, fuel, k, v, t, u, rest, hv, _, hu => by
    refine readMembers_last hv ?_
    rw [writeMembers, List.nil_append, skipBlanks_append hu]
    exact skipBlanks_cons (by decide) rest
  | (l, w) :: ms, ⟨hw, hms⟩, depth, fuel + 1, k, v, t, u, rest, hv, hfuel, hu => by
    obtain ⟨b, hcolon, hb⟩ := hl.colon
    rw [writeMembers, hcolon] at hfuel hv
    simp only [List.length_append, List.length_cons] at hfuel
    have hvalue := readValue_writeAt w hw depth fuel (by omega)
      (ends_writeMembers layout depth ms hu rest)
    rw [← skipBlanks_of_read hvalue, ← skipBlanks_append hb] at hvalue
    have hmembers := readMembers_writeMembers ms hms (k := l) hvalue (by omega) hu
    simp only [List.append_assoc, List.cons_append] at hv hmembers
    refine readMembers_more hv ?_
    rw [skipBlanks_append (hl.gap depth)]
    exact hmembers

end

/-! ### Whole texts -/

theorem readWhole_write {v : Json} (hv : Legible v) {u : Text} (hu : ∀ c ∈ u, isBlank c = true) :
    readWhole (write layout v ++ u) = .ok v := by
  have hvalue := readValue_writeAt hl v hv 0 (2 * (write layout v ++ u).length + 2)
    (by rw [List.length_append, write]; omega) (ends_of_blanks hu)
  rw [← write] at hvalue
  have hrest : skipBlanks u = [] := by
    rw [← List.append_nil u, skipBlanks_append hu]
    rfl
  rw [readWhole, skipBlanks_of_read hvalue, hvalue]
  simp only [bind, Except.bind, hrest]
  rfl

/-- A written value is read back from its text, also with blanks behind it. -/
theorem read_write_blanks {v : Json} (hv : Legible v) {u : Text}
    (hu : ∀ c ∈ u, isBlank c = true) : read (write layout v ++ u) = .ok v := by
  have hmark : (write layout v ++ u).head? ≠ some '\ufeff' := by
    intro hhead
    obtain ⟨s, hs⟩ := List.head?_eq_some_iff.1 hhead
    have hvalue := readValue_writeAt hl v hv 0 _ (Nat.lt_succ_self _) (ends_of_blanks hu)
    obtain ⟨e, he⟩ :=
      readValue_stray (c := '\ufeff') (by decide) ((writeAt layout 0 v).length + 1) s
    rw [← hs, write, hvalue] at he
    cases he
  rw [read, if_neg hmark, readDecoded, readWhole_write hl hv hu]
  rfl

/-- A written value is read back from its text. -/
theorem read_write {v : Json} (hv : Legible v) : read (write layout v) = .ok v := by
  have hread := read_write_blanks hl hv (u := []) (List.forall_mem_nil _)
  rwa [List.append_nil] at hread

/-- Different values have different texts. -/
theorem write_injective {v w : Json} (hv : Legible v) (hw : Legible w)
    (h : write layout v = write layout w) : v = w := by
  have hread := read_write hl hv
  rw [h, read_write hl hw] at hread
  exact (Except.ok.inj hread).symm

omit hl in
theorem compact_injective {v w : Json} (hv : Legible v) (hw : Legible w)
    (h : v.compact = w.compact) : v = w :=
  write_injective Layout.blank_compact hv hw h

end DocTable.Json
