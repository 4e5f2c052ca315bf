import DocTable.Proofs.Condition.Wording
import DocTable.Proofs.Console.Query
/-!
# DocTable.Proofs.Condition.UniqueReading

Conditions can be read off the statements they compile to.

`Expressible` says which conditions callers can write: comparisons of fields, their combinations,
and what filters stand for. All of them are well-formed, so they compile to their wordings. A
wording is not the beginning of another one, because each comparison ends by its own syntax and
each connective is in brackets (`wording_append_inj`). So two conditions with the same text and
the same values are the same, up to the paths of memberships in empty lists, which are not written
(`compiled_eq_iff`).
-/

namespace DocTable.Sql

namespace Field

/-- The fields that callers can get hold of: those at accepted paths, and their members. -/
inductive Reached : Field → Prop
  | ofPath {path : Text} {f : Field} : Field.ofPath path = .ok f → Reached f
  | get {f g : Field} {segment : Text} : Reached f → f.get segment = .ok g → Reached g

theorem Reached.check {f : Field} (h : f.Reached) : Path.check f.path = .ok () := by
  cases h with
  | ofPath h => exact check_of_ofPath h
  | get _ h =>
    obtain ⟨_, -, h⟩ := bind_eq_ok_iff.1 h
    exact check_of_ofPath h

end Field

namespace Condition

/-! ### Expressible conditions -/

/-- Whether an operator is one of those that order values. -/
def isOrder : Operator → Bool
  | .greater | .greaterEqual | .less | .lessEqual => true
  | _ => false

/-- The conditions that callers can write. -/
inductive Expressible : Condition → Prop
  | equal {f : Field} {v : Json} {c : Condition} : f.Reached → f.equal v = .ok c → Expressible c
  | notEqual {f : Field} {v : Json} {c : Condition} :
    f.Reached → f.notEqual v = .ok c → Expressible c
  | order {f : Field} {op : Operator} (v : Json) :
    f.Reached → isOrder op = true → Expressible (f.compare op v)
  | startsWith {f : Field} (start : Text) : f.Reached → Expressible (f.startsWith start)
  | endsWith {f : Field} (stop : Text) : f.Reached → Expressible (f.endsWith stop)
  | contains {f : Field} (part : Text) : f.Reached → Expressible (f.contains part)
  | oneOf {f : Field} {v : Json} {c : Condition} : f.Reached → f.oneOf v = .ok c → Expressible c
  | isNull {f : Field} : f.Reached → Expressible f.isNull
  | isNotNull {f : Field} : f.Reached → Expressible f.isNotNull
  | and {a b c : Condition} :
    Expressible a → Expressible b → Condition.and a b = .ok c → Expressible c
  | or {a b c : Condition} :
    Expressible a → Expressible b → Condition.or a b = .ok c → Expressible c
  | not {a c : Condition} : Expressible a → Condition.not a = .ok c → Expressible c
  /-- What filters of the console stand for together. -/
  | filters {fs : List Console.Filter} {c : Condition} :
    Console.Filter.conditionOfAll fs = .ok (some c) → Expressible c

/-- Two well-formed conditions are joined to a well-formed one. -/
theorem wellFormed_combine {op : Connective} (hop : op = .and ∨ op = .or) {symbol : Char}
    {onValues : Json → Json → Option Json} {a b c : Condition} (ha : WellFormed a)
    (hb : WellFormed b) (h : combine op symbol onValues a b = .ok c) : WellFormed c := by
  have hjoin : c = .logical op [a, b] := by
    cases a with
    | value v => exact ha.elim
    | comparison | logical => exact (Except.ok.inj h).symm
  subst hjoin
  rcases hop with rfl | rfl
  · exact ⟨ha, hb, trivial⟩
  · exact ⟨ha, hb, trivial⟩

theorem wellFormed_not {a c : Condition} (ha : WellFormed a) (h : Condition.not a = .ok c) :
    WellFormed c := by
  cases a with
  | value v => exact ha.elim
  | comparison | logical =>
    cases h
    exact ha

end Condition

end DocTable.Sql

namespace DocTable.Console.Filter

open Sql

/-! ### What filters stand for -/

theorem wellFormed_conditionOfAll {fs : List Filter} {c : Condition}
    (h : conditionOfAll fs = .ok (some c)) : c.WellFormed := by
  obtain ⟨cs, hcs, hc⟩ := conditionOfAll_eq_ok_iff.1 h
  exact wellFormed_together (allWellFormed_of_forall₂ hcs) hc

end DocTable.Console.Filter

namespace DocTable.Sql.Condition

/-- Every condition that callers can write is well-formed. -/
theorem Expressible.wellFormed {c : Condition} (h : c.Expressible) : c.WellFormed := by
  induction h with
  | @equal f v c hf h =>
    cases v with
    | null => cases h
    | bool | int | float | text | array | object =>
      cases h
      exact ⟨hf.check, trivial⟩
  | @notEqual f v c hf h =>
    cases v with
    | null => cases h
    | bool | int | float | text | array | object =>
      cases h
      exact ⟨hf.check, trivial⟩
  | @order f op v hf h =>
    cases op with
    | greater | greaterEqual | less | lessEqual => exact ⟨hf.check, trivial⟩
    | _ => cases h
  | startsWith _ hf | endsWith _ hf | contains _ hf => exact ⟨hf.check, trivial⟩
  | @oneOf f v c hf h =>
    rw [Field.oneOf] at h
    cases hv : v.items? with
    | none => simp [hv] at h
    | some items =>
      rw [hv] at h
      cases h
      exact ⟨hf.check, items, rfl⟩
  | isNull hf | isNotNull hf => exact ⟨hf.check, rfl⟩
  | and _ _ h iha ihb => exact wellFormed_combine (.inl rfl) iha ihb h
  | or _ _ h iha ihb => exact wellFormed_combine (.inr rfl) iha ihb h
  | not _ h ih => exact wellFormed_not ih h
  | filters h => exact Console.Filter.wellFormed_conditionOfAll h

/-! ### Paths that are not written -/

mutual

/-- The condition without the paths of memberships in empty lists. -/
def withoutIdlePaths : Condition → Condition
  | .comparison path op bound =>
    .comparison (if op = .oneOf ∧ bound = .array [] then [] else path) op bound
  | .logical op children => .logical op (allWithoutIdlePaths children)
  | .value v => .value v

/-- `withoutIdlePaths` for each of several conditions. -/
def allWithoutIdlePaths : List Condition → List Condition
  | [] => []
  | c :: cs => withoutIdlePaths c :: allWithoutIdlePaths cs

end

theorem withoutIdlePaths_logical (op : Connective) {c d : Condition} {cs ds : List Condition}
    (hfirst : c.withoutIdlePaths = d.withoutIdlePaths)
    (hrest : allWithoutIdlePaths cs = allWithoutIdlePaths ds) :
    (Condition.logical op (c :: cs)).withoutIdlePaths =
      (Condition.logical op (d :: ds)).withoutIdlePaths := by
  rw [withoutIdlePaths, withoutIdlePaths, allWithoutIdlePaths, allWithoutIdlePaths, hfirst, hrest]

theorem comparisonWording_withoutIdlePath (path : Text) (op : Operator) (bound : Json) :
    comparisonWording (if op = .oneOf ∧ bound = .array [] then [] else path) op bound =
      comparisonWording path op bound := by
  by_cases hidle : op = .oneOf ∧ bound = .array []
  · rw [comparisonWording, comparisonWording, if_pos hidle, if_pos hidle]
  · rw [if_neg hidle]

mutual

/-- The wording does not depend on them. -/
theorem wording_withoutIdlePaths (c : Condition) : wording c.withoutIdlePaths = wording c := by
  match c with
  | .comparison path op bound =>
    rw [withoutIdlePaths, wording, wording, comparisonWording_withoutIdlePath]
  | .logical .not (c :: _) =>
    rw [withoutIdlePaths, allWithoutIdlePaths, wording, wording, wording_withoutIdlePaths c]
  | .logical .and (c :: cs) | .logical .or (c :: cs) =>
    rw [withoutIdlePaths, allWithoutIdlePaths, wording, wording, wording_withoutIdlePaths c,
      restWording_withoutIdlePaths _ cs]
  | .logical (.unknown name) cs => simp [withoutIdlePaths, wording]
  | .logical op [] => simp [withoutIdlePaths, allWithoutIdlePaths]
  | .value v => rfl

theorem restWording_withoutIdlePaths (mark : Filled) (cs : List Condition) :
    restWording mark (allWithoutIdlePaths cs) = restWording mark cs := by
  match cs with
  | [] => rfl
  | c :: cs =>
    rw [allWithoutIdlePaths, restWording, restWording, wording_withoutIdlePaths c,
      restWording_withoutIdlePaths mark cs]

end

/-! ### Comparisons -/

theorem blank_notMem_testWord {op : Operator} {bound : Json} (h : Fits op bound) :
    ' ' ∉ testWord op := by
  cases op with
  | unknown name => exact h.elim
  | _ => decide

/-- The word tells the operator, except that both tests for null have the same. -/
theorem eq_of_testWord_eq {op op' : Operator} {bound bound' : Json} (h : Fits op bound)
    (h' : Fits op' bound') (heq : testWord op = testWord op') :
    op = op' ∨ op.isNullTest = true ∧ op'.isNullTest = true := by
  cases op with
  | unknown name => exact h.elim
  | _ =>
    cases op' with
    | unknown name => exact h'.elim
    | _ => revert heq; decide

/-- Values in a list that is closed by a bracket. -/
theorem holes_append_inj {vs ws : List Json} {u v : Filled}
    (h : (vs.flatMap fun x => verbatim [',', ' '] ++ [.inr x]) ++ .inl ')' :: u =
      (ws.flatMap fun x => verbatim [',', ' '] ++ [.inr x]) ++ .inl ')' :: v) :
    vs = ws ∧ u = v := by
  induction vs generalizing ws with
  | nil =>
    cases ws with
    | nil => exact ⟨rfl, (List.cons.inj h).2⟩
    | cons w ws => simp [verbatim_cons] at h
  | cons x vs ih =>
    cases ws with
    | nil => simp [verbatim_cons] at h
    | cons w ws =>
      simp only [List.flatMap_cons, verbatim_cons, verbatim_nil, List.cons_append,
        List.nil_append, List.cons.injEq, Sum.inr.injEq, true_and] at h
      obtain ⟨rfl, rfl⟩ := ih h.2
      exact ⟨by rw [h.1], rfl⟩

theorem holesWording_append_inj {v w : Json} {vs ws : List Json} {t u : Filled}
    (h : holesWording (v :: vs) ++ .inl ')' :: t = holesWording (w :: ws) ++ .inl ')' :: u) :
    v :: vs = w :: ws ∧ t = u := by
  simp only [holesWording, List.map_cons, intercalate_cons, List.flatMap_map, List.cons_append,
    List.nil_append, List.cons.injEq, Sum.inr.injEq] at h
  obtain ⟨rfl, rfl⟩ := holes_append_inj h.2
  exact ⟨by rw [h.1], rfl⟩

/-- The value of a comparison, and what follows it, can be told if the operator is known. -/
theorem boundWording_append_inj {op : Operator} {bound bound' : Json} (h : Fits op bound)
    (h' : Fits op bound') (hidle : ¬(op = .oneOf ∧ bound = .array []))
    (hidle' : ¬(op = .oneOf ∧ bound' = .array [])) {u v : Filled}
    (heq : boundWording op bound ++ u = boundWording op bound' ++ v) : bound = bound' ∧ u = v := by
  cases op with
  | unknown name => exact h.elim
  | isNull | isNotNull => exact ⟨h.trans h'.symm, List.append_cancel_left heq⟩
  | oneOf =>
    obtain ⟨items, rfl⟩ := h
    obtain ⟨items', rfl⟩ := h'
    cases items with
    | nil => exact absurd ⟨rfl, rfl⟩ hidle
    | cons x xs =>
      cases items' with
      | nil => exact absurd ⟨rfl, rfl⟩ hidle'
      | cons y ys =>
        simp only [boundWording, Json.items?, Option.getD_some, List.append_assoc, verbatim_cons,
          verbatim_nil, List.cons_append, List.nil_append] at heq
        obtain ⟨hitems, huv⟩ := holesWording_append_inj (List.cons.inj heq).2
        exact ⟨by rw [hitems], huv⟩
  | _ =>
    obtain ⟨hvalue, huv⟩ := List.cons.inj heq
    exact ⟨Sum.inr.inj hvalue, huv⟩

/-- A test for null ends differently from one for presence. -/
theorem op_eq_of_boundWording {op op' : Operator} {bound bound' : Json}
    (hop : op.isNullTest = true) (hop' : op'.isNullTest = true) {u v : Filled}
    (heq : boundWording op bound ++ u = boundWording op' bound' ++ v) : op = op' := by
  cases op with
  | isNull =>
    cases op' with
    | isNull => rfl
    | isNotNull => simp [boundWording, verbatim_cons] at heq
    | _ => cases hop'
  | isNotNull =>
    cases op' with
    | isNotNull => rfl
    | isNull => simp [boundWording, verbatim_cons] at heq
    | _ => cases hop'
  | _ => cases hop

theorem comparisonWording_eq {path : Text} {op : Operator} {bound : Json}
    (h : ¬(op = .oneOf ∧ bound = .array [])) (u : Filled) :
    comparisonWording path op bound ++ u =
      verbatim (columnText path) ++ .inl ' ' :: (verbatim (testWord op) ++
        .inl ' ' :: (boundWording op bound ++ u)) := by
  rw [comparisonWording, if_neg h]
  simp [verbatim_append, verbatim_cons]

theorem columnText_eq_cons {path : Text} (h : Path.check path = .ok ()) :
    ∃ t, columnText path = 'd' :: t := by
  obtain ⟨token, tail, rfl, ht, htail, hd, -⟩ := Path.exists_of_check h
  exact ⟨_, columnText_eq ht htail hd⟩

/-- A membership in an empty list is told from other comparisons by its first character. -/
theorem idle_ne_column {path : Text} (h : Path.check path = .ok ()) (u v : Filled) :
    verbatim ['0'] ++ u ≠ verbatim (columnText path) ++ v := by
  obtain ⟨t, ht⟩ := columnText_eq_cons h
  simp [ht, verbatim_cons]

theorem comparisonWording_append_inj {path path' : Text} {op op' : Operator}
    {bound bound' : Json} (h : WellFormed (.comparison path op bound))
    (h' : WellFormed (.comparison path' op' bound')) {u v : Filled}
    (heq : comparisonWording path op bound ++ u = comparisonWording path' op' bound' ++ v) :
    (Condition.comparison path op bound).withoutIdlePaths =
      (Condition.comparison path' op' bound').withoutIdlePaths ∧ u = v := by
  by_cases hidle : op = .oneOf ∧ bound = .array []
  · by_cases hidle' : op' = .oneOf ∧ bound' = .array []
    · obtain ⟨rfl, rfl⟩ := hidle
      obtain ⟨rfl, rfl⟩ := hidle'
      exact ⟨rfl, List.append_cancel_left heq⟩
    · rw [comparisonWording_eq hidle', comparisonWording, if_pos hidle] at heq
      exact absurd heq (idle_ne_column h'.1 _ _)
  · by_cases hidle' : op' = .oneOf ∧ bound' = .array []
    · rw [comparisonWording_eq hidle, comparisonWording, if_pos hidle'] at heq
      exact absurd heq.symm (idle_ne_column h.1 _ _)
    · rw [comparisonWording_eq hidle, comparisonWording_eq hidle'] at heq
      obtain ⟨hcolumn, hrest⟩ := Text.append_mark_inj
        (mem_verbatim.not.2 (blank_notMem_columnText h.1))
        (mem_verbatim.not.2 (blank_notMem_columnText h'.1)) heq
      obtain ⟨hword, hbound⟩ := Text.append_mark_inj
        (mem_verbatim.not.2 (blank_notMem_testWord h.2))
        (mem_verbatim.not.2 (blank_notMem_testWord h'.2)) hrest
      obtain rfl := columnText_inj h.1 h'.1 (verbatim_injective hcolumn)
      have hop : op = op' := by
        rcases eq_of_testWord_eq h.2 h'.2 (verbatim_injective hword) with hop | ⟨hop, hop'⟩
        · exact hop
        · exact op_eq_of_boundWording hop hop' hbound
      subst hop
      obtain ⟨rfl, rfl⟩ := boundWording_append_inj h.2 h'.2 hidle hidle' hbound
      exact ⟨rfl, rfl⟩

/-! ### Conditions -/

/-- The first character of the wording of a well-formed condition. -/
def firstCharacter : Condition → Char
  | .comparison _ op bound => if op = .oneOf ∧ bound = .array [] then '0' else 'd'
  | .logical .not _ => 'N'
  | _ => '('

theorem wording_eq_cons {c : Condition} (h : WellFormed c) :
    ∃ t, wording c = .inl c.firstCharacter :: t := by
  cases c with
  | value v => exact h.elim
  | comparison path op bound =>
    rw [wording, comparisonWording, firstCharacter]
    split
    · exact ⟨_, rfl⟩
    · obtain ⟨t, ht⟩ := columnText_eq_cons h.1
      rw [ht]
      exact ⟨_, rfl⟩
  | logical op cs =>
    cases op with
    | not =>
      rcases cs with _ | ⟨c, _ | ⟨d, cs⟩⟩
      · exact h.elim
      · exact ⟨_, rfl⟩
      · exact h.elim
    | and | or =>
      rcases cs with _ | ⟨c, _ | ⟨d, cs⟩⟩
      · exact h.elim
      · exact h.elim
      · exact ⟨_, rfl⟩
    | unknown name => exact h.elim

theorem firstCharacter_comparison (path : Text) (op : Operator) (bound : Json) :
    (Condition.comparison path op bound).firstCharacter ≠ 'N' ∧
      (Condition.comparison path op bound).firstCharacter ≠ '(' := by
  rw [firstCharacter]
  split
  · decide
  · decide

mutual

/-- No wording is the beginning of another one: a condition, and what follows it, can be told from
the whole. -/
theorem wording_append_inj {a b : Condition} (ha : WellFormed a) (hb : WellFormed b)
    {u v : Filled} (h : wording a ++ u = wording b ++ v) :
    a.withoutIdlePaths = b.withoutIdlePaths ∧ u = v := by
  have hfirst : a.firstCharacter = b.firstCharacter := by
    obtain ⟨s, hs⟩ := wording_eq_cons ha
    obtain ⟨t, ht⟩ := wording_eq_cons hb
    rw [hs, ht] at h
    exact Sum.inl.inj (List.cons.inj h).1
  match a, b, ha, hb with
  | .comparison path op bound, .comparison path' op' bound', ha, hb =>
    exact comparisonWording_append_inj ha hb h
  | .comparison path op bound, .logical .not [d], _, _ =>
    exact absurd hfirst (firstCharacter_comparison path op bound).1
  | .comparison path op bound, .logical .and (d :: d' :: ds), _, _
  | .comparison path op bound, .logical .or (d :: d' :: ds), _, _ =>
    exact absurd hfirst (firstCharacter_comparison path op bound).2
  | .logical .not [c], .comparison path op bound, _, _ =>
    exact absurd hfirst.symm (firstCharacter_comparison path op bound).1
  | .logical .and (c :: c' :: cs), .comparison path op bound, _, _
  | .logical .or (c :: c' :: cs), .comparison path op bound, _, _ =>
    exact absurd hfirst.symm (firstCharacter_comparison path op bound).2
  | .logical .not [c], .logical .and (d :: d' :: ds), _, _
  | .logical .not [c], .logical .or (d :: d' :: ds), _, _
  | .logical .and (c :: c' :: cs), .logical .not [d], _, _
  | .logical .or (c :: c' :: cs), .logical .not [d], _, _ =>
    exact absurd hfirst (by simp [firstCharacter])
  | .logical .not [c], .logical .not [d], ha, hb =>
    have hc : WellFormed c := ha
    have hd : WellFormed d := hb
    simp only [wording, List.append_assoc, List.append_cancel_left_eq] at h
    obtain ⟨hcd, huv⟩ := wording_append_inj hc hd h
    exact ⟨withoutIdlePaths_logical .not hcd rfl, List.append_cancel_left huv⟩
  | .logical .and (c :: c' :: cs), .logical .and (d :: d' :: ds), ha, hb =>
    simp only [wording, List.append_assoc, List.append_cancel_left_eq] at h
    obtain ⟨hcd, h⟩ := wording_append_inj ha.1 hb.1 h
    have hcs : AllWellFormed (c' :: cs) := ha.2
    have hds : AllWellFormed (d' :: ds) := hb.2
    obtain ⟨hrest, huv⟩ := restWording_append_inj "AND ".toList hcs hds h
    exact ⟨withoutIdlePaths_logical .and hcd hrest, huv⟩
  | .logical .or (c :: c' :: cs), .logical .or (d :: d' :: ds), ha, hb =>
    simp only [wording, List.append_assoc, List.append_cancel_left_eq] at h
    obtain ⟨hcd, h⟩ := wording_append_inj ha.1 hb.1 h
    have hcs : AllWellFormed (c' :: cs) := ha.2
    have hds : AllWellFormed (d' :: ds) := hb.2
    obtain ⟨hrest, huv⟩ := restWording_append_inj "OR ".toList hcs hds h
    exact ⟨withoutIdlePaths_logical .or hcd hrest, huv⟩
  -- The first operands agree, and then the marks of the connectives do not.
  | .logical .and (c :: c' :: cs), .logical .or (d :: d' :: ds), ha, hb =>
    simp only [wording, List.append_assoc, List.append_cancel_left_eq] at h
    obtain ⟨-, h⟩ := wording_append_inj ha.1 hb.1 h
    simp [restWording, verbatim_cons] at h
  | .logical .or (c :: c' :: cs), .logical .and (d :: d' :: ds), ha, hb =>
    simp only [wording, List.append_assoc, List.append_cancel_left_eq] at h
    obtain ⟨-, h⟩ := wording_append_inj ha.1 hb.1 h
    simp [restWording, verbatim_cons] at h

/-- Further operands up to the closing bracket. -/
theorem restWording_append_inj (mark : Text) {cs ds : List Condition} (hcs : AllWellFormed cs)
    (hds : AllWellFormed ds) {u v : Filled}
    (h : restWording (verbatim (' ' :: mark)) cs ++ (verbatim [')'] ++ u) =
      restWording (verbatim (' ' :: mark)) ds ++ (verbatim [')'] ++ v)) :
    allWithoutIdlePaths cs = allWithoutIdlePaths ds ∧ u = v := by
  match cs, ds, hcs, hds with
  | [], [], _, _ => exact ⟨rfl, List.append_cancel_left h⟩
  | [], d :: ds, _, _ => simp [restWording, verbatim_cons] at h
  | c :: cs, [], _, _ => simp [restWording, verbatim_cons] at h
  | c :: cs, d :: ds, hcs, hds =>
    simp only [restWording, List.append_assoc, List.append_cancel_left_eq] at h
    obtain ⟨hcd, h⟩ := wording_append_inj hcs.1 hds.1 h
    obtain ⟨hrest, huv⟩ := restWording_append_inj mark hcs.2 hds.2 h
    rw [allWithoutIdlePaths, allWithoutIdlePaths, hcd, hrest]
    exact ⟨rfl, huv⟩

end

/-- **Conditions are uniquely readable.** Every condition that callers can write compiles, and two
of them compile to the same text and the same values exactly if they are the same condition, up to
the paths of memberships in empty lists. -/
theorem compiled_eq_iff {a b : Condition} (ha : a.Expressible) (hb : b.Expressible) :
    ∃ f g, a.compile = .ok f ∧ b.compile = .ok g ∧
      (f.text = g.text ∧ f.values = g.values ↔ a.withoutIdlePaths = b.withoutIdlePaths) := by
  obtain ⟨f, hf, hfilled⟩ := compile_wellFormed ha.wellFormed
  obtain ⟨g, hg, hgilled⟩ := compile_wellFormed hb.wellFormed
  refine ⟨f, g, hf, hg, ?_⟩
  rw [← Fragment.filled_inj_iff, hfilled, hgilled]
  constructor
  · intro h
    have happend : wording a ++ [] = wording b ++ [] := by rw [h]
    exact (wording_append_inj ha.wellFormed hb.wellFormed happend).1
  · intro h
    rw [← wording_withoutIdlePaths a, h, wording_withoutIdlePaths]

/-- Two conditions that differ in the path of a membership in an empty list, below a negation and a
disjunction, compile to the same. -/
theorem compiled_eq_idle_path :
    let anyOf (path : Text) : Condition :=
      .logical .not [.logical .or
        [.comparison path .oneOf (.array []), .comparison "name".toList .isNull .null]]
    let a := anyOf "age".toList
    let b := anyOf "id".toList
    (a.Expressible ∧ b.Expressible) ∧
    ∃ f g, a.compile = .ok f ∧ b.compile = .ok g ∧ f.text = g.text ∧ f.values = g.values := by
  intro anyOf a b
  have hreached : ∀ path, Path.check path = .ok () → (⟨path⟩ : Field).Reached := by
    intro path hpath
    refine @Field.Reached.ofPath path ⟨path⟩ ?_
    rw [Field.ofPath, hpath]
    rfl
  have hname := hreached "name".toList rfl
  have hexpressible : ∀ f : Field, f.Reached → (anyOf f.path).Expressible := by
    intro f hf
    have hidle : Expressible (.comparison f.path .oneOf (.array [])) :=
      .oneOf (v := .array []) hf rfl
    exact .not (.or hidle (.isNull hname) rfl) rfl
  have ha : a.Expressible := hexpressible ⟨"age".toList⟩ (hreached _ rfl)
  have hb : b.Expressible := hexpressible ⟨"id".toList⟩ (hreached _ rfl)
  obtain ⟨f, g, hf, hg, hiff⟩ := compiled_eq_iff ha hb
  have hsame : a.withoutIdlePaths = b.withoutIdlePaths := rfl
  exact ⟨⟨ha, hb⟩, f, g, hf, hg, hiff.2 hsame⟩

end DocTable.Sql.Condition
