import DocTable.Sql.Clause
/-!
# DocTable.Proofs.Condition.Shape

Conditions without their values.

`Fragment.blank` takes the values out of a fragment and leaves its segments. `Condition.shape` takes
them out of a condition; what it leaves of the values of a membership is their number, because each
of them has a hole of its own. Compilation never looks at a value beyond that: the shape of a
condition compiles to the blank of what the condition compiles to (`compile_shape`). So conditions
of one shape compile to the same segments, or fail alike (`parts_compile_eq`).
-/

namespace DocTable.Sql

namespace Fragment

/-- The fragment with null in the place of each value. -/
def blank (f : Fragment) : Fragment where
  head := f.head
  holes := f.holes.map fun h => (.null, h.2)
  head_clean := f.head_clean
  holes_clean := List.forall_mem_map.2 f.holes_clean

@[simp] theorem parts_blank (f : Fragment) : f.blank.parts = f.parts := by
  simp [parts, blank, Function.comp_def]

/-- What is left of a fragment without its values are its segments. -/
theorem blank_eq_iff {f g : Fragment} : f.blank = g.blank ↔ f.parts = g.parts := by
  constructor
  · intro h
    rw [← parts_blank f, h, parts_blank]
  · intro h
    obtain ⟨hhead, hholes⟩ := List.cons.inj h
    have hnull : ∀ holes : List (Json × Text),
        (holes.map fun h => (Json.null, h.2)) = (holes.map (·.2)).map (Prod.mk .null) :=
      fun holes => (List.map_map ..).symm
    refine Fragment.ext hhead ?_
    show (f.holes.map fun h => (Json.null, h.2)) = g.holes.map fun h => (Json.null, h.2)
    rw [hnull, hnull, hholes]

theorem map_blank_eq_iff {fs gs : List Fragment} :
    fs.map blank = gs.map blank ↔ fs.map parts = gs.map parts := by
  induction fs generalizing gs with
  | nil => simp
  | cons f fs ih =>
    cases gs with
    | nil => simp
    | cons g gs => simp only [List.map_cons, List.cons.injEq, blank_eq_iff, ih]

/-- Fragments with the same blank, or the same error. -/
theorem map_parts_eq_of_blank {ε : Type} {r r' : Except ε Fragment}
    (h : blank <$> r = blank <$> r') : parts <$> r = parts <$> r' := by
  cases r with
  | error e =>
    cases r' with
    | error e' => exact congrArg Except.error (Except.error.inj h)
    | ok g => cases h
  | ok f =>
    cases r' with
    | error e' => cases h
    | ok g => exact congrArg Except.ok (blank_eq_iff.1 (Except.ok.inj h))

theorem blank_glue (head : Text) (holes : List (Json × Text)) (next : Text × List (Json × Text)) :
    ((glue head holes next).1, (glue head holes next).2.map fun h => (Json.null, h.2)) =
      glue head (holes.map fun h => (.null, h.2)) (next.1, next.2.map fun h => (.null, h.2)) := by
  induction holes generalizing head with
  | nil => rfl
  | cons x rest ih =>
    have ih := ih x.2
    simp only [glue, List.map_cons] at ih ⊢
    rw [← ih]

@[simp] theorem blank_append (f g : Fragment) : (f ++ g).blank = f.blank ++ g.blank := by
  have hglue := blank_glue f.head f.holes (g.head, g.holes)
  have hhead := congrArg Prod.fst hglue
  have hholes := congrArg Prod.snd hglue
  exact Fragment.ext hhead hholes

@[simp] theorem blank_literal (t : Text) (clean : '?' ∉ t) :
    (literal t clean).blank = literal t clean := rfl

@[simp] theorem blank_hole (v : Json) : (hole v).blank = hole .null := rfl

theorem blank_join (sep : Fragment) (fs : List Fragment) :
    (join sep fs).blank = join sep.blank (fs.map blank) := by
  induction fs with
  | nil => rfl
  | cons f fs ih =>
    cases fs with
    | nil => rfl
    | cons g rest =>
      rw [join, blank_append, blank_append, ih]
      rfl

@[simp] theorem blank_expanded (f : Fragment) : f.expanded.blank = f.blank.expanded :=
  Fragment.ext rfl (by simp [expanded, blank])

end Fragment

namespace Condition

@[simp] theorem blank_keyword (t : String) (clean : '?' ∉ t.toList) :
    (keyword t clean).blank = keyword t clean := rfl

/-! ### Shapes -/

/-- What is left of the value of a comparison: nothing, and for a membership the number of items.
A value that has no items is refused by its kind, so it stays. -/
def boundShape (op : Operator) (bound : Json) : Json :=
  match op with
  | .oneOf =>
    match bound.items? with
    | some items => .array (List.replicate items.length .null)
    | none => bound
  | _ => .null

mutual

/-- The condition without the values of its comparisons. -/
def shape : Condition → Condition
  | .comparison path op bound => .comparison path op (boundShape op bound)
  | .logical op children => .logical op (shapes children)
  | .value v => .value v

/-- `shape` for each of several conditions. -/
def shapes : List Condition → List Condition
  | [] => []
  | c :: cs => shape c :: shapes cs

end

theorem shapes_eq_map (cs : List Condition) : shapes cs = cs.map shape := by
  induction cs with
  | nil => rfl
  | cons c cs ih => rw [shapes, ih, List.map_cons]

/-! ### Compilation -/

/-- Columns bind no values. -/
theorem blank_column (path after : Text) :
    Fragment.blank <$> column path after = column path after := by
  rw [column, Fragment.literal?]
  split
  · rfl
  · rfl

theorem blank_of_column {path after : Text} {f : Fragment} (h : column path after = .ok f) :
    f.blank = f := by
  have hblank := blank_column path after
  rw [h] at hblank
  exact Except.ok.inj hblank

theorem blank_holeList (values : List Json) :
    (holeList values).blank = holeList (List.replicate values.length .null) := by
  have hholes : (values.map Fragment.hole).map Fragment.blank =
      (List.replicate values.length Json.null).map Fragment.hole := by
    rw [List.map_map, List.map_replicate, ← List.map_const']
    rfl
  rw [holeList, Fragment.blank_join, hholes]
  rfl

/-- A value that has items counts as given if it has one. -/
theorem given_eq_of_items? {bound : Json} {items : List Json} (h : bound.items? = some items) :
    bound.given = !items.isEmpty := by
  cases bound with
  | text t =>
    cases h
    cases t <;> rfl
  | array vs => cases h; rfl
  | object ms =>
    cases h
    cases ms <;> rfl
  | null | bool | int | float => cases h

theorem draftMembership_shape (path : Text) (bound : Json) :
    draftComparison path .oneOf (boundShape .oneOf bound) =
      Fragment.blank <$> draftComparison path .oneOf bound := by
  unfold boundShape
  cases hitems : bound.items? with
  | none =>
    -- The complaint is about the kind of the value, and there is no fragment.
    show draftComparison path .oneOf bound = _
    rw [draftComparison, hitems]
    split
    · cases column path " IN (".toList <;> rfl
    · rfl
  | some items =>
    show draftComparison path .oneOf (.array (List.replicate items.length .null)) = _
    have hgiven : (Json.array (List.replicate items.length .null)).given = bound.given := by
      rw [given_eq_of_items? hitems]
      cases items <;> rfl
    rw [draftComparison, draftComparison, hgiven, hitems]
    split
    · cases hcolumn : column path " IN (".toList with
      | error e => rfl
      | ok before =>
        show Except.ok _ = Except.ok _
        rw [Fragment.blank_append, Fragment.blank_append, blank_holeList, blank_of_column hcolumn]
        rfl
    · rfl

/-- A comparison with one value. -/
theorem draftBound_shape (path after : Text) (bound : Json) :
    (do return (← column path after) ++ Fragment.hole .null) =
      Fragment.blank <$> (do return (← column path after) ++ Fragment.hole bound :
        Except QueryError Fragment) := by
  cases hcolumn : column path after with
  | error e => rfl
  | ok before =>
    show Except.ok _ = Except.ok _
    rw [Fragment.blank_append, blank_of_column hcolumn]
    rfl

theorem draftComparison_shape (path : Text) (op : Operator) (bound : Json) :
    draftComparison path op (boundShape op bound) =
      Fragment.blank <$> draftComparison path op bound := by
  cases op with
  | isNull | isNotNull => exact (blank_column path _).symm
  | unknown name => rfl
  | oneOf => exact draftMembership_shape path bound
  | equal | notEqual | greater | greaterEqual | less | lessEqual | like =>
    exact draftBound_shape path _ bound

theorem blank_bracketed (f : Fragment) : (bracketed f).blank = bracketed f.blank := by
  simp [bracketed]

theorem joined_shape {mark : Fragment} (hmark : mark.blank = mark)
    {drafts drafts' : Except QueryError (List Fragment)}
    (h : drafts' = List.map Fragment.blank <$> drafts) :
    (do return bracketed (Fragment.join mark (← drafts'))) =
      Fragment.blank <$> (do return bracketed (Fragment.join mark (← drafts)) :
        Except QueryError Fragment) := by
  subst h
  cases drafts with
  | error e => rfl
  | ok fs =>
    show Except.ok _ = Except.ok _
    rw [blank_bracketed, Fragment.blank_join, hmark]

mutual

/-- The shape of a condition is written like the condition, without the values. -/
theorem draft_shape (c : Condition) : draft c.shape = Fragment.blank <$> draft c := by
  match c with
  | .comparison path op bound => exact draftComparison_shape path op bound
  | .logical .and cs => exact joined_shape rfl (draftAll_shapes cs)
  | .logical .or cs => exact joined_shape rfl (draftAll_shapes cs)
  | .logical .not [] => rfl
  | .logical .not (c :: cs) =>
    rw [shape, shapes, draft, draft, draft_shape c]
    cases draft c with
    | error e => rfl
    | ok f =>
      show Except.ok _ = Except.ok _
      rw [Fragment.blank_append, blank_bracketed]
      rfl
  | .logical (.unknown name) cs => rfl
  | .value v => rfl

theorem draftAll_shapes (cs : List Condition) :
    draftAll (shapes cs) = List.map Fragment.blank <$> draftAll cs := by
  match cs with
  | [] => rfl
  | c :: cs =>
    rw [shapes, draftAll, draftAll, draft_shape c, draftAll_shapes cs]
    cases draft c with
    | error e => rfl
    | ok f => cases draftAll cs <;> rfl

end

theorem compile_shape (c : Condition) : c.shape.compile = Fragment.blank <$> c.compile := by
  rw [compile, compile, draft_shape]
  cases draft c with
  | error e => rfl
  | ok f => exact congrArg Except.ok (Fragment.blank_expanded f).symm

/-- Conditions that differ only in values compile to the same segments, or fail alike. -/
theorem parts_compile_eq {a b : Condition} (h : a.shape = b.shape) :
    Fragment.parts <$> a.compile = Fragment.parts <$> b.compile := by
  refine Fragment.map_parts_eq_of_blank ?_
  rw [← compile_shape, h, compile_shape]

end Condition

/-! ### Clauses -/

theorem blank_selecting (f : Fragment) : (selecting f).blank = selecting f.blank := by
  simp [selecting, build, Clause.where]

theorem parts_selectingBy_eq {a b : Condition} (h : a.shape = b.shape) :
    Fragment.parts <$> selectingBy a = Fragment.parts <$> selectingBy b := by
  have hselecting : ∀ c : Condition,
      Fragment.blank <$> selectingBy c = selecting <$> c.shape.compile := by
    intro c
    rw [selectingBy, Condition.compile_shape]
    cases c.compile with
    | error e => rfl
    | ok f => exact congrArg Except.ok (blank_selecting f)
  refine Fragment.map_parts_eq_of_blank ?_
  rw [hselecting, h, hselecting]

/-- The counts of a limit are bound. -/
theorem parts_limiting (count count' : Int) {offset offset' : Option Int}
    (h : offset.isSome = offset'.isSome) :
    (limiting count offset).parts = (limiting count' offset').parts := by
  cases offset with
  | none =>
    cases offset' with
    | none => rfl
    | some n => cases h
  | some n =>
    cases offset' with
    | none => cases h
    | some n' => rfl

end DocTable.Sql
