import DocTable.Console.Output
import DocTable.Proofs.Json.Numbers
import DocTable.Proofs.Result
import Mathlib.Data.List.TakeWhile
/-!
# DocTable.Proofs.Console.Lines

How far printing gets.

Items are printed one after another, up to the first that has no line (`each_eq_takeWhile`). What
decides is whether a value may be shown: a value that may not is the one error there is (`json_eq`,
`plain_eq`), and documents that may are all printed (`documents_eq`).
-/

namespace DocTable.Console.Output

/-! ### Items one after another -/

/-- If a condition decides which items have lines, the lines of the items before the first one that
does not meet it are printed. -/
theorem each_eq_takeWhile {α : Type} {line : α → Except Error Text} {p : α → Bool} {f : α → Text}
    {e : Error} (h : ∀ x, line x = if p x then .ok (f x) else .error e) (xs : List α) :
    each line xs = ((xs.takeWhile p).map f, if xs.all p then none else some e) := by
  induction xs with
  | nil => rfl
  | cons x xs ih =>
    rw [each, h x]
    cases hx : p x with
    | false => simp [hx]
    | true => simp [hx, ih]

/-! ### Values -/

theorem json_eq (layout : Json.Layout) (v : Json) :
    json layout v = if v.isShowable then .ok (v.write layout) else .error .notShowable := by
  rw [json, Json.writeChecked, Json.isShowable]
  cases herror : v.writeError? false with
  | none => rfl
  | some e =>
    cases e with
    | notFinite => exact absurd (Json.isDue_of_writeError? herror).1 Bool.false_ne_true
    | notShowable => rfl

theorem plain_eq (v : Json) :
    plain v = if v.isShowable then .ok v.plain else .error .notShowable := by
  rw [plain, Json.plain?]
  cases v.isShowable with
  | true | false => rfl

theorem judges_plain (v : Json) : Judges (· = .notShowable) (v.isShowable = false) (plain v) := by
  rw [plain_eq]
  cases h : v.isShowable with
  | false => exact .fails rfl rfl
  | true => exact .passes Bool.false_ne_true.symm

/-- The cells of a table have texts unless one of them may not be shown. -/
theorem judges_cells (rows : List (List Json)) :
    Judges (· = .notShowable) (∃ row ∈ rows, ∃ v ∈ row, v.isShowable = false)
      (rows.mapM (·.mapM plain)) :=
  .mapM fun _ _ => .mapM fun v _ => judges_plain v

theorem cells_eq_ok {rows : List (List Json)}
    (h : ∀ row ∈ rows, ∀ v ∈ row, v.isShowable = true) :
    rows.mapM (·.mapM plain) = .ok (rows.map (·.map Json.plain)) := by
  refine mapM_eq_ok_map fun row hrow => mapM_eq_ok_map fun v hv => ?_
  rw [plain_eq, if_pos (h row hrow v hv)]

/-! ### Documents -/

/-- The lines of documents that may be shown. -/
def shownLines (style : Style) (docs : List Json) : List Text :=
  match style with
  | .json => [(Json.array docs).write .indented]
  | .plain => docs.map Json.compact

theorem documents_eq (style : Style) {docs : List Json}
    (h : ∀ doc ∈ docs, doc.isShowable = true) :
    documents style docs = (shownLines style docs, none) := by
  cases style with
  | json =>
    have harray : (Json.array docs).isShowable = true := Json.isShowable_array_iff.2 h
    rw [documents, each_eq_takeWhile (json_eq .indented)]
    simp [harray, shownLines]
  | plain =>
    rw [documents, each_eq_takeWhile (json_eq .compact), List.takeWhile_eq_self_iff.2 h,
      if_pos (List.all_eq_true.2 h)]
    rfl

theorem documentLines_eq_ok (style : Style) {docs : List Json}
    (h : ∀ doc ∈ docs, doc.isShowable = true) :
    documentLines style docs = .ok (shownLines style docs) := by
  rw [documentLines, documents_eq style h]
  rfl

/-- Documents that come from a step and may be shown are printed to their end. -/
theorem bind_documentLines (style : Style) {α : Type} {r : Except Error α} (docs : α → List Json)
    (h : ∀ a, r = .ok a → ∀ doc ∈ docs a, doc.isShowable = true) :
    (r >>= fun a => documentLines style (docs a)) =
      r >>= fun a => .ok (shownLines style (docs a)) := by
  cases r with
  | error e => rfl
  | ok a => exact documentLines_eq_ok style (h a rfl)

end DocTable.Console.Output
