import DocTable.Proofs.Console.Printing
import DocTable.Proofs.Document.Shown
import Mathlib.Data.List.TakeWhile
import Mathlib.Order.Bounds.Basic
/-!
# DocTable.Proofs.Console.Columns

Tables in columns.

A column is as wide as the longest of its cells, the header among them (`Measures`), and starts two
characters behind the column before it (`columnStart`). A line shows its cells where their columns
start, and is blank elsewhere (`Shows`). `table_aligned` says this of the header, of the rule below
it, and of the line of every row up to the first one that has more cells than there are columns;
such a row ends the table with an error. Before anything is printed, every cell has to have a text.
-/

namespace DocTable.Console.Output

open Text

/-! ### Widths -/

/-- The cells of a column, from the rows that have them. -/
def column (rows : List (List Text)) (i : Nat) : List Text :=
  rows.filterMap (·[i]?)

/-- Each width is the length of the longest cell of its column. -/
def Measures (widths : List Nat) (rows : List (List Text)) : Prop :=
  ∀ i w, widths[i]? = some w → IsGreatest {n | ∃ cell ∈ column rows i, cell.length = n} w

theorem length_widen (widths : List Nat) (row : List Text) :
    (widen widths row).length = widths.length := by
  induction widths generalizing row with
  | nil => rfl
  | cons w ws ih =>
    cases row with
    | nil => rfl
    | cons cell cells => rw [widen, List.length_cons, ih, List.length_cons]

theorem length_widths (headers : List Text) (rows : List (List Text)) :
    (widths headers rows).length = headers.length := by
  have hfold : ∀ ws : List Nat, (rows.foldl widen ws).length = ws.length := by
    induction rows with
    | nil => exact fun _ => rfl
    | cons row rows ih => exact fun ws => (ih _).trans (length_widen ws row)
  rw [widths, hfold, List.length_map]

/-- A column is widened by the cell that a row has in it, if it has one. -/
theorem getElem?_widen (widths : List Nat) (row : List Text) (i : Nat) :
    (widen widths row)[i]? =
      widths[i]?.map fun w => (row[i]?.map fun cell => max w cell.length).getD w := by
  induction widths generalizing row i with
  | nil => rfl
  | cons w ws ih =>
    cases row with
    | nil => simp [widen]
    | cons cell cells =>
      cases i with
      | zero => rfl
      | succ i => exact ih cells i

theorem measures_headers (headers : List Text) : Measures (headers.map List.length) [headers] := by
  intro i w hw
  rw [List.getElem?_map] at hw
  obtain ⟨header, hheader, rfl⟩ := Option.map_eq_some_iff.1 hw
  have hcolumn : column [headers] i = [header] := by simp [column, hheader]
  constructor
  · exact ⟨header, by rw [hcolumn]; exact List.mem_singleton_self header, rfl⟩
  · rintro n ⟨cell, hcell, rfl⟩
    rw [hcolumn, List.mem_singleton] at hcell
    rw [hcell]

/-- Widths keep up with the rows that are seen. -/
theorem measures_widen {widths : List Nat} {seen : List (List Text)} (h : Measures widths seen)
    (row : List Text) : Measures (widen widths row) (seen ++ [row]) := by
  intro i w hw
  rw [getElem?_widen] at hw
  obtain ⟨before, hbefore, rfl⟩ := Option.map_eq_some_iff.1 hw
  have hgreatest := h i before hbefore
  cases hcell : row[i]? with
  | none =>
    have hcolumn : column (seen ++ [row]) i = column seen i := by simp [column, hcell]
    rw [hcolumn]
    exact hgreatest
  | some cell =>
    have hcolumn : column (seen ++ [row]) i = column seen i ++ [cell] := by simp [column, hcell]
    have hlengths : {n | ∃ c ∈ column (seen ++ [row]) i, c.length = n} =
        {n | ∃ c ∈ column seen i, c.length = n} ∪ {cell.length} := by
      ext n
      simp [hcolumn, or_and_right, exists_or, or_comm, eq_comm]
    rw [hlengths]
    exact hgreatest.union isGreatest_singleton

theorem measures_widths (headers : List Text) (rows : List (List Text)) :
    Measures (widths headers rows) (headers :: rows) := by
  have hfold : ∀ (ws : List Nat) (seen : List (List Text)), Measures ws seen →
      Measures (rows.foldl widen ws) (seen ++ rows) := by
    induction rows with
    | nil => exact fun ws seen h => by rwa [List.append_nil]
    | cons row rows ih =>
      intro ws seen h
      rw [List.append_cons]
      exact ih _ _ (measures_widen h row)
  exact hfold _ _ (measures_headers headers)

/-- No cell is longer than its column is wide. -/
theorem Measures.length_le {widths : List Nat} {rows : List (List Text)} (h : Measures widths rows)
    {row : List Text} (hrow : row ∈ rows) {i w : Nat} {cell : Text} (hw : widths[i]? = some w)
    (hcell : row[i]? = some cell) : cell.length ≤ w :=
  (h i w hw).2 ⟨cell, List.mem_filterMap.2 ⟨row, hrow, hcell⟩, rfl⟩

/-! ### Lines -/

/-- Where a column starts: the columns before it have two blanks behind each of them. -/
def columnStart (widths : List Nat) (i : Nat) : Nat :=
  ((widths.take i).map (· + 2)).sum

theorem columnStart_cons_succ (w : Nat) (ws : List Nat) (i : Nat) :
    columnStart (w :: ws) (i + 1) = w + 2 + columnStart ws i := rfl

/-- What a line shows if its columns start at some places. -/
structure Shows (start : Nat → Nat) (cells : List Text) (text : Text) : Prop where
  /-- A cell stands where its column starts. -/
  inside : ∀ i cell, cells[i]? = some cell → cell <+: text.drop (start i)
  /-- A cell ends two characters before the next column at the latest. -/
  apart : ∀ i cell, cells[i]? = some cell → start i + cell.length + 2 ≤ start (i + 1)
  /-- What belongs to no cell is a blank. -/
  outside : ∀ k c, text[k]? = some c →
    (∀ i cell, cells[i]? = some cell → k < start i ∨ start i + cell.length ≤ k) → c = ' '

theorem Shows.mem {start : Nat → Nat} {cells : List Text} {line : Text}
    (h : Shows start cells line) {c : Char} (hc : c ∈ line) :
    c = ' ' ∨ ∃ cell ∈ cells, c ∈ cell := by
  obtain ⟨k, hk⟩ := List.mem_iff_getElem?.1 hc
  by_cases hblank : ∀ i cell, cells[i]? = some cell → k < start i ∨ start i + cell.length ≤ k
  · exact .inl (h.outside k c hk hblank)
  · push Not at hblank
    obtain ⟨i, cell, hcell, hstart, hend⟩ := hblank
    refine .inr ⟨cell, List.mem_of_getElem? hcell, ?_⟩
    -- The character is the one of the cell that is as far from its beginning.
    have hoffset : (line.drop (start i))[k - start i]? = some c := by
      rw [List.getElem?_drop, Nat.add_sub_cancel' hstart, hk]
    have hprefix := h.inside i cell hcell
    rw [List.prefix_iff_getElem?] at hprefix
    have hlt : k - start i < cell.length := by omega
    have hsame := hprefix (k - start i) hlt
    rw [hsame] at hoffset
    exact Option.some.inj hoffset ▸ List.getElem_mem hlt

/-- Lines that show cells without line breaks hold none. -/
theorem unbroken_of_shows {isBreak : Char → Bool} (hbreak : BreaksLines isBreak)
    {start : Nat → Nat} {rows : List (List Text)} {ls : List Text}
    (h : List.Forall₂ (Shows start) rows ls)
    (hrows : ∀ row ∈ rows, ∀ cell ∈ row, ∀ c ∈ cell, isBreak c = false) :
    ∀ l ∈ ls, ∀ c ∈ l, isBreak c = false := by
  induction h with
  | nil => exact List.forall_mem_nil _
  | cons hline _ ih =>
    obtain ⟨hrow, hrows⟩ := List.forall_mem_cons.1 hrows
    refine List.forall_mem_cons.2 ⟨fun c hc => ?_, ih hrows⟩
    rcases hline.mem hc with rfl | ⟨cell, hcell, hc⟩
    · exact hbreak.visible ' ' (by decide)
    · exact hrow cell hcell c hc

/-- Behind a cell there are blanks up to the next one. -/
theorem eq_blank_of_getElem? {cell : Text} {n k : Nat} {c : Char}
    (h : (cell ++ List.replicate n ' ')[k]? = some c) (hk : cell.length ≤ k) : c = ' ' := by
  rw [List.getElem?_append_right hk] at h
  exact List.eq_of_mem_replicate (List.mem_of_getElem? h)

/-- A line with one cell. -/
theorem shows_single {start : Nat → Nat} (hzero : start 0 = 0) {w : Nat} {cell : Text}
    (happart : cell.length + 2 ≤ start 1) : Shows start [cell] (padRight w cell) where
  inside i c hc := by
    obtain ⟨rfl, rfl⟩ : i = 0 ∧ cell = c := by simpa [List.getElem?_singleton] using hc
    rw [hzero]
    exact List.prefix_append _ _
  apart i c hc := by
    obtain ⟨rfl, rfl⟩ : i = 0 ∧ cell = c := by simpa [List.getElem?_singleton] using hc
    rw [hzero, Nat.zero_add]
    exact happart
  outside k c hk hfree := by
    have hend : cell.length ≤ k := by
      have h := hfree 0 cell rfl
      omega
    exact eq_blank_of_getElem? hk hend

/-- A cell in front of a line moves its columns to the right. -/
theorem Shows.cons {start start' : Nat → Nat} {cells : List Text} {line : Text}
    (h : Shows start cells line) {w : Nat} {cell : Text} (hfits : cell.length ≤ w)
    (hzero : start' 0 = 0) (hsucc : ∀ i, start' (i + 1) = w + 2 + start i) :
    Shows start' (cell :: cells) (padRight w cell ++ [' ', ' '] ++ line) := by
  have hfront : padRight w cell ++ [' ', ' '] =
      cell ++ List.replicate (w - cell.length + 2) ' ' := by
    rw [padRight, List.append_assoc, List.replicate_add]
    rfl
  have hlength : (cell ++ List.replicate (w - cell.length + 2) ' ').length = w + 2 := by
    rw [List.length_append, List.length_replicate]
    omega
  rw [hfront]
  refine ⟨fun i c hc => ?_, fun i c hc => ?_, fun k c hk hfree => ?_⟩
  · cases i with
    | zero =>
      obtain rfl : cell = c := Option.some.inj hc
      rw [hzero, List.append_assoc]
      exact List.prefix_append _ _
    | succ i =>
      rw [hsucc, ← hlength, List.drop_append, List.drop_of_length_le (Nat.le_add_right _ _),
        Nat.add_sub_cancel_left]
      exact h.inside i c hc
  · rw [hsucc]
    cases i with
    | zero =>
      obtain rfl : cell = c := Option.some.inj hc
      omega
    | succ i =>
      have hrest := h.apart i c hc
      rw [hsucc]
      omega
  · by_cases hk' : k < w + 2
    · have hend : cell.length ≤ k := by
        have hcell := hfree 0 cell rfl
        omega
      rw [List.getElem?_append_left (by omega)] at hk
      exact eq_blank_of_getElem? hk hend
    · rw [List.getElem?_append_right (by omega), hlength] at hk
      refine h.outside _ c hk fun i c' hc' => ?_
      have hcell := hfree (i + 1) c' hc'
      rw [hsucc] at hcell
      omega

/-- Cells that fit into their columns are shown in them. -/
theorem shows_aligned {widths : List Nat} {cells : List Text}
    (hlength : cells.length ≤ widths.length)
    (hfits : ∀ (i w : Nat) (cell : Text), widths[i]? = some w → cells[i]? = some cell →
      cell.length ≤ w) :
    Shows (columnStart widths) cells (aligned widths cells) := by
  induction cells generalizing widths with
  | nil =>
    have hempty : aligned widths [] = [] := by rw [aligned, List.zipWith_nil_right, join_nil]
    rw [hempty]
    exact ⟨nofun, nofun, nofun⟩
  | cons cell cells ih =>
    cases widths with
    | nil => exact absurd hlength (by simp)
    | cons w ws =>
      have hcell : cell.length ≤ w := hfits 0 w cell rfl rfl
      cases cells with
      | nil =>
        have hsingle : aligned (w :: ws) [cell] = padRight w cell := by simp [aligned]
        rw [hsingle]
        refine shows_single rfl ?_
        rw [columnStart_cons_succ]
        omega
      | cons next cells =>
        cases ws with
        | nil => exact absurd hlength (by simp)
        | cons v ws =>
          have hrest := ih (Nat.le_of_succ_le_succ hlength) fun i => hfits (i + 1)
          exact hrest.cons hcell rfl (columnStart_cons_succ w (v :: ws))

/-- The rule below the header is a line whose cells fill their columns with dashes. -/
theorem aligned_dashes (widths : List Nat) :
    aligned widths (widths.map (List.replicate · '-')) =
      join [' ', ' '] (widths.map (List.replicate · '-')) := by
  have hdashes : ∀ w : Nat, padRight w (List.replicate w '-') = List.replicate w '-' := by
    simp [padRight]
  rw [aligned, List.zipWith_map_right, List.zipWith_self]
  simp only [hdashes]

/-! ### Tables -/

/-- Lines are made up to the first row with more cells than there are columns. -/
theorem each_rowLine (widths : List Nat) (rows : List (List Text)) :
    each (rowLine widths) rows =
      ((rows.takeWhile fun row => row.length ≤ widths.length).map (aligned widths),
        if ∀ row ∈ rows, row.length ≤ widths.length then none else some .tooManyColumns) := by
  have hline : ∀ row, rowLine widths row =
      if decide (row.length ≤ widths.length) then .ok (aligned widths row)
      else .error .tooManyColumns := by
    intro row
    by_cases hfew : row.length ≤ widths.length
    · rw [rowLine, if_neg (Nat.not_lt.2 hfew), if_pos (by simpa using hfew)]
    · rw [rowLine, if_pos (Nat.not_le.1 hfew), if_neg (by simpa using hfew)]
  rw [each_eq_takeWhile hline]
  simp only [List.all_eq_true, decide_eq_true_eq]

theorem plainTable_eq {headers : List Text} {rows : List (List Text)} (hrows : rows ≠ []) :
    plainTable headers rows =
      ((headers :: (widths headers rows).map (List.replicate · '-') ::
          rows.takeWhile fun row => row.length ≤ headers.length).map
            (aligned (widths headers rows)),
        if ∀ row ∈ rows, row.length ≤ headers.length then none else some .tooManyColumns) := by
  rw [plainTable, if_neg (by simpa using hrows)]
  dsimp only
  rw [each_rowLine, ← aligned_dashes, length_widths]
  rfl

/-- What ends a table early. -/
theorem plainTable_snd (headers : List Text) (rows : List (List Text)) :
    (plainTable headers rows).2 =
      if ∀ row ∈ rows, row.length ≤ headers.length then none else some .tooManyColumns := by
  cases rows with
  | nil => rfl
  | cons row rows => rw [plainTable_eq (List.cons_ne_nil _ _)]

/-- A table of values that may be shown is one of their texts. -/
theorem table_plain_eq {headers : List Text} {rows : List (List Json)}
    (h : ∀ row ∈ rows, ∀ v ∈ row, v.isShowable = true) :
    table .plain headers rows = plainTable headers (rows.map (·.map Json.plain)) := by
  rw [table, cells_eq_ok h]

/-- A table whose rows have no more cells than there are columns is printed to its end. -/
theorem table_snd (style : Style) (headers : List Text) {rows : List (List Json)}
    (hshown : ∀ row ∈ rows, ∀ v ∈ row, v.isShowable = true)
    (hfew : ∀ row ∈ rows, row.length ≤ headers.length) : (table style headers rows).2 = none := by
  cases style with
  | json =>
    have harray : (Json.array (rows.map fun row =>
        .object (Members.ofPairs (headers.zip row)))).isShowable = true := by
      rw [Json.isShowable_array_iff, List.forall_mem_map]
      intro row hrow
      exact Json.isShowable_ofPairs fun m hm =>
        hshown row hrow _ (List.of_mem_zip hm).2
    rw [table, each, json_eq, if_pos harray]
    rfl
  | plain =>
    rw [table_plain_eq hshown, plainTable_snd, if_pos]
    simpa using hfew

/-- Every line shows its cells in the columns of the table. -/
theorem shows_plainTable {headers : List Text} {rows : List (List Text)} (hrows : rows ≠ []) :
    List.Forall₂ (Shows (columnStart (widths headers rows)))
      (headers :: (widths headers rows).map (List.replicate · '-') ::
        rows.takeWhile fun row => row.length ≤ headers.length)
      (plainTable headers rows).1 := by
  have hmeasures := measures_widths headers rows
  have hlength := length_widths headers rows
  rw [plainTable_eq hrows, List.forall₂_map_right_iff, List.forall₂_same]
  have hline : ∀ row ∈ headers :: rows, row.length ≤ headers.length →
      Shows (columnStart (widths headers rows)) row (aligned (widths headers rows) row) :=
    fun row hrow hfew => shows_aligned (by rwa [hlength]) fun _ _ _ hw hcell =>
      hmeasures.length_le hrow hw hcell
  refine List.forall_mem_cons.2 ⟨hline _ List.mem_cons_self le_rfl, ?_⟩
  refine List.forall_mem_cons.2 ⟨?_, fun row hrow => ?_⟩
  · refine shows_aligned (by simp) fun i w cell hw hcell => ?_
    rw [List.getElem?_map, hw] at hcell
    obtain rfl := Option.some.inj hcell
    simp
  · have hmem := List.mem_cons_of_mem headers ((List.takeWhile_prefix _).subset hrow)
    exact hline row hmem (by simpa using List.mem_takeWhile_imp hrow)

/-- **Tables print completely and aligned.** Whatever the headers and the cells are, and however
many cells a row has: if a cell has no text because a whole number in it has too many digits,
nothing is printed but the error. Otherwise, without rows nothing is printed; with rows there are a
line for the headers, a line of dashes, and a line for each row up to the first one that has more
cells than there are headers; each of them shows all its cells, and a column starts at the same
place in all of them. The table ends with an error exactly if there is such a row. Where no header
and no cell holds a line break, the printed lines are the lines of the output. -/
theorem table_aligned (headers : List Text) (rows : List (List Json)) :
    let printed := table .plain headers rows
    let cells : List (List Text) := rows.map fun row => row.map Json.plain
    ((∃ row ∈ rows, ∃ v ∈ row, v.isShowable = false) → printed = ([], some .notShowable)) ∧
    ((∀ row ∈ rows, ∀ v ∈ row, v.isShowable = true) →
      (printed.2 =
        if ∀ row ∈ rows, row.length ≤ headers.length then none else some .tooManyColumns) ∧
      (rows = [] → printed.1 = []) ∧
      (rows ≠ [] → ∃ widths : List Nat,
        widths.length = headers.length ∧ Measures widths (headers :: cells) ∧
        List.Forall₂ (Shows (columnStart widths))
          (headers :: widths.map (List.replicate · '-') ::
            cells.takeWhile fun row => row.length ≤ headers.length)
          printed.1) ∧
      ∀ isBreak, BreaksLines isBreak → (∀ header ∈ headers, ∀ c ∈ header, isBreak c = false) →
        (∀ row ∈ cells, ∀ cell ∈ row, ∀ c ∈ cell, isBreak c = false) →
        lines isBreak (text printed.1) = printed.1) := by
  intro printed cells
  constructor
  · intro hlong
    obtain ⟨e, he, rfl⟩ := (judges_cells rows).exists_error hlong
    show table .plain headers rows = _
    rw [table, he]
  intro hshown
  have hprinted : printed = plainTable headers cells := table_plain_eq hshown
  have hcells : rows ≠ [] → cells ≠ [] := by simp [cells]
  rw [hprinted]
  refine ⟨?_, ?_, ?_, ?_⟩
  · rw [plainTable_snd]
    simp [cells]
  · rintro rfl
    rfl
  · intro hrows
    exact ⟨widths headers cells, length_widths headers cells, measures_widths headers cells,
      shows_plainTable (hcells hrows)⟩
  · intro isBreak hbreak hheaders hunbroken
    refine lines_text_of_unbroken hbreak ?_
    by_cases hrows : rows = []
    · subst hrows
      exact List.forall_mem_nil _
    · refine unbroken_of_shows hbreak (shows_plainTable (hcells hrows)) ?_
      refine List.forall_mem_cons.2 ⟨hheaders, List.forall_mem_cons.2 ⟨?_, fun row hrow => ?_⟩⟩
      · intro dashes hdashes c hc
        obtain ⟨w, -, rfl⟩ := List.mem_map.1 hdashes
        rw [List.eq_of_mem_replicate hc]
        exact hbreak.visible '-' (by decide)
      · exact hunbroken row ((List.takeWhile_prefix _).subset hrow)

/-- A row may end before the last column. Its last cell is filled up, too. -/
theorem table_aligned_ragged :
    let isBreak : Char → Bool := fun c => c = '\n'
    let headers : List Text := ["id".toList, "name".toList]
    let rows : List (List Text) := [["4".toList], ["1138".toList, "Luke".toList]]
    let printed := table .plain headers (rows.map (·.map .text))
    printed = (["id    name".toList, "----  ----".toList, "4   ".toList,
        "1138  Luke".toList], none) ∧
      BreaksLines isBreak ∧ lines isBreak (text printed.1) = printed.1 ∧
      ∃ widths : List Nat, widths.length = 2 ∧ Measures widths (headers :: rows) ∧
        List.Forall₂ (Shows (columnStart widths))
          (headers :: widths.map (List.replicate · '-') :: rows) printed.1 := by
  intro isBreak headers rows printed
  have hbreak : BreaksLines isBreak := by
    refine ⟨rfl, fun c hc => ?_⟩
    have hother : c ≠ '\n' := fun heq => absurd (heq ▸ hc) (by decide)
    simp [isBreak, hother]
  have hshown : ∀ row ∈ rows.map (·.map Json.text), ∀ v ∈ row, v.isShowable = true := by
    simp [rows, Json.isShowable, Json.writeError?]
  obtain ⟨-, -, haligned, hlines⟩ := (table_aligned headers (rows.map (·.map .text))).2 hshown
  refine ⟨rfl, hbreak, hlines isBreak hbreak ?_ ?_, haligned (List.cons_ne_nil _ _)⟩
  · simp [headers, isBreak]
  · simp [rows, isBreak, Json.plain]

/-- A row with more cells than there are headers ends the table, and its cells are not printed. -/
theorem table_row_too_long :
    table .plain ["a".toList] [[.text "x".toList, .text "y".toList]] =
      (["a".toList, "-".toList], some .tooManyColumns) := rfl

end DocTable.Console.Output
