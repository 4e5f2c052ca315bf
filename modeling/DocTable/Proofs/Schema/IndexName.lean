import DocTable.Proofs.Schema.ExpressionName
import DocTable.Proofs.Shorthand.Column
/-!
# DocTable.Proofs.Schema.IndexName

Which indexes share a name.

The name of an index over the column of a path consists of the pieces of the table's name, the word
of the column and the words of the path, with underscores between them (`nameWords`,
`indexName_eq_join`). Two indexes share a name if and only if these lists are the same: what stands
between the words of a path does not show in a name, and neither does the place where the table's
name ends if the path has the word of the column in it (`indexName_shared`). Paths of letters alone
have different names on one table, and on all tables if none of their segments is that word
(`indexName_eq_iff`).
-/

namespace DocTable.Sql

open Text

/-! ### Names of indexes over columns -/

theorem nameParts_extract (path : Text) :
    nameParts (extract path) = dataColumn :: letterWords path := by
  have hextract : extract path =
      dataColumn ++ '-' :: (">>'$".toList ++ '.' :: (path ++ ['\''])) := by
    simp [extract]
  have hcolumn : letterRuns dataColumn = [dataColumn] :=
    letterRuns_of_isLetter (List.all_eq_true.1 rfl)
  have hruns : letterRuns (extract path) =
      dataColumn :: letterRuns (">>'$".toList ++ '.' :: (path ++ ['\''])) := by
    rw [hextract, letterRuns_append_cons (by decide), hcolumn]
    rfl
  have hwords : letterWords (">>'$".toList ++ '.' :: (path ++ ['\''])) = letterWords path := by
    rw [letterWords_append_cons (by decide), letterWords_concat (by decide)]
    rfl
  rw [nameParts, hruns, ← hwords]
  rfl

/-- What the name of an index over the column of a path consists of. -/
def nameWords (table path : Text) : List Text :=
  pieces '_' table ++ dataColumn :: letterWords path

theorem indexName_eq_join (table : Text) {path : Text} (h : Path.IsPlain path) :
    indexName table (columnText path) = join ['_'] (nameWords table path) := by
  rw [indexName, columnText_plain h, expressionName_eq_join, nameParts_extract, nameWords,
    join_append_cons _ (by simp [pieces]), join_pieces]
  simp

theorem underscore_notMem_nameWords {table path w : Text} (h : w ∈ nameWords table path) :
    '_' ∉ w := by
  rcases List.mem_append.1 h with h | h
  · exact sep_notMem_pieces h
  · rcases List.mem_cons.1 h with rfl | h
    · decide
    · intro hmem
      exact absurd ((isLetter_of_mem_letterWords h).2 '_' hmem) (by decide)

theorem pieces_indexName (table : Text) {path : Text} (h : Path.IsPlain path) :
    pieces '_' (indexName table (columnText path)) = nameWords table path := by
  rw [indexName_eq_join table h]
  exact pieces_join (by simp [nameWords]) fun w hw => underscore_notMem_nameWords hw

/-- The words of a path of letters are its segments. -/
theorem letterWords_of_isMadeOf {path : Text} (h : Path.IsMadeOf isLetter path) :
    letterWords path = pieces '.' path := by
  have hdot : isLetter '.' = false := by decide
  rw [← letterWords_join hdot h, join_pieces]

/-- Two indexes over columns share a name if and only if their names have the same words. So paths
of letters alone do not share one on a table, and none at all if no segment of theirs is the word of
the column. -/
theorem indexName_eq_iff {t u p q : Text} (hp : Path.IsPlain p) (hq : Path.IsPlain q) :
    (indexName t (columnText p) = indexName u (columnText q) ↔ nameWords t p = nameWords u q) ∧
      (Path.IsMadeOf isLetter p → Path.IsMadeOf isLetter q →
        indexName t (columnText p) = indexName u (columnText q) →
        (t = u → p = q) ∧
          (dataColumn ∉ pieces '.' p → dataColumn ∉ pieces '.' q → t = u ∧ p = q)) := by
  have hnames : indexName t (columnText p) = indexName u (columnText q) ↔
      nameWords t p = nameWords u q := by
    rw [← pieces_indexName t hp, ← pieces_indexName u hq]
    exact ⟨congrArg (pieces '_'), pieces_injective⟩
  refine ⟨hnames, ?_⟩
  intro hpl hql h
  have hwords : pieces '_' t ++ dataColumn :: pieces '.' p =
      pieces '_' u ++ dataColumn :: pieces '.' q := by
    rw [← letterWords_of_isMadeOf hpl, ← letterWords_of_isMadeOf hql]
    exact hnames.1 h
  -- On one table the paths begin at the same place; otherwise the last word `data` shows where.
  constructor
  · rintro rfl
    have hcolumns := List.append_cancel_left hwords
    exact pieces_injective (List.cons.inj hcolumns).2
  · intro hpd hqd
    obtain ⟨htable, hpath⟩ := append_last_mark_inj hpd hqd hwords
    exact ⟨pieces_injective htable, pieces_injective hpath⟩

/-- The member `data.id` in one table and the ids of another, and paths that are told apart. -/
theorem indexName_eq_iff_nested :
    indexName "t".toList (columnText "data.id".toList) =
        indexName "t_data".toList (columnText "id".toList) ∧
      indexName "t".toList (columnText "home.city".toList) ≠
        indexName "t_home".toList (columnText "city".toList) := by
  have hnested := indexName_eq_iff (t := "t".toList) (u := "t_data".toList)
    (p := "data.id".toList) (q := "id".toList) (by decide) (by decide)
  have hapart := indexName_eq_iff (t := "t".toList) (u := "t_home".toList)
    (p := "home.city".toList) (q := "city".toList) (by decide) (by decide)
  refine ⟨hnested.1.2 (by decide), ?_⟩
  intro h
  have heq := (hapart.2 (by decide) (by decide) h).2 (by decide) (by decide)
  exact absurd heq.1 (by decide)

/-- The ids of a table and its members `_id` share the name of their indexes, and so do the members
`data.id` of one table and the ids of another. An index is not created if there is one of its name,
so the second table of the latter pair goes without the unique index on its ids. -/
theorem indexName_shared :
    indexName "t".toList (columnText "id".toList) = "t_data_id".toList ∧
      indexName "t".toList (columnText "_id".toList) = "t_data_id".toList ∧
      indexName "t".toList (columnText "data.id".toList) = "t_data_data_id".toList ∧
      indexName "t_data".toList (columnText "id".toList) = "t_data_data_id".toList ∧
      ¬∀ t u p q : Text, (∀ c ∈ t ++ u, isPathStart c = true) → Path.IsPlain p → Path.IsPlain q →
        indexName t (columnText p) = indexName u (columnText q) → t = u ∧ p = q := by
  have hid : Path.IsPlain "id".toList := by decide
  have hunder : Path.IsPlain "_id".toList := by decide
  have hdata : Path.IsPlain "data.id".toList := by decide
  rw [columnText_plain hid, columnText_plain hunder, columnText_plain hdata]
  refine ⟨rfl, rfl, rfl, rfl, ?_⟩
  intro h
  have hname : indexName "t".toList (columnText "data.id".toList) =
      indexName "t_data".toList (columnText "id".toList) := by
    rw [columnText_plain hid, columnText_plain hdata]
    rfl
  have heq := h "t".toList "t_data".toList "data.id".toList "id".toList
    (List.all_eq_true.1 rfl) hdata hid hname
  exact absurd heq.1 (by decide)

end DocTable.Sql
