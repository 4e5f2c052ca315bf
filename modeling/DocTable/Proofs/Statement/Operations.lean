import DocTable.Proofs.Json.Numbers
import DocTable.Proofs.Session.Calls
import DocTable.Proofs.Shorthand.Parity
import DocTable.Proofs.Statement.Filling
import DocTable.Table.Basic
/-!
# DocTable.Proofs.Statement.Operations

The statements that table operations run.

Every operation runs one statement: a head, the name of the table, and fragments. So it has a hole
mark for each argument if the name has no mark of its own, and filling it comes to filling the
fragments one by one (`composed_linesUp`, `filled_composed`). `Operation.perform_lines_up` is the
statement for all operations and every engine.
-/

namespace DocTable

open Sql
open Sql.Shorthand (expand_eq_self)

namespace Table

open Session

/-! ### A head, a name and fragments -/

/-- The statement of a fragment alone. -/
def fragmentStatement (f : Fragment) : Statement := ⟨f.text, f.values⟩

/-- The statement that is composed of a head, a name and fragments. -/
def composed (head name : Text) (fs : List Fragment) : Statement :=
  .join (⟨head, []⟩ :: ⟨name, []⟩ :: fs.map fragmentStatement)

theorem text_composed (head name : Text) (fs : List Fragment) :
    (composed head name fs).text = head ++ ' ' :: name ++ fs.flatMap fun f => ' ' :: f.text := by
  rw [composed, Statement.join, List.map_cons, List.map_cons, List.map_map,
    Text.join_cons_eq_flatMap, List.flatMap_cons, List.flatMap_map]
  simp [fragmentStatement]

theorem args_composed (head name : Text) (fs : List Fragment) :
    (composed head name fs).args = fs.flatMap Fragment.values := by
  simp [composed, Statement.join, List.flatMap_map, fragmentStatement]

theorem mapM_statement (fs : List Fragment) :
    (fs.map Item.fragment).mapM Item.statement = .ok (fs.map fragmentStatement) := by
  induction fs with
  | nil => rfl
  | cons f fs ih => rw [List.map_cons, List.mapM_cons, ih]; rfl

theorem statement_fragments (head name : Text) (fs : List Fragment) :
    statement (.raw head :: .raw name :: fs.map .fragment) = .ok (composed head name fs) := by
  rw [statement, Statement.ofItems, List.mapM_cons, List.mapM_cons, mapM_statement]
  rfl

theorem items_fragments (fs : List Fragment) :
    Argument.items (fs.map .fragment) = .ok (fs.map .fragment) := by
  induction fs with
  | nil => rfl
  | cons f fs ih =>
    rw [Argument.items] at ih ⊢
    rw [List.map_cons, List.mapM_cons, ih]
    rfl

section

variable {head name : Text} (hh : holeMark ∉ head) (hn : holeMark ∉ name) (fs : List Fragment)

include hh hn

theorem linesUp_of_mem {s : Statement}
    (h : s ∈ (⟨head, []⟩ : Statement) :: ⟨name, []⟩ :: fs.map fragmentStatement) : s.LinesUp := by
  rcases List.mem_cons.1 h with rfl | h
  · exact Statement.linesUp_raw hh
  rcases List.mem_cons.1 h with rfl | h
  · exact Statement.linesUp_raw hn
  obtain ⟨f, -, rfl⟩ := List.mem_map.1 h
  exact Statement.linesUp_fragment f

theorem composed_linesUp : (composed head name fs).LinesUp :=
  Statement.linesUp_join fun _ => linesUp_of_mem hh hn fs

theorem filled_composed :
    (composed head name fs).filled =
      spaced (verbatim head :: verbatim name :: fs.map Fragment.filled) := by
  have hfragments : (fs.map fragmentStatement).map Statement.filled = fs.map Fragment.filled := by
    rw [List.map_map]
    exact List.map_congr_left fun f _ => f.fill_text
  rw [composed, Statement.filled_join fun _ => linesUp_of_mem hh hn fs, List.map_cons,
    List.map_cons, hfragments, Statement.filled, Statement.filled, fill_clean hh, fill_clean hn]

end

/-- Text before the head of a statement is a longer head. -/
theorem composed_append (u head name : Text) (fs : List Fragment) :
    composed (u ++ head) name fs =
      ⟨u ++ (composed head name fs).text, (composed head name fs).args⟩ := by
  simp [composed, Statement.join_cons_cons]

/-! ### Templates with one hole -/

theorem cut_hole {before after : Text} (hb : holeMark ∉ before) (ha : holeMark ∉ after) :
    Text.cut holeMark (before ++ holeMark :: after) = (before, [after]) := by
  have hafter : Text.cut holeMark after = (after, []) := by
    have := Text.cut_append ha []
    rwa [List.append_nil, Text.cut, List.append_nil] at this
  rw [Text.cut_append hb, Text.cut, hafter]
  simp

theorem sql_hole {before after : Text} (v : Json) (hb : holeMark ∉ before)
    (ha : holeMark ∉ after) :
    ∃ f, Fragment.sql (before ++ holeMark :: after) [v] = .ok f ∧
      f.filled = verbatim (expand before) ++ .inr v :: verbatim (expand after) := by
  have hcut := cut_hole hb ha
  obtain ⟨f, hf⟩ : ∃ f, Fragment.sql (before ++ holeMark :: after) [v] = .ok f :=
    Fragment.exists_sql (congrArg (·.2.length) hcut)
  obtain ⟨-, hhead, hholes⟩ := Fragment.sql_eq_ok_iff.1 hf
  rw [show Text.cut '?' _ = _ from hcut] at hhead hholes
  refine ⟨f, hf, ?_⟩
  rw [Fragment.filled, hhead, hholes]
  simp

/-- The fragment that selects by an id. -/
theorem withId_eq (id : Text) :
    ∃ f, withId id = .ok f ∧
      f.filled = verbatim "where data->>'$.id' = ".toList ++ [.inr (.text id)] := by
  have hexpand : expand "where $id = ".toList = "where data->>'$.id' = ".toList := by
    decide +kernel
  have hbefore : holeMark ∉ "where $id = ".toList := by decide
  obtain ⟨f, hf, hfilled⟩ := sql_hole (.text id) hbefore (List.not_mem_nil (a := holeMark))
  have hf : Fragment.sql "where $id = ?".toList [.text id] = .ok f := hf
  refine ⟨f, by rw [withId, hf]; rfl, ?_⟩
  rw [hfilled, hexpand, expand_eq_self List.not_mem_nil]
  rfl

/-! ### What each operation puts into its statement -/

theorem patchCall_clean (storage : Storage) :
    holeMark ∉ storage.patchFunction ++ "(data, ".toList ∧
      '$' ∉ storage.patchFunction ++ "(data, ".toList := by
  cases storage <;> decide

theorem encodeCall_clean (storage : Storage) :
    holeMark ∉ storage.encodeFunction ++ ['('] ∧ '$' ∉ storage.encodeFunction ++ ['('] := by
  cases storage <;> decide

/-- An operation on a table with fragments. -/
inductive Operation where
  | delete (fs : List Fragment)
  | patch (doc : Json) (fs : List Fragment)
  | replace (doc : Json) (fs : List Fragment)
  | all (fs : List Fragment)
  /-- Documents one by one; one is asked for, and then as many more. -/
  | iterate (more : Nat) (fs : List Fragment)
  | get (fs : List Fragment)
  | getById (id : Text)
  | count (fs : List Fragment)
  | explain (fs : List Fragment)

namespace Operation

/-- Perform an operation; what it answers does not matter here. -/
def perform (t : Table) : Operation → SessionM Unit
  | delete fs => t.delete (fs.map .fragment)
  | patch doc fs => t.patch doc (fs.map .fragment)
  | replace doc fs => t.replace doc (fs.map .fragment)
  | all fs => discard (t.all (fs.map .fragment))
  | iterate more fs => discard (t.first (more + 1) (fs.map .fragment))
  | get fs => discard (t.get? (fs.map .fragment))
  | getById id => discard (t.getById? id)
  | count fs => discard (t.count (fs.map .fragment))
  | explain fs => discard (t.explain (fs.map .fragment))

/-- The document that an operation writes, if it writes one, can be encoded. -/
def Encodes : Operation → Prop
  | patch doc _ | replace doc _ => (Document.encode? doc).isSome = true
  | _ => True

/-- What stands before the name of the table. -/
def head : Operation → Text
  | delete _ => "delete from".toList
  | patch .. | replace .. => "update".toList
  | all _ | iterate .. | get _ | getById _ => "select json(data) from".toList
  | count _ => "select count(*) from".toList
  | explain _ => "explain query plan select json(data) from".toList

/-- What stands behind the name of the table, each piece with its own values: an assignment of
the encoded document, the fragments, and the limit of operations that want one document. -/
def pieces (storage : Storage) : Operation → List Filled
  | delete fs | all fs | iterate _ fs | count fs | explain fs => fs.map Fragment.filled
  | patch doc fs =>
    (verbatim ("set data = ".toList ++ storage.patchFunction ++ "(data, ".toList)
      ++ .inr (.text doc.compact) :: verbatim [')']) :: fs.map Fragment.filled
  | replace doc fs =>
    (verbatim ("set data = ".toList ++ storage.encodeFunction ++ ['('])
      ++ .inr (.text doc.compact) :: verbatim [')']) :: fs.map Fragment.filled
  | get fs => fs.map Fragment.filled ++ [verbatim "limit 1".toList]
  | getById id =>
    [verbatim "where data->>'$.id' = ".toList ++ [.inr (.text id)], verbatim "limit 1".toList]

end Operation

/-! ### Each operation runs one statement -/

theorem makes_execute (s : Statement) : Makes (execute s) [.run s.text s.args] :=
  (makes_run s.text s.args).logged _ _ _

variable (t : Table) (fs : List Fragment)

theorem selection_fragments :
    t.selection (fs.map .fragment) =
      .ok (composed "select json(data) from".toList t.name fs) := by
  rw [selection, items_fragments]
  exact statement_fragments _ _ _

theorem deletion_fragments :
    t.deletion (fs.map .fragment) = .ok (composed "delete from".toList t.name fs) := by
  rw [deletion, items_fragments]
  exact statement_fragments _ _ _

theorem counting_fragments :
    t.counting (fs.map .fragment) = .ok (composed "select count(*) from".toList t.name fs) := by
  rw [counting, items_fragments]
  exact statement_fragments _ _ _

theorem encode_of_writable {doc : Json} (h : ¬ doc.Unwritable) : encode doc = .ok doc.compact := by
  rw [encode, Document.encode_eq_ok h]
  rfl

theorem encode_eq_ok {doc : Json} (h : (Document.encode? doc).isSome = true) :
    encode doc = .ok doc.compact :=
  encode_of_writable fun hbad => by
    rw [Document.encode?_eq_none_iff.2 hbad] at h
    cases h

/-- An update puts its assignment in front of the fragments. -/
theorem update_fragments {doc : Json} (hdoc : (Document.encode? doc).isSome = true) {call : Text}
    (hc : holeMark ∉ call) (hd : '$' ∉ call) :
    ∃ f, t.update (call ++ "?)".toList) doc (fs.map .fragment) =
        .ok (composed "update".toList t.name (f :: fs)) ∧
      f.filled = verbatim ("set data = ".toList ++ call)
        ++ .inr (.text doc.compact) :: verbatim [')'] := by
  have hbefore : holeMark ∉ "set data = ".toList ++ call := by
    simpa [holeMark] using hc
  have hafter : holeMark ∉ [')'] := by decide
  obtain ⟨f, hf, hfilled⟩ := sql_hole (.text doc.compact) hbefore hafter
  refine ⟨f, ?_, ?_⟩
  · have hencode := encode_eq_ok hdoc
    have hf : Fragment.sql ("set data = ".toList ++ (call ++ "?)".toList))
        [.text doc.compact] = .ok f := by
      rw [← List.append_assoc]
      exact hf
    rw [update, hencode, items_fragments]
    simp only [bind, Except.bind, hf]
    exact statement_fragments _ _ (f :: fs)
  · rw [hfilled, expand_eq_self (by simpa using hd), expand_eq_self (by decide)]

/-- The assignment of an update, by what it puts where. -/
theorem text_assignment {assignment : Fragment} {call : Text} {v : Json}
    (hfilled : assignment.filled =
      verbatim ("set data = ".toList ++ call) ++ .inr v :: verbatim [')']) :
    assignment.text = "set data = ".toList ++ call ++ "?)".toList := by
  rw [Fragment.text_eq_marked, hfilled, Fragment.marked_append, Fragment.marked_verbatim]
  rfl

theorem values_assignment {assignment : Fragment} {call : Text} {v : Json}
    (hfilled : assignment.filled =
      verbatim ("set data = ".toList ++ call) ++ .inr v :: verbatim [')']) :
    assignment.values = [v] := by
  rw [Fragment.values_eq_filterMap, hfilled, List.filterMap_append, Fragment.filterMap_verbatim]
  rfl

/-- The call of an update binds the document before anything else. -/
theorem update_call {doc : Json} (hdoc : (Document.encode? doc).isSome = true) {call : Text}
    (hc : holeMark ∉ call) (hd : '$' ∉ call) :
    ∃ s, t.update (call ++ "?)".toList) doc (fs.map .fragment) = .ok s ∧
      s.text = "update ".toList ++ t.name ++ " set data = ".toList ++ call ++ "?)".toList
        ++ fs.flatMap (fun f => ' ' :: f.text) ∧
      s.args = .text doc.compact :: fs.flatMap Fragment.values := by
  obtain ⟨assignment, hupdate, hfilled⟩ := t.update_fragments fs hdoc hc hd
  refine ⟨_, hupdate, ?_, ?_⟩
  · rw [text_composed, List.flatMap_cons, text_assignment hfilled]
    simp
  · rw [args_composed, List.flatMap_cons, values_assignment hfilled]
    rfl

theorem makes_all : Makes (t.all (fs.map .fragment))
    [.run (composed "select json(data) from".toList t.name fs).text
      (composed "select json(data) from".toList t.name fs).args] := by
  rw [all, selection_fragments, lift_ok_bind]
  exact (makes_execute _).bind fun _ => makes_lift _

theorem makes_get : Makes (t.get? (fs.map .fragment))
    [.run (composed "select json(data) from".toList t.name (fs ++ [limitOne])).text
      (composed "select json(data) from".toList t.name (fs ++ [limitOne])).args] := by
  have hargs : fs.map Argument.fragment ++ [.fragment limitOne] =
      (fs ++ [limitOne]).map Argument.fragment := by simp
  rw [get?, hargs]
  exact (makes_all t _).bind fun _ => makes_pure _

theorem makes_update {expression : Text} {doc : Json} {f : Fragment}
    (h : t.update expression doc (fs.map .fragment) =
      .ok (composed "update".toList t.name (f :: fs))) :
    Makes (lift (t.update expression doc (fs.map .fragment)) >>= fun s => discard (execute s))
      [.run (composed "update".toList t.name (f :: fs)).text
        (composed "update".toList t.name (f :: fs)).args] := by
  rw [h, lift_ok_bind]
  exact (makes_execute _).discard

theorem makes_explain :
    Makes (queryPlan (composed "select json(data) from".toList t.name fs).text
        (composed "select json(data) from".toList t.name fs).args)
      [.run (composed "explain query plan select json(data) from".toList t.name fs).text
        (composed "explain query plan select json(data) from".toList t.name fs).args] := by
  have hhead : "explain query plan select json(data) from".toList =
      "explain query plan ".toList ++ "select json(data) from".toList := by decide
  rw [hhead, composed_append]
  exact makes_queryPlan _ _

theorem filled_limitOne : limitOne.filled = verbatim "limit 1".toList := rfl

/-- Each operation runs the statement of its head, the table and its pieces. -/
theorem Operation.makes_perform {op : Operation} (hop : op.Encodes) :
    ∃ fs, fs.map Fragment.filled = op.pieces t.storage ∧
      Makes (op.perform t)
        [.run (composed op.head t.name fs).text (composed op.head t.name fs).args] := by
  cases op with
  | delete fs =>
    refine ⟨fs, rfl, ?_⟩
    rw [perform, Table.delete, deletion_fragments, lift_ok_bind]
    exact (makes_execute _).discard
  | patch doc fs =>
    obtain ⟨f, hf, hfilled⟩ := update_fragments t fs hop (patchCall_clean t.storage).1
      (patchCall_clean t.storage).2
    refine ⟨f :: fs, ?_, ?_⟩
    · rw [List.map_cons, hfilled, pieces, ← List.append_assoc]
    · rw [List.append_assoc] at hf
      rw [perform, Table.patch, patching]
      exact makes_update t fs hf
  | replace doc fs =>
    obtain ⟨f, hf, hfilled⟩ := update_fragments t fs hop (encodeCall_clean t.storage).1
      (encodeCall_clean t.storage).2
    refine ⟨f :: fs, ?_, ?_⟩
    · rw [List.map_cons, hfilled, pieces, ← List.append_assoc]
    · rw [List.append_assoc] at hf
      rw [perform, Table.replace, replacing]
      exact makes_update t fs hf
  | all fs => exact ⟨fs, rfl, (makes_all t fs).discard⟩
  | iterate more fs =>
    refine ⟨fs, rfl, Makes.discard ?_⟩
    rw [first, if_neg (by omega), selection_fragments, lift_ok_bind]
    exact (makes_execute _).bind fun _ => (makes_lift _).bind fun _ => makes_pure _
  | get fs =>
    exact ⟨fs ++ [limitOne], by simp [pieces, filled_limitOne], (makes_get t fs).discard⟩
  | getById id =>
    obtain ⟨f, hf, hfilled⟩ := withId_eq id
    refine ⟨[f, limitOne], by simp [pieces, hfilled, filled_limitOne], Makes.discard ?_⟩
    rw [getById?, hf, lift_ok_bind]
    exact makes_get t [f]
  | count fs =>
    refine ⟨fs, rfl, Makes.discard ?_⟩
    rw [Table.count, counting_fragments, lift_ok_bind]
    exact (makes_execute _).bind fun _ => (makes_firstCell _).bind fun _ => makes_lift _
  | explain fs =>
    refine ⟨fs, rfl, Makes.discard ?_⟩
    rw [Table.explain, selection_fragments, lift_ok_bind]
    exact makes_explain t fs

theorem Operation.head_clean (op : Operation) : holeMark ∉ op.head := by
  cases op with
  | delete => exact show holeMark ∉ "delete from".toList by decide
  | patch | replace => exact show holeMark ∉ "update".toList by decide
  | all | iterate | get | getById => exact show holeMark ∉ "select json(data) from".toList by decide
  | count => exact show holeMark ∉ "select count(*) from".toList by decide
  | explain =>
    exact show holeMark ∉ "explain query plan select json(data) from".toList by decide

/-- Placeholders and arguments line up: every operation runs one statement, which has one hole
mark for each argument, and putting the arguments in gives the head, the name of the table and the
pieces, each with its own values, with single blanks between them. -/
theorem Operation.perform_lines_up (hname : holeMark ∉ t.name) {op : Operation}
    (hop : op.Encodes) :
    ∃ text args, Makes (op.perform t) [.run text args] ∧
      text.count holeMark = args.length ∧
      fill text args = spaced (verbatim op.head :: verbatim t.name :: op.pieces t.storage) := by
  obtain ⟨fs, hpieces, hmakes⟩ := op.makes_perform t hop
  refine ⟨_, _, hmakes, composed_linesUp op.head_clean hname fs, ?_⟩
  rw [← hpieces]
  exact filled_composed op.head_clean hname fs

/-- A patch with a condition behind it: the encoded patch is bound before the value of the
condition. -/
theorem Operation.patch_lines_up :
    let t : Table := ⟨"users".toList, .textual⟩
    let patch : Json := .object [("age".toList, .int 30)]
    let condition : Fragment := ⟨"where id = ".toList, [(.int 7, [])], by decide, by decide⟩
    let op := Operation.patch patch [condition]
    (holeMark ∉ t.name ∧ op.Encodes) ∧
    ∃ text args, Makes (op.perform t) [.run text args] ∧
      text.count holeMark = args.length ∧
      fill text args = spaced
        [verbatim "update".toList, verbatim "users".toList,
          verbatim "set data = json_patch(data, ".toList
            ++ .inr (.text "\x7b\"age\":30\x7d".toList) :: verbatim [')'],
          verbatim "where id = ".toList ++ [.inr (.int 7)]] := by
  intro t patch condition op
  have hname : holeMark ∉ t.name := by decide
  have hop : op.Encodes := by
    rw [Operation.Encodes]
    decide
  have hcompact : patch.compact = "\x7b\"age\":30\x7d".toList := by decide +kernel
  have hpieces : op.pieces t.storage =
      [verbatim "set data = json_patch(data, ".toList
          ++ .inr (.text "\x7b\"age\":30\x7d".toList) :: verbatim [')'],
        verbatim "where id = ".toList ++ [.inr (.int 7)]] := by
    rw [← hcompact]
    rfl
  obtain ⟨text, args, hmakes, hcount, hfill⟩ := Operation.perform_lines_up t hname hop
  rw [hpieces] at hfill
  exact ⟨⟨hname, hop⟩, text, args, hmakes, hcount, hfill⟩

end Table

end DocTable
