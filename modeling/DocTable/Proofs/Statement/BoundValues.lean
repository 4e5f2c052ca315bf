import DocTable.Proofs.Condition.Shape
import DocTable.Proofs.Condition.Wording
import DocTable.Proofs.Console.Query
import DocTable.Proofs.Json.Numbers
import DocTable.Proofs.Table.Exchanges
/-!
# DocTable.Proofs.Statement.BoundValues

Values are bound and never written into statements.

Two queries that differ only in their values make fragments with equal segments
(`Query.parts_fragments_eq`). The text of a table operation depends on its shape alone, which is the
operation without its values, and insertions always run the same text (`Job.executes_text`). So
whatever a caller passes as a value, an id, a limit or a document, the statement is the one that the
rest of the call decides (`values_never_written`).
-/

namespace DocTable

/-- The text that a call runs. -/
def Call.text? : Call → Option Text
  | .run text _ | .runMany text _ => some text
  | .connect _ | .close => none

/-- A computation makes one call, which runs a text with some arguments. -/
def Session.Executes {α : Type} (m : SessionM α) (text : Text) : Prop :=
  ∀ s : Session, ∃ c : Call, (m.run.run s).2.calls = s.calls ++ [c] ∧ c.text? = some text

namespace Console

open Sql

namespace Filter

/-! ### Filters -/

/-- Two filters that differ only in the value they compare with; for a membership the values are
arrays of one length. -/
def SameButValue (raw raw' : Text) : Prop :=
  ∃ f g, ofText raw = .ok f ∧ ofText raw' = .ok g ∧ f.path = g.path ∧ f.operator = g.operator ∧
    (operator? f.operator = some .oneOf →
      ∀ vs ws, Json.read f.value = .ok (.array vs) → Json.read g.value = .ok (.array ws) →
        vs.length = ws.length)

theorem boundShape_eq {f g : Filter} {op : Operator} {v w : Json} (hv : f.bound op = .ok v)
    (hw : g.bound op = .ok w)
    (h : op = .oneOf → ∀ vs ws, Json.read f.value = .ok (.array vs) →
      Json.read g.value = .ok (.array ws) → vs.length = ws.length) :
    Condition.boundShape op v = Condition.boundShape op w := by
  cases op with
  | oneOf =>
    obtain ⟨vs, rfl, hvs⟩ := bound_oneOf.1 hv
    obtain ⟨ws, rfl, hws⟩ := bound_oneOf.1 hw
    show Json.array (List.replicate vs.length .null) = .array (List.replicate ws.length .null)
    rw [h rfl vs ws hvs hws]
  | _ => rfl

theorem shape_condition_eq {raw raw' : Text} (h : SameButValue raw raw') {f g : Filter}
    (hf : ofText raw = .ok f) (hg : ofText raw' = .ok g) {c d : Condition}
    (hc : f.condition = .ok c) (hd : g.condition = .ok d) : c.shape = d.shape := by
  obtain ⟨f', g', hf', hg', hpath, hname, hvalue⟩ := h
  obtain rfl : f' = f := Except.ok.inj (hf'.symm.trans hf)
  obtain rfl : g' = g := Except.ok.inj (hg'.symm.trans hg)
  obtain ⟨op, field, v, hop, hfield, hv, rfl⟩ := condition_eq_ok_iff.1 hc
  obtain ⟨op', field', w, hop', hfield', hw, rfl⟩ := condition_eq_ok_iff.1 hd
  rw [← hname] at hop'
  rw [← hpath] at hfield'
  obtain rfl : op = op' := Option.some.inj (hop.symm.trans hop')
  obtain rfl : field = field' := Except.ok.inj (hfield.symm.trans hfield')
  have hbound : Condition.boundShape op v = Condition.boundShape op w :=
    boundShape_eq hv hw fun hone => hvalue (hop.trans (congrArg some hone))
  rw [Field.compare, Field.compare, Condition.shape, Condition.shape, hbound]

theorem shapes_eq {raws raws' : List Text} (h : List.Forall₂ SameButValue raws raws')
    {fs gs : List Filter} (hf : List.Forall₂ (fun raw f => ofText raw = .ok f) raws fs)
    (hg : List.Forall₂ (fun raw g => ofText raw = .ok g) raws' gs) {cs ds : List Condition}
    (hc : List.Forall₂ (fun f c => f.condition = .ok c) fs cs)
    (hd : List.Forall₂ (fun g d => g.condition = .ok d) gs ds) :
    cs.map Condition.shape = ds.map Condition.shape := by
  induction h generalizing fs gs cs ds with
  | nil =>
    cases hf
    cases hg
    cases hc
    cases hd
    rfl
  | cons hraw _ ih =>
    cases hf with
    | cons hf hfs =>
      cases hg with
      | cons hg hgs =>
        cases hc with
        | cons hc hcs =>
          cases hd with
          | cons hd hds =>
            rw [List.map_cons, List.map_cons, shape_condition_eq hraw hf hg hc hd,
              ih hfs hgs hcs hds]

theorem together_shapes (cs : List Condition) :
    together (cs.map Condition.shape) = (together cs).map Condition.shape := by
  match cs with
  | [] | [_] => rfl
  | c :: d :: rest =>
    show some (Condition.logical .and ((c :: d :: rest).map Condition.shape)) =
      some (Condition.logical .and (Condition.shapes (c :: d :: rest)))
    rw [Condition.shapes_eq_map]

end Filter

namespace Query

/-! ### Queries -/

/-- Two queries that differ only in the values of their arguments and filters, in the id and in
the limit. -/
structure SameButValues (q r : Query) : Prop where
  template : q.template = r.template
  filters : List.Forall₂ Filter.SameButValue q.filters r.filters
  id : q.id.isSome = r.id.isSome
  order : q.order = r.order
  descending : q.descending = r.descending
  limit : q.limit.isSome = r.limit.isSome

theorem parts_templateCondition_eq {q r : Query} (h : q.template = r.template)
    {fs gs : List Fragment} (hf : q.templateCondition = .ok fs)
    (hg : r.templateCondition = .ok gs) : fs.map Fragment.parts = gs.map Fragment.parts := by
  rcases templateCondition_eq_ok_iff.1 hf with ⟨hq, -, rfl⟩ | ⟨t, vs, f, hq, -, hsql, rfl⟩
  · rcases templateCondition_eq_ok_iff.1 hg with ⟨-, -, rfl⟩ | ⟨t', ws, g, hr, -, -, rfl⟩
    · rfl
    · rw [h, hr] at hq
      cases hq
  · rcases templateCondition_eq_ok_iff.1 hg with ⟨hr, -, rfl⟩ | ⟨t', ws, g, hr, -, hsql', rfl⟩
    · rw [h, hr] at hq
      cases hq
    · rw [h, hr] at hq
      cases hq
      rw [List.map_singleton, List.map_singleton, Fragment.parts_sql hsql, Fragment.parts_sql hsql']

theorem parts_compiled_eq {r s : Option Condition}
    (h : r.map Condition.shape = s.map Condition.shape) {fs gs : List Fragment}
    (hf : Compiled r fs) (hg : Compiled s gs) :
    fs.map Fragment.parts = gs.map Fragment.parts := by
  cases hf with
  | absent =>
    cases hg with
    | absent => rfl
    | present => cases h
  | present hc =>
    cases hg with
    | absent => cases h
    | present hd =>
      have hparts := Condition.parts_compile_eq (Option.some.inj h)
      rw [hc, hd] at hparts
      exact congrArg (fun parts => [parts]) (Except.ok.inj hparts)

theorem parts_filterCondition_eq {q r : Query}
    (h : List.Forall₂ Filter.SameButValue q.filters r.filters) {fs gs : List Fragment}
    (hf : q.filterCondition = .ok fs) (hg : r.filterCondition = .ok gs) :
    fs.map Fragment.parts = gs.map Fragment.parts := by
  obtain ⟨filters, cs, hfilters, hcs, hfs⟩ := filterCondition_eq_ok_iff.1 hf
  obtain ⟨filters', ds, hfilters', hds, hgs⟩ := filterCondition_eq_ok_iff.1 hg
  refine parts_compiled_eq ?_ hfs hgs
  rw [← Filter.together_shapes, ← Filter.together_shapes,
    Filter.shapes_eq h hfilters hfilters' hcs hds]

theorem parts_idCondition_eq {q r : Query} (h : q.id.isSome = r.id.isSome)
    {fs gs : List Fragment} (hf : q.idCondition = .ok fs) (hg : r.idCondition = .ok gs) :
    fs.map Fragment.parts = gs.map Fragment.parts := by
  rcases idCondition_eq_ok_iff.1 hf with ⟨hq, rfl⟩ | ⟨id, f, hq, hsql, rfl⟩
  · rcases idCondition_eq_ok_iff.1 hg with ⟨-, rfl⟩ | ⟨id', g, hr, -, rfl⟩
    · rfl
    · rw [hq, hr] at h
      cases h
  · rcases idCondition_eq_ok_iff.1 hg with ⟨hr, rfl⟩ | ⟨id', g, -, hsql', rfl⟩
    · rw [hq, hr] at h
      cases h
    · rw [List.map_singleton, List.map_singleton, Fragment.parts_sql hsql, Fragment.parts_sql hsql']

theorem parts_limitClause_eq {q r : Query} (h : q.limit.isSome = r.limit.isSome) :
    q.limitClause.map Fragment.parts = r.limitClause.map Fragment.parts := by
  unfold limitClause
  cases hq : q.limit with
  | none =>
    cases hr : r.limit with
    | none => rfl
    | some n =>
      rw [hq, hr] at h
      cases h
  | some n =>
    cases hr : r.limit with
    | none =>
      rw [hq, hr] at h
      cases h
    | some m => exact congrArg (fun parts => [parts]) (parts_limiting n m rfl)

theorem blank_whereClause (conditions : List Fragment) :
    (whereClause conditions).map Fragment.blank = whereClause (conditions.map Fragment.blank) := by
  cases conditions with
  | nil => rfl
  | cons c cs =>
    show [(selecting (conjunction (c :: cs))).blank] =
      [selecting (conjunction ((c :: cs).map Fragment.blank))]
    have hbrackets : ((c :: cs).map Condition.bracketed).map Fragment.blank =
        ((c :: cs).map Fragment.blank).map Condition.bracketed := by
      rw [List.map_map, List.map_map]
      exact List.map_congr_left fun f _ => Condition.blank_bracketed f
    rw [blank_selecting, conjunction, conjunction, Fragment.blank_join, hbrackets]
    rfl

/-- Queries that differ only in values make fragments with equal segments. -/
theorem parts_fragments_eq {q r : Query} (h : q.SameButValues r) {fs gs : List Fragment}
    (hf : q.fragments = .ok fs) (hg : r.fragments = .ok gs) :
    fs.map Fragment.parts = gs.map Fragment.parts := by
  obtain ⟨a, b, c, order, ha, hb, hc, horder, rfl⟩ := fragments_eq_ok_iff.1 hf
  obtain ⟨a', b', c', order', ha', hb', hc', horder', rfl⟩ := fragments_eq_ok_iff.1 hg
  have hconditions : (a ++ b ++ c).map Fragment.parts = (a' ++ b' ++ c').map Fragment.parts := by
    simp only [List.map_append, parts_templateCondition_eq h.template ha ha',
      parts_filterCondition_eq h.filters hb hb', parts_idCondition_eq h.id hc hc']
  have hwhere : (whereClause (a ++ b ++ c)).map Fragment.parts =
      (whereClause (a' ++ b' ++ c')).map Fragment.parts := by
    rw [← Fragment.map_blank_eq_iff, blank_whereClause, blank_whereClause,
      Fragment.map_blank_eq_iff.2 hconditions]
  have hordering : order = order' := by
    have hclause : q.orderClause = r.orderClause := by
      unfold orderClause
      rw [h.order, h.descending]
    rw [hclause] at horder
    exact Except.ok.inj (horder.symm.trans horder')
  rw [List.map_append, List.map_append, List.map_append, List.map_append, hwhere, hordering,
    parts_limitClause_eq h.limit]

end Query

end Console

namespace Table

open Session Sql

/-! ### Operations -/

namespace Operation

/-- An operation without its values. -/
def shape : Operation → Operation
  | delete fs => delete (fs.map Fragment.blank)
  | patch _ fs => patch .null (fs.map Fragment.blank)
  | replace _ fs => replace .null (fs.map Fragment.blank)
  | all fs => all (fs.map Fragment.blank)
  | iterate _ fs => iterate 0 (fs.map Fragment.blank)
  | get fs => get (fs.map Fragment.blank)
  | getById _ => getById []
  | count fs => count (fs.map Fragment.blank)
  | explain fs => explain (fs.map Fragment.blank)

/-- The text of the statement that an operation runs. -/
def text (t : Table) (op : Operation) : Text :=
  Text.join [' '] (op.head :: t.name :: (op.pieces t.storage).map Fragment.marked)

theorem marked_blank (f : Fragment) :
    Fragment.marked f.blank.filled = Fragment.marked f.filled := by
  rw [← Fragment.text_eq_marked, ← Fragment.text_eq_marked]
  simp [Fragment.text, Fragment.blank, List.flatMap_map]

theorem marked_map_blank (fs : List Fragment) :
    ((fs.map Fragment.blank).map Fragment.filled).map Fragment.marked =
      (fs.map Fragment.filled).map Fragment.marked := by
  rw [List.map_map, List.map_map, List.map_map]
  exact List.map_congr_left fun f _ => marked_blank f

/-- What an operation puts into its statement, with marks for the values, depends on its shape
alone. -/
theorem marked_pieces_shape (storage : Storage) (op : Operation) :
    (op.shape.pieces storage).map Fragment.marked = (op.pieces storage).map Fragment.marked := by
  cases op with
  | delete fs | all fs | iterate _ fs | count fs | explain fs => exact marked_map_blank fs
  | patch _ fs | replace _ fs =>
    rw [shape, pieces, pieces, List.map_cons, List.map_cons, marked_map_blank,
      Fragment.marked_append, Fragment.marked_append]
    rfl
  | get fs =>
    rw [shape, pieces, pieces, List.map_append, List.map_append, marked_map_blank]
  | getById id => rfl

theorem text_shape (t : Table) (op : Operation) : op.shape.text t = op.text t := by
  have hhead : op.shape.head = op.head := by cases op <;> rfl
  rw [text, text, hhead, marked_pieces_shape]

theorem makes_text (t : Table) {op : Operation} (h : op.Encodes) :
    ∃ args, Makes (op.perform t) [.run (op.text t) args] := by
  obtain ⟨fs, hpieces, hmakes⟩ := op.makes_perform t h
  have htext : (composed op.head t.name fs).text = op.text t := by
    rw [text, ← hpieces, List.map_map]
    show Text.join [' '] (op.head :: t.name :: (fs.map fragmentStatement).map (·.text)) = _
    rw [List.map_map]
    congr 3
    exact List.map_congr_left fun f _ => f.text_eq_marked
  rw [htext] at hmakes
  exact ⟨_, hmakes⟩

end Operation

/-! ### Insertions -/

/-- A document that is given an id can be encoded if it could be before. -/
theorem encode?_identify (fresh : Text) {members : Members}
    (h : (Document.encode? (.object members)).isSome = true) :
    (Document.encode? (.object (Document.identify fresh members))).isSome = true := by
  rw [Option.isSome_iff_ne_none, Ne, Document.encode?_eq_none_iff] at h ⊢
  rwa [Document.unwritable_identify]

theorem mapM_insertionRow {docs : List Members} {docs' : List Json}
    (hdocs : ∀ d ∈ docs, (Document.encode? (.object d)).isSome = true)
    (h : List.Forall₂ (fun d d' => ∃ fresh, d' = Json.object (Document.identify fresh d))
      docs docs') : ∃ rows, docs'.mapM insertionRow = .ok rows := by
  induction h with
  | nil => exact ⟨[], rfl⟩
  | cons hd _ ih =>
    obtain ⟨fresh, rfl⟩ := hd
    rw [List.forall_mem_cons] at hdocs
    obtain ⟨rows, hrows⟩ := ih hdocs.2
    rw [List.mapM_cons, hrows, insertionRow, encode_eq_ok (encode?_identify fresh hdocs.1)]
    exact ⟨_, rfl⟩

/-! ### One text for all values -/

/-- What a table is asked to do: an operation with fragments, or documents that are inserted. -/
inductive Job where
  | operation (op : Operation)
  | insert (doc : Members)
  | insertMany (docs : List Members)

namespace Job

/-- Do a job; what it answers does not matter here. -/
def perform (t : Table) : Job → SessionM Unit
  | operation op => op.perform t
  | insert doc => discard (t.insert (.object doc))
  | insertMany docs => discard (t.insertMany (docs.map .object))

/-- All documents of a job can be encoded. -/
def Encodes : Job → Prop
  | operation op => op.Encodes
  | insert doc => (Document.encode? (.object doc)).isSome = true
  | insertMany docs => ∀ d ∈ docs, (Document.encode? (.object d)).isSome = true

/-- A job without its values. -/
def shape : Job → Job
  | operation op => operation op.shape
  | insert _ => insert []
  | insertMany _ => insertMany []

/-- The text that a job runs. -/
def text (t : Table) : Job → Text
  | operation op => op.text t
  | insert _ | insertMany _ => insertInto t.name t.storage

theorem text_shape (t : Table) (job : Job) : job.shape.text t = job.text t := by
  cases job with
  | operation op => exact op.text_shape t
  | insert | insertMany => rfl

theorem executes_of_follows {α : Type} {m : SessionM α} {text : Text}
    (h : Follows m fun _ xs => ∃ c reply, xs = [(c, reply)] ∧ Call.text? c = some text) :
    Executes (discard m) text := by
  intro s
  obtain ⟨made, hext, c, reply, hxs, htext⟩ := h s
  have hmade : made = [c] := by
    rw [← map_fst_exchanges s.engine s.calls made, hxs]
    rfl
  refine ⟨c, ?_, htext⟩
  rw [← hmade, ← hext.calls]
  exact calls_discard m s

/-- A job whose documents can be encoded makes one call, with the text of its shape. -/
theorem executes_text (t : Table) {job : Job} (h : job.Encodes) :
    Executes (job.perform t) (job.text t) := by
  cases job with
  | operation op =>
    obtain ⟨args, hmakes⟩ := op.makes_text t h
    exact fun s => ⟨_, hmakes s, rfl⟩
  | insert doc =>
    refine executes_of_follows ((follows_insert t doc).mono ?_)
    rintro r xs ⟨fresh, hxs⟩
    rw [encode_eq_ok (encode?_identify fresh h)] at hxs
    rcases hxs with ⟨_, hp, -⟩ | ⟨stored, -, ⟨rows, changes, rfl, -⟩ | ⟨e, rfl, -⟩⟩
    · cases hp
    · exact ⟨_, _, rfl, rfl⟩
    · exact ⟨_, _, rfl, rfl⟩
  | insertMany docs =>
    refine executes_of_follows ((follows_insertMany t docs).mono ?_)
    rintro r xs ⟨docs', hdocs, hxs⟩
    obtain ⟨rows, hrows⟩ := mapM_insertionRow h hdocs
    rw [hrows] at hxs
    rcases hxs with ⟨_, hp, -⟩ | ⟨stored, -, ⟨rows, changes, rfl, -⟩ | ⟨e, rfl, -⟩⟩
    · cases hp
    · exact ⟨_, _, rfl, rfl⟩
    · exact ⟨_, _, rfl, rfl⟩

end Job

/-- **Values are never written into statements.** Conditions that differ only in values compile to
the same segments; so do queries that differ only in the values of arguments and filters, in the
id and in the limit; and jobs that differ only in values and documents run the same text, whatever
the engine does. -/
theorem values_never_written :
    (∀ a b : Condition, a.shape = b.shape →
      Fragment.parts <$> a.compile = Fragment.parts <$> b.compile ∧
      Fragment.parts <$> selectingBy a = Fragment.parts <$> selectingBy b) ∧
    (∀ (count count' : Int) (offset offset' : Option Int), offset.isSome = offset'.isSome →
      (limiting count offset).parts = (limiting count' offset').parts) ∧
    (∀ q r : Console.Query, q.SameButValues r → ∀ fs gs, q.fragments = .ok fs →
      r.fragments = .ok gs → fs.map Fragment.parts = gs.map Fragment.parts) ∧
    (∀ (t : Table) (job job' : Job), job.Encodes → job'.Encodes → job.shape = job'.shape →
      ∃ text, Executes (job.perform t) text ∧ Executes (job'.perform t) text) := by
  refine ⟨fun a b h => ⟨Condition.parts_compile_eq h, parts_selectingBy_eq h⟩,
    fun count count' _ _ h => parts_limiting count count' h,
    fun q r h fs gs hf hg => Console.Query.parts_fragments_eq h hf hg, ?_⟩
  intro t job job' hjob hjob' hshape
  refine ⟨job.text t, job.executes_text t hjob, ?_⟩
  rw [← job.text_shape t, hshape, job'.text_shape t]
  exact job'.executes_text t hjob'

/-- Values that look like statements leave the statement as it is: a membership, a limit, and two
patches whose arguments, filters, ids and documents differ in this way. -/
theorem values_never_written_quotes :
    let query (value filter id : Text) : Console.Query :=
      ⟨some "$age > ?".toList, [value], [filter], some id, none, false, none⟩
    let q := query "1".toList "tag in [1]".toList "a".toList
    let r := query "\"0) or (1\"".toList "tag in [null]".toList "b' or '1'='1".toList
    let t : Table := ⟨"users".toList, .binary⟩
    let patch (v : Json) : Json := .object [("name".toList, v)]
    let among (v : Json) : Condition := .comparison "age".toList .oneOf (.array [v])
    Fragment.parts <$> (among (.int 1)).compile =
      Fragment.parts <$> (among (.text "0) or (1".toList)).compile ∧
    (limiting 1 (some 2)).parts = (limiting 30 (some 0)).parts ∧
    q.SameButValues r ∧
    ∃ fs gs, q.fragments = .ok fs ∧ r.fragments = .ok gs ∧
      fs.map Fragment.parts = gs.map Fragment.parts ∧
      ∃ text,
        Executes (Job.perform t (.operation (.patch (patch .null) fs))) text ∧
        Executes (Job.perform t (.operation (.patch (patch (.text "'".toList)) gs))) text := by
  intro query q r t patch among
  have hfilter : Console.Filter.SameButValue "tag in [1]".toList "tag in [null]".toList := by
    have hone : Json.read "[1]".toList = .ok (.array [.int 1]) := rfl
    have hnull : Json.read "[null]".toList = .ok (.array [.null]) := rfl
    refine ⟨⟨"tag".toList, "in".toList, "[1]".toList⟩, ⟨"tag".toList, "in".toList, "[null]".toList⟩,
      rfl, rfl, rfl, rfl, fun _ vs ws hvs hws => ?_⟩
    cases hone.symm.trans hvs
    cases hnull.symm.trans hws
    rfl
  have hquery : q.SameButValues r := ⟨rfl, .cons hfilter .nil, rfl, rfl, rfl, rfl⟩
  obtain ⟨hconditions, hlimits, hfragments, hjobs⟩ := values_never_written
  have hamong := (hconditions (among (.int 1)) (among (.text "0) or (1".toList)) rfl).1
  have hlimit := hlimits 1 30 (some 2) (some 0) rfl
  refine ⟨hamong, hlimit, hquery, ?_⟩
  have hq : q.fragments.isOk = true := by decide +kernel
  have hr : r.fragments.isOk = true := by decide +kernel
  cases hfs : q.fragments with
  | error e => simp [hfs, Except.isOk, Except.toBool] at hq
  | ok fs =>
    cases hgs : r.fragments with
    | error e => simp [hgs, Except.isOk, Except.toBool] at hr
    | ok gs =>
      have hparts := hfragments q r hquery fs gs hfs hgs
      have hshape : (Job.operation (.patch (patch .null) fs)).shape =
          (Job.operation (.patch (patch (.text "'".toList)) gs)).shape := by
        simp only [Job.shape, Operation.shape, Fragment.map_blank_eq_iff.2 hparts]
      exact ⟨fs, gs, rfl, rfl, hparts, hjobs t _ _ rfl rfl hshape⟩

end Table

end DocTable
