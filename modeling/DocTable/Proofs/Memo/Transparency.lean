import DocTable.Proofs.Memo.Keys
/-!
# DocTable.Proofs.Memo.Transparency

The cache of the builders does not show.

A memo is `Sound` if each of its entries is the answer to every call with its key. A computation
`Yields` a result if it comes to that result on every sound memo and leaves a sound memo behind;
this goes through lookups, through the builders that ask others while their own entry is pending,
and through the loss of entries. `performAll_eq_direct` is the statement for programs that call
builders, change the bound and clear the cache in any order, `yields_ofSource` the one for
fragments.
-/

namespace DocTable.Memo

/-! ### Sound memos -/

/-- Each entry is the answer to every call with its key. -/
def Sound (memo : Memo) : Prop :=
  ∀ e ∈ memo.entries, ∀ c : Call, (c.builder, c.key) = e.1 → c.request.answer = .ok e.2

theorem sound_empty (limit : Option Nat) : Sound (Cache.empty limit) := fun _ he =>
  absurd he List.not_mem_nil

/-- The loss of entries does no harm. -/
theorem Sound.of_subset {memo memo' : Memo} (h : Sound memo)
    (hsubset : ∀ e ∈ memo'.entries, e ∈ memo.entries) : Sound memo' := fun e he =>
  h e (hsubset e he)

theorem Sound.find? {memo : Memo} (h : Sound memo) (c : Call) {v : Built}
    (hv : memo.find? (c.builder, c.key) = some v) : c.request.answer = .ok v :=
  h _ (Cache.mem_of_find? hv) c rfl

/-- To store the answer to a call is sound, since all calls with its key have that answer. -/
theorem Sound.settle {memo : Memo} (h : Sound memo) (c : Call) {v : Built}
    (hv : c.request.answer = .ok v) :
    (memo.settle (c.builder, c.key) v).1 = v ∧ Sound (memo.settle (c.builder, c.key) v).2 := by
  constructor
  · rw [Cache.settle]
    split
    · next stored hstored =>
      -- A value that has been stored in the meantime is the answer as well.
      have hanswer := h.find? c hstored
      rw [hv] at hanswer
      exact (Except.ok.inj hanswer).symm
    · rfl
  · intro e he d hd
    rcases Cache.mem_settle he with he | rfl
    · exact h e he d hd
    · have hrequest := Call.request_of_key (congrArg Prod.fst hd) (congrArg Prod.snd hd)
      rw [hrequest, hv]

/-! ### Computations on sound memos -/

/-- A computation comes to a result on every sound memo, and leaves a sound one. -/
def Yields {α : Type} (m : MemoM α) (r : Except Sql.QueryError α) : Prop :=
  ∀ memo, Sound memo → (m.run.run memo).1 = r ∧ Sound (m.run.run memo).2

section

variable {α β : Type}

theorem yields_except (r : Except Sql.QueryError α) : Yields (compute.liftExcept r) r :=
  fun _ hmemo => ⟨rfl, hmemo⟩

theorem yields_pure (a : α) : Yields (pure a : MemoM α) (.ok a) := fun _ hmemo => ⟨rfl, hmemo⟩

theorem Yields.bind {m : MemoM α} {a : α} {f : α → MemoM β} {r : Except Sql.QueryError β}
    (hm : Yields m (.ok a)) (hf : Yields (f a) r) : Yields (m >>= f) r := by
  intro memo hmemo
  obtain ⟨hvalue, hsound⟩ := hm memo hmemo
  rw [ExceptT.run_bind, StateT.run_bind]
  rcases hrun : m.run.run memo with ⟨_, memo'⟩
  rw [hrun] at hvalue hsound
  cases hvalue
  exact hf memo' hsound

theorem yields_mapM {f : α → MemoM β} {g : α → β} (hf : ∀ a, Yields (f a) (.ok (g a)))
    (xs : List α) : Yields (xs.mapM f) (.ok (xs.map g)) := by
  induction xs with
  | nil => exact yields_pure []
  | cons x xs ih =>
    rw [List.mapM_cons]
    exact (hf x).bind (ih.bind (yields_pure _))

end

/-- A lookup finds its key, or runs the computation and settles what it has come to. -/
theorem run_remember (builder : Builder) (key : Text) (m : MemoM Built) (memo : Memo) :
    (remember builder key m).run.run memo =
      match memo.find? (builder, key) with
      | some v => (.ok v, memo.hit)
      | none =>
        match m.run.run memo with
        | (.ok v, memo) =>
          (.ok (memo.settle (builder, key) v).1, (memo.settle (builder, key) v).2)
        | (.error e, memo) => (.error e, memo) := by
  have hlookup : (remember builder key m).run.run memo =
      ((match memo.find? (builder, key) with
        | some v => do
          modify Cache.hit
          return v
        | none => do
          let v ← m
          modifyGet fun memo => memo.settle (builder, key) v : MemoM Built)).run.run memo := rfl
  rw [hlookup]
  cases memo.find? (builder, key) with
  | some v => rfl
  | none =>
    simp only
    rw [ExceptT.run_bind, StateT.run_bind]
    rcases m.run.run memo with ⟨_ | v, memo'⟩
    · rfl
    · rfl

/-- A lookup yields the answer to its call, if the computation behind it does. -/
theorem yields_remember (c : Call) {m : MemoM Built} (hm : Yields m c.request.answer) :
    Yields (remember c.builder c.key m) c.request.answer := by
  intro memo hmemo
  rw [run_remember]
  cases hfind : memo.find? (c.builder, c.key) with
  | some v => exact ⟨(hmemo.find? c hfind).symm, hmemo⟩
  | none =>
    obtain ⟨hvalue, hsound⟩ := hm memo hmemo
    rcases hcompute : m.run.run memo with ⟨e | v, memo'⟩
    · rw [hcompute] at hvalue hsound
      exact ⟨hvalue, hsound⟩
    · rw [hcompute] at hvalue hsound
      obtain ⟨hsettled, hsound⟩ := hsound.settle c hvalue.symm
      exact ⟨(congrArg Except.ok hsettled).trans hvalue, hsound⟩

/-! ### Builders -/

/-- The call that expands a text. -/
def Call.expand (t : Text) : Call where
  builder := .expand
  positional := [.text t]
  named := []
  request := .expand t
  arguments v hv := by
    rw [List.mem_singleton.1 hv]
    exact .text t
  distinct := .nil
  binds := rfl

/-- The call that names an expression. -/
def Call.expressionName (expr : Text) : Call where
  builder := .expressionName
  positional := [.text expr]
  named := []
  request := .expressionName expr
  arguments v hv := by
    rw [List.mem_singleton.1 hv]
    exact .text expr
  distinct := .nil
  binds := rfl

theorem yields_expand (t : Text) : Yields (expand t) (.ok (Sql.expand t)) :=
  (yields_remember (.expand t) (yields_pure (Built.text (Sql.expand t)))).bind (yields_pure _)

theorem yields_expressionName (expr : Text) :
    Yields (expressionName expr) (.ok (Sql.expressionName expr)) :=
  (yields_remember (.expressionName expr)
    (yields_pure (Built.text (Sql.expressionName expr)))).bind (yields_pure _)

/-- The computation behind a lookup yields the answer, though it may use the cache itself. -/
theorem yields_compute (request : Request) : Yields (compute request) request.answer := by
  cases request with
  | expand | createTable | expressionName | insertInto => exact yields_except _
  | expandParts parts => exact (yields_mapM yields_expand parts).bind (yields_pure _)
  | createIndex table expr name unique =>
    match name with
    | some (c :: cs) => exact yields_pure _
    | none | some [] => exact (yields_expressionName expr).bind (yields_pure _)

theorem Call.invoke?_eq (c : Call) :
    invoke? c.builder c.positional c.named = some (call c.key c.request) := by
  rw [invoke?, c.binds]
  rfl

/-- The computation that a call invokes. -/
def Call.run (c : Call) : MemoM Built :=
  (invoke? c.builder c.positional c.named).get (c.invoke?_eq ▸ rfl)

theorem Call.run_eq (c : Call) : c.run = call c.key c.request := by
  simp only [run, c.invoke?_eq, Option.get_some]

theorem yields_run (c : Call) : Yields c.run c.request.answer := by
  rw [c.run_eq, call, c.builder_eq]
  exact yields_remember c (yields_compute c.request)

/-- The call that expands the segments of a fragment. -/
def Call.expandParts (parts : List Text) : Call where
  builder := .expandParts
  positional := [.array (parts.map .text)]
  named := []
  request := .expandParts parts
  arguments v hv := by
    rw [List.mem_singleton.1 hv]
    exact .texts parts
  distinct := .nil
  binds := by
    have htexts : (parts.map Json.text).mapM Json.text? = some parts := by
      induction parts with
      | nil => rfl
      | cons p parts ih => rw [List.map_cons, List.mapM_cons, ih]; rfl
    have hrequest : Request.ofArguments? .expandParts [.array (parts.map .text)] [] =
        ((parts.map Json.text).mapM Json.text?).bind fun ts => some (.expandParts ts) := rfl
    rw [hrequest, htexts]
    rfl

/-- Fragments that are built through the cache are those that are built without it. -/
theorem yields_ofSource (parts : List Text) (values : List Json) :
    Yields (ofSource parts values)
      ((Sql.Fragment.ofSource parts values).mapError .composition) := by
  have hcall := yields_run (.expandParts parts)
  rw [Call.run_eq] at hcall
  exact hcall.bind (yields_except _)

/-! ### Programs -/

/-- A step of a program that uses the cache of the builders. -/
inductive Step where
  | call (c : Call)
  | resize (limit : Option Int)
  | clear

/-- What a step comes to. -/
inductive Outcome where
  | answer (r : Except Sql.QueryError Built)
  | resized
  /-- A bound was refused. -/
  | badLimit
  | cleared

/-- Perform a step on a memo. -/
def Step.perform (memo : Memo) : Step → Outcome × Memo
  | call c =>
    match c.run.run.run memo with
    | (r, memo) => (.answer r, memo)
  | resize limit =>
    match Cache.checkLimit limit with
    | none => (.badLimit, memo)
    | some limit => (.resized, memo.resize limit)
  | clear => (.cleared, memo.clear)

/-- Perform steps one after another, whatever they come to. -/
def performAll (memo : Memo) : List Step → List Outcome × Memo
  | [] => ([], memo)
  | step :: steps =>
    let (outcome, memo) := step.perform memo
    let (outcomes, memo) := performAll memo steps
    (outcome :: outcomes, memo)

/-- What a step comes to without any cache. -/
def Step.direct : Step → Outcome
  | call c => .answer c.request.answer
  | resize limit => if (Cache.checkLimit limit).isSome then .resized else .badLimit
  | clear => .cleared

/-- A step on a sound memo comes to what it does without a cache, and leaves a sound memo. -/
theorem Step.perform_sound {memo : Memo} (h : Sound memo) (step : Step) :
    (step.perform memo).1 = step.direct ∧ Sound (step.perform memo).2 := by
  cases step with
  | call c =>
    obtain ⟨hvalue, hsound⟩ := yields_run c memo h
    exact ⟨congrArg Outcome.answer hvalue, hsound⟩
  | resize limit =>
    rw [perform, direct]
    cases Cache.checkLimit limit with
    | none => exact ⟨rfl, h⟩
    | some limit => exact ⟨rfl, h.of_subset fun _ => Cache.mem_of_mem_resize⟩
  | clear => exact ⟨rfl, sound_empty _⟩

theorem performAll_sound {memo : Memo} (h : Sound memo) (steps : List Step) :
    (performAll memo steps).1 = steps.map Step.direct ∧ Sound (performAll memo steps).2 := by
  induction steps generalizing memo with
  | nil => exact ⟨rfl, h⟩
  | cons step steps ih =>
    obtain ⟨hvalue, hsound⟩ := step.perform_sound h
    obtain ⟨hvalues, hsound⟩ := ih hsound
    exact ⟨List.cons_eq_cons.2 ⟨hvalue, hvalues⟩, hsound⟩

/-- Memoization is transparent: in every program, from an empty cache with any bound, each call
comes to what its builder answers without a cache. -/
theorem performAll_eq_direct (limit : Option Nat) (steps : List Step) :
    (performAll (Cache.empty limit) steps).1 = steps.map Step.direct :=
  (performAll_sound (sound_empty limit) steps).1

end DocTable.Memo
