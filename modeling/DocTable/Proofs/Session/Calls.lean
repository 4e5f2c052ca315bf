import DocTable.Engine.Connect
import DocTable.Engine.Inspect
/-!
# DocTable.Proofs.Session.Calls

Which calls a computation makes.

`Makes m cs` says that `m` makes exactly the calls `cs`, in order, whatever the engine replies and
whether or not `m` succeeds. The lemmas follow the ways in which computations are put together.
-/

namespace DocTable.Session

variable {ε α β : Type}

/-! ### Running computations -/

/-- A computation goes on with what it has come to, unless it has failed. -/
theorem run_bind (m : ExceptT ε (StateM Session) α) (f : α → ExceptT ε (StateM Session) β)
    (s : Session) :
    (m >>= f).run.run s =
      match m.run.run s with
      | (.ok a, s) => (f a).run.run s
      | (.error e, s) => (.error e, s) := by
  rw [ExceptT.run_bind, StateT.run_bind]
  rcases m.run.run s with ⟨_ | a, s'⟩
  · rfl
  · rfl

/-- A call is on record, and then the engine replies. -/
theorem run_call (c : Call) (s : Session) :
    (call c).run.run s =
      match s.engine s.calls c with
      | .fail e => (.error (.engine e), { s with calls := s.calls ++ [c] })
      | .rows rows changes =>
        (.ok rows, { s with calls := s.calls ++ [c], changes := s.changes + changes }) := by
  have hreply : (call c).run.run s =
      ((match s.engine s.calls c with
        | .fail e => throw (Error.engine e)
        | .rows rows changes => do
          modify fun s => { s with changes := s.changes + changes }
          return rows : SessionM (List Row))).run.run { s with calls := s.calls ++ [c] } := rfl
  rw [hreply]
  cases s.engine s.calls c with
  | fail e => rfl
  | rows rows changes => rfl

/-! ### The calls of a computation -/

/-- A computation makes exactly the calls `cs`. -/
def Makes (m : SessionM α) (cs : List Call) : Prop :=
  ∀ s : Session, (m.run.run s).2.calls = s.calls ++ cs

theorem makes_pure (a : α) : Makes (pure a : SessionM α) [] := fun s =>
  (List.append_nil s.calls).symm

theorem makes_throw (e : Error) : Makes (throw e : SessionM α) [] := fun s =>
  (List.append_nil s.calls).symm

theorem makes_lift (r : Except Error α) : Makes (lift r) [] := fun s =>
  (List.append_nil s.calls).symm

theorem makes_call (c : Call) : Makes (call c) [c] := by
  intro s
  rw [run_call]
  cases s.engine s.calls c with
  | fail e => rfl
  | rows rows changes => rfl

theorem makes_run (text : Text) (args : List Json) : Makes (run text args) [.run text args] :=
  makes_call _

variable {m : SessionM α} {f : α → SessionM β} {cs : List Call}

/-- What follows the last call makes no more of them. -/
theorem Makes.bind (hm : Makes m cs) (hf : ∀ a, Makes (f a) []) : Makes (m >>= f) cs := by
  intro s
  have hs := hm s
  rw [run_bind]
  rcases h : m.run.run s with ⟨_ | a, s'⟩
  · rwa [h] at hs
  · rw [h] at hs
    exact (hf a s').trans ((List.append_nil _).trans hs)

theorem calls_discard (m : SessionM α) (s : Session) :
    ((discard m).run.run s).2.calls = (m.run.run s).2.calls := by
  have hdiscard : discard m = m >>= fun _ => pure () := rfl
  rw [hdiscard, run_bind]
  rcases m.run.run s with ⟨_ | a, s'⟩
  · rfl
  · rfl

theorem Makes.discard (hm : Makes m cs) : Makes (discard m) cs :=
  Makes.bind hm fun _ => makes_pure ()

theorem Makes.map (hm : Makes m cs) (g : α → β) : Makes (g <$> m) cs := by
  rw [map_eq_pure_bind]
  exact hm.bind fun a => makes_pure (g a)

theorem makes_mapM {f : α → SessionM β} (hf : ∀ a, Makes (f a) []) (xs : List α) :
    Makes (xs.mapM f) [] := by
  induction xs with
  | nil => exact makes_pure []
  | cons x xs ih =>
    rw [List.mapM_cons]
    exact (hf x).bind fun _ => ih.bind fun _ => makes_pure _

/-- A result that is at hand is passed on. -/
@[simp] theorem lift_ok_bind (a : α) (f : α → SessionM β) : (lift (.ok a) >>= f) = f a := rfl

/-- Writing to the log makes no calls and cannot fail. -/
theorem Makes.logged {m : SessionM α} (hm : Makes m cs) (level : Level) (source : Source)
    (message : Text) : Makes (logEntry level source message >>= fun _ => m) cs := fun s =>
  hm { s with log := s.log ++ [⟨level, source, message⟩] }

/-! ### Cells of rows -/

theorem makes_firstCell (rows : List Row) : Makes (firstCell rows) [] := by
  match rows with
  | [] => exact makes_throw _
  | [] :: _ => exact makes_throw _
  | (cell :: _) :: _ => exact makes_pure cell

theorem makes_cell (row : Row) (position : Nat) : Makes (cell row position) [] := by
  rw [cell]
  split
  · exact makes_pure _
  · exact makes_throw _

/-- A query plan is asked for with one statement. -/
theorem makes_queryPlan (text : Text) (args : List Json) :
    Makes (queryPlan text args) [.run ("explain query plan ".toList ++ text) args] :=
  (makes_run _ args).bind fun rows =>
    makes_mapM (fun row => (makes_cell row 3).map Json.plain) rows

end DocTable.Session
