import DocTable.Table.Basic
import DocTable.Proofs.Session.Calls
/-!
# DocTable.Proofs.Session.Drawing

Computations that draw no ids.

`DrawsNone m` says that `m` leaves the stream of ids where it is, whatever the engine replies and
whether or not `m` succeeds. Opening a database and providing a table are such computations, so that
what is drawn while a command runs is drawn by its own part.
-/

namespace DocTable

namespace Session

variable {ε α β : Type}

/-- A computation draws no ids. -/
def DrawsNone (m : ExceptT ε (StateM Session) α) : Prop :=
  ∀ s : Session, (m.run.run s).2.ids = s.ids ∧ (m.run.run s).2.drawn = s.drawn

section

variable {m : ExceptT ε (StateM Session) α} {f : α → ExceptT ε (StateM Session) β}

theorem drawsNone_pure (a : α) : DrawsNone (pure a : ExceptT ε (StateM Session) α) :=
  fun _ => ⟨rfl, rfl⟩

theorem drawsNone_throw (e : ε) : DrawsNone (throw e : ExceptT ε (StateM Session) α) :=
  fun _ => ⟨rfl, rfl⟩

theorem DrawsNone.bind (hm : DrawsNone m) (hf : ∀ a, DrawsNone (f a)) : DrawsNone (m >>= f) := by
  intro s
  have hs := hm s
  rw [run_bind]
  generalize m.run.run s = run at hs
  rcases run with ⟨_ | a, s'⟩
  · exact hs
  · exact ⟨(hf a s').1.trans hs.1, (hf a s').2.trans hs.2⟩

theorem drawsNone_get {f : Session → ExceptT ε (StateM Session) β} (h : ∀ s, DrawsNone (f s)) :
    DrawsNone (get >>= f) :=
  fun s => h s s

theorem DrawsNone.closing (hm : DrawsNone m) : DrawsNone (closing m) := hm

end

theorem drawsNone_lift (r : Except Error α) : DrawsNone (lift r) := fun _ => ⟨rfl, rfl⟩

theorem drawsNone_logEntry (level : Level) (source : Source) (message : Text) :
    DrawsNone (logEntry level source message) := fun _ => ⟨rfl, rfl⟩

theorem drawsNone_call (c : Call) : DrawsNone (call c) := by
  intro s
  rw [run_call]
  cases s.engine s.calls c with
  | fail e => exact ⟨rfl, rfl⟩
  | rows rows changes => exact ⟨rfl, rfl⟩

theorem DrawsNone.discard {m : SessionM α} (hm : DrawsNone m) : DrawsNone (discard m) :=
  hm.bind fun _ => drawsNone_pure ()

theorem drawsNone_setJournalMode (mode : Text) : DrawsNone (setJournalMode mode) := by
  refine (drawsNone_call _).bind fun rows => DrawsNone.bind ?_ fun kept => ?_
  · unfold firstCell
    split
    · exact drawsNone_throw _
    · exact drawsNone_throw _
    · exact drawsNone_pure _
  · split
    · exact drawsNone_logEntry _ _ _
    · exact drawsNone_pure _

theorem drawsNone_connect (path : Text) (config : Config) (setMode : Bool) :
    DrawsNone (connect path config setMode) := by
  unfold connect
  refine drawsNone_get fun s => ?_
  dsimp only
  have htimeout : ∀ message : Text, DrawsNone (do
      discard (run (← lift (busyTimeout config.busyTimeout)) [])
      logEntry .debug .engine message) := by
    intro message
    refine (drawsNone_lift _).bind fun statement => ?_
    exact (drawsNone_call _).discard.bind fun _ => drawsNone_logEntry _ _ message
  have hopen : ∀ message : Text, DrawsNone (do
      discard (call (.connect path))
      if setMode && path ≠ ":memory:".toList then setJournalMode config.journalMode
      discard (run (← lift (busyTimeout config.busyTimeout)) [])
      logEntry .debug .engine message) := by
    intro message
    refine (drawsNone_call _).discard.bind fun _ => ?_
    dsimp only
    split
    · exact (drawsNone_setJournalMode _).bind fun _ => htimeout message
    · exact htimeout message
  split
  · exact (drawsNone_logEntry _ _ _).bind fun _ => hopen _
  · exact hopen _

theorem drawsNone_provision (name : Text) (config : Config) :
    DrawsNone (Table.provision name config) := by
  refine drawsNone_get fun s => (drawsNone_lift _).bind fun storage => ?_
  refine (drawsNone_call _).discard.bind fun _ => (drawsNone_call _).discard.bind fun _ => ?_
  exact (drawsNone_logEntry _ _ _).bind fun _ => drawsNone_pure _

end Session

end DocTable
