import Mathlib.Data.List.Forall2
/-!
# DocTable.Proofs.Result

When computations that may fail succeed: each step of a chain has to.

`Judges P wrong x` says both halves at once of a check `x`: it fails, with an error that `P` holds
of, if something is wrong, and passes otherwise. What is wrong with a chain is what is wrong with
one of its steps.
-/

namespace DocTable

variable {ε ε' α β : Type}

theorem bind_eq_ok_iff {x : Except ε α} {f : α → Except ε β} {b : β} :
    x >>= f = .ok b ↔ ∃ a, x = .ok a ∧ f a = .ok b := by
  cases x with
  | error e => simp [bind, Except.bind]
  | ok a => simp [bind, Except.bind]

theorem map_eq_ok_iff {x : Except ε α} {f : α → β} {b : β} :
    f <$> x = .ok b ↔ ∃ a, x = .ok a ∧ f a = b := by
  cases x with
  | error e => simp [Functor.map, Except.map]
  | ok a => simp [Functor.map, Except.map]

theorem bind_eq_error_iff {x : Except ε α} {f : α → Except ε β} {e : ε} :
    x >>= f = .error e ↔ x = .error e ∨ ∃ a, x = .ok a ∧ f a = .error e := by
  cases x with
  | error e => simp [bind, Except.bind]
  | ok a => simp [bind, Except.bind]

theorem map_eq_error_iff {x : Except ε α} {f : α → β} {e : ε} :
    f <$> x = .error e ↔ x = .error e := by
  cases x with
  | error e => simp [Functor.map, Except.map]
  | ok a => simp [Functor.map, Except.map]

theorem mapError_eq_ok_iff {x : Except ε α} {f : ε → ε'} {a : α} :
    x.mapError f = .ok a ↔ x = .ok a := by
  cases x with
  | error e => simp [Except.mapError]
  | ok b => simp [Except.mapError]

theorem mapError_eq_error_iff {x : Except ε α} {f : ε → ε'} {e' : ε'} :
    x.mapError f = .error e' ↔ ∃ e, x = .error e ∧ f e = e' := by
  cases x with
  | _ => simp [Except.mapError]

theorem eq_ok_of_toOption {x : Except ε α} {a : α} (h : x.toOption = some a) : x = .ok a := by
  cases x with
  | error e => cases h
  | ok b => exact congrArg Except.ok (Option.some.inj h)

/-- What follows a guard is reached only if the guard finds nothing wrong. -/
theorem guard_eq_ok_iff {wrong : Prop} [Decidable wrong] {e : ε} {rest : PUnit → Except ε α}
    {a : α} :
    (if wrong then .error e >>= rest else rest ⟨⟩) = .ok a ↔ ¬ wrong ∧ rest ⟨⟩ = .ok a := by
  split
  · next h => simp [h, bind, Except.bind]
  · next h => simp [h]

theorem guard_eq_error_iff {wrong : Prop} [Decidable wrong] {e e' : ε} {rest : PUnit → Except ε α} :
    (if wrong then .error e >>= rest else rest ⟨⟩) = .error e' ↔
      wrong ∧ e = e' ∨ ¬ wrong ∧ rest ⟨⟩ = .error e' := by
  split
  · next h => simp [h, bind, Except.bind]
  · next h => simp [h]

theorem mapM_eq_ok_iff {f : α → Except ε β} {xs : List α} {ys : List β} :
    xs.mapM f = .ok ys ↔ List.Forall₂ (fun x y => f x = .ok y) xs ys := by
  induction xs generalizing ys with
  | nil =>
    constructor
    · intro h
      cases h
      exact .nil
    · intro h
      cases h
      rfl
  | cons x xs ih =>
    rw [List.mapM_cons, bind_eq_ok_iff]
    constructor
    · rintro ⟨y, hy, h⟩
      obtain ⟨rest, hrest, h⟩ := bind_eq_ok_iff.1 h
      cases h
      exact .cons hy (ih.1 hrest)
    · intro h
      cases h with
      | cons hy hrest => exact ⟨_, hy, bind_eq_ok_iff.2 ⟨_, ih.2 hrest, rfl⟩⟩

/-- Every member of a list has a result that is known beforehand. -/
theorem mapM_eq_ok_map {f : α → Except ε β} {k : α → β} {xs : List α}
    (h : ∀ x ∈ xs, f x = .ok (k x)) : xs.mapM f = .ok (xs.map k) := by
  rw [mapM_eq_ok_iff, List.forall₂_map_right_iff]
  exact List.forall₂_same.2 h

theorem mapM_map_eq_ok {γ : Type} {f : β → Except ε γ} {g : α → β} {k : α → γ} {xs : List α}
    (h : ∀ x ∈ xs, f (g x) = .ok (k x)) : (xs.map g).mapM f = .ok (xs.map k) := by
  rw [mapM_eq_ok_iff, List.forall₂_map_left_iff, List.forall₂_map_right_iff]
  exact List.forall₂_same.2 h

theorem exists_mapM_eq_ok {f : α → Except ε β} {xs : List α} (h : ∀ x ∈ xs, ∃ y, f x = .ok y) :
    ∃ ys, xs.mapM f = .ok ys := by
  induction xs with
  | nil => exact ⟨[], rfl⟩
  | cons x xs ih =>
    rw [List.forall_mem_cons] at h
    obtain ⟨y, hy⟩ := h.1
    obtain ⟨ys, hys⟩ := ih h.2
    exact ⟨y :: ys, mapM_eq_ok_iff.2 (.cons hy (mapM_eq_ok_iff.1 hys))⟩

/-- Each result is that of a member. -/
theorem exists_of_mem_results {f : α → Except ε β} {xs : List α} {ys : List β}
    (h : xs.mapM f = .ok ys) {y : β} (hy : y ∈ ys) : ∃ x ∈ xs, f x = .ok y := by
  have hall := mapM_eq_ok_iff.1 h
  clear h
  induction hall with
  | nil => cases hy
  | @cons x y' xs ys hx _ ih =>
    rcases List.mem_cons.1 hy with rfl | hy
    · exact ⟨x, List.mem_cons_self, hx⟩
    · obtain ⟨x', hx', h⟩ := ih hy
      exact ⟨x', List.mem_cons_of_mem _ hx', h⟩

/-- Each member has its result. -/
theorem exists_result_of_mem {f : α → Except ε β} {xs : List α} {ys : List β}
    (h : xs.mapM f = .ok ys) {x : α} (hx : x ∈ xs) : ∃ y ∈ ys, f x = .ok y := by
  have hall := mapM_eq_ok_iff.1 h
  clear h
  induction hall with
  | nil => cases hx
  | @cons x' y xs ys hy _ ih =>
    rcases List.mem_cons.1 hx with rfl | hx
    · exact ⟨y, List.mem_cons_self, hy⟩
    · obtain ⟨y', hy', h⟩ := ih hx
      exact ⟨y', List.mem_cons_of_mem _ hy', h⟩

/-- What fails in a list fails at one of its members. -/
theorem exists_of_mapM_eq_error {f : α → Except ε β} {xs : List α} {e : ε}
    (h : xs.mapM f = .error e) : ∃ x ∈ xs, f x = .error e := by
  induction xs with
  | nil => cases h
  | cons x xs ih =>
    rw [List.mapM_cons] at h
    rcases bind_eq_error_iff.1 h with h | ⟨_, -, h⟩
    · exact ⟨x, List.mem_cons_self, h⟩
    · rcases bind_eq_error_iff.1 h with h | ⟨_, -, h⟩
      · obtain ⟨x', hx', h⟩ := ih h
        exact ⟨x', List.mem_cons_of_mem _ hx', h⟩
      · cases h

/-! ### Checks -/

/-- A check fails exactly if something is wrong, and with an error of some kind. -/
inductive Judges (P : ε → Prop) (wrong : Prop) : Except ε α → Prop
  | fails {e : ε} : wrong → P e → Judges P wrong (.error e)
  | passes {a : α} : ¬ wrong → Judges P wrong (.ok a)

namespace Judges

variable {P : ε → Prop} {wrong wrong' : Prop} {x : Except ε α} {f : α → Except ε β}

theorem congr (h : Judges P wrong x) (hiff : wrong ↔ wrong') : Judges P wrong' x := by
  cases h with
  | fails hw he => exact .fails (hiff.1 hw) he
  | passes hw => exact .passes fun hw' => hw (hiff.2 hw')

theorem mono {Q : ε → Prop} (h : Judges P wrong x) (hPQ : ∀ e, P e → Q e) : Judges Q wrong x := by
  cases h with
  | fails hw he => exact .fails hw (hPQ _ he)
  | passes hw => exact .passes hw

theorem mapError {Q : ε' → Prop} {g : ε → ε'} (h : Judges P wrong x) (hPQ : ∀ e, P e → Q (g e)) :
    Judges Q wrong (x.mapError g) := by
  cases h with
  | fails hw he => exact .fails hw (hPQ _ he)
  | passes hw => exact .passes hw

/-- A check of which every error is of the kind. -/
theorem of_forall (x : Except ε α) (hP : ∀ e, x = .error e → P e) :
    Judges P (¬ ∃ a, x = .ok a) x := by
  cases x with
  | error e => exact .fails nofun (hP e rfl)
  | ok a => exact .passes (not_not.2 ⟨a, rfl⟩)

theorem bind {W : α → Prop} (h : Judges P wrong x)
    (hf : ∀ a, x = .ok a → Judges P (W a) (f a)) :
    Judges P (wrong ∨ ∃ a, x = .ok a ∧ W a) (x >>= f) := by
  cases h with
  | fails hw he => exact .fails (.inl hw) he
  | @passes a hw =>
    refine (hf a rfl).congr ⟨fun ha => .inr ⟨a, rfl, ha⟩, ?_⟩
    rintro (hw' | ⟨a', ha', hwrong⟩)
    · exact absurd hw' hw
    · cases ha'
      exact hwrong

/-- What the second check finds wrong does not depend on the result of the first one. -/
theorem andThen (h : Judges P wrong x) (hf : ∀ a, x = .ok a → Judges P wrong' (f a)) :
    Judges P (wrong ∨ wrong') (x >>= f) := by
  cases h with
  | fails hw he => exact .fails (.inl hw) he
  | passes hw => exact (hf _ rfl).congr (by simp [hw])

/-- What comes after a check cannot fail. -/
theorem thenPasses (h : Judges P wrong x) (hf : ∀ a, x = .ok a → ∃ b, f a = .ok b) :
    Judges P wrong (x >>= f) := by
  cases h with
  | fails hw he => exact .fails hw he
  | @passes a hw =>
    obtain ⟨b, hb⟩ := hf a rfl
    show Judges P wrong (f a)
    rw [hb]
    exact .passes hw

/-- What comes after a check finds nothing wrong. -/
theorem map (h : Judges P wrong x) (g : α → β) : Judges P wrong (g <$> x) := by
  cases h with
  | fails hw he => exact .fails hw he
  | passes hw => exact .passes hw

theorem exists_error (h : Judges P wrong x) (hw : wrong) : ∃ e, x = .error e ∧ P e := by
  cases h with
  | fails _ he => exact ⟨_, rfl, he⟩
  | passes hn => exact absurd hw hn

theorem exists_ok (h : Judges P wrong x) (hw : ¬ wrong) : ∃ a, x = .ok a := by
  cases h with
  | fails hw' _ => exact absurd hw' hw
  | passes => exact ⟨_, rfl⟩

theorem mapM {as : List α} {W : α → Prop} (h : ∀ a ∈ as, Judges P (W a) (f a)) :
    Judges P (∃ a ∈ as, W a) (as.mapM f) := by
  induction as with
  | nil => exact .passes (by simp)
  | cons a as ih =>
    rw [List.forall_mem_cons] at h
    rw [List.mapM_cons]
    refine (h.1.bind fun b _ => (ih h.2).map (b :: ·)).congr ?_
    constructor
    · rintro (ha | ⟨_, -, a', ha', hwrong⟩)
      · exact ⟨a, List.mem_cons_self, ha⟩
      · exact ⟨a', List.mem_cons_of_mem _ ha', hwrong⟩
    · rintro ⟨a', ha', hwrong⟩
      rcases List.mem_cons.1 ha' with rfl | ha'
      · exact .inl hwrong
      · by_cases ha : W a
        · exact .inl ha
        · obtain ⟨b, hb⟩ := h.1.exists_ok ha
          exact .inr ⟨b, hb, a', ha', hwrong⟩

theorem of_error {e : ε} (h : Judges P wrong (.error e : Except ε α)) : wrong ∧ P e := by
  cases h with
  | fails hw he => exact ⟨hw, he⟩

theorem of_ok {a : α} (h : Judges P wrong (.ok a : Except ε α)) : ¬ wrong := by
  cases h with
  | passes hw => exact hw

/-- Two checks of every member of a list, the first one of all of them before the second one. -/
theorem mapM_mapM {γ : Type} {as : List α} {g : β → Except ε γ} {W : α → Prop}
    (h : ∀ a ∈ as, Judges P (W a) (f a >>= g)) :
    Judges P (∃ a ∈ as, W a) (as.mapM f >>= fun bs => bs.mapM g) := by
  cases hbs : as.mapM f with
  | error e =>
    obtain ⟨a, ha, hfails⟩ := exists_of_mapM_eq_error hbs
    have hjudged := h a ha
    rw [hfails] at hjudged
    exact .fails ⟨a, ha, hjudged.of_error.1⟩ hjudged.of_error.2
  | ok bs =>
    show Judges P (∃ a ∈ as, W a) (bs.mapM g)
    cases hcs : bs.mapM g with
    | error e =>
      obtain ⟨b, hb, hfails⟩ := exists_of_mapM_eq_error hcs
      obtain ⟨a, ha, hpasses⟩ := exists_of_mem_results hbs hb
      have hjudged : Judges P (W a) (g b) := by
        have hchain := h a ha
        rw [hpasses] at hchain
        exact hchain
      rw [hfails] at hjudged
      exact .fails ⟨a, ha, hjudged.of_error.1⟩ hjudged.of_error.2
    | ok cs =>
      refine .passes ?_
      rintro ⟨a, ha, hwrong⟩
      obtain ⟨b, hb, hf⟩ := exists_result_of_mem hbs ha
      obtain ⟨c, -, hg⟩ := exists_result_of_mem hcs hb
      have hjudged : Judges P (W a) (g b) := by
        have hchain := h a ha
        rw [hf] at hchain
        exact hchain
      rw [hg] at hjudged
      exact hjudged.of_ok hwrong

end Judges

end DocTable
