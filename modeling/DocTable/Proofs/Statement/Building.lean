import Mathlib.Data.List.Basic
import Mathlib.Data.List.Induction
import Mathlib.Data.List.ModifyLast
import DocTable.Proofs.Condition.Dotted
/-!
# DocTable.Proofs.Statement.Building

Fragments that are built step by step.

A builder is a fragment, so its segments fit its values whatever is done to it. `Sheet` keeps the
segments and the values as two lists that know nothing of each other, and has every step update both
of them; a step that fails half way leaves them as they are by then. The lists are those of the
fragment after every run (`Sheet.run_of`), so the checks that make a fragment of two lists never
refuse them (`ofSource_parts`).

A run without failures writes the texts, the values and the fragments of its steps one after another
(`filled_run`). The segments of the fragment are what stands between the values (`segments_filled`).
-/

namespace DocTable.Sql

/-- Do one step after another, also when some of them fail; their errors are collected. -/
def Step.run {σ : Type} (apply : σ → Step → σ × Option CompositionError) :
    σ → List Step → σ × List CompositionError
  | s, [] => (s, [])
  | s, x :: xs =>
    let next := apply s x
    let rest := run apply next.1 xs
    (rest.1, next.2.toList ++ rest.2)

/-! ### Two lists -/

/-- The segments and the values of a builder, side by side. -/
structure Sheet where
  segments : List Text
  values : List Json

namespace Sheet

/-- One empty segment and no value. -/
def blank : Sheet := ⟨[[]], []⟩

/-- Text behind the last segment. -/
def write (s : Sheet) (t : Text) : Sheet :=
  { s with segments := s.segments.modifyLast (· ++ t) }

/-- A value, and the segment that follows it. -/
def push (s : Sheet) (v : Json) (next : Text) : Sheet :=
  ⟨s.segments ++ [next], s.values ++ [v]⟩

/-- Literal text from outside, which may not hold a hole mark. -/
def text (s : Sheet) (t : Text) : Sheet × Option CompositionError :=
  if '?' ∈ t then (s, some (.textHole t)) else (s.write t, none)

/-- Several values; `first` says that no separator is due. -/
def pushAll (sep : Text) : (first : Bool) → List Json → Sheet → Sheet × Option CompositionError
  | _, [], s => (s, none)
  | true, v :: vs, s => pushAll sep false vs (s.push v [])
  | false, v :: vs, s =>
    match s.text sep with
    | (s, some e) => (s, some e)
    | (s, none) => pushAll sep false vs (s.push v [])

/-- The segments and the values of a fragment, the first segment behind the last one that is
there. -/
def embed (s : Sheet) (f : Fragment) : Sheet :=
  (f.values.zip f.parts.tail).foldl (fun s h => s.push h.1 h.2) (s.write f.head)

/-- What the lists are after a step, and the error that the step raised. -/
def apply (s : Sheet) : Step → Sheet × Option CompositionError
  | .text t => s.text t
  | .value v => (s.push v [], none)
  | .values vs sep => pushAll sep true vs s
  | .fragment f => (s.embed f, none)

/-- The fragment of the lists, if they make one: the segments are expanded, counted and searched for
hole marks. -/
def finish (s : Sheet) : Except CompositionError Fragment :=
  Fragment.ofSource s.segments s.values

/-- The lists of a fragment. -/
def of (f : Fragment) : Sheet := ⟨f.parts, f.values⟩

end Sheet

/-! ### The lists are those of a fragment -/

namespace Fragment

theorem parts_glue (head : Text) (holes : List (Json × Text)) (next : Text × List (Json × Text)) :
    (glue head holes next).1 :: (glue head holes next).2.map (·.2) =
      (head :: holes.map (·.2)).modifyLast (· ++ next.1) ++ next.2.map (·.2) := by
  induction holes generalizing head with
  | nil => rfl
  | cons h rest ih =>
    have hlast := List.modifyLast_append_of_right_ne_nil (· ++ next.1) [head]
      (h.2 :: rest.map (·.2)) (by simp)
    rw [List.singleton_append] at hlast
    rw [List.map_cons, hlast, List.append_assoc, ← ih]
    rfl

/-- The last segment of a fragment and the first one of the next become one. -/
theorem parts_append (f g : Fragment) :
    (f ++ g).parts = f.parts.modifyLast (· ++ g.head) ++ g.holes.map (·.2) :=
  parts_glue f.head f.holes (g.head, g.holes)

theorem values_zip_tail (f : Fragment) : f.values.zip f.parts.tail = f.holes := by
  rw [values, parts, List.tail_cons, List.zip_map']
  exact List.map_id _

/-- Segments and values of one fragment make a fragment. -/
theorem ofSource_parts (f : Fragment) : ofSource f.parts f.values = .ok f.expanded := by
  have hlength : (f.expanded.holes.map (·.2)).length = f.values.length := by
    simp [expanded, values]
  have hclean : ∀ p ∈ f.expanded.head :: f.expanded.holes.map (·.2), '?' ∉ p :=
    fun p hp => part_clean hp
  have hzip : f.values.zip (f.expanded.holes.map (·.2)) = f.expanded.holes := by
    rw [← values_expanded]
    exact values_zip_tail f.expanded
  rw [ofSource, ← parts_expanded]
  show ofParts (f.expanded.head :: f.expanded.holes.map (·.2)) f.values = _
  simp only [ofParts, hlength, ne_eq, not_true_eq_false, if_false, dif_pos hclean]
  exact congrArg Except.ok (Fragment.ext rfl hzip)

end Fragment

namespace Sheet

theorem modifyLast_append_nil (ts : List Text) : ts.modifyLast (· ++ []) = ts := by
  induction ts using List.reverseRecOn with
  | nil => rfl
  | append_singleton ts t => rw [List.modifyLast_concat, List.append_nil]

theorem of_append (f g : Fragment) :
    of (f ++ g) =
      ⟨f.parts.modifyLast (· ++ g.head) ++ g.holes.map (·.2), f.values ++ g.values⟩ := by
  rw [of, Fragment.parts_append, Fragment.values_append]

theorem write_of {t : Text} (clean : '?' ∉ t) (f : Fragment) :
    (of f).write t = of (f ++ Fragment.literal t clean) := by
  rw [of_append]
  simp [of, write, Fragment.literal, Fragment.values]

theorem push_of (v : Json) (f : Fragment) : (of f).push v [] = of (f ++ Fragment.hole v) := by
  rw [of_append]
  show _ = Sheet.mk (f.parts.modifyLast (· ++ []) ++ [[]]) (f.values ++ [v])
  rw [modifyLast_append_nil]
  rfl

theorem foldl_push (s : Sheet) (holes : List (Json × Text)) :
    holes.foldl (fun s h => s.push h.1 h.2) s =
      ⟨s.segments ++ holes.map (·.2), s.values ++ holes.map (·.1)⟩ := by
  induction holes generalizing s with
  | nil => simp
  | cons h holes ih =>
    rw [List.foldl_cons, ih]
    simp [push]

theorem embed_of (f g : Fragment) : (of f).embed g = of (f ++ g) := by
  rw [embed, Fragment.values_zip_tail, foldl_push, of_append]
  rfl

theorem text_of (f : Fragment) (t : Text) :
    (of f).text t = (of ((Step.text t).apply f).1, ((Step.text t).apply f).2) := by
  by_cases h : '?' ∈ t
  · simp [text, Step.apply, Fragment.literal?, h]
  · simp [text, Step.apply, Fragment.literal?, h, write_of h]

theorem pushAll_of (sep : Text) (first : Bool) (vs : List Json) (f : Fragment) :
    pushAll sep first vs (of f) =
      (of (Step.appendValues sep first vs f).1, (Step.appendValues sep first vs f).2) := by
  induction vs generalizing first f with
  | nil => rfl
  | cons v vs ih =>
    cases first with
    | true => rw [pushAll, push_of, ih, Step.appendValues]
    | false =>
      rw [pushAll, Step.appendValues, text]
      by_cases h : '?' ∈ sep
      · simp [Fragment.literal?, h]
      · simp [Fragment.literal?, h, write_of h, push_of, ih]

/-- A step does the same to the lists of a fragment as to the fragment. -/
theorem apply_of (f : Fragment) (x : Step) :
    (of f).apply x = (of (x.apply f).1, (x.apply f).2) := by
  cases x with
  | text t => exact text_of f t
  | value v => rw [apply, push_of, Step.apply]
  | values vs sep => exact pushAll_of sep true vs f
  | fragment g => rw [apply, embed_of, Step.apply]

/-- After every run the lists are those of the fragment. -/
theorem run_of (f : Fragment) (xs : List Step) :
    Step.run apply (of f) xs =
      (of (Step.run Step.apply f xs).1, (Step.run Step.apply f xs).2) := by
  induction xs generalizing f with
  | nil => rfl
  | cons x xs ih => simp [Step.run, apply_of, ih]

end Sheet

/-! ### What steps write -/

namespace Step

/-- The error that a step raises: only literal text can have one, and a separator is literal text
that is due before the second value. -/
def error? : Step → Option CompositionError
  | .text t => if '?' ∈ t then some (.textHole t) else none
  | .values (_ :: _ :: _) sep => if '?' ∈ sep then some (.textHole sep) else none
  | _ => none

/-- What a step writes, values in their places. -/
def written : Step → Filled
  | .text t => verbatim t
  | .value v => [.inr v]
  | .values vs sep => List.intercalate (verbatim sep) (vs.map fun v => [.inr v])
  | .fragment f => f.filled

/-- The values of a step. -/
def boundValues : Step → List Json
  | .text _ => []
  | .value v => [v]
  | .values vs _ => vs
  | .fragment f => f.values

variable {sep : Text}

/-- Further values without an error. -/
theorem appendValues_clean (h : '?' ∉ sep) (vs : List Json) (f : Fragment) :
    (appendValues sep false vs f).2 = none ∧
      (appendValues sep false vs f).1.filled =
        f.filled ++ (vs.map fun v => [.inr v]).flatMap (verbatim sep ++ ·) := by
  induction vs generalizing f with
  | nil => simp [appendValues]
  | cons v vs ih =>
    have hstep : appendValues sep false (v :: vs) f =
        appendValues sep false vs (f ++ Fragment.literal sep h ++ Fragment.hole v) := by
      simp [appendValues, Fragment.literal?, h]
    obtain ⟨hnone, hfilled⟩ := ih (f ++ Fragment.literal sep h ++ Fragment.hole v)
    refine ⟨hstep ▸ hnone, ?_⟩
    rw [hstep, hfilled]
    simp [Fragment.filled_literal]

theorem snd_apply (f : Fragment) (x : Step) : (x.apply f).2 = x.error? := by
  cases x with
  | text t =>
    by_cases h : '?' ∈ t
    · simp [apply, error?, Fragment.literal?, h]
    · simp [apply, error?, Fragment.literal?, h]
  | value v => rfl
  | fragment g => rfl
  | values vs sep =>
    cases vs with
    | nil => rfl
    | cons v vs =>
      cases vs with
      | nil => rfl
      | cons w vs =>
        by_cases h : '?' ∈ sep
        · simp [apply, appendValues, error?, Fragment.literal?, h]
        · have hnone := (appendValues_clean h (w :: vs) (f ++ Fragment.hole v)).1
          simpa [apply, appendValues, error?, h] using hnone

/-- A step without an error adds what it writes. -/
theorem filled_apply (f : Fragment) {x : Step} (h : x.error? = none) :
    (x.apply f).1.filled = f.filled ++ x.written := by
  cases x with
  | text t =>
    have hclean : '?' ∉ t := by simpa [error?] using h
    simp [apply, Fragment.literal?, hclean, written, Fragment.filled_literal]
  | value v => exact Fragment.filled_append f (Fragment.hole v)
  | fragment g => exact Fragment.filled_append f g
  | values vs sep =>
    cases vs with
    | nil => simp [apply, appendValues, written]
    | cons v vs =>
      cases vs with
      | nil => simp [apply, appendValues, written]
      | cons w vs =>
        have hclean : '?' ∉ sep := by simpa [error?] using h
        have hrest := (appendValues_clean hclean (w :: vs) (f ++ Fragment.hole v)).2
        have hstep : (Step.values (v :: w :: vs) sep).apply f =
            appendValues sep false (w :: vs) (f ++ Fragment.hole v) := rfl
        rw [hstep, hrest, written]
        simp [Condition.intercalate_cons]

/-- Separators bind nothing. -/
theorem values_separated (sep : Text) (vs : List Json) :
    ((vs.map fun v => [Sum.inr v]).flatMap (verbatim sep ++ ·)).filterMap Sum.getRight? = vs := by
  induction vs with
  | nil => rfl
  | cons v vs ih =>
    rw [List.map_cons, List.flatMap_cons, List.filterMap_append, ih]
    simp

theorem values_written (x : Step) : x.written.filterMap Sum.getRight? = x.boundValues := by
  cases x with
  | text t => exact Fragment.filterMap_verbatim t
  | value v => rfl
  | fragment f => exact f.values_eq_filterMap.symm
  | values vs sep =>
    cases vs with
    | nil => rfl
    | cons v vs =>
      rw [written, List.map_cons, Condition.intercalate_cons, List.filterMap_append,
        values_separated]
      rfl

end Step

/-! ### Runs -/

/-- Cut at every value: the text before the first one, and the texts behind them. -/
def cutAtValues : Filled → Text × List Text
  | [] => ([], [])
  | .inl c :: rest => (c :: (cutAtValues rest).1, (cutAtValues rest).2)
  | .inr _ :: rest => ([], (cutAtValues rest).1 :: (cutAtValues rest).2)

/-- The texts between values; one more than there are values. -/
def segments (w : Filled) : List Text :=
  (cutAtValues w).1 :: (cutAtValues w).2

theorem cutAtValues_verbatim (t : Text) (w : Filled) :
    cutAtValues (verbatim t ++ w) = (t ++ (cutAtValues w).1, (cutAtValues w).2) := by
  induction t with
  | nil => rfl
  | cons c t ih => rw [verbatim_cons, List.cons_append, cutAtValues, ih, List.cons_append]

/-- The segments of a fragment are what stands between its values. -/
theorem segments_filled (f : Fragment) : segments f.filled = f.parts := by
  have hholes : ∀ holes : List (Json × Text),
      cutAtValues (holes.flatMap fun h => .inr h.1 :: verbatim h.2) = ([], holes.map (·.2)) := by
    intro holes
    induction holes with
    | nil => rfl
    | cons h holes ih =>
      rw [List.flatMap_cons, List.cons_append, cutAtValues, cutAtValues_verbatim, ih,
        List.append_nil, List.map_cons]
  rw [segments, Fragment.filled, cutAtValues_verbatim, hholes, List.append_nil, Fragment.parts]

namespace Step

/-- The errors of a run are those of its steps. -/
theorem snd_run (f : Fragment) (xs : List Step) :
    (run apply f xs).2 = xs.filterMap error? := by
  induction xs generalizing f with
  | nil => rfl
  | cons x xs ih =>
    rw [run, ih, snd_apply, List.filterMap_cons]
    cases x.error? with
    | none => rfl
    | some e => rfl

/-- A run without errors writes what its steps write, one after another. -/
theorem filled_run (f : Fragment) {xs : List Step} (h : xs.filterMap error? = []) :
    (run apply f xs).1.filled = f.filled ++ xs.flatMap written := by
  induction xs generalizing f with
  | nil => simp [run]
  | cons x xs ih =>
    rw [List.filterMap_eq_nil_iff, List.forall_mem_cons, ← List.filterMap_eq_nil_iff] at h
    rw [run, ih _ h.2, filled_apply f h.1, List.flatMap_cons, List.append_assoc]

/-- **Builders always hold a fragment.** Whatever steps are done, failing ones among them, the
segments and the values that a builder keeps side by side make a fragment in the end. If no step
fails, that fragment has the values of the steps in order and one segment more, no segment holds a
hole mark, and the segments are the expansions of what the steps write between the values. -/
theorem building_never_fails (xs : List Step) :
    let lists := run Sheet.apply Sheet.blank xs
    let built := run apply Fragment.empty xs
    lists = (Sheet.of built.1, built.2) ∧ lists.1.finish = .ok (build built.1) ∧
      built.2 = xs.filterMap error? ∧
      (built.2 = [] →
        (build built.1).values = xs.flatMap boundValues ∧
        (build built.1).parts.length = (build built.1).values.length + 1 ∧
        (∀ p ∈ (build built.1).parts, holeMark ∉ p) ∧
        (build built.1).parts = (segments (xs.flatMap written)).map expand) := by
  intro lists built
  have hlists : lists = (Sheet.of built.1, built.2) := Sheet.run_of Fragment.empty xs
  refine ⟨hlists, ?_, snd_run Fragment.empty xs, ?_⟩
  · rw [hlists]
    exact Fragment.ofSource_parts built.1
  · intro hnone
    have hwritten : built.1.filled = xs.flatMap written :=
      filled_run Fragment.empty (snd_run Fragment.empty xs ▸ hnone)
    refine ⟨?_, Fragment.length_parts _, fun p hp => Fragment.part_clean hp, ?_⟩
    · rw [build, Fragment.values_expanded, Fragment.values_eq_filterMap, hwritten,
        List.filterMap_flatMap]
      exact List.flatMap_congr fun x _ => values_written x
    · rw [build, Fragment.parts_expanded, ← segments_filled, hwritten]

/-- Text, values with commas between them, and a fragment whose first segment goes on with the
text before it. -/
theorem building_never_fails_embedded :
    let other := Fragment.literal "b = ".toList (by decide) ++ Fragment.hole (.int 3)
    let xs := [.text "$a in (".toList, .values [.int 1, .int 2] defaultSeparator,
      .text ") and $".toList, .fragment other]
    let built := run apply Fragment.empty xs
    built.2 = [] ∧ (build built.1).values = [.int 1, .int 2, .int 3] ∧
      (build built.1).parts =
        ["data->>'$.a' in (".toList, ", ".toList, ") and data->>'$.b' = ".toList, []] := by
  intro other xs built
  obtain ⟨-, -, herrors, hall⟩ := building_never_fails xs
  have hnone : built.2 = [] := herrors
  obtain ⟨hvalues, -, -, hparts⟩ := hall hnone
  refine ⟨hnone, hvalues, hparts.trans ?_⟩
  decide +kernel

/-- A separator with a hole mark fails before the second value; the first one stays. -/
example : run apply Fragment.empty [.values [.int 1, .int 2] ['?'], .text ['a']] =
    (Fragment.hole (.int 1) ++ Fragment.literal ['a'] (by decide), [.textHole ['?']]) :=
  rfl

end Step

end DocTable.Sql
