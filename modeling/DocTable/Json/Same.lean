import DocTable.Json.Value
/-!
# DocTable.Json.Same

Equality of values as the program compares them: numbers by their worth whatever their kind
(truth values count as one and zero), objects without regard to the order of their members.
-/

namespace DocTable.Json

/-- The worth of a number. -/
inductive Worth where
  | whole (n : Int)
  | other (x : Binary64)

/-- The worth of a numeric value; floating-point numbers without a fraction are whole. -/
def worth? : Json → Option Worth
  | .bool b => some (.whole (if b then 1 else 0))
  | .int n => some (.whole n)
  | .float x => some (match x.toInt? with | some n => .whole n | none => .other x)
  | _ => none

/-- Equality of numbers. -/
def sameWorth : Worth → Worth → Bool
  | .whole m, .whole n => m == n
  | .other x, .other y => x.same y
  | _, _ => false

mutual

/-- Whether two values are equal as the program compares them. -/
def same : Json → Json → Bool
  | .null, .null => true
  | .text a, .text b => a == b
  | .array xs, .array ys => sameItems xs ys
  | .object ms, .object ns => ms.length == ns.length && sameMembers ms ns
  | a, b =>
    match worth? a, worth? b with
    | some m, some n => sameWorth m n
    | _, _ => false

/-- `same` item by item. -/
def sameItems : List Json → List Json → Bool
  | [], [] => true
  | x :: xs, y :: ys => same x y && sameItems xs ys
  | _, _ => false

/-- Whether the second object has an equal member for each of the first. -/
def sameMembers : List (Text × Json) → Members → Bool
  | [], _ => true
  | (k, v) :: ms, ns =>
    (match Members.get? k ns with
      | some w => same v w
      | none => false) && sameMembers ms ns

end

end DocTable.Json
