import DocTable.Json.Value
/-!
# DocTable.Json.Bitwise

Conjunction, disjunction and complement of plain values: bit by bit on whole numbers in two's
complement, with truth values as one and zero, and as a union on objects.
-/

namespace DocTable

namespace Bitwise

/-- Bits that both numbers have. -/
def and : Int → Int → Int
  | .ofNat m, .ofNat n => (m &&& n : Nat)
  | .ofNat m, .negSucc n => (m - (m &&& n) : Nat)
  | .negSucc m, .ofNat n => (n - (m &&& n) : Nat)
  | .negSucc m, .negSucc n => .negSucc (m ||| n)

/-- Bits that one of the numbers has. -/
def or : Int → Int → Int
  | .ofNat m, .ofNat n => (m ||| n : Nat)
  | .ofNat m, .negSucc n => .negSucc (n - (m &&& n))
  | .negSucc m, .ofNat n => .negSucc (m - (m &&& n))
  | .negSucc m, .negSucc n => .negSucc (m &&& n)

/-- Bits that the number does not have. -/
def complement (n : Int) : Int := -n - 1

end Bitwise

namespace Json

/-- The whole number that a truth value or a whole number is. -/
def bits? : Json → Option Int
  | .bool b => some (if b then 1 else 0)
  | .int n => some n
  | _ => none

/-- Conjunction of two values, where it has a meaning. -/
def and? : Json → Json → Option Json
  | .bool a, .bool b => some (.bool (a && b))
  | a, b => do return .int (Bitwise.and (← bits? a) (← bits? b))

/-- Disjunction of two values, where it has a meaning; of two objects the second one wins. -/
def or? : Json → Json → Option Json
  | .bool a, .bool b => some (.bool (a || b))
  | .object a, .object b => some (.object (b.foldl (fun done m => Members.put m.1 m.2 done) a))
  | a, b => do return .int (Bitwise.or (← bits? a) (← bits? b))

/-- Complement of a value, where it has a meaning. -/
def not? (v : Json) : Option Json :=
  (bits? v).map fun n => .int (Bitwise.complement n)

/-- The items of a value that has items: characters, members' keys or the items of an array. -/
def items? : Json → Option (List Json)
  | .text t => some (t.map fun c => .text [c])
  | .array items => some items
  | .object members => some (members.map fun m => .text m.1)
  | _ => none

end Json

end DocTable
