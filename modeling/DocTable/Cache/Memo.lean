import DocTable.Cache.Basic
import DocTable.Cache.Key
import DocTable.Sql.Fragment
import DocTable.Sql.Schema
/-!
# DocTable.Cache.Memo

The text builders of the library behind one cache.

* A `Request` is a call of a builder on arguments of the right kinds; `Request.answer` is what it
  yields without any cache.
* `Memo.call` answers a request from the cache. Some builders ask others for parts of their text;
  these inner requests go through the cache too, under the key of a call by position.
-/

namespace DocTable

namespace Memo

/-- The functions that build texts. -/
inductive Builder where
  | expand
  | expandParts
  | createTable
  | expressionName
  | createIndex
  | insertInto
  deriving DecidableEq

/-- What a builder yields. -/
inductive Built where
  | text (t : Text)
  | texts (ts : List Text)

/-- A call of a builder. -/
inductive Request where
  | expand (expr : Text)
  | expandParts (parts : List Text)
  | createTable (name storage : Text)
  | expressionName (expr : Text)
  | createIndex (table expr : Text) (name : Option Text) (unique : Bool)
  | insertInto (table storage : Text)

namespace Built

/-- The text of an answer that is one text. -/
def single : Built → Text
  | .text t => t
  | .texts ts => ts.flatten

end Built

namespace Request

/-- The builder that a request calls. -/
def builder : Request → Builder
  | .expand _ => .expand
  | .expandParts _ => .expandParts
  | .createTable .. => .createTable
  | .expressionName _ => .expressionName
  | .createIndex .. => .createIndex
  | .insertInto .. => .insertInto

/-- What a request yields. -/
def answer : Request → Except Sql.QueryError Built
  | .expand expr => .ok (.text (Sql.expand expr))
  | .expandParts parts => .ok (.texts (parts.map Sql.expand))
  | .createTable name storage => do
    return .text (Sql.createTable name (← Sql.Storage.ofName storage))
  | .expressionName expr => .ok (.text (Sql.expressionName expr))
  | .createIndex table expr name unique => .ok (.text (Sql.createIndex table expr name unique))
  | .insertInto table storage => do
    return .text (Sql.insertInto table (← Sql.Storage.ofName storage))

/-! ### Reading a request from arguments -/

/-- The names of a builder's parameters, and how many of them may be given by position. -/
def parameters : Builder → List Text × Nat
  | .expand => (["expr".toList], 1)
  | .expandParts => (["parts".toList], 1)
  | .createTable => (["name".toList, "encoding".toList], 2)
  | .expressionName => (["expr".toList], 1)
  | .createIndex => (["table".toList, "expr".toList, "name".toList, "unique".toList], 2)
  | .insertInto => (["table".toList, "encoding".toList], 2)

/-- The arguments under the names of their parameters; none if one is given twice or has no
parameter. -/
def bind? (b : Builder) (positional : List Json) (named : Members) : Option Members :=
  let (names, count) := parameters b
  let byPosition := (names.take count).zip positional
  if positional.length ≤ count
      && named.all (fun m => names.contains m.1 && (Members.get? m.1 byPosition).isNone) then
    some (byPosition ++ named)
  else none

/-- An argument that has to be a text. -/
def text? (bound : Members) (name : String) : Option Text := do
  (← Members.get? name.toList bound).text?

/-- The storage name among the arguments; the binary form unless one is given. -/
def storage? (bound : Members) : Option Text :=
  match Members.get? "encoding".toList bound with
  | none => some "jsonb".toList
  | some v => v.text?

/-- The name of an index among the arguments, if one is given. -/
def indexName? (bound : Members) : Option (Option Text) :=
  match Members.get? "name".toList bound with
  | none | some .null => some none
  | some v => v.text?.map some

/-- The request that arguments of the right kinds make under the names of their parameters. -/
def ofBound? (b : Builder) (bound : Members) : Option Request := do
  match b with
  | .expand => return .expand (← text? bound "expr")
  | .expressionName => return .expressionName (← text? bound "expr")
  | .expandParts =>
    match ← Members.get? "parts".toList bound with
    | .array items => return .expandParts (← items.mapM Json.text?)
    | _ => none
  | .createTable => return .createTable (← text? bound "name") (← storage? bound)
  | .insertInto => return .insertInto (← text? bound "table") (← storage? bound)
  | .createIndex =>
    let unique := (Members.get? "unique".toList bound).any Json.given
    return .createIndex (← text? bound "table") (← text? bound "expr") (← indexName? bound) unique

/-- The request that arguments of the right kinds make. -/
def ofArguments? (b : Builder) (positional : List Json) (named : Members) : Option Request := do
  ofBound? b (← bind? b positional named)

end Request

end Memo

/-- The cache of all builders. -/
abbrev Memo := Cache (Memo.Builder × Text) Memo.Built

/-- A computation that uses the cache of the builders. -/
abbrev MemoM := ExceptT Sql.QueryError (StateM Memo)

namespace Memo

/-- The key of a call by position with text arguments. -/
def positionalKey (args : List Json) : Text :=
  Cache.canonicalKey (args.map .json) []

/-- Answer from the cache, or compute and store. -/
def remember (builder : Builder) (key : Text) (compute : MemoM Built) : MemoM Built := do
  match (← get).find? (builder, key) with
  | some v =>
    modify Cache.hit
    return v
  | none =>
    let v ← compute
    modifyGet fun memo => memo.settle (builder, key) v

/-- Expand a text through the cache. -/
def expand (t : Text) : MemoM Text := do
  let key := positionalKey [.text t]
  return (← remember .expand key (pure (.text (Sql.expand t)))).single

/-- The name of an expression, through the cache. -/
def expressionName (expr : Text) : MemoM Text := do
  let key := positionalKey [.text expr]
  return (← remember .expressionName key (pure (.text (Sql.expressionName expr)))).single

/-- Compute what a request yields; inner requests go through the cache. -/
def compute : Request → MemoM Built
  | .expandParts parts => do return .texts (← parts.mapM expand)
  | .createIndex table expr name unique => do
    match name with
    | some (c :: cs) => return .text (Sql.createNamedIndex table expr (c :: cs) unique)
    | _ =>
      let derived := table ++ '_' :: (← expressionName expr)
      return .text (Sql.createNamedIndex table expr derived unique)
  | request => liftExcept request.answer
where
  /-- An answer that needs no cache. -/
  liftExcept {α : Type} (answer : Except Sql.QueryError α) : MemoM α :=
    ExceptT.mk (pure answer)

/-- Answer a request whose arguments have a key. -/
def call (key : Text) (request : Request) : MemoM Built :=
  remember request.builder key (compute request)

/-- Call a builder with arguments of any kind; nothing if they are not of the right kinds. -/
def invoke? (builder : Builder) (positional : List Json) (named : Members) :
    Option (MemoM Built) := do
  let request ← Request.ofArguments? builder positional named
  let key := Cache.canonicalKey (positional.map .json) (named.map fun m => (m.1, .json m.2))
  return call key request

/-- A fragment from segments in the shorthand and their values, expanded through the cache. -/
def ofSource (parts : List Text) (values : List Json) : MemoM Sql.Fragment := do
  let key := positionalKey [.array (parts.map .text)]
  let expanded := match ← call key (.expandParts parts) with
    | .texts ts => ts
    | .text t => [t]
  compute.liftExcept ((Sql.Fragment.ofParts expanded values).mapError .composition)

end Memo

end DocTable
