import DocTable.Bytes.Decoding
import DocTable.Json.Reader
import DocTable.Json.Writer
/-!
# DocTable.Document

Documents: their ids, merge patches, and their text in storage.

* An id that is null, false, zero or empty counts as missing.
* An object merges into an object member by member: null removes a member, an object merges into the
  member that is there, and anything else replaces it. A patch that is no object is the result.
* Documents are stored as JSON text without blanks. Numbers that are not finite can be read, but are
  not stored; a whole number with too many digits is neither read nor stored.
-/

namespace DocTable.Document

/-! ### Ids -/

/-- The key of a document's id. -/
def idKey : Text := "id".toList

/-- Whether a document has an id. -/
def hasId (doc : Members) : Bool :=
  (Members.get? idKey doc).any Json.given

/-- The document with an id: its own, or else a fresh one. -/
def identify (fresh : Text) (doc : Members) : Members :=
  if hasId doc then doc else Members.put idKey (.text fresh) doc

/-! ### Merge patches -/

mutual

/-- The target with a patch merged into it; a target that is no object counts as an empty one. -/
def mergePatch (target : Json) : (patch : Json) → Json
  | .object ms => .object (mergeMembers (target.members?.getD []) ms)
  | patch => patch

/-- The members of a target with the members of a patch merged into them, from left to right. -/
def mergeMembers (target : Members) : (patch : List (Text × Json)) → Members
  | [] => target
  | (key, .null) :: ms => mergeMembers (Members.erase key target) ms
  | (key, v) :: ms =>
    mergeMembers (Members.put key (mergePatch ((Members.get? key target).getD .null) v) target) ms

end

/-! ### Storage -/

/-- The stored text of a document. -/
def encode (doc : Json) : Except Json.WriteError Text :=
  doc.writeChecked true .compact

/-- The stored text of a document, if it has one. -/
def encode? (doc : Json) : Option Text :=
  (encode doc).toOption

/-- The wording of a refusal to store a number that is not finite. -/
def notFiniteMessage : Text :=
  "Out of range float values are not JSON compliant".toList

/-- Why bytes are no document. -/
inductive BytesError where
  | decoding (e : Bytes.DecodingError)
  | reading (e : Json.ReadError)

/-- The document that stored bytes are written for. -/
def ofBytes (bytes : List UInt8) : Except BytesError Json := do
  let t ← (Bytes.jsonText bytes).mapError .decoding
  (Json.readDecoded t).mapError .reading

end DocTable.Document
