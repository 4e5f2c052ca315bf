import DocTable.Yaml.Lexer
/-!
# DocTable.Yaml.Node

The tree of a YAML document: scalars, sequences and mappings with the tags they are written with.

Aliases are replaced by the nodes they stand for. A node that holds an alias to itself has no
finite tree; there the tree ends with a `cycle`.
-/

namespace DocTable.Yaml

/-- A node of a document; a node without a tag has the lone mark as none. -/
inductive Node where
  /-- A scalar, and whether its type may be told from its text. -/
  | scalar (tag : Option Text) (t : Text) (implicit : Bool)
  | sequence (tag : Option Text) (items : List Node)
  | mapping (tag : Option Text) (entries : List (Node × Node))
  /-- An alias to a collection inside itself. -/
  | cycle (mapping : Bool)

instance : Inhabited Node := ⟨.scalar none [] true⟩

namespace Node

/-- What is known while a document is read: the tokens that are left, the meaning of the tag
handles, and the anchored nodes. -/
structure Reader where
  tokens : List Token
  handles : List (Text × Text)
  anchors : List (Text × Node)

/-- A reader of nodes. -/
abbrev ReadM := StateT Reader (Except Error)

/-- The text is malformed. -/
def malformed {α : Type} : ReadM α := throw .malformed

/-- The next token. -/
def peek : ReadM (Option Token) := do return (← get).tokens.head?

/-- Go to the token after the next. -/
def advance : ReadM Unit := modify fun r => { r with tokens := r.tokens.tail }

/-- Go on if the next token satisfies a test. -/
def expect (test : Token → Bool) : ReadM Unit := do
  match ← peek with
  | some t => if test t then advance else malformed
  | none => malformed

/-- A node without text. -/
def empty : Node := .scalar none [] true

/-- The handles that always have a meaning. -/
def defaultHandles : List (Text × Text) :=
  [(['!'], ['!']), (['!', '!'], "tag:yaml.org,2002:".toList)]

/-- The full text of a tag. -/
def fullTag (handle : Option Text) (suffix : Text) : ReadM Text := do
  match handle with
  | none => return suffix
  | some name =>
    match (← get).handles.find? (·.1 == name) with
    | some (_, start) => return start ++ suffix
    | none => malformed

/-- Read an anchor, if one is next; an anchor may be given only once. -/
def anchor? : ReadM (Option Text) := do
  match ← peek with
  | some (.anchor name) =>
    advance
    return some name
  | _ => return none

/-- Read a tag, if one is next. -/
def tag? : ReadM (Option Text) := do
  match ← peek with
  | some (.tag handle suffix) =>
    advance
    return some (← fullTag handle suffix)
  | _ => return none

/-- Read the anchor and the tag of a node, in either order. -/
def properties : ReadM (Option Text × Option Text) := do
  match ← anchor? with
  | some name => return (some name, ← tag?)
  | none =>
    let tag ← tag?
    return (← anchor?, tag)

/-- Give an anchor its node. -/
def setAnchor (name : Option Text) (node : Node) : ReadM Unit :=
  match name with
  | none => pure ()
  | some name => modify fun r =>
    { r with anchors := (name, node) :: r.anchors.filter (·.1 != name) }

/-- A tag that tells something. -/
def tellingTag (tag : Option Text) : Option Text :=
  if tag = some ['!'] then none else tag

/-- Whether the next token is one of those that end an empty node in a block collection. -/
def atBlockStop (stops : Token → Bool) : ReadM Bool := do
  return (← peek).any stops

/-- Tokens before which an entry of a block sequence is empty. -/
def endsBlockEntry : Token → Bool
  | .blockEntry | .blockEnd => true
  | _ => false

/-- Tokens before which an entry of a sequence without indentation is empty. -/
def endsIndentlessEntry : Token → Bool
  | .blockEntry | .key | .value | .blockEnd => true
  | _ => false

/-- Tokens before which a key or value of a block mapping is empty. -/
def endsBlockPart : Token → Bool
  | .key | .value | .blockEnd => true
  | _ => false

/-- Tokens before which a key in a flow sequence is empty. -/
def endsFlowKey : Token → Bool
  | .value | .flowEntry | .flowSequenceEnd => true
  | _ => false

/-- Tokens before which a value in a flow sequence is empty. -/
def endsFlowValue : Token → Bool
  | .flowEntry | .flowSequenceEnd => true
  | _ => false

/-- Tokens before which a key in a flow mapping is empty. -/
def endsFlowMappingKey : Token → Bool
  | .value | .flowEntry | .flowMappingEnd => true
  | _ => false

/-- Tokens before which a value in a flow mapping is empty. -/
def endsFlowMappingValue : Token → Bool
  | .flowEntry | .flowMappingEnd => true
  | _ => false

/-- Whether the next token is a block entry. -/
def isBlockEntry : Token → Bool
  | .blockEntry => true
  | _ => false

/-- Whether the next token introduces a value. -/
def isValue : Token → Bool
  | .value => true
  | _ => false

mutual

/-- Read a node. Block collections are read where `block` holds, and a sequence without
indentation where `indentless` holds. -/
def node (block indentless : Bool) : (fuel : Nat) → ReadM Node
  | 0 => malformed
  | fuel + 1 => do
    match ← peek with
    | some (.alias name) =>
      advance
      match (← get).anchors.find? (·.1 == name) with
      | some (_, n) => return n
      | none => malformed
    | _ =>
      let (anchor, tag) ← properties
      if let some name := anchor then
        if (← get).anchors.any (·.1 == name) then malformed
      let finish (n : Node) : ReadM Node := do
        setAnchor anchor n
        return n
      match ← peek with
      | some (.scalar t plain) =>
        advance
        finish (.scalar (tellingTag tag) t (tag = some ['!'] || (plain && tag.isNone)))
      | some .flowSequenceStart =>
        advance
        setAnchor anchor (.cycle false)
        finish (.sequence (tellingTag tag) (← flowItems true fuel))
      | some .flowMappingStart =>
        advance
        setAnchor anchor (.cycle true)
        finish (.mapping (tellingTag tag) (← flowEntries true fuel))
      | some .blockSequenceStart =>
        if !block then malformed
        advance
        setAnchor anchor (.cycle false)
        finish (.sequence (tellingTag tag) (← blockItems fuel))
      | some .blockMappingStart =>
        if !block then malformed
        advance
        setAnchor anchor (.cycle true)
        finish (.mapping (tellingTag tag) (← blockEntries fuel))
      | next =>
        if indentless && next.any isBlockEntry then
          setAnchor anchor (.cycle false)
          finish (.sequence (tellingTag tag) (← indentlessItems fuel))
        else if anchor.isSome || tag.isSome then
          finish (.scalar (tellingTag tag) [] (tellingTag tag).isNone)
        else malformed

/-- Read the entries of a block sequence through its end. -/
def blockItems : (fuel : Nat) → ReadM (List Node)
  | 0 => malformed
  | fuel + 1 => do
    match ← peek with
    | some .blockEntry =>
      advance
      let item ← if ← atBlockStop endsBlockEntry then pure empty else node true false fuel
      return item :: (← blockItems fuel)
    | some .blockEnd =>
      advance
      return []
    | _ => malformed

/-- Read the entries of a sequence without indentation; it ends where no entry follows. -/
def indentlessItems : (fuel : Nat) → ReadM (List Node)
  | 0 => malformed
  | fuel + 1 => do
    match ← peek with
    | some .blockEntry =>
      advance
      let item ← if ← atBlockStop endsIndentlessEntry then pure empty else node true false fuel
      return item :: (← indentlessItems fuel)
    | _ => return []

/-- Read the entries of a block mapping through its end. -/
def blockEntries : (fuel : Nat) → ReadM (List (Node × Node))
  | 0 => malformed
  | fuel + 1 => do
    match ← peek with
    | some .key =>
      advance
      let key ← if ← atBlockStop endsBlockPart then pure empty else node true true fuel
      let value ← blockValue fuel
      return (key, value) :: (← blockEntries fuel)
    | some .blockEnd =>
      advance
      return []
    | _ => malformed

/-- Read the value of a block mapping's key, which may be missing. -/
def blockValue : (fuel : Nat) → ReadM Node
  | 0 => malformed
  | fuel + 1 => do
    if (← peek).any isValue then
      advance
      if ← atBlockStop endsBlockPart then return empty
      node true true fuel
    else return empty

/-- Read the items of a flow sequence through its end. -/
def flowItems (first : Bool) : (fuel : Nat) → ReadM (List Node)
  | 0 => malformed
  | fuel + 1 => do
    match ← peek with
    | some .flowSequenceEnd =>
      advance
      return []
    | _ =>
      if !first then expect fun t => t matches .flowEntry
      match ← peek with
      | some .flowSequenceEnd =>
        advance
        return []
      | some .key =>
        advance
        let key ← if ← atBlockStop endsFlowKey then pure empty else node false false fuel
        let value ← flowValue endsFlowValue fuel
        return .mapping none [(key, value)] :: (← flowItems false fuel)
      | _ =>
        let item ← node false false fuel
        return item :: (← flowItems false fuel)

/-- Read the value of a key in a flow collection, which may be missing. -/
def flowValue (stops : Token → Bool) : (fuel : Nat) → ReadM Node
  | 0 => malformed
  | fuel + 1 => do
    if (← peek).any isValue then
      advance
      if ← atBlockStop stops then return empty
      node false false fuel
    else return empty

/-- Read the entries of a flow mapping through its end. -/
def flowEntries (first : Bool) : (fuel : Nat) → ReadM (List (Node × Node))
  | 0 => malformed
  | fuel + 1 => do
    match ← peek with
    | some .flowMappingEnd =>
      advance
      return []
    | _ =>
      if !first then expect fun t => t matches .flowEntry
      match ← peek with
      | some .flowMappingEnd =>
        advance
        return []
      | some .key =>
        advance
        let key ← if ← atBlockStop endsFlowMappingKey then pure empty else node false false fuel
        let value ← flowValue endsFlowMappingValue fuel
        return (key, value) :: (← flowEntries false fuel)
      | _ =>
        let key ← node false false fuel
        return (key, empty) :: (← flowEntries false fuel)

end

/-! ### Documents -/

/-- Read directives; `version` says that the version has been given. -/
def directives (version : Bool) (handles : List (Text × Text)) : (fuel : Nat) →
    ReadM (List (Text × Text))
  | 0 => malformed
  | fuel + 1 => do
    match ← peek with
    | some (.version major) =>
      if version || major != 1 then malformed
      advance
      directives true handles fuel
    | some (.handle name start) =>
      if handles.any (·.1 == name) then malformed
      advance
      directives version (handles ++ [(name, start)]) fuel
    | some .reserved =>
      advance
      directives version handles fuel
    | _ => return handles

/-- Whether a document has no content of its own. -/
def endsDocument (t : Token) : Bool :=
  t.isDirective || t matches .documentStart || t matches .documentEnd

/-- Skip the marks of ended documents. -/
def skipDocumentEnds : ReadM Unit :=
  modify fun r => { r with tokens := r.tokens.dropWhile fun t => t matches .documentEnd }

/-- Read the one document of a text; nothing if there is none. -/
def document : ReadM (Option Node) := do
  let fuel := 4 * (← get).tokens.length + 8
  match ← peek with
  | none => return none
  | some t =>
    let explicit := t.isDirective || t matches .documentStart
    if explicit then
      let handles ← directives false [] fuel
      modify fun r => { r with handles := handles ++ defaultHandles }
      expect fun t => t matches .documentStart
    let content ←
      if explicit && (← peek).all endsDocument then pure empty
      else node true false fuel
    skipDocumentEnds
    if (← peek).isSome then malformed
    return some content

/-- The document of a text; nothing if it holds none. -/
def ofText (t : Text) : Except Error (Option Node) := do
  let tokens ← Token.ofText t
  let (document, _) ← document.run ⟨tokens, defaultHandles, []⟩
  return document

end Node

end DocTable.Yaml
