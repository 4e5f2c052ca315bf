import DocTable.Yaml.Lexeme
/-!
# DocTable.Yaml.Lexer

YAML text as tokens.

* Indentation opens and closes block collections: `indents` holds the columns of those that are
  open, the innermost first.
* A key is recognised by the colon after it. Every token that may begin a key is remembered for
  its nesting level in `candidates`, with its number among the tokens; when the colon comes, the
  key token is put in front of it. A candidate expires at the end of its line and after 1024
  characters; one that has to be a key, because it stands at the current indentation, may not
  expire.
-/

namespace DocTable.Yaml

/-- A token that may turn out to begin a key. -/
structure Candidate where
  /-- The nesting level of flow collections. -/
  level : Nat
  /-- How many tokens come before it. -/
  position : Nat
  /-- Whether nothing but a key may stand there. -/
  required : Bool
  index : Nat
  line : Nat
  column : Nat

/-- Where the lexer stands. -/
structure Lexer where
  cursor : Cursor
  /-- How many flow collections are open. -/
  flow : Nat
  /-- The columns of the open block collections, the innermost first. -/
  indents : List Nat
  /-- Whether a key may begin here. -/
  keyAllowed : Bool
  candidates : List Candidate
  tokens : List Token

namespace Lexer

/-- The column of the innermost block collection; below zero if there is none. -/
def indent (s : Lexer) : Int :=
  match s.indents with
  | [] => -1
  | column :: _ => column

/-- Add a token. -/
def emit (t : Token) (s : Lexer) : Lexer := { s with tokens := s.tokens ++ [t] }

/-- Go to a place. -/
def moveTo (c : Cursor) (s : Lexer) : Lexer := { s with cursor := c }

/-- Put tokens in front of the token at a position. -/
def insert (position : Nat) (ts : List Token) (s : Lexer) : Lexer :=
  { s with tokens := s.tokens.take position ++ ts ++ s.tokens.drop position }

/-- Close the block collections that are indented deeper than a column. Inside flow collections
indentation has no meaning. -/
def unwind (column : Int) (s : Lexer) : Lexer :=
  if s.flow ≠ 0 then s
  else
    let kept := s.indents.dropWhile fun (i : Nat) => decide (column < (i : Int))
    let closed := s.indents.length - kept.length
    { s with indents := kept, tokens := s.tokens ++ List.replicate closed .blockEnd }

/-- Whether a column opens a new block collection, and the state in which it does. -/
def deepen (column : Nat) (s : Lexer) : Bool × Lexer :=
  if s.indent < column then (true, { s with indents := column :: s.indents }) else (false, s)

/-- Forget the candidate of the current level, which must not be a required one. -/
def dropCandidate (s : Lexer) : Except Error Lexer :=
  if s.candidates.any fun k => k.level == s.flow && k.required then .error .malformed
  else .ok { s with candidates := s.candidates.filter fun k => k.level != s.flow }

/-- Forget the candidates that have expired. -/
def expire (s : Lexer) : Except Error Lexer :=
  let expired (k : Candidate) : Bool :=
    k.line != s.cursor.line || 1024 < s.cursor.index - k.index
  if s.candidates.any fun k => expired k && k.required then .error .malformed
  else .ok { s with candidates := s.candidates.filter fun k => !expired k }

/-- Remember the next token as a candidate, where a key is allowed. -/
def saveCandidate (s : Lexer) : Except Error Lexer :=
  if !s.keyAllowed then .ok s
  else do
    let s ← s.dropCandidate
    let k : Candidate :=
      ⟨s.flow, s.tokens.length, s.flow = 0 && s.indent = s.cursor.column, s.cursor.index,
        s.cursor.line, s.cursor.column⟩
    return { s with candidates := k :: s.candidates }

/-- Go to the next token: over blanks, comments and line breaks. A key may begin on a new line,
unless it is inside a flow collection. -/
def skipGaps : (fuel : Nat) → Lexer → Lexer
  | 0, s => s
  | fuel + 1, s =>
    let c := s.cursor.skipWhile (· == ' ')
    let c := if c.peek 0 = some '#' then c.skipWhile (!isBreak ·) else c
    match c.lineBreak? with
    | some (_, c) =>
      skipGaps fuel { s with cursor := c, keyAllowed := s.keyAllowed || s.flow = 0 }
    | none => s.moveTo c

/-- A token that separates documents, or a directive: all block collections end. -/
def outside (t : Token) (c : Cursor) (s : Lexer) : Except Error Lexer := do
  let s ← (s.unwind (-1)).dropCandidate
  return { s.emit t with cursor := c, keyAllowed := false }

/-- The beginning of a flow collection. -/
def openFlow (t : Token) (s : Lexer) : Except Error Lexer := do
  let s ← s.saveCandidate
  return { s.emit t with cursor := s.cursor.next, flow := s.flow + 1, keyAllowed := true }

/-- The end of a flow collection; there has to be one. -/
def closeFlow (t : Token) (s : Lexer) : Except Error Lexer := do
  let s ← s.dropCandidate
  if s.flow = 0 then .error .malformed
  return { s.emit t with cursor := s.cursor.next, flow := s.flow - 1, keyAllowed := false }

/-- An indicator that may open a block collection at its column. -/
def blockIndicator (opening t : Token) (allowed : Bool) (s : Lexer) : Except Error Lexer := do
  let s ←
    if s.flow = 0 then
      if s.keyAllowed then
        let (opens, s) := s.deepen s.cursor.column
        pure (if opens then s.emit opening else s)
      else .error .malformed
    else pure s
  let s ← { s with keyAllowed := allowed }.dropCandidate
  return (s.emit t).moveTo s.cursor.next

/-- A comma inside a flow collection. -/
def flowEntry (s : Lexer) : Except Error Lexer := do
  let s ← { s with keyAllowed := true }.dropCandidate
  return (s.emit .flowEntry).moveTo s.cursor.next

/-- The colon after a key: after a candidate, it makes the candidate a key. -/
def colon (s : Lexer) : Except Error Lexer :=
  match s.candidates.find? fun k => k.level == s.flow with
  | some k =>
    let s := { s with candidates := s.candidates.filter fun k => k.level != s.flow }
    let (opens, s) := if s.flow = 0 then s.deepen k.column else (false, s)
    let s := s.insert k.position (if opens then [.blockMappingStart, .key] else [.key])
    .ok ({ s with keyAllowed := false }.emit .value |>.moveTo s.cursor.next)
  | none => s.blockIndicator .blockMappingStart .value (s.flow = 0)

/-- A token that may begin a key. -/
def content (read : Cursor → Except Error (Token × Cursor)) (s : Lexer) : Except Error Lexer := do
  let s ← s.saveCandidate
  let (t, c) ← read s.cursor
  return { s.emit t with cursor := c, keyAllowed := false }

/-- A plain scalar; if a line ended after it, a key may follow. -/
def plainScalar (s : Lexer) : Except Error Lexer := do
  let s ← s.saveCandidate
  let (t, lineEnded, c) := Lexeme.plain (s.flow ≠ 0) s.indent s.cursor
  return { s.emit (.scalar t true) with cursor := c, keyAllowed := lineEnded }

/-- A block scalar; a key may follow it. -/
def blockScalar (fold : Bool) (s : Lexer) : Except Error Lexer := do
  let s ← { s with keyAllowed := true }.dropCandidate
  let (t, c) ← Lexeme.block fold s.indent s.cursor
  return (s.emit (.scalar t false)).moveTo c

/-- Whether a plain scalar begins with a character, by the character after it. -/
def startsPlain (flow : Bool) (c : Char) (next : Option Char) : Bool :=
  !(isGap c || "-?:,[]\x7b\x7d#&*!|>'\"%@\x60".toList.contains c)
    || (!endOr isGap next && (c == '-' || (!flow && (c == '?' || c == ':'))))

/-- Read one token, whose first character is given. -/
def token (ch : Char) (s : Lexer) : Except Error Lexer :=
  let c := s.cursor
  let gapAfter := endOr isGap (c.peek 1)
  let inFlow := s.flow ≠ 0
  if ch = '%' && c.column = 0 then do
    let (t, after) ← Lexeme.directive c
    s.outside t after
  else if ch = '-' && c.column = 0 && c.atDocumentMark then s.outside .documentStart (c.skip 3)
  else if ch = '.' && c.column = 0 && c.atDocumentMark then s.outside .documentEnd (c.skip 3)
  else if ch = '[' then s.openFlow .flowSequenceStart
  else if ch = '{' then s.openFlow .flowMappingStart
  else if ch = ']' then s.closeFlow .flowSequenceEnd
  else if ch = '}' then s.closeFlow .flowMappingEnd
  else if ch = ',' then s.flowEntry
  else if ch = '-' && gapAfter then s.blockIndicator .blockSequenceStart .blockEntry true
  else if ch = '?' && (inFlow || gapAfter) then
    s.blockIndicator .blockMappingStart .key (!inFlow)
  else if ch = ':' && (inFlow || gapAfter) then s.colon
  else if ch = '*' then
    s.content fun c => do let (t, c) ← Lexeme.reference c; return (.alias t, c)
  else if ch = '&' then
    s.content fun c => do let (t, c) ← Lexeme.reference c; return (.anchor t, c)
  else if ch = '!' then s.content Lexeme.tag
  else if ch = '|' && !inFlow then s.blockScalar false
  else if ch = '>' && !inFlow then s.blockScalar true
  else if ch = '\'' then
    s.content fun c => do let (t, c) ← Lexeme.quoted false c; return (.scalar t false, c)
  else if ch = '"' then
    s.content fun c => do let (t, c) ← Lexeme.quoted true c; return (.scalar t false, c)
  else if startsPlain inFlow ch (c.peek 1) then s.plainScalar
  else .error .malformed

/-- Read tokens to the end of the text. Every token takes a character, so the length of the text
is fuel enough. -/
def run : (fuel : Nat) → Lexer → Except Error (List Token)
  | 0, _ => .error .malformed
  | fuel + 1, s => do
    let s ← (s.skipGaps (s.cursor.rest.length + 1)).expire
    match s.cursor.rest with
    | [] =>
      let s ← (s.unwind (-1)).dropCandidate
      return s.tokens
    | ch :: _ =>
      let s ← (s.unwind s.cursor.column).token ch
      run fuel s

/-- The start of a text; a byte order mark is skipped. -/
def start (t : Text) : Lexer :=
  let c := Cursor.start t
  ⟨if t.head? = some '\ufeff' then c.next else c, 0, [], true, [], []⟩

end Lexer

/-- The tokens of a text, which may only hold allowed characters. -/
def Token.ofText (t : Text) : Except Error (List Token) :=
  if t.all isAllowed then (Lexer.start t).run (t.length + 2) else .error .malformed

end DocTable.Yaml
