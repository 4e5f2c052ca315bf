import DocTable.Bytes.Decoding
import DocTable.Yaml.Cursor
import DocTable.Yaml.Error
import DocTable.Yaml.Token
/-!
# DocTable.Yaml.Lexeme

The parts of a YAML text whose form does not depend on what surrounds them, apart from the
current indentation: directives, names, tags and scalars. Each reader starts at a place and
answers what it read with the place behind it.
-/

namespace DocTable.Yaml.Lexeme

/-- The text is malformed. -/
def malformed {α : Type} : Except Error α := .error .malformed

/-- Go on only if a condition holds. -/
def require (ok : Bool) : Except Error Unit :=
  if ok then .ok () else malformed

/-- A character of names. -/
def isNameChar (c : Char) : Bool :=
  Text.isLetter c || Text.isDigit c || c == '-' || c == '_'

/-- A name of at least one character. -/
def name (c : Cursor) : Except Error (Text × Cursor) := do
  let (t, c) := c.run isNameChar
  require (!t.isEmpty)
  return (t, c)

/-- A number in decimal digits. -/
def number (c : Cursor) : Except Error (Nat × Cursor) := do
  let (t, c) := c.run Text.isDigit
  require (!t.isEmpty)
  return (Decimal.value t, c)

/-! ### Tags and directives -/

/-- A character of tags. -/
def isTagChar (c : Char) : Bool :=
  Text.isLetter c || Text.isDigit c || "-;/?:@&=+$,_.!~*'()[]%".toList.contains c

/-- The bytes of escapes in a tag. -/
def escapedBytes : Text → Except Error (List UInt8 × Text)
  | '%' :: a :: b :: rest => do
    match Text.ofHexadecimal? [a, b] with
    | none => malformed
    | some n =>
      let (bytes, rest) ← escapedBytes rest
      return (n.toUInt8 :: bytes, rest)
  | '%' :: _ => malformed
  | rest => .ok ([], rest)

/-- Resolve the escapes of a tag; a run of escaped bytes is UTF-8. -/
def unescapeTag : (fuel : Nat) → Text → Except Error Text
  | 0, _ => malformed
  | _, [] => .ok []
  | fuel + 1, c :: rest => do
    if c = '%' then
      let (bytes, after) ← escapedBytes (c :: rest)
      match Bytes.decode .utf8 0 bytes with
      | .error _ => malformed
      | .ok t => return t ++ (← unescapeTag fuel after)
    else return c :: (← unescapeTag fuel rest)

/-- The text of a tag. -/
def tagText (c : Cursor) : Except Error (Text × Cursor) := do
  let (t, c) := c.run isTagChar
  require (!t.isEmpty)
  return (← unescapeTag (t.length + 1) t, c)

/-- A tag handle: exclamation marks with an optional name between them. -/
def tagHandle (c : Cursor) : Except Error (Text × Cursor) := do
  require (c.peek 0 == some '!')
  if c.peek 1 = some ' ' then return (['!'], c.next)
  let (t, after) := c.next.run isNameChar
  require (after.peek 0 == some '!')
  return ('!' :: t ++ ['!'], after.next)

/-- A tag: written out between angle brackets, a lone mark, or a handle with a suffix. -/
def tag (c : Cursor) : Except Error (Token × Cursor) := do
  let (token, c) ←
    if c.peek 1 = some '<' then do
      let (suffix, c) ← tagText (c.skip 2)
      require (c.peek 0 == some '>')
      pure (Token.tag none suffix, c.next)
    else if endOr isGap (c.peek 1) then pure (Token.tag none ['!'], c.next)
    else do
      let word := (c.rest.drop 1).takeWhile fun ch => ch != ' ' && !isBreak ch
      let (handle, c) ← if word.contains '!' then tagHandle c else pure (['!'], c.next)
      let (suffix, c) ← tagText c
      pure (Token.tag (some handle) suffix, c)
  require (endOr (fun ch => ch == ' ' || isBreak ch) (c.peek 0))
  return (token, c)

/-- Whether a place is at the end of a word inside a directive. -/
def atWordEnd (c : Cursor) : Bool :=
  endOr (fun ch => ch == ' ' || isBreak ch) (c.peek 0)

/-- A directive; the place is at its percent sign. -/
def directive (c : Cursor) : Except Error (Token × Cursor) := do
  let (kind, c) ← name c.next
  require (atWordEnd c)
  let (token, c) ←
    if kind = "YAML".toList then do
      let (major, c) ← number (c.skipWhile (· == ' '))
      require (c.peek 0 == some '.')
      let (_, c) ← number c.next
      require (atWordEnd c)
      pure (Token.version major, c)
    else if kind = "TAG".toList then do
      let (handle, c) ← tagHandle (c.skipWhile (· == ' '))
      require (c.peek 0 == some ' ')
      let (start, c) ← tagText (c.skipWhile (· == ' '))
      require (atWordEnd c)
      pure (Token.handle handle start, c)
    else pure (Token.reserved, c.skipWhile (!isBreak ·))
  match c.skipLineRest? with
  | some c => return (token, c)
  | none => malformed

/-- A character that may follow the name of an anchor or alias. -/
def mayFollow (c : Char) : Bool :=
  isGap c || "?:,]\x7d%@\x60".toList.contains c

/-- The name of an anchor or alias; the place is at its indicator. -/
def reference (c : Cursor) : Except Error (Text × Cursor) := do
  let (t, c) ← name c.next
  require (endOr mayFollow (c.peek 0))
  return (t, c)

/-! ### Quoted scalars -/

/-- The character of a short escape in double quotes. -/
def shortEscape? (c : Char) : Option Char :=
  match c with
  | '0' => some '\x00'
  | 'a' => some '\x07'
  | 'b' => some '\x08'
  | 't' => some '\t'
  | '\t' => some '\t'
  | 'n' => some '\n'
  | 'v' => some '\x0b'
  | 'f' => some '\x0c'
  | 'r' => some '\r'
  | 'e' => some '\x1b'
  | ' ' => some ' '
  | '"' => some '"'
  | '\\' => some '\\'
  | '/' => some '/'
  | 'N' => some '\x85'
  | '_' => some '\xa0'
  | 'L' => some '\u2028'
  | 'P' => some '\u2029'
  | _ => none

/-- The count of digits of an escape by code. -/
def codeLength? (c : Char) : Option Nat :=
  match c with
  | 'x' => some 2
  | 'u' => some 4
  | 'U' => some 8
  | _ => none

/-- The character with a code. -/
def codeChar (n : Nat) : Except Error Char :=
  if n < 0x110000 then .ok (Bytes.codeChar n)
  else if n < 0x80000000 then .error (.scalar .characterCode)
  else .error (.scalar .characterOverflow)

/-- The line breaks of the blank lines at a place, which may not be a document mark. -/
def blankLines : (fuel : Nat) → Cursor → Except Error (Text × Cursor)
  | 0, _ => malformed
  | fuel + 1, c => do
    require (!c.atDocumentMark)
    let c := c.skipWhile fun ch => ch == ' ' || ch == '\t'
    match c.lineBreak? with
    | none => return ([], c)
    | some (br, c) =>
      let (t, c) ← blankLines fuel c
      return (br :: t, c)

/-- Fold a line break and the blank lines after it: a lone line break becomes a blank. -/
def folded (br : Char) (blank : Text) : Text :=
  if br ≠ '\n' then br :: blank
  else if blank.isEmpty then [' ']
  else blank

/-- The rest of a quoted scalar. -/
def quotedRest (double : Bool) : (fuel : Nat) → Cursor → Except Error (Text × Cursor)
  | 0, _ => malformed
  | fuel + 1, c =>
    match c.rest with
    | [] => malformed
    | ch :: after =>
      if ch = ' ' || ch = '\t' || isBreak ch then do
        let (blanks, c) := c.run fun ch => ch == ' ' || ch == '\t'
        match c.lineBreak? with
        | none =>
          let (t, c) ← quotedRest double fuel c
          return (blanks ++ t, c)
        | some (br, c) =>
          let (blank, c) ← blankLines (c.rest.length + 1) c
          let (t, c) ← quotedRest double fuel c
          return (folded br blank ++ t, c)
      else if ch = (if double then '"' else '\'') then
        if !double && after.head? == some '\'' then do
          let (t, c) ← quotedRest double fuel (c.skip 2)
          return ('\'' :: t, c)
        else .ok ([], c.next)
      else if double && ch = '\\' then do
        let c := c.next
        match c.lineBreak? with
        | some (_, c) =>
          let (blank, c) ← blankLines (c.rest.length + 1) c
          let (t, c) ← quotedRest double fuel c
          return (blank ++ t, c)
        | none =>
          let e := after.headD ' '
          require (!after.isEmpty)
          match shortEscape? e with
          | some x =>
            let (t, c) ← quotedRest double fuel c.next
            return (x :: t, c)
          | none =>
            match codeLength? e with
            | none => malformed
            | some length =>
              let digits := (after.drop 1).take length
              require (digits.length == length)
              match Text.ofHexadecimal? digits with
              | none => malformed
              | some n =>
                let x ← codeChar n
                let (t, c) ← quotedRest double fuel (c.skip (length + 1))
                return (x :: t, c)
      else do
        let (t, c) ← quotedRest double fuel c.next
        return (ch :: t, c)

/-- A quoted scalar; the place is at its opening quote. -/
def quoted (double : Bool) (c : Cursor) : Except Error (Text × Cursor) :=
  quotedRest double (c.rest.length + 1) c.next

/-! ### Block scalars -/

/-- What happens to the line breaks at the end of a block scalar. -/
inductive Chomping where
  | strip
  | clip
  | keep

/-- The chomping that an indicator stands for. -/
def chomping? (c : Char) : Option Chomping :=
  if c = '+' then some .keep else if c = '-' then some .strip else none

/-- The indentation that an indicator stands for; zero is refused. -/
def increment? (c : Char) : Except Error (Option Nat) :=
  if c = '0' then malformed
  else if Text.isDigit c then .ok (some (c.toNat - 0x30))
  else .ok none

/-- The indicators of a block scalar, in either order. -/
def blockHeader (c : Cursor) : Except Error ((Chomping × Option Nat) × Cursor) := do
  match c.rest with
  | [] => return ((.clip, none), c)
  | a :: rest =>
    let b := rest.headD ' '
    match chomping? a with
    | some chomping =>
      match ← increment? b with
      | some n => return ((chomping, some n), c.skip 2)
      | none => return ((chomping, none), c.next)
    | none =>
      match ← increment? a with
      | some n =>
        match chomping? b with
        | some chomping => return ((chomping, some n), c.skip 2)
        | none => return ((.clip, some n), c.next)
      | none => return ((.clip, none), c)

/-- The line breaks before the first line of a block scalar, and its indentation: the most blanks
that any of the blank lines or the first line begins with. -/
def detectIndent : (fuel deepest : Nat) → Cursor → Text × Nat × Cursor
  | 0, deepest, c => ([], deepest, c)
  | fuel + 1, deepest, c =>
    match c.lineBreak? with
    | some (br, c) =>
      let (t, deepest, c) := detectIndent fuel deepest c
      (br :: t, deepest, c)
    | none =>
      if c.peek 0 = some ' ' then
        let c := c.next
        detectIndent fuel (max deepest c.column) c
      else ([], deepest, c)

/-- The line breaks of blank lines, up to the indentation of the next line. -/
def blockBreaks (indent : Nat) : (fuel : Nat) → Cursor → Text × Cursor
  | 0, c => ([], c)
  | fuel + 1, c =>
    let c := c.skip (min (indent - c.column) (c.rest.takeWhile (· == ' ')).length)
    match c.lineBreak? with
    | none => ([], c)
    | some (br, c) =>
      let (t, c) := blockBreaks indent fuel c
      (br :: t, c)

/-- Whether a place begins a line of a block scalar. -/
def atBlockLine (indent : Nat) (c : Cursor) : Bool :=
  c.column == indent && !c.rest.isEmpty

/-- The lines of a block scalar: their text, the break after the last one, and the breaks of the
blank lines that follow. -/
def blockLines (fold : Bool) (indent : Nat) : (fuel : Nat) → Text → Cursor →
    Text × Text × Text × Cursor
  | 0, breaks, c => ([], [], breaks, c)
  | fuel + 1, breaks, c =>
    if !atBlockLine indent c then ([], [], breaks, c)
    else
      let startsBlank (c : Cursor) : Bool := c.peek 0 == some ' ' || c.peek 0 == some '\t'
      let (line, after) := c.run (!isBreak ·)
      let (br, after) := match after.lineBreak? with
        | some (br, after) => ([br], after)
        | none => ([], after)
      let (blank, after) := blockBreaks indent (after.rest.length + 1) after
      if atBlockLine indent after then
        let gap :=
          if fold && br == ['\n'] && !startsBlank c && !startsBlank after then
            (if blank.isEmpty then [' '] else [])
          else br
        let (t, last, blank, after) := blockLines fold indent fuel blank after
        (breaks ++ line ++ gap ++ t, last, blank, after)
      else (breaks ++ line, br, blank, after)

/-- A block scalar; the place is at its indicator. -/
def block (fold : Bool) (currentIndent : Int) (c : Cursor) : Except Error (Text × Cursor) := do
  let ((chomping, increment), c) ← blockHeader c.next
  require (atWordEnd c)
  match c.skipLineRest? with
  | none => malformed
  | some c =>
    let least := max (currentIndent + 1) 1 |>.toNat
    let fuel := c.rest.length + 1
    let (breaks, indent, c) := match increment with
      | some n =>
        let (breaks, c) := blockBreaks (least + n - 1) fuel c
        (breaks, least + n - 1, c)
      | none =>
        let (breaks, deepest, c) := detectIndent fuel 0 c
        (breaks, max least deepest, c)
    let (t, last, blank, c) := blockLines fold indent fuel breaks c
    match chomping with
    | .strip => return (t, c)
    | .clip => return (t ++ last, c)
    | .keep => return (t ++ last ++ blank, c)

/-! ### Plain scalars -/

/-- A character that is special inside flow collections. -/
def isFlowIndicator (c : Char) : Bool :=
  c == ',' || c == '[' || c == ']' || c == '{' || c == '}'

/-- Whether a colon ends a key, by the character that follows it. -/
def endsKey (flow : Bool) (next : Option Char) : Bool :=
  endOr (fun ch => isGap ch || (flow && isFlowIndicator ch)) next

/-- The characters of a plain scalar up to a blank or to its end. -/
def plainWord (flow : Bool) : Text → Text
  | [] => []
  | ch :: rest =>
    if isGap ch || (ch == ':' && endsKey flow rest.head?)
        || (flow && (isFlowIndicator ch || ch == '?')) then []
    else ch :: plainWord flow rest

/-- The line breaks between the lines of a plain scalar; none if a document mark follows. -/
def plainBreaks : (fuel : Nat) → Cursor → Option Text × Cursor
  | 0, c => (none, c)
  | fuel + 1, c =>
    if c.atDocumentMark then (none, c)
    else
      let c := c.skipWhile (· == ' ')
      match c.lineBreak? with
      | none => (some [], c)
      | some (br, c) =>
        let (t, c) := plainBreaks fuel c
        (t.map (br :: ·), c)

/-- The gap between two words of a plain scalar as it is read, and whether a line ended in it. -/
def plainGap (c : Cursor) : Text × Bool × Cursor :=
  let (blanks, c) := c.run (· == ' ')
  match c.lineBreak? with
  | none => (blanks, false, c)
  | some (br, c) =>
    match plainBreaks (c.rest.length + 1) c with
    | (some blank, c) => (folded br blank, true, c)
    | (none, c) => ([], true, c)

/-- The words of a plain scalar from a place on, `gap` being what came before it, and whether a
line ended after the last word. -/
def plainFrom (flow : Bool) (indent : Int) : (fuel : Nat) → (gap : Text) → (lineEnded : Bool) →
    Cursor → Text × Bool × Cursor
  | 0, _, lineEnded, c => ([], lineEnded, c)
  | fuel + 1, gap, lineEnded, c =>
    let word := if c.peek 0 = some '#' then [] else plainWord flow c.rest
    if word.isEmpty then ([], lineEnded, c)
    else
      let (next, ended, after) := plainGap (c.skip word.length)
      if next.isEmpty || after.peek 0 = some '#' || (!flow && (after.column : Int) < indent) then
        (gap ++ word, ended, after)
      else
        let (t, ended, after) := plainFrom flow indent fuel next ended after
        (gap ++ word ++ t, ended, after)

/-- A plain scalar, and whether a line ended after it. -/
def plain (flow : Bool) (currentIndent : Int) (c : Cursor) : Text × Bool × Cursor :=
  plainFrom flow (currentIndent + 1) (c.rest.length + 1) [] false c

end DocTable.Yaml.Lexeme
