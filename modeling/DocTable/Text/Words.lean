import DocTable.Text.Basic
/-!
# DocTable.Text.Words

A line of words, quoted the way a POSIX shell quotes them: blanks separate words, single quotes
keep everything, double quotes keep everything but an escaped delimiter or backslash, and outside
quotes a backslash keeps the next character.
-/

namespace DocTable.Text

/-- Why a line has no reading as words. -/
inductive WordsError where
  /-- The line ends inside quotes. -/
  | openQuotes
  /-- The line ends after a backslash. -/
  | openEscape
  deriving Repr, DecidableEq

/-- The wording of a `WordsError`. -/
def WordsError.message : WordsError → Text
  | .openQuotes => "No closing quotation".toList
  | .openEscape => "No escaped character".toList

/-- Where the reader of a line stands. -/
inductive WordState where
  /-- Between words. -/
  | outside
  /-- In a word, outside quotes. -/
  | bare
  /-- Inside quotes with this delimiter. -/
  | within (delim : Char)
  /-- After a backslash outside quotes. -/
  | escaped
  /-- After a backslash inside double quotes. -/
  | escapedWithin

/-- The characters that separate words. -/
def isWordBreak (c : Char) : Bool :=
  c == ' ' || c == '\t' || c == '\r' || c == '\n'

/-- The state after the first character of a stretch outside quotes, and what it adds. -/
def enterWord (c : Char) : WordState × Text :=
  if c = '\\' then (.escaped, [])
  else if c = '\'' || c = '"' then (.within c, [])
  else (.bare, [c])

/-- Read on from a state, with the part of the current word that has been read. -/
def wordsFrom (state : WordState) (word : Text) : Text → Except WordsError (List Text)
  | [] =>
    match state with
    | .outside => .ok []
    | .bare => .ok [word]
    | .within _ => .error .openQuotes
    | .escaped | .escapedWithin => .error .openEscape
  | c :: rest =>
    match state with
    | .outside =>
      if isWordBreak c then wordsFrom .outside [] rest
      else wordsFrom (enterWord c).1 (enterWord c).2 rest
    | .bare =>
      if isWordBreak c then (word :: ·) <$> wordsFrom .outside [] rest
      else wordsFrom (enterWord c).1 (word ++ (enterWord c).2) rest
    | .within delim =>
      if c = delim then wordsFrom .bare word rest
      else if c = '\\' && delim = '"' then wordsFrom .escapedWithin word rest
      else wordsFrom (.within delim) (word ++ [c]) rest
    | .escaped => wordsFrom .bare (word ++ [c]) rest
    | .escapedWithin =>
      if c = '"' || c = '\\' then wordsFrom (.within '"') (word ++ [c]) rest
      else wordsFrom (.within '"') (word ++ ['\\', c]) rest

/-- The words of a line, without their quotes. -/
def words (line : Text) : Except WordsError (List Text) :=
  wordsFrom .outside [] line

end DocTable.Text
