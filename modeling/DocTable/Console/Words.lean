import DocTable.Text.Basic
/-!
# DocTable.Console.Words

The words of a command line, read by the options they may hold.

A long option is a word of its own and takes its value after an equals sign or from the next word;
short options may be clustered behind one dash, and the rest of the cluster is the value of an
option that takes one. What is left are the operands. After the word `--` everything is an
operand. A word that is no option where one is expected leaves the line without a reading.
-/

namespace DocTable.Console

/-- An option. -/
structure Flag where
  /-- The long name, with its dashes. -/
  name : Text
  short : Option Char
  takesValue : Bool

namespace Flag

/-- An option that takes a value. -/
def valued (name : String) : Flag := ⟨name.toList, none, true⟩

/-- An option that is given or not. -/
def switch (name : String) : Flag := ⟨name.toList, none, false⟩

/-- The option with a short name as well. -/
def orShort (f : Flag) (c : Char) : Flag := { f with short := some c }

end Flag

/-- What a line says: options with their values in order, and the operands. A switch has the empty
text as its value. -/
structure Line where
  options : List (Text × Text)
  operands : List Text

namespace Line

/-- The line with options before it. -/
def withOptions (given : List (Text × Text)) (l : Line) : Line :=
  { l with options := given ++ l.options }

/-- The line with an operand before it. -/
def withOperand (word : Text) (l : Line) : Line :=
  { l with operands := word :: l.operands }

/-- The last value of an option. -/
def value? (l : Line) (name : String) : Option Text :=
  ((l.options.filter fun o => o.1 = name.toList).getLast?).map (·.2)

/-- All values of an option, in order. -/
def values (l : Line) (name : String) : List Text :=
  (l.options.filter fun o => o.1 = name.toList).map (·.2)

/-- Whether an option is given. -/
def has (l : Line) (name : String) : Bool :=
  l.options.any fun o => o.1 = name.toList

end Line

/-- The options in a word, and the name of one that takes its value from the next word. -/
abbrev WordReading := List (Text × Text) × Option Text

/-- Read a cluster of short options. -/
def readCluster (flags : List Flag) : Text → Option WordReading
  | [] => some ([], none)
  | c :: rest =>
    match flags.find? fun f => f.short = some c with
    | none => none
    | some f =>
      if f.takesValue then
        if rest.isEmpty then some ([], some f.name) else some ([(f.name, rest)], none)
      else do
        let (given, awaiting) ← readCluster flags rest
        return ((f.name, []) :: given, awaiting)

/-- Read a word by its long name. -/
def readLong (f : Flag) (value : Option Text) : Option WordReading :=
  match f.takesValue, value with
  | true, some v => some ([(f.name, v)], none)
  | true, none => some ([], some f.name)
  | false, some _ => none
  | false, none => some ([(f.name, [])], none)

/-- The part of a word before an equals sign, and the part after it if there is one. -/
def splitValue (word : Text) : Text × Option Text :=
  match word.dropWhile (· ≠ '=') with
  | [] => (word, none)
  | _ :: value => (word.takeWhile (· ≠ '='), some value)

/-- Read a word that begins with a dash. -/
def readDashed (flags : List Flag) (word : Text) : Option WordReading :=
  let (name, value) := splitValue word
  match flags.find? fun f => f.name = name with
  | some f => readLong f value
  | none => if "--".toList.isPrefixOf word then none else readCluster flags (word.drop 1)

/-- Read words. `awaiting` is an option whose value is the next word; if operands and options are
not `mixed`, everything from the first operand on is an operand. -/
def readWords (flags : List Flag) (mixed : Bool) : (awaiting : Option Text) → List Text →
    Option Line
  | none, [] => some ⟨[], []⟩
  | some _, [] => none
  | some name, word :: rest =>
    (Line.withOptions [(name, word)]) <$> readWords flags mixed none rest
  | none, word :: rest =>
    if word = "--".toList then some ⟨[], rest⟩
    else if word.head? = some '-' && word.length > 1 then do
      let (given, awaiting) ← readDashed flags word
      Line.withOptions given <$> readWords flags mixed awaiting rest
    else if mixed then Line.withOperand word <$> readWords flags mixed none rest
    else some ⟨[], word :: rest⟩

end DocTable.Console
