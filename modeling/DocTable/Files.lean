import DocTable.Bytes.Decoding
import DocTable.Text.Quoted
/-!
# DocTable.Files

The files of a working directory, as far as they are read: names and contents. A content is a
sequence of bytes, which need not be a text.

A path is normal if it has no empty and no `.` segments; the directory itself is `.`.
-/

namespace DocTable

/-- The bytes of a file. -/
def Content := List UInt8

/-- A text is kept in a file in UTF-8. -/
instance : Coe Text Content := ⟨Bytes.ofText⟩

/-- The names and contents of files. -/
abbrev Files := List (Text × Content)

/-- Why a file could not be read. -/
inductive FileError where
  | missing (path : Text)
  | isDirectory (path : Text)
  /-- A file stands where the path needs a directory. -/
  | notDirectory (path : Text)

/-- The wording of a `FileError`. -/
def FileError.message : FileError → Text
  | .missing path => "[Errno 2] No such file or directory: ".toList ++ Text.quoted path
  | .isDirectory path => "[Errno 21] Is a directory: ".toList ++ Text.quoted path
  | .notDirectory path => "[Errno 20] Not a directory: ".toList ++ Text.quoted path

namespace Files

/-- The segments of a path that say something. -/
def segments (path : Text) : List Text :=
  (Text.pieces '/' path).filter fun s => !s.isEmpty && s != ['.']

/-- What an absolute path begins with: one slash, or exactly two. -/
def root (path : Text) : Text :=
  let slashes := path.takeWhile (· = '/')
  if slashes.length = 2 then slashes else slashes.take 1

/-- The normal form of a path. -/
def normal (path : Text) : Text :=
  match root path ++ Text.join ['/'] (segments path) with
  | [] => ['.']
  | p => p

/-- The content of the file at a path. -/
def find? (files : Files) (path : Text) : Option Content :=
  (List.find? (fun f => normal f.1 = normal path) files).map (·.2)

/-- Whether another path leads to somewhere below the place of a path. -/
def isAbove (path other : Text) : Bool :=
  root path = root other && (segments path).isPrefixOf (segments other)
    && segments path ≠ segments other

/-- Whether a path leads to a directory: the working directory, or one that holds a file. -/
def isDirectory (files : Files) (path : Text) : Bool :=
  normal path = ['.'] || files.any fun f => isAbove path f.1

/-- Whether a path can only lead to a directory, because nothing or a `.` follows its last slash. -/
def namesDirectory (path : Text) : Bool :=
  match (Text.pieces '/' path).getLast? with
  | some last => last.isEmpty || last = ['.']
  | none => true

/-- Whether there is something at a path. -/
def has (files : Files) (path : Text) : Bool :=
  if path.isEmpty then false
  else files.isDirectory path || !namesDirectory path && (files.find? path).isSome

/-- Read the file at a path. -/
def read (files : Files) (path : Text) : Except FileError Content :=
  match files.find? path with
  | some content => .ok content
  | none =>
    if files.isDirectory path then .error (.isDirectory (normal path))
    else if files.any fun f => isAbove f.1 path then .error (.notDirectory (normal path))
    else .error (.missing (normal path))

end Files

namespace Content

/-- A text with all line breaks written as a line feed. -/
def unifyBreaks : Text → Text
  | '\r' :: '\n' :: rest => '\n' :: unifyBreaks rest
  | '\r' :: rest => '\n' :: unifyBreaks rest
  | c :: rest => c :: unifyBreaks rest
  | [] => []

/-- The text of a content, if it is one. -/
def text (content : Content) : Except Bytes.DecodingError Text :=
  unifyBreaks <$> Bytes.decodeStrict content

end Content

end DocTable
