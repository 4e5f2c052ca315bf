import DocTable.Sql.Error
import DocTable.Sql.Shorthand
/-!
# DocTable.Sql.Path

Document paths as callers write them: segments of letters and underscores with dots between
them. A segment may end with a line break, which is taken into the path as it is.
-/

namespace DocTable.Sql.Path

/-- A segment without the line break that may end it. -/
def core (segment : Text) : Text :=
  if segment.getLast? = some '\n' then segment.dropLast else segment

/-- Whether a text is one segment. -/
def isSegment (segment : Text) : Bool :=
  !(core segment).isEmpty && (core segment).all isPathStart

/-- Accept a segment. -/
def checkSegment (segment : Text) : Except PathError Unit :=
  if isSegment segment then .ok () else .error (.segment segment)

/-- Accept a path; the first segment that is none is reported. -/
def check (path : Text) : Except PathError Unit :=
  if path.isEmpty then .error .empty
  else (Text.pieces '.' path).forM checkSegment

end DocTable.Sql.Path
