import CodeAtlas.Json.Decode

/-!
# Errors

The ways in which an operation can fail, with the texts shown to users. Errors at the boundary tell
the user how to make a missing store or index available.
-/

namespace CodeAtlas

/-- A failure of the system below: files and connections. -/
inductive SystemError where
  | notFound
  | fileExists
  | notDirectory
  | isDirectory
  | nameTooLong
  | notText
  | nulInPath
  | unexpectedEnd
  | shortRead
  | connectionRefused
  | networkUnreachable
deriving DecidableEq, Repr

namespace SystemError

def message : SystemError → String
  | notFound => "No such file or directory (os error 2)"
  | fileExists => "File exists (os error 17)"
  | notDirectory => "Not a directory (os error 20)"
  | isDirectory => "Is a directory (os error 21)"
  | nameTooLong => "File name too long (os error 36)"
  | notText => "stream did not contain valid UTF-8"
  | nulInPath => "file name contained an unexpected NUL byte"
  | unexpectedEnd => "unexpected end of file"
  | shortRead => "failed to fill whole buffer"
  | connectionRefused => "Connection refused (os error 111)"
  | networkUnreachable => "Network is unreachable (os error 101)"

end SystemError

/-- A failure of a graph database. -/
inductive DatabaseError where
  | notDatabase
  | duplicateRow
  /-- The engine gives a reason of its own. -/
  | refused (message detail : String)
deriving DecidableEq, Repr

namespace DatabaseError

def message : DatabaseError → String
  | notDatabase => "file is not a database"
  | duplicateRow => "UNIQUE constraint failed: edges.source_id, edges.target_id, edges.relation"
  | refused message _ => message

def detail : DatabaseError → String
  | notDatabase => "Error code 26: File opened that is not a database file"
  | duplicateRow => "Error code 2067: A UNIQUE constraint failed"
  | refused _ detail => detail

end DatabaseError

inductive Error where
  | parse (path reason : String)
  | datastoreUnavailable (endpoint reason remediation : String)
  | query (reason : String)
  | unsupported (what : String)
  | indexNotFound (path : String)
  | indexMalformed (path reason : String)
  | edgeList (path reason : String)
  | invalidArgument (reason : String)
  | system (cause : SystemError)
  | database (cause : DatabaseError)
  | json (cause : Json.Error)

namespace Error

def indexCommand : String := "codecompass index <repo> --output <index path>"

def message : Error → String
  | parse path reason => s!"failed to parse {path}: {reason}"
  | datastoreUnavailable endpoint reason remediation =>
      s!"graph datastore unavailable at {endpoint}: {reason}\n{remediation}"
  | query reason => s!"graph query failed: {reason}"
  | unsupported what => s!"graph backend does not support {what}"
  | indexNotFound path => s!"chunk index not found at {path}. Build it with: {indexCommand}"
  | indexMalformed path reason =>
      s!"chunk index at {path} is unreadable ({reason}). Rebuild it with: {indexCommand}"
  | edgeList path reason => s!"invalid edge list {path}: {reason}"
  | invalidArgument reason => s!"invalid argument: {reason}"
  | system cause => cause.message
  | database cause => cause.message
  | json cause => cause.message

def fullMessage : Error → String
  | database cause => s!"{cause.message}: {cause.detail}"
  | error => error.message

/-- The user can make what is missing available. -/
def isBoundary : Error → Bool
  | datastoreUnavailable .. => true
  | indexNotFound _ => true
  | indexMalformed .. => true
  | _ => false

end Error

abbrev Result (α : Type) := Except Error α

end CodeAtlas
