import CssRescale.CommandLine.Path
import CssRescale.CommandLine.Run

/-!
Contract: the files and streams that a command line works on, as a value.

A session holds the files of one directory, the standard input, and what has
been written to the standard output. A path can be written if it leads to a
name in the directory, and read if there also is a file of that name.

Owns: the type `Session`, the system it makes, and `Session.execute`.
-/

set_option autoImplicit false

namespace CssRescale

/-- The files of a directory and the streams of a run. -/
structure Session where
  /-- The content of each file that is there. -/
  files : Text → Option Bytes
  input : Bytes
  output : Text

namespace Session

/-- The content that files in a list have; of two with one name the first counts. -/
def filesOf (files : List (Text × Bytes)) (name : Text) : Option Bytes := files.lookup name

/-- The content of the file that a path leads to. -/
def readAt (session : Session) (path : Text) : Option Bytes :=
  (fileName? path).bind session.files

/-- The session in which a file has the given content. -/
def put (session : Session) (name : Text) (content : Bytes) : Session :=
  { session with
    files := fun other => if other = name then some content else session.files other }

/-- The session in which a text has been written to the standard output. -/
def print (session : Session) (text : Text) : Session :=
  { session with output := session.output ++ text }

/-- The system that works on a session. -/
def system : System (StateM Session) where
  readFile path := do return (← get).readAt path
  readInput := do return (← get).input
  writeFile path text :=
    match fileName? path with
    | some name => do
        modify fun session => session.put name (Utf8.encode text)
        return true
    | none => return false
  writeOutput text := modify fun session => session.print text

/-- How a command line ends in a session, and the session after it. -/
def execute (arguments : List Text) (session : Session) : Outcome × Session :=
  (CommandLine.execute system arguments).run session

end Session

end CssRescale
