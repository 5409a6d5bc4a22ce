import CssRescale.Text.Basic

/-!
Contract: the files of one directory, by their paths.

The directory holds files and no other directory. A path leads to a file in it
if nothing but steps that stay in the directory stand before the name, and
nothing stands after it. Names and paths have a greatest length in bytes.

Owns: `fileName?`, the name of the file that a path leads to.

Does not own: which files there are.
-/

set_option autoImplicit false

namespace CssRescale

namespace Path

/-- The greatest length of a file's name. -/
def longestName : Nat := 255

def longestPath : Nat := 4095

/-- What is left of a path after the steps that stay in the directory. -/
def afterStays : Text → Text
  | '/' :: rest => afterStays rest
  | '.' :: '/' :: rest => afterStays rest
  | path => path

/-- Can a file have this name? It is not empty, not a directory's, and holds no separator. -/
def isFileName (name : Text) : Bool :=
  !name.isEmpty && name != ['.'] && name != ['.', '.'] && !name.contains '/'
    && Text.byteLength name ≤ longestName

/-- Does the path start at the root of all directories? -/
def isAbsolute (path : Text) : Bool := path.head? == some '/'

end Path

/-- The name of the file that a path leads to, if it can lead to one. -/
def fileName? (path : Text) : Option Text :=
  if !Path.isAbsolute path && Text.byteLength path ≤ Path.longestPath
      && Path.isFileName (Path.afterStays path) then
    some (Path.afterStays path)
  else
    none

end CssRescale
