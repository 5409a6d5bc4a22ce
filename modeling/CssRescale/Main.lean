import CssRescale.CommandLine.Run

/-!
Contract: the program. It runs command lines on the files and streams of the
operating system; everything it decides is decided elsewhere.
-/

set_option autoImplicit false

namespace CssRescale

/-- All bytes of a stream from here on. -/
partial def readAll (stream : IO.FS.Stream) (read : ByteArray) : IO ByteArray := do
  let chunk ← stream.read 65536
  if chunk.isEmpty then return read else readAll stream (read ++ chunk)

def operatingSystem : System IO where
  readFile name := do
    try
      let bytes ← IO.FS.readBinFile (String.ofList name)
      return some bytes.toList
    catch _ => return none
  readInput := do
    let bytes ← readAll (← IO.getStdin) ByteArray.empty
    return bytes.toList
  writeFile name text := do
    try
      IO.FS.writeFile (String.ofList name) (String.ofList text)
      return true
    catch _ => return false
  writeOutput text := do
    let stream ← IO.getStdout
    stream.putStr (String.ofList text)
    stream.flush

end CssRescale

def main (arguments : List String) : IO UInt32 := do
  let outcome ←
    CssRescale.CommandLine.execute CssRescale.operatingSystem (arguments.map String.toList)
  match outcome with
  | .success => pure ()
  | .usage => IO.eprintln "error: invalid arguments; see --help"
  | .failure error => IO.eprintln (String.ofList ("error: ".toList ++ error.message))
  return outcome.exitCode
