import CssRescale.CommandLine.Help
import CssRescale.Encoding.Sheet
import CssRescale.Rules.Config
import CssRescale.Sheet.Convert

/-!
Contract: what a command line does.

A run reads the configuration, lays the given options over it, checks them,
reads the input, converts it, and last of all writes the result once. So a run
that fails writes nothing.

The run is written over any system that reads and writes, so that the same run
works on real files and on a model of them.

Owns: the type `System`, the errors of a run, and `CommandLine.execute`.
-/

set_option autoImplicit false

namespace CssRescale

/-- What a run needs from the system it runs on. -/
structure System (m : Type → Type) where
  /-- The bytes of a file, if it can be read. -/
  readFile : Text → m (Option Bytes)
  readInput : m Bytes
  /-- Replaces a file by a text; false if it cannot be written. -/
  writeFile : Text → Text → m Bool
  /-- Writes a text to the standard output. -/
  writeOutput : Text → m Unit

/-- Why a run fails. -/
inductive RunError where
  /-- A file cannot be read or written, or a configuration is not text. -/
  | file (name : Text)
  | config (name : Text) (error : ConfigError)
  | options (error : OptionsError)
  | fault (fault : Fault)
deriving DecidableEq

/-- How a run ends. -/
inductive Outcome where
  | success
  | usage
  | failure (error : RunError)
deriving DecidableEq

def Outcome.exitCode : Outcome → UInt32
  | success => 0
  | failure _ => 1
  | usage => 2

/-- What is wrong with a configuration text. -/
def ConfigError.reason : ConfigError → Text
  | malformed => "the text is not JSON".toList
  | mistyped => "a value is of the wrong type".toList
  | unknown name => "unknown option ".toList ++ Text.quoted name
  | repeated option => "repeated option ".toList ++ Text.quoted option.text

def RunError.message : RunError → Text
  | file name => "I/O error: ".toList ++ name
  | config name error =>
      "invalid configuration file: ".toList ++ name ++ ": ".toList ++ error.reason
  | options error => error.message
  | fault error => error.message

namespace CommandLine

/-- The text of bytes that are well-formed UTF-8. -/
def strictText? (bytes : Bytes) : Option Text :=
  if (Utf8.decode bytes).isMalformed then none else some (Utf8.decode bytes).text

def configOptions (name : Text) (bytes? : Option Bytes) : Except RunError Options :=
  match bytes?.bind strictText? with
  | none => .error (.file name)
  | some text => (Options.ofConfig text).mapError (.config name)

/-- The converter that options make together with those given as arguments. -/
def converterOf (arguments : Arguments) (options : Options) : Except RunError Converter :=
  match Rules.ofOptions (arguments.overrides.apply options) with
  | .error error => .error (.options error)
  | .ok rules => .ok ⟨rules, arguments.strict⟩

/-- Converts a value that was given as an argument; a line end follows it. -/
def convertValue (converter : Converter) (value : Text) : Except RunError Text :=
  ((converter.convert value).map (· ++ ['\n'])).mapError .fault

def convertInput (arguments : Arguments) (converter : Converter) (bytes : Bytes) :
    Except RunError Text :=
  let source := Encoding.decodeSheet bytes
  let converted :=
    if arguments.declarations then converter.convertDeclarations source
    else (converter.convertSheet source).map Prod.fst
  converted.mapError .fault

variable {m : Type → Type} [Monad m]

/-- The options that hold before those given as arguments. -/
def readOptions (system : System m) (arguments : Arguments) : ExceptT RunError m Options :=
  match arguments.config with
  | none => return Options.default
  | some name => do
      let bytes? ← ExceptT.lift (system.readFile name)
      ExceptT.mk (pure (configOptions name bytes?))

/-- The bytes of the input: a file, or the standard input if none or a single
hyphen is named. -/
def readBytes (system : System m) (arguments : Arguments) : ExceptT RunError m Bytes :=
  match arguments.input with
  | none => ExceptT.lift system.readInput
  | some ['-'] => ExceptT.lift system.readInput
  | some name => do
      let bytes? ← ExceptT.lift (system.readFile name)
      match bytes? with
      | some bytes => return bytes
      | none => throw (.file name)

def convert (system : System m) (arguments : Arguments) (converter : Converter) :
    ExceptT RunError m Text :=
  match arguments.value with
  | some value => ExceptT.mk (pure (convertValue converter value))
  | none => do
      let bytes ← readBytes system arguments
      ExceptT.mk (pure (convertInput arguments converter bytes))

/-- Writes the converted text to the output. -/
def write (system : System m) (arguments : Arguments) (text : Text) :
    ExceptT RunError m Unit :=
  match arguments.output with
  | none => ExceptT.lift (system.writeOutput text)
  | some name => do
      let written ← ExceptT.lift (system.writeFile name text)
      if written then return () else throw (.file name)

def run (system : System m) (arguments : Arguments) : ExceptT RunError m Unit := do
  let options ← readOptions system arguments
  let converter ← ExceptT.mk (pure (converterOf arguments options))
  let text ← convert system arguments converter
  write system arguments text

/-- Does what a command line asks for. -/
def execute (system : System m) (arguments : List Text) : m Outcome :=
  match Arguments.read arguments with
  | .error .usage => return .usage
  | .error .version => do
      system.writeOutput versionText
      return .success
  | .error .help => do
      system.writeOutput helpText
      return .success
  | .ok given => do
      match ← (run system given).run with
      | .ok () => return .success
      | .error error => return .failure error

end CommandLine

end CssRescale
