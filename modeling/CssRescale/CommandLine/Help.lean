import CssRescale.CommandLine.Arguments

/-!
Contract: the texts that a command line is answered with without a run.

Owns: the version of the program, and its help, with an entry for each option.
-/

set_option autoImplicit false

namespace CssRescale

/-- What the help says of an option. -/
structure HelpEntry where
  short : Option Char
  long : String
  /-- The name of the value that the option takes; a switch takes none. -/
  value : Option String
  /-- May it be given more than once? -/
  repeats : Bool
  description : String
deriving DecidableEq, Repr

namespace HelpEntry

/-- The column at which descriptions start. -/
def column : Nat := 39

/-- How the option is written. -/
def usage (entry : HelpEntry) : Text :=
  (match entry.short with
    | some name => ['-', name, ',', ' ']
    | none => "    ".toList)
    ++ "--".toList ++ entry.long.toList
    ++ (match entry.value with
      | some name => " <".toList ++ name.toList ++ ">".toList
      | none => [])
    ++ (if entry.repeats then "...".toList else [])

def line (entry : HelpEntry) : Text :=
  (("  ".toList ++ entry.usage).rightpad column ' ') ++ entry.description.toList ++ ['\n']

end HelpEntry

namespace OptionKey

def help : OptionKey → HelpEntry
  | setting .output =>
      ⟨some 'o', "output", some "OUTPUT", false, "Output file (stdout if omitted)"⟩
  | setting .value =>
      ⟨none, "value", some "VALUE", false,
        "Convert this declaration value instead of reading a style sheet"⟩
  | switch .declarations =>
      ⟨none, "declarations", none, false,
        "Treat the input as a declaration list (`a: 1px; b: 2px`) rather than a style sheet"⟩
  | setting .config =>
      ⟨some 'c', "config", some "FILE", false,
        "JSON file with options (`\x7b\"baseSize\": 24, \"riUnit\": \"rem\", ...\x7d`)"⟩
  | setting (.option (.size .baseSize)) =>
      ⟨none, "base-size", some "BASE_SIZE", false, "Root font size conversions are based on"⟩
  | setting (.option (.unit .riUnit)) =>
      ⟨none, "ri-unit", some "RI_UNIT", false, "Unit for resolution-independent output"⟩
  | setting (.option (.unit .unit)) => ⟨none, "unit", some "UNIT", false, "Unit to convert"⟩
  | setting (.option (.unit .absoluteUnit)) =>
      ⟨none, "absolute-unit", some "ABSOLUTE_UNIT", false, "Unit relabeled 1:1 to --unit"⟩
  | setting (.option (.size .minUnitSize)) =>
      ⟨none, "min-unit-size", some "MIN_UNIT_SIZE", false,
        "Smallest size a measurement may shrink to at the lowest resolution"⟩
  | setting (.option (.size .minSize)) =>
      ⟨none, "min-size", some "MIN_SIZE", false,
        "Root font size at the lowest supported resolution"⟩
  | setting (.option .precision) =>
      ⟨none, "precision", some "PRECISION", false,
        "Maximum fractional digits in converted output"⟩
  | switch .strict =>
      ⟨none, "strict", none, false, "Fail on malformed values instead of passing them through"⟩
  | switch .verbose =>
      ⟨some 'v', "verbose", none, true, "Log what was converted (repeat for more detail)"⟩
  | switch .help => ⟨some 'h', "help", none, false, "Print help"⟩
  | switch .version => ⟨some 'V', "version", none, false, "Print version"⟩

/-- The options in the order of the help. -/
def all : List OptionKey :=
  [.setting .output, .setting .value, .switch .declarations, .setting .config,
    .setting (.option (.size .baseSize)), .setting (.option (.unit .riUnit)),
    .setting (.option (.unit .unit)), .setting (.option (.unit .absoluteUnit)),
    .setting (.option (.size .minUnitSize)), .setting (.option (.size .minSize)),
    .setting (.option .precision), .switch .strict, .switch .verbose, .switch .help,
    .switch .version]

end OptionKey

namespace CommandLine

/-- The name and version of the program. -/
def versionText : Text := "ri 0.2.0\n".toList

/-- Command lines that show what the program is for. -/
def examples : Text :=
  ("EXAMPLES:\n"
    ++ "    ri styles.css -o styles.ri.css        Convert a style sheet\n"
    ++ "    ri --base-size 32 < in.css > out.css  Read stdin, write stdout\n"
    ++ "    ri --value '48px 2.4px,36px'          Convert a single value\n"
    ++ "    ri --config ri.json styles.css        Read options from a JSON file\n").toList

def helpText : Text :=
  ("Convert px measurements to resolution-independent units\n\n"
    ++ "Usage: ri [OPTIONS] [INPUT]\n\n"
    ++ "Arguments:\n"
    ++ "  [INPUT]  Input style sheet (stdin if omitted or `-`)\n\n"
    ++ "Options:\n").toList
    ++ OptionKey.all.flatMap (fun key => key.help.line) ++ ['\n'] ++ examples

end CommandLine

end CssRescale
