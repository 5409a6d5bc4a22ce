import CssRescale.Binary64.Arithmetic
import CssRescale.Decimal.Reading
import CssRescale.Rules.Overrides

/-!
Contract: the arguments of a command line.

Arguments are read from left to right. An option with a value has it attached
(`--name=value`, `-nvalue`, `-n=value`) or as the next argument, which must not
look like an option; short switches can be joined. Each option may be given
once, except the one that asks for more detail. After `--` everything is an
input, and there is at most one.

Owns: the type `Arguments`, reading it, and the two requests that are answered
without a run.
-/

set_option autoImplicit false

namespace CssRescale

/-- The options without a value. -/
inductive Switch where
  | declarations
  | strict
  | verbose
  | version
  | help
deriving DecidableEq, Repr

/-- The options with a value. -/
inductive Setting where
  | output
  | value
  | config
  | option (name : OptionName)
deriving DecidableEq, Repr

/-- What a command line asks for. -/
structure Arguments where
  input : Option Text
  output : Option Text
  value : Option Text
  config : Option Text
  overrides : Overrides
  declarations : Bool
  strict : Bool
  verbosity : Nat
deriving DecidableEq

/-- Why a command line asks for no run. -/
inductive Refusal where
  | usage
  | version
  | help
deriving DecidableEq, Repr

/-- An option by its name. -/
inductive OptionKey where
  | switch (switch : Switch)
  | setting (setting : Setting)
deriving DecidableEq, Repr

namespace OptionKey

def longNames : List (String × OptionKey) :=
  [("output", .setting .output), ("value", .setting .value),
    ("declarations", .switch .declarations), ("config", .setting .config),
    ("base-size", .setting (.option (.size .baseSize))),
    ("ri-unit", .setting (.option (.unit .riUnit))),
    ("unit", .setting (.option (.unit .unit))),
    ("absolute-unit", .setting (.option (.unit .absoluteUnit))),
    ("min-unit-size", .setting (.option (.size .minUnitSize))),
    ("min-size", .setting (.option (.size .minSize))),
    ("precision", .setting (.option .precision)),
    ("strict", .switch .strict), ("verbose", .switch .verbose),
    ("version", .switch .version), ("help", .switch .help)]

def ofLong? (name : Text) : Option OptionKey :=
  (longNames.find? fun entry => entry.1.toList == name).map Prod.snd

def ofShort? (name : Char) : Option OptionKey :=
  if name == 'o' then some (.setting .output)
  else if name == 'c' then some (.setting .config)
  else if name == 'v' then some (.switch .verbose)
  else if name == 'V' then some (.switch .version)
  else if name == 'h' then some (.switch .help)
  else none

end OptionKey

namespace Setting

/-- Are the values of the option numbers? -/
def isNumeric : Setting → Bool
  | option (.size _) => true
  | option .precision => true
  | _ => false

end Setting

/-! ## Values -/

/-- Is this the text of a number after its minus sign: digits, perhaps a point
with digits after it, perhaps an exponent without sign? -/
def isUnsignedNumber (text : Text) : Bool :=
  let (whole, afterWhole) := Text.takeDigits text
  let afterFraction :=
    match afterWhole with
    | '.' :: rest => (Text.takeDigits rest).2
    | _ => afterWhole
  let ends :=
    match afterFraction with
    | [] => true
    | mark :: exponent =>
        isExponentMark mark && !exponent.isEmpty && exponent.all Char.isDigit
  !whole.isEmpty && ends

/-- May this argument be the value of an option before it? Only a single hyphen
and, where numbers are expected, a negative number may start with a hyphen. -/
def mayBeValue (setting : Setting) : Text → Bool
  | ['-'] => true
  | '-' :: rest => setting.isNumeric && isUnsignedNumber rest
  | _ => true

/-- Reads an integer of 64 bits: perhaps a sign, then digits. -/
def readInteger? (text : Text) : Option Int :=
  let (sign, digits) := Text.takeSign text
  let value := Binary64.signed (sign == ['-']) (Text.digitsValue digits)
  if digits.isEmpty || !digits.all Char.isDigit then none
  else if -(2 ^ 63) ≤ value ∧ value < 2 ^ 63 then some value
  else none

/-! ## Reading -/

namespace Arguments

def empty : Arguments := ⟨none, none, none, none, Overrides.empty, false, false, 0⟩

/-- Gives the value of one of the conversion options. -/
def giveOption (name : OptionName) (text : Text) (given : Arguments) :
    Except Refusal Arguments :=
  if given.overrides.gives name then .error .usage
  else
    match name with
    | .size option =>
        match Decimal.read? text with
        | some size => .ok { given with overrides := given.overrides.giveSize option size }
        | none => .error .usage
    | .unit option => .ok { given with overrides := given.overrides.giveUnit option text }
    | .precision =>
        match readInteger? text with
        | some digits => .ok { given with overrides := given.overrides.givePrecision digits }
        | none => .error .usage

/-- Gives the value of an option; none has two values. -/
def give (setting : Setting) (text : Text) (given : Arguments) : Except Refusal Arguments :=
  match setting with
  | .output =>
      if given.output.isSome then .error .usage else .ok { given with output := some text }
  | .value =>
      if given.value.isSome then .error .usage else .ok { given with value := some text }
  | .config =>
      if given.config.isSome then .error .usage else .ok { given with config := some text }
  | .option name => given.giveOption name text

/-- Turns on a switch; only the one that asks for more detail may be repeated. -/
def turnOn (switch : Switch) (given : Arguments) : Except Refusal Arguments :=
  match switch with
  | .declarations =>
      if given.declarations then .error .usage else .ok { given with declarations := true }
  | .strict => if given.strict then .error .usage else .ok { given with strict := true }
  | .verbose => .ok { given with verbosity := given.verbosity + 1 }
  | .version => .error .version
  | .help => .error .help

/-- Gives the input; there is only one. -/
def giveInput (name : Text) (given : Arguments) : Except Refusal Arguments :=
  if given.input.isSome then .error .usage else .ok { given with input := some name }

/-- The value attached to a short option, without its equals sign. -/
def attached : Text → Text
  | '=' :: rest => rest
  | text => text

/-- Reads joined short options. The second part is the option whose value is to
be the next argument. -/
def readShort : Text → Arguments → Except Refusal (Arguments × Option Setting)
  | [], given => .ok (given, none)
  | name :: rest, given =>
      match OptionKey.ofShort? name with
      | none => .error .usage
      | some (.switch switch) => do
          let after ← given.turnOn switch
          readShort rest after
      | some (.setting setting) =>
          if rest.isEmpty then .ok (given, some setting)
          else do
            let after ← given.give setting (attached rest)
            return (after, none)

/-- Reads a long option, whose two hyphens have been taken. -/
def readLong (text : Text) (given : Arguments) :
    Except Refusal (Arguments × Option Setting) :=
  let name := text.takeWhile (· != '=')
  match OptionKey.ofLong? name, text.dropWhile (· != '=') with
  | none, _ => .error .usage
  | some (.switch _), _ :: _ => .error .usage
  | some (.switch switch), [] => do
      let after ← given.turnOn switch
      return (after, none)
  | some (.setting setting), [] => .ok (given, some setting)
  | some (.setting setting), _ :: value => do
      let after ← given.give setting value
      return (after, none)

/-- Reads one argument where no value is expected. -/
def readOne (argument : Text) (given : Arguments) :
    Except Refusal (Arguments × Option Setting) :=
  match argument with
  | '-' :: '-' :: name => readLong name given
  | '-' :: first :: rest => readShort (first :: rest) given
  | _ => do
      let after ← given.giveInput argument
      return (after, none)

/-- Reads arguments that are inputs whatever they look like. -/
def readInputs : List Text → Arguments → Except Refusal Arguments
  | [], given => .ok given
  | argument :: rest, given => do
      let after ← given.giveInput argument
      readInputs rest after

/-- Reads arguments, the first of which is perhaps the value of an option. -/
def readFrom : Option Setting → List Text → Arguments → Except Refusal Arguments
  | none, [], given => .ok given
  | some _, [], _ => .error .usage
  | some setting, argument :: rest, given =>
      if mayBeValue setting argument then do
        let after ← given.give setting argument
        readFrom none rest after
      else
        .error .usage
  | none, argument :: rest, given =>
      if argument == ['-', '-'] then readInputs rest given
      else do
        let (after, expected) ← given.readOne argument
        readFrom expected rest after

/-- Reads a command line. A value to convert and an input exclude each other. -/
def read (arguments : List Text) : Except Refusal Arguments := do
  let given ← readFrom none arguments empty
  if given.value.isSome && given.input.isSome then .error .usage else return given

end Arguments

end CssRescale
