import CssRescale.Json.Number
import CssRescale.Json.Text
import CssRescale.Rules.Overrides

/-!
Contract: the options that a configuration text gives.

The text is a JSON object of options by name, or a JSON array of the first
options in order. It is read from left to right and the first problem is the
error: an unknown or repeated name is reported before its value is read, and a
value of the wrong type once it is known to be well formed; an array or object
in a wrong place is reported at its bracket.

Owns: `Options.ofConfig` and the kinds of errors.
-/

set_option autoImplicit false

namespace CssRescale

/-- Why a configuration text gives no options. -/
inductive ConfigError where
  | malformed
  /-- A value is of the wrong type or, as a precision, out of range. -/
  | mistyped
  /-- There is no option of this name. -/
  | unknown (name : Text)
  | repeated (option : OptionName)
deriving DecidableEq, Repr

namespace Config

/-- Takes what must be there for the text to be JSON. -/
def required {α : Type} : Option α → Except ConfigError α
  | some result => .ok result
  | none => .error .malformed

/-- Does the text start with these characters? -/
def startsWith (start text : Text) : Bool := start.isPrefixOf text

/-- The error of a value that is of no expected type. -/
def wrongType : Text → ConfigError
  | [] => .malformed
  | first :: rest =>
      if first == '[' || first == '{' then .mistyped
      else
        let wellFormed :=
          if first == '"' then (Json.readString? rest).isSome
          else if first == '-' || first.isDigit then (Json.readNumber? (first :: rest)).isSome
          else
            startsWith "null".toList (first :: rest) || startsWith "true".toList (first :: rest)
              || startsWith "false".toList (first :: rest)
        if wellFormed then .mistyped else .malformed

def startsNumber : Text → Bool
  | [] => false
  | first :: _ => first == '-' || first.isDigit

def readSize (text : Text) : Except ConfigError (Binary64 × Text) :=
  if startsNumber text then do
    let (_, value, left) ← required (Json.readNumber? text)
    return (value, left)
  else
    .error (wrongType text)

def readPrecision (text : Text) : Except ConfigError (Int × Text) :=
  if startsNumber text then do
    let (numeral, _, left) ← required (Json.readNumber? text)
    match numeral.integer? with
    | some digits => return (digits, left)
    | none => .error .mistyped
  else
    .error (wrongType text)

def readUnit : Text → Except ConfigError (Text × Text)
  | '"' :: rest => required (Json.readString? rest)
  | text => .error (wrongType text)

def readOption (option : OptionName) (overrides : Overrides) (text : Text) :
    Except ConfigError (Overrides × Text) :=
  match option with
  | .size size => do
      let (value, left) ← readSize (Json.skipBlanks text)
      return (overrides.giveSize size value, left)
  | .unit name => do
      let (value, left) ← readUnit (Json.skipBlanks text)
      return (overrides.giveUnit name value, left)
  | .precision => do
      let (digits, left) ← readPrecision (Json.skipBlanks text)
      return (overrides.givePrecision digits, left)

/-- Takes a character that must come next. -/
def expect (c : Char) (text : Text) : Except ConfigError Text :=
  match Json.skipBlanks text with
  | [] => .error .malformed
  | first :: rest => if first == c then .ok rest else .error .malformed

/-- The option that a name in an object stands for; no option may be named twice. -/
def optionOf (name : Text) (overrides : Overrides) : Except ConfigError OptionName :=
  match OptionName.ofText? name with
  | none => .error (.unknown name)
  | some option => if overrides.gives option then .error (.repeated option) else .ok option

/-- Reads one entry of an object, from its name on. -/
def readEntry (overrides : Overrides) (text : Text) : Except ConfigError (Overrides × Text) := do
  let afterQuote ← expect '"' text
  let (name, afterName) ← required (Json.readString? afterQuote)
  let option ← optionOf name overrides
  let afterColon ← expect ':' afterName
  readOption option overrides afterColon

/-- Reads the entries of an object that has at least one more, to its closing
brace. Entries are bounded by `budget`: no option may be named twice, so one
more than there are options is enough. -/
def readEntries : Nat → Overrides → Text → Except ConfigError (Overrides × Text)
  | 0, _, _ => .error .malformed
  | budget + 1, overrides, text => do
      let (extended, left) ← readEntry overrides text
      match Json.skipBlanks left with
      | ',' :: rest => readEntries budget extended rest
      | '\x7d' :: rest => return (extended, rest)
      | _ => .error .malformed

/-- Reads an object whose opening brace has been taken. -/
def readObject (text : Text) : Except ConfigError (Overrides × Text) :=
  match Json.skipBlanks text with
  | '\x7d' :: rest => return (Overrides.empty, rest)
  | entries => readEntries (OptionName.all.length + 1) Overrides.empty entries

/-- Reads the elements of an array after its first one: values of the given
options, as many as there are. -/
def readElements : List OptionName → Overrides → Text → Except ConfigError (Overrides × Text)
  | options, overrides, text =>
      match options, Json.skipBlanks text with
      | _, ']' :: rest => return (overrides, rest)
      | option :: others, ',' :: rest =>
          match Json.skipBlanks rest with
          | ']' :: _ => .error .malformed
          | element => do
              let (extended, left) ← readOption option overrides element
              readElements others extended left
      | _, _ => .error .malformed

/-- Reads an array whose opening bracket has been taken. -/
def readArray (text : Text) : Except ConfigError (Overrides × Text) :=
  match OptionName.all, Json.skipBlanks text with
  | _, ']' :: rest => return (Overrides.empty, rest)
  | option :: others, element => do
      let (extended, left) ← readOption option Overrides.empty element
      readElements others extended left
  | [], _ => .error .malformed

/-- Reads the object or array of options. -/
def readOverrides (text : Text) : Except ConfigError (Overrides × Text) :=
  match Json.skipBlanks text with
  | '\x7b' :: rest => readObject rest
  | '[' :: rest => readArray rest
  | other => .error (wrongType other)

end Config

/-- The options that a configuration text gives; nothing may follow them. -/
def Overrides.ofConfig (text : Text) : Except ConfigError Overrides := do
  let (overrides, left) ← Config.readOverrides text
  if (Json.skipBlanks left).isEmpty then return overrides else .error .malformed

/-- The options of a configuration text laid over the defaults. -/
def Options.ofConfig (text : Text) : Except ConfigError Options :=
  (Overrides.ofConfig text).map fun overrides => overrides.apply Options.default

end CssRescale
