import CssRescale.Binary64.Arithmetic
import CssRescale.Decimal.Basic

/-!
Contract: reading the text of a number.

Owns: the accepted grammar,

    sign? (digits ("." digits?)? | "." digits) (("e" | "E") sign? digits)?

or, without regard to case and with an optional sign, `inf`, `infinity` or
`nan`, and the correctly rounded value of each accepted text.
-/

set_option autoImplicit false

namespace CssRescale.Decimal

/-- The value of a sign and a run of digits. -/
def signedValue (sign digits : Text) : Int :=
  Binary64.signed (sign == ['-']) (Text.digitsValue digits)

/-- The exponent a number ends with: zero if nothing follows the digits, and
none if something other than an exponent does. -/
def readExponent? : Text → Option Int
  | [] => some 0
  | mark :: rest =>
      if isExponentMark mark then
        let (sign, afterSign) := Text.takeSign rest
        let (digits, left) := Text.takeDigits afterSign
        if digits.isEmpty || !left.isEmpty then none
        else some (signedValue sign digits)
      else
        none

def readUnsigned? (text : Text) : Option Decimal := do
  let (whole, afterWhole) := Text.takeDigits text
  let (fraction, afterFraction) :=
    match afterWhole with
    | '.' :: rest => Text.takeDigits rest
    | _ => ([], afterWhole)
  if whole.isEmpty && fraction.isEmpty then
    none
  else
    let exponent ← readExponent? afterFraction
    return ⟨Text.digitsValue (whole ++ fraction), exponent - fraction.length⟩

/-- The names of the values that are not finite. -/
def readSpecial? (negative : Bool) (text : Text) : Option Binary64 :=
  if Text.equalIgnoringCase text ['i', 'n', 'f']
      || Text.equalIgnoringCase text ['i', 'n', 'f', 'i', 'n', 'i', 't', 'y'] then
    some (Binary64.infinite negative)
  else if Text.equalIgnoringCase text ['n', 'a', 'n'] then
    some Binary64.nan
  else
    none

/-- Reads the text of a number; all of it must be taken. -/
def read? (text : Text) : Option Binary64 :=
  let (sign, unsigned) := Text.takeSign text
  let negative := sign == ['-']
  match readSpecial? negative unsigned with
  | some value => some value
  | none => (readUnsigned? unsigned).map (toBinary64 negative)

end CssRescale.Decimal
