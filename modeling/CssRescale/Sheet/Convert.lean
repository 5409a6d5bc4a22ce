import CssRescale.Convert.Text
import CssRescale.Sheet.Segment

/-!
Contract: conversion of style sheets and of declaration lists.

The declarations are located first. Then the value of each of them is converted
in its place, and everything else is copied. The first value that is refused, in
order, is the error, with its position in the sheet.
-/

set_option autoImplicit false

namespace CssRescale

/-- What a conversion found and did. -/
structure Report where
  declarations : Nat
  /-- The number of declarations whose value changed. -/
  rewritten : Nat
deriving DecidableEq, Repr

namespace Report

def empty : Report := ⟨0, 0⟩

def count (changed : Bool) (report : Report) : Report :=
  ⟨report.declarations + 1, report.rewritten + changed.toNat⟩

end Report

namespace Converter

/-- Converts the values at the places given, one after another.

The source is copied lazily: `copied` is the position up to which it has been
copied, and only a value that changes makes the text before it follow. A place
that is no part of the source, or that starts in what has been copied, is passed
over. -/
def splice (converter : Converter) (source : Text) :
    Nat → List Declaration → Except Fault (Text × Report)
  | copied, [] =>
      .ok ((source.slice? copied (Text.byteLength source)).getD [], Report.empty)
  | copied, declaration :: rest =>
      match source.slice? declaration.start declaration.stop with
      | none => converter.splice source copied rest
      | some value =>
          if declaration.start < copied then converter.splice source copied rest
          else do
            let converted ← (converter.convert value).mapError (Fault.shift declaration.start)
            if converted = value then
              let (output, report) ← converter.splice source copied rest
              return (output, report.count false)
            else
              let (output, report) ← converter.splice source declaration.stop rest
              return ((source.slice? copied declaration.start).getD [] ++ converted ++ output,
                report.count true)

def convertSheet (converter : Converter) (source : Text) : Except Fault (Text × Report) :=
  converter.splice source 0 (Declaration.ofSheet source)

def convertDeclarations (converter : Converter) (source : Text) : Except Fault Text :=
  (converter.splice source 0 (Declaration.ofList source)).map Prod.fst

end Converter

end CssRescale
