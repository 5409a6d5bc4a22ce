import CssRescale.Convert.Number
import CssRescale.Value.Build
import CssRescale.Value.Visit

/-!
Contract: conversion of whole values, as trees and as texts.

Owns:
- conversion of every measurement of a tree, with the number of those rewritten;
- conversion of a text, strict or not;
- the type `Converter`, rules together with a choice of strictness.
-/

set_option autoImplicit false

namespace CssRescale

namespace Rules

/-- Converts each measurement and counts those rewritten. -/
def visitor (rules : Rules) : Visitor Nat where
  number measurement count :=
    (rules.convertMeasurement measurement,
      if rules.isRewritten measurement then count + 1 else count)

/-- Converts every measurement of a tree; the second part counts those rewritten. -/
def convertValue (rules : Rules) (value : Value) : Value × Nat :=
  value.visit rules.visitor 0

/-- The text of a converted tree; where nothing was rewritten it is the source. -/
def convertParsed (rules : Rules) (source : Text) (value : Value) : Text :=
  let (converted, count) := rules.convertValue value
  if count = 0 then source else converted.css

def convertText (rules : Rules) (source : Text) : Text :=
  rules.convertParsed source (Value.parse source)

/-- Converts a text that has no fault. -/
def convertTextStrict (rules : Rules) (source : Text) : Except Fault Text :=
  (Value.parseStrict source).map (rules.convertParsed source)

end Rules

/-- Rules, and whether faults are refused. -/
structure Converter where
  rules : Rules
  strict : Bool

def Converter.convert (converter : Converter) (source : Text) : Except Fault Text :=
  if converter.strict then converter.rules.convertTextStrict source
  else .ok (converter.rules.convertText source)

end CssRescale
