import CssRescale.Value.Basic

/-!
Contract: changes to one measurement of a value, found by its path.

A path is the position of an item in the value, then of an argument in that
call, and so on.

Owns: `Value.edit?` and the reasons for which there is nothing to change.
-/

set_option autoImplicit false

namespace CssRescale

/-- Why a path leads to no measurement. -/
inductive PathError where
  /-- The path is empty, leaves the tree or goes into an item that is no call. -/
  | noSuchNode
  /-- The path leads to an item other than a measurement. -/
  | notANumber
deriving DecidableEq, Repr

/-- Changes the measurement at a position and, inside the item there, at the rest of a path. -/
def Node.editAt
    (change : Measurement → Measurement) :
    Nat → List Nat → List Node → Except PathError (List Node)
  | position, path, nodes =>
      match nodes[position]?, path with
      | none, _ => .error .noSuchNode
      | some (.number measurement), [] =>
          .ok (nodes.set position (.number (change measurement)))
      | some _, [] => .error .notANumber
      | some (.function name arguments separators closed), next :: rest => do
          let changed ← Node.editAt change next rest arguments
          return nodes.set position (.function name changed separators closed)
      | some _, _ :: _ => .error .noSuchNode

def Value.edit?
    (change : Measurement → Measurement)
    (path : List Nat)
    (value : Value) :
    Except PathError Value :=
  match path with
  | [] => .error .noSuchNode
  | position :: rest => do
      let items ← Node.editAt change position rest value.items
      return { value with items }

end CssRescale
