import CssRescale.Value.Basic

/-!
Contract: walks over a value, from left to right and from the outside in.

A visitor carries a state, may change each measurement it meets, and decides at
each call whether to go into its arguments. Everything else in the tree stays.
-/

set_option autoImplicit false

namespace CssRescale

/-- What a walk does at a measurement and at a call. -/
structure Visitor (σ : Type) where
  /-- The measurement to leave in its place, and the state after it. -/
  number : Measurement → σ → Measurement × σ
  /-- Whether to go into the arguments of a call of this name, and the state after it. -/
  function : Text → σ → Bool × σ := fun _ state => (true, state)

variable {σ : Type}

mutual

def Node.visit (visitor : Visitor σ) : Node → σ → Node × σ
  | .number measurement, state =>
      let (changed, after) := visitor.number measurement state
      (.number changed, after)
  | .string raw terminated, state => (.string raw terminated, state)
  | .word raw, state => (.word raw, state)
  | .comment raw terminated, state => (.comment raw terminated, state)
  | .function name arguments separators closed, state =>
      match visitor.function name state with
      | (true, inside) =>
          let (changed, after) := Node.visitEach visitor arguments inside
          (.function name changed separators closed, after)
      | (false, after) => (.function name arguments separators closed, after)

def Node.visitEach (visitor : Visitor σ) : List Node → σ → List Node × σ
  | [], state => ([], state)
  | node :: rest, state =>
      let (changed, between) := node.visit visitor state
      let (changedRest, after) := Node.visitEach visitor rest between
      (changed :: changedRest, after)

end

def Value.visit (visitor : Visitor σ) (value : Value) (state : σ) : Value × σ :=
  let (items, after) := Node.visitEach visitor value.items state
  ({ value with items }, after)

end CssRescale
