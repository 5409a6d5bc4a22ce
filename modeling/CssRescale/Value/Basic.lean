import CssRescale.Value.Measurement

/-!
Contract: declaration values as trees.

A value is a sequence of items with separators around them. Items are leaves or
function calls, and a call holds a sequence of its own. Separators are the
white space and commas as written, so writing an unchanged tree gives back the
text it was built from.

Owns:
- the types `Node` and `Value`;
- writing trees;
- the measurements of a tree, in order;
- comparison of trees.

Does not own: building trees from text, changing them, or walking them.
-/

set_option autoImplicit false

namespace CssRescale

/-- An item of a value. -/
inductive Node where
  | number (measurement : Measurement)
  | string (raw : Text) (terminated : Bool)
  | word (raw : Text)
  | comment (raw : Text) (terminated : Bool)
  /-- A call, or a group in parentheses if the name is empty. It is closed if
  its closing parenthesis was written. -/
  | function (name : Text) (arguments : List Node) (separators : List Text) (closed : Bool)

/-- A whole declaration value. -/
structure Value where
  items : List Node
  separators : List Text

/-- Puts each separator before the piece of its position; what is left of the
longer list follows. -/
def interleave {α : Type} : List (List α) → List (List α) → List α
  | separators, [] => separators.flatten
  | [], piece :: pieces => piece ++ interleave [] pieces
  | separator :: separators, piece :: pieces =>
      separator ++ piece ++ interleave separators pieces

mutual

def Node.css : Node → Text
  | .number measurement => measurement.css
  | .string raw _ => raw
  | .word raw => raw
  | .comment raw _ => raw
  | .function name arguments separators closed =>
      name ++ '(' :: interleave separators (Node.cssEach arguments)
        ++ (if closed then [')'] else [])

def Node.cssEach : List Node → List Text
  | [] => []
  | node :: rest => node.css :: Node.cssEach rest

end

mutual

/-- The measurements of an item, in order. -/
def Node.numbers : Node → List Measurement
  | .number measurement => [measurement]
  | .string _ _ => []
  | .word _ => []
  | .comment _ _ => []
  | .function _ arguments _ _ => Node.numbersEach arguments

def Node.numbersEach : List Node → List Measurement
  | [] => []
  | node :: rest => node.numbers ++ Node.numbersEach rest

end

mutual

/-- Equality in every part, with numbers compared as numbers. -/
def Node.same : Node → Node → Bool
  | .number left, .number right => left.same right
  | .string leftRaw leftTerminated, .string rightRaw rightTerminated =>
      leftRaw == rightRaw && leftTerminated == rightTerminated
  | .word leftRaw, .word rightRaw => leftRaw == rightRaw
  | .comment leftRaw leftTerminated, .comment rightRaw rightTerminated =>
      leftRaw == rightRaw && leftTerminated == rightTerminated
  | .function leftName leftArguments leftSeparators leftClosed,
      .function rightName rightArguments rightSeparators rightClosed =>
      leftName == rightName && Node.sameEach leftArguments rightArguments
        && leftSeparators == rightSeparators && leftClosed == rightClosed
  | _, _ => false

def Node.sameEach : List Node → List Node → Bool
  | [], [] => true
  | left :: leftRest, right :: rightRest => left.same right && Node.sameEach leftRest rightRest
  | _, _ => false

end

namespace Value

def css (value : Value) : Text := interleave value.separators (Node.cssEach value.items)

/-- The measurements of a value at every depth, in order. -/
def numbers (value : Value) : List Measurement := Node.numbersEach value.items

/-- Is there neither an item nor a separator? -/
def isEmpty (value : Value) : Bool := value.items.isEmpty && value.separators.isEmpty

/-- Equality in every part, with numbers compared as numbers. -/
def same (left right : Value) : Bool :=
  Node.sameEach left.items right.items && left.separators == right.separators

end Value

end CssRescale
