import CssRescale.Text.Quoted
import CssRescale.Token.Scan
import CssRescale.Value.Basic

/-!
Contract: the tree of every text.

Tokens are taken one by one into the innermost open sequence. Nothing is an
error: a closing parenthesis without an opening one is a word, and a call that
is still open at the end is closed there without a parenthesis.

The first token that is out of place is remembered. Strict building gives the
same tree, or fails with that token, or else with the innermost open call.

Owns: `Value.parse`, `Value.parseStrict` and the type of faults.
-/

set_option autoImplicit false

namespace CssRescale

/-- A token that is out of place, and the byte offset where it is. -/
structure Fault where
  offset : Nat
  token : Text
deriving DecidableEq, Repr

/-- The fault as seen from a larger text in which the value starts at a byte offset. -/
def Fault.shift (start : Nat) (fault : Fault) : Fault :=
  { fault with offset := fault.offset + start }

def Fault.message (fault : Fault) : Text :=
  "malformed value at byte ".toList ++ Decimal.naturalDigits fault.offset
    ++ ": unexpected ".toList ++ Text.quoted fault.token

/-- A sequence that still takes items: the whole value, or a call whose closing
parenthesis has not been met. -/
structure Frame where
  name : Text
  items : List Node
  separators : List Text
  /-- The white space and commas since the last item. -/
  pending : Text

namespace Frame

def empty (name : Text) : Frame := ⟨name, [], [], []⟩

def push (node : Node) (frame : Frame) : Frame :=
  { frame with
    items := frame.items ++ [node]
    separators := frame.separators ++ [frame.pending]
    pending := [] }

def separate (text : Text) (frame : Frame) : Frame :=
  { frame with pending := frame.pending ++ text }

/-- The separators of the finished sequence: one more than its items, or none
if there is nothing at all. -/
def allSeparators (frame : Frame) : List Text :=
  if frame.items.isEmpty && frame.pending.isEmpty then frame.separators
  else frame.separators ++ [frame.pending]

/-- The call that a finished sequence makes. -/
def toFunction (closed : Bool) (frame : Frame) : Node :=
  .function frame.name frame.items frame.allSeparators closed

/-- The value that a finished sequence makes. -/
def toValue (frame : Frame) : Value := ⟨frame.items, frame.allSeparators⟩

end Frame

/-- A tree under construction. -/
structure Builder where
  current : Frame
  /-- The sequences around it, innermost first; the last one is the whole value. -/
  enclosing : List Frame
  /-- The first token that was out of place. -/
  fault? : Option Fault

namespace Builder

def empty : Builder := ⟨Frame.empty [], [], none⟩

/-- Takes an item into the innermost sequence. -/
def push (node : Node) (builder : Builder) : Builder :=
  { builder with current := builder.current.push node }

/-- Takes white space or a comma into the innermost sequence. -/
def separate (text : Text) (builder : Builder) : Builder :=
  { builder with current := builder.current.separate text }

def enter (name : Text) (builder : Builder) : Builder :=
  { builder with
    current := Frame.empty name
    enclosing := builder.current :: builder.enclosing }

/-- Remembers a fault unless there was one before. -/
def reject (fault : Fault) (builder : Builder) : Builder :=
  { builder with fault? := builder.fault?.or (some fault) }

/-- Remembers a fault at a token unless the token is in place. -/
def check (inPlace : Bool) (fault : Fault) (builder : Builder) : Builder :=
  if inPlace then builder else builder.reject fault

/-- Takes a closing parenthesis: it ends the innermost call, or is a word if
there is none. -/
def leave (offset : Nat) (builder : Builder) : Builder :=
  match builder.enclosing with
  | [] => (builder.reject ⟨offset, [')']⟩).push (.word [')'])
  | parent :: rest =>
      { builder with
        current := parent.push (builder.current.toFunction true)
        enclosing := rest }

/-- The item that a number token makes. -/
def numberNode (literal unit : Text) : Node :=
  match Measurement.read? literal unit with
  | some measurement => .number measurement
  | none => .word (literal ++ unit)

def take (located : LocatedToken) (builder : Builder) : Builder :=
  match located.token with
  | .space text => builder.separate text
  | .comma => builder.separate [',']
  | .openParen => builder.enter []
  | .closeParen => builder.leave located.offset
  | .number literal unit => builder.push (numberNode literal unit)
  | .string raw terminated =>
      (builder.check terminated ⟨located.offset, raw⟩).push (.string raw terminated)
  | .comment raw terminated =>
      (builder.check terminated ⟨located.offset, raw⟩).push (.comment raw terminated)
  | .word raw => builder.push (.word raw)
  | .operator raw => builder.push (.word raw)

/-- Takes all tokens; a word right before an opening parenthesis names the call. -/
def takeAll : List LocatedToken → Builder → Builder
  | [], builder => builder
  | ⟨_, .word name⟩ :: ⟨_, .openParen⟩ :: rest, builder => takeAll rest (builder.enter name)
  | located :: rest, builder => takeAll rest (builder.take located)

/-- Ends the sequences that are still open, innermost first. -/
def closeAll : Frame → List Frame → Frame
  | current, [] => current
  | current, parent :: rest => closeAll (parent.push (current.toFunction false)) rest

/-- The value built so far, with every open call ended. -/
def finish (builder : Builder) : Value := (closeAll builder.current builder.enclosing).toValue

/-- The first fault; for a text without one, the innermost call that is still
open at its end. -/
def finalFault? (length : Nat) (builder : Builder) : Option Fault :=
  match builder.fault?, builder.enclosing with
  | some fault, _ => some fault
  | none, [] => none
  | none, _ :: _ => some ⟨length, builder.current.name ++ ['(']⟩

/-- The builder that has taken a whole text. -/
def ofText (source : Text) : Builder := takeAll (Token.scanLocated source) empty

end Builder

namespace Value

def parse (source : Text) : Value := (Builder.ofText source).finish

/-- The tree of a text in which parentheses are balanced and strings and
comments are terminated. -/
def parseStrict (source : Text) : Except Fault Value :=
  match (Builder.ofText source).finalFault? (Text.byteLength source) with
  | some fault => .error fault
  | none => .ok (parse source)

end Value

end CssRescale
