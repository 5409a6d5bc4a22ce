import CssRescale.Sheet.Component

/-!
Contract: the declaration values of a style sheet.

A sheet is cut into segments: the values of its declarations, and the text
between them. The cut follows the structure of rules.

- A sheet holds rules. An at-rule runs to a semicolon or to the end of its
  block; any other rule runs to the end of its block.
- A block of a rule holds declarations and rules. An identifier with a colon
  after it starts a declaration, unless its value, which runs to a semicolon,
  has a block in curly brackets: then it starts a rule, as everything else does.
- A rule that starts with a custom property name and a colon is not looked into.

Owns: the type `Segment`, `Segment.ofSheet` and `Segment.ofDeclarations`, and the
positions of values.
-/

set_option autoImplicit false

namespace CssRescale

/-- A part of a style sheet. -/
inductive Segment where
  | verbatim (text : Text)
  /-- The value of a declaration: what stands between its colon and its end. -/
  | value (property : Text) (text : Text)
deriving DecidableEq, Repr

def Segment.text : Segment → Text
  | verbatim text => text
  | value _ text => text

namespace Component

/-! ## Kinds of components -/

/-- The kind of a component that is a token. -/
def kind? : Component → Option SheetTokenKind
  | .single token => some token.kind
  | .block _ _ _ _ => none

def isTrivia (component : Component) : Bool :=
  component.kind? = some .blank || component.kind? = some .comment

def isSemicolon (component : Component) : Bool := component.kind? = some .semicolon

def isColon (component : Component) : Bool := component.kind? = some .colon

def isCurlyBlock : Component → Bool
  | .block .curly _ _ _ => true
  | _ => false

/-- What follows a colon, if one is next after white space and comments. -/
def afterColon? (components : List Component) : Option (List Component) :=
  match components.dropWhile isTrivia with
  | [] => none
  | next :: rest => if next.isColon then some rest else none

/-- Do these components, which follow an identifier, make it a declaration? -/
def makeDeclaration (components : List Component) : Bool :=
  match afterColon? components with
  | none => false
  | some value => !(value.takeWhile fun next => !next.isSemicolon).any isCurlyBlock

/-- The start of the names of custom properties. -/
def customStart : Text := ['-', '-']

/-- Do these components, which follow an identifier, make it a custom property? -/
def makeCustom (name : Text) (components : List Component) : Bool :=
  customStart.isPrefixOf name && (afterColon? components).isSome

/-! ## The contents of a rule -/

/-- Where a walk through the contents of a rule stands. -/
inductive BodyState where
  | start
  /-- After the property of a declaration, before its colon. -/
  | property (name : Text)
  /-- In the value of a declaration, of which this much has been taken. -/
  | value (name taken : Text)
  /-- In something that runs to a semicolon and is not looked into. -/
  | statement
  /-- Before the block of a rule; a semicolon ends it. -/
  | prelude
deriving DecidableEq, Repr

/-- The state after the first token of a declaration or rule, given what
follows it. A token that belongs to neither leaves the state. -/
def BodyState.enter (kind : SheetTokenKind) (rest : List Component) : BodyState :=
  match kind with
  | .blank => .start
  | .comment => .start
  | .semicolon => .start
  | .closing .curly => .start
  | .identifier name =>
      if makeDeclaration rest then .property name
      else if makeCustom name rest then .statement
      else .prelude
  | _ => .prelude

/-- The state after a token in the state given, and the segments it adds. -/
def BodyState.step (state : BodyState) (token : SheetToken) (rest : List Component) :
    List Segment × BodyState :=
  match state with
  | .start => ([.verbatim token.raw], BodyState.enter token.kind rest)
  | .property name =>
      ([.verbatim token.raw],
        if token.kind = .colon then .value name [] else .property name)
  | .value name taken =>
      if token.kind = .semicolon then ([.value name taken, .verbatim token.raw], .start)
      else ([], .value name (taken ++ token.raw))
  | .statement =>
      ([.verbatim token.raw], if token.kind = .semicolon then .start else .statement)
  | .prelude =>
      ([.verbatim token.raw], if token.kind = .semicolon then .start else .prelude)

/-- Does a curly block that is met in this state hold the contents of a rule? -/
def BodyState.entersBlock : BodyState → Bool
  | .start => true
  | .prelude => true
  | _ => false

/-- The state after a block that is not entered, and the segments it adds. -/
def BodyState.skip (state : BodyState) (text : Text) : List Segment × BodyState :=
  match state with
  | .start => ([.verbatim text], .prelude)
  | .value name taken => ([], .value name (taken ++ text))
  | other => ([.verbatim text], other)

/-- The segments that the end of the contents adds. -/
def BodyState.finish : BodyState → List Segment
  | .value name taken => [.value name taken]
  | _ => []

mutual

/-- The segments of the contents of a rule. -/
def body : BodyState → List Component → List Segment
  | state, [] => state.finish
  | state, .single token :: rest =>
      (state.step token rest).1 ++ body (state.step token rest).2 rest
  | state, component :: rest =>
      if state.entersBlock && component.isCurlyBlock then
        component.inside ++ body .start rest
      else
        (state.skip component.text).1 ++ body (state.skip component.text).2 rest

/-- The segments of a block that holds the contents of a rule. -/
def inside : Component → List Segment
  | .single token => [.verbatim token.raw]
  | .block _ opening contents closing =>
      .verbatim opening :: body .start contents ++ [.verbatim closing]

end

/-! ## The rules of a sheet -/

/-- Where a walk through the rules of a sheet stands. -/
inductive SheetState where
  /-- Before a rule, perhaps the first one. -/
  | start (first : Bool)
  | prelude
  /-- Before the block of an at-rule; a semicolon ends it. -/
  | atRule
  /-- In a rule that is not looked into and ends with its block. -/
  | custom
  /-- In a rule that is not looked into and ends with a block or a semicolon. -/
  | charset
deriving DecidableEq, Repr

/-- The name of the rule that gives the encoding of a sheet. -/
def charsetName : Text := ['c', 'h', 'a', 'r', 's', 'e', 't']

/-- The state after the first token of a rule, given what follows it. A token
that belongs to no rule leaves the state. -/
def SheetState.enter (first : Bool) (kind : SheetTokenKind) (rest : List Component) :
    SheetState :=
  match kind with
  | .blank => .start first
  | .comment => .start first
  | .marker => .start first
  | .atKeyword name =>
      if first && Text.equalIgnoringCase name charsetName then .charset else .atRule
  | .identifier name => if makeCustom name rest then .custom else .prelude
  | _ => .prelude

def SheetState.step (state : SheetState) (token : SheetToken) (rest : List Component) :
    SheetState :=
  match state with
  | .start first => SheetState.enter first token.kind rest
  | .prelude => .prelude
  | .atRule => if token.kind = .semicolon then .start false else .atRule
  | .custom => .custom
  | .charset => if token.kind = .semicolon then .start false else .charset

/-- Does a curly block that is met in this state hold the contents of a rule? -/
def SheetState.entersBlock : SheetState → Bool
  | .start _ => true
  | .prelude => true
  | .atRule => true
  | .custom => false
  | .charset => false

/-- The state after a block that is not a curly one. -/
def SheetState.skip : SheetState → SheetState
  | .start _ => .prelude
  | other => other

/-- The segments of the rules of a sheet. -/
def sheet : SheetState → List Component → List Segment
  | _, [] => []
  | state, .single token :: rest => .verbatim token.raw :: sheet (state.step token rest) rest
  | state, component :: rest =>
      if component.isCurlyBlock then
        (if state.entersBlock then component.inside else [.verbatim component.text])
          ++ sheet (.start false) rest
      else
        .verbatim component.text :: sheet state.skip rest

end Component

namespace Segment

def ofSheet (source : Text) : List Segment :=
  Component.sheet (.start true) (Component.ofText source)

/-- The segments of a list of declarations. -/
def ofDeclarations (source : Text) : List Segment :=
  Component.body .start (Component.ofText source)

end Segment

/-- The place of a declaration value: its property and the byte positions
between which it stands. -/
structure Declaration where
  property : Text
  start : Nat
  stop : Nat
deriving DecidableEq, Repr

/-- The places of the values among segments that start at a byte position. -/
def Declaration.ofSegments : Nat → List Segment → List Declaration
  | _, [] => []
  | offset, .verbatim text :: rest => ofSegments (offset + Text.byteLength text) rest
  | offset, .value property text :: rest =>
      ⟨property, offset, offset + Text.byteLength text⟩
        :: ofSegments (offset + Text.byteLength text) rest

/-- The declaration values of a style sheet, in order. -/
def Declaration.ofSheet (source : Text) : List Declaration :=
  ofSegments 0 (Segment.ofSheet source)

/-- The declaration values of a list of declarations, in order. -/
def Declaration.ofList (source : Text) : List Declaration :=
  ofSegments 0 (Segment.ofDeclarations source)

end CssRescale
