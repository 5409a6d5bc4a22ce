import CssRescale.Sheet.Token

/-!
Contract: the blocks of a style sheet.

A component is one token or a whole block. A closing bracket ends the innermost
open block if it matches it, and is a token of that block otherwise. What is
still open at the end of the sheet ends there.

Owns: the type `Component`, grouping tokens into components, and the text of
components.
-/

set_option autoImplicit false

namespace CssRescale

/-- A token that opens no block, or a block. The closing text is empty if the
block was not closed. -/
inductive Component where
  | single (token : SheetToken)
  | block (bracket : Bracket) (opening : Text) (contents : List Component) (closing : Text)

namespace Component

mutual

def text : Component → Text
  | .single token => token.raw
  | .block _ opening contents closing => opening ++ textEach contents ++ closing

/-- The texts of components, one after another. -/
def textEach : List Component → Text
  | [] => []
  | component :: rest => component.text ++ textEach rest

end

end Component

/-- A block that is still open: what stands before it and how it was opened. -/
structure OpenBlock where
  before : List Component
  bracket : Bracket
  opening : Text

/-- Components under construction: those of the innermost open block, and the
blocks around them, innermost first. -/
structure Grouping where
  current : List Component
  enclosing : List OpenBlock

namespace Grouping

def empty : Grouping := ⟨[], []⟩

/-- Takes a component into the innermost open block. -/
def push (component : Component) (grouping : Grouping) : Grouping :=
  { grouping with current := grouping.current ++ [component] }

def enter (bracket : Bracket) (opening : Text) (grouping : Grouping) : Grouping :=
  ⟨[], ⟨grouping.current, bracket, opening⟩ :: grouping.enclosing⟩

def leave (bracket : Bracket) (token : SheetToken) (grouping : Grouping) : Grouping :=
  match grouping.enclosing with
  | [] => grouping.push (.single token)
  | parent :: rest =>
      if parent.bracket = bracket then
        ⟨parent.before ++ [.block bracket parent.opening grouping.current token.raw], rest⟩
      else
        grouping.push (.single token)

def take (grouping : Grouping) (token : SheetToken) : Grouping :=
  match token.kind with
  | .opening bracket => grouping.enter bracket token.raw
  | .closing bracket => grouping.leave bracket token
  | _ => grouping.push (.single token)

/-- Ends the blocks that are still open, innermost first. -/
def closeAll : List Component → List OpenBlock → List Component
  | current, [] => current
  | current, parent :: rest =>
      closeAll (parent.before ++ [.block parent.bracket parent.opening current []]) rest

def finish (grouping : Grouping) : List Component :=
  closeAll grouping.current grouping.enclosing

end Grouping

def Component.ofTokens (tokens : List SheetToken) : List Component :=
  (tokens.foldl Grouping.take Grouping.empty).finish

def Component.ofText (source : Text) : List Component :=
  ofTokens (SheetToken.scan source)

end CssRescale
