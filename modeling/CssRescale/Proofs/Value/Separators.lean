import CssRescale.Proofs.Value.RoundTrip
import CssRescale.Proofs.Value.Strict

/-!
Contract: how items and separators lie in a tree.

An item of an open sequence is taken together with the separator before it, so an open
sequence has as many separators as items, and what is pending is the one that ends it. A
sequence that ends with nothing at all is left without a separator. It makes no difference
whether a sequence is ended by its parenthesis or by the end of the text.

Owns:
- the sequences of a tree, at every depth, and what it is for them to be laid out;
- the layout of open sequences, which every token keeps;
- the layout of every parsed value.
-/

set_option autoImplicit false

namespace CssRescale

/-! ## Sequences -/

/-- The items of a value or a call and the separators around them. -/
structure Sequence where
  items : List Node
  separators : List Text

mutual

/-- The sequences that calls hold at an item and inside it. -/
def Node.sequences : Node → List Sequence
  | .number _ => []
  | .string _ _ => []
  | .word _ => []
  | .comment _ _ => []
  | .function _ arguments separators _ => ⟨arguments, separators⟩ :: Node.sequencesEach arguments

def Node.sequencesEach : List Node → List Sequence
  | [] => []
  | node :: rest => node.sequences ++ Node.sequencesEach rest

end

/-- The sequences of a value: its own, and those of the calls in it at every depth. -/
def Value.sequences (value : Value) : List Sequence :=
  ⟨value.items, value.separators⟩ :: Node.sequencesEach value.items

/-- A text of white space and commas. -/
def IsSeparator (text : Text) : Prop := ∀ c ∈ text, isBlank c = true ∨ c = ','

/-- There is a separator before each item and after the last one, or there is nothing at
all; and separators are white space and commas. -/
structure Sequence.IsLaidOut (sequence : Sequence) : Prop where
  count : (sequence.items = [] ∧ sequence.separators = []) ∨
    sequence.separators.length = sequence.items.length + 1
  separators : ∀ separator ∈ sequence.separators, IsSeparator separator

/-- Every sequence of the value is laid out, and the value is empty exactly if its text is. -/
structure Value.IsLaidOut (value : Value) (source : Text) : Prop where
  sequences : ∀ sequence ∈ value.sequences, sequence.IsLaidOut
  isEmpty : value.isEmpty = true ↔ source = []

@[simp]
theorem Node.sequencesEach_append (left right : List Node) :
    Node.sequencesEach (left ++ right) = Node.sequencesEach left ++ Node.sequencesEach right := by
  induction left with
  | nil => rfl
  | cons node rest inductionHypothesis =>
      simp only [List.cons_append, Node.sequencesEach, inductionHypothesis, List.append_assoc]

theorem isSeparator_nil : IsSeparator [] := nofun

theorem IsSeparator.append
    {left right : Text}
    (leftSeparates : IsSeparator left)
    (rightSeparates : IsSeparator right) :
    IsSeparator (left ++ right) :=
  fun c member => (List.mem_append.mp member).elim (leftSeparates c) (rightSeparates c)

namespace Token

/-! ## White space -/

/-- If the token is white space, it holds nothing else. -/
def IsBlankAsSpace (token : Token) : Prop := ∀ raw, token = space raw → IsSeparator raw

theorem isBlankAsSpace_of_next?
    {state : UrlState}
    {source left : Text}
    {token : Token}
    (reading : next? state source = some (token, left)) :
    token.IsBlankAsSpace := by
  rintro raw rfl
  obtain ⟨first, rest, rfl, starts⟩ := exists_starts_of_next? reading nofun
  have read := (starts.of_space rfl).2
  rw [readSpace, Prod.mk.injEq, Token.space.injEq] at read
  intro c member
  exact .inl (List.all_eq_true.mp List.all_takeWhile c (read.1 ▸ member))

theorem isBlankAsSpace_of_mem_scan {source : Text} : ∀ token ∈ scan source, token.IsBlankAsSpace :=
  forall_mem_scanFrom isBlankAsSpace_of_next? .outside source

end Token

/-! ## Open sequences -/

namespace Frame

/-- Each item of an open sequence has its separator before it, what is pending can become
one, and the items are laid out inside. -/
structure IsLaidOut (frame : Frame) : Prop where
  aligned : frame.Aligned
  separators : ∀ separator ∈ frame.separators, IsSeparator separator
  pending : IsSeparator frame.pending
  inside : ∀ sequence ∈ Node.sequencesEach frame.items, sequence.IsLaidOut

theorem isLaidOut_empty (name : Text) : (empty name).IsLaidOut where
  aligned := aligned_empty name
  separators := nofun
  pending := isSeparator_nil
  inside := nofun

section

variable
  {frame : Frame}
  (laidOut : frame.IsLaidOut)

include laidOut

theorem IsLaidOut.push
    {node : Node}
    (inside : ∀ sequence ∈ node.sequences, sequence.IsLaidOut) :
    (frame.push node).IsLaidOut where
  aligned := laidOut.aligned.push node
  separators := List.forall_mem_append.mpr
    ⟨laidOut.separators, List.forall_mem_singleton.mpr laidOut.pending⟩
  pending := isSeparator_nil
  inside := by
    simp only [Frame.push, Node.sequencesEach_append, Node.sequencesEach, List.append_nil]
    exact List.forall_mem_append.mpr ⟨laidOut.inside, inside⟩

theorem IsLaidOut.separate
    {text : Text}
    (separates : IsSeparator text) :
    (frame.separate text).IsLaidOut where
  aligned := laidOut.aligned.separate text
  separators := laidOut.separators
  pending := laidOut.pending.append separates
  inside := laidOut.inside

/-- What is pending at the end is a separator more, unless it would be the only thing in
the sequence and is empty. -/
theorem IsLaidOut.ended : Sequence.IsLaidOut ⟨frame.items, frame.allSeparators⟩ := by
  have aligned : frame.separators.length = frame.items.length := laidOut.aligned
  unfold allSeparators
  split
  case isTrue nothing =>
    have noItems : frame.items = [] := List.isEmpty_iff.mp (Bool.and_eq_true_iff.mp nothing).1
    have noSeparators : frame.separators = [] := by
      rw [noItems] at aligned
      exact List.length_eq_zero_iff.mp aligned
    exact ⟨.inl ⟨noItems, noSeparators⟩, laidOut.separators⟩
  case isFalse =>
    have oneMore : (frame.separators ++ [frame.pending]).length = frame.items.length + 1 := by
      rw [List.length_append, aligned, List.length_singleton]
    exact ⟨.inr oneMore, List.forall_mem_append.mpr
      ⟨laidOut.separators, List.forall_mem_singleton.mpr laidOut.pending⟩⟩

theorem IsLaidOut.toFunction (closed : Bool) :
    ∀ sequence ∈ (frame.toFunction closed).sequences, sequence.IsLaidOut :=
  List.forall_mem_cons.mpr ⟨laidOut.ended, laidOut.inside⟩

theorem IsLaidOut.toValue : ∀ sequence ∈ frame.toValue.sequences, sequence.IsLaidOut :=
  List.forall_mem_cons.mpr ⟨laidOut.ended, laidOut.inside⟩

end

end Frame

/-! ## Builders -/

namespace Builder

/-- Every open sequence is laid out. -/
structure IsLaidOut (builder : Builder) : Prop where
  current : builder.current.IsLaidOut
  enclosing : ∀ frame ∈ builder.enclosing, frame.IsLaidOut

theorem isLaidOut_empty : empty.IsLaidOut := ⟨Frame.isLaidOut_empty [], nofun⟩

section

variable
  {builder : Builder}
  (laidOut : builder.IsLaidOut)

include laidOut

theorem IsLaidOut.push
    {node : Node}
    (inside : ∀ sequence ∈ node.sequences, sequence.IsLaidOut) :
    (builder.push node).IsLaidOut :=
  ⟨laidOut.current.push inside, laidOut.enclosing⟩

theorem IsLaidOut.separate
    {text : Text}
    (separates : IsSeparator text) :
    (builder.separate text).IsLaidOut :=
  ⟨laidOut.current.separate separates, laidOut.enclosing⟩

theorem IsLaidOut.enter (name : Text) : (builder.enter name).IsLaidOut :=
  ⟨Frame.isLaidOut_empty name, List.forall_mem_cons.mpr ⟨laidOut.current, laidOut.enclosing⟩⟩

theorem IsLaidOut.check
    (inPlace : Bool)
    (fault : Fault) :
    (builder.check inPlace fault).IsLaidOut := by
  unfold Builder.check
  split
  · exact laidOut
  · exact ⟨laidOut.current, laidOut.enclosing⟩

/-- The sequence that a parenthesis ends becomes a call in the sequence around it. -/
theorem IsLaidOut.leave (offset : Nat) : (builder.leave offset).IsLaidOut := by
  unfold Builder.leave
  split
  next => exact ⟨laidOut.current.push nofun, laidOut.enclosing⟩
  next parent rest nested =>
    obtain ⟨parentLaidOut, restLaidOut⟩ := List.forall_mem_cons.mp (nested ▸ laidOut.enclosing)
    exact ⟨parentLaidOut.push (laidOut.current.toFunction true), restLaidOut⟩

theorem IsLaidOut.take
    {located : LocatedToken}
    (blank : located.token.IsBlankAsSpace) :
    (builder.take located).IsLaidOut := by
  obtain ⟨offset, token⟩ := located
  cases token with
  | space text => exact laidOut.separate (blank text rfl)
  | comma => exact laidOut.separate fun c member => .inr (List.mem_singleton.mp member)
  | openParen => exact laidOut.enter []
  | closeParen => exact laidOut.leave offset
  | number literal unit =>
      refine laidOut.push ?_
      unfold numberNode
      split <;> exact nofun
  | string raw terminated => exact (laidOut.check terminated ⟨offset, raw⟩).push nofun
  | comment raw terminated => exact (laidOut.check terminated ⟨offset, raw⟩).push nofun
  | word raw => exact laidOut.push nofun
  | operator raw => exact laidOut.push nofun

end

theorem IsLaidOut.takeAll
    {tokens : List LocatedToken}
    {builder : Builder}
    (laidOut : builder.IsLaidOut)
    (blank : ∀ located ∈ tokens, located.token.IsBlankAsSpace) :
    (takeAll tokens builder).IsLaidOut := by
  fun_induction Builder.takeAll tokens builder with
  | case1 builder => exact laidOut
  | case2 _ name _ rest builder inductionHypothesis =>
      apply inductionHypothesis (laidOut.enter name)
      intro located member
      exact blank located (List.mem_cons_of_mem _ (List.mem_cons_of_mem _ member))
  | case3 located rest builder _ inductionHypothesis =>
      obtain ⟨first, others⟩ := List.forall_mem_cons.mp blank
      exact inductionHypothesis (laidOut.take first) others

/-- Sequences that the end of the text ends become calls in the sequences around them. -/
theorem isLaidOut_closeAll
    {current : Frame}
    {enclosing : List Frame}
    (laidOut : current.IsLaidOut)
    (enclosingLaidOut : ∀ frame ∈ enclosing, frame.IsLaidOut) :
    (closeAll current enclosing).IsLaidOut := by
  induction enclosing generalizing current with
  | nil => exact laidOut
  | cons parent rest inductionHypothesis =>
      obtain ⟨parentLaidOut, restLaidOut⟩ := List.forall_mem_cons.mp enclosingLaidOut
      exact inductionHypothesis (parentLaidOut.push (laidOut.toFunction false)) restLaidOut

theorem isLaidOut_ofText (source : Text) : (ofText source).IsLaidOut := by
  apply isLaidOut_empty.takeAll
  intro located member
  exact Token.isBlankAsSpace_of_mem_scan _ (LocatedToken.token_mem_of_mem_ofTokens member)

end Builder

/-! ## Parsed values -/

namespace Value

theorem sequences_parse (source : Text) :
    ∀ sequence ∈ (parse source).sequences, sequence.IsLaidOut := by
  have laidOut := Builder.isLaidOut_ofText source
  exact (Builder.isLaidOut_closeAll laidOut.current laidOut.enclosing).toValue

/-- A tree with nothing in it has no pieces, and every token has some, so it is that of the
empty text. -/
theorem isEmpty_parse_iff (source : Text) : (parse source).isEmpty = true ↔ source = [] := by
  constructor
  · intro nothing
    obtain ⟨noItems, noSeparators⟩ := Bool.and_eq_true_iff.mp nothing
    have noPieces : (parse source).pieces = [] := by
      rw [pieces, List.isEmpty_iff.mp noItems, List.isEmpty_iff.mp noSeparators]
      rfl
    rw [pieces_parse, List.flatMap_eq_nil_iff] at noPieces
    rw [← Token.concat_scan source, Token.concat, List.flatMap_eq_nil_iff]
    intro token member
    rw [← (Token.readsNumeral_of_mem_scan token member).flatMap_css_pieces, noPieces token member]
    rfl
  · rintro rfl
    have nothing : Builder.ofText [] = Builder.empty := by
      rw [Builder.ofText, Token.scanLocated, Token.scan, Token.scanFrom_nil]
      rfl
    rw [parse, nothing]
    rfl

/-- In the tree of every text, whether or not it is well formed, the value and each call at
every depth, closed or not, have one separator more than items or nothing at all; separators
are white space and commas; and the value is empty only if the text is. Strict building
gives no other trees. -/
theorem isLaidOut_parse (source : Text) :
    (parse source).IsLaidOut source ∧
      ∀ value, parseStrict source = .ok value → value.IsLaidOut source := by
  have laidOut : (parse source).IsLaidOut source :=
    ⟨sequences_parse source, isEmpty_parse_iff source⟩
  refine ⟨laidOut, fun value built => ?_⟩
  rcases parseStrict_cases source with ⟨-, builtToo⟩ | ⟨-, fault, refused⟩
  · exact Except.ok.inj (builtToo.symm.trans built) ▸ laidOut
  · exact absurd (refused.symm.trans built) nofun

end Value

end CssRescale
