import CssRescale.Proofs.Value.Pieces

/-!
Contract: building a tree keeps every piece in its place.

While tokens are taken, the pieces of the sequences that are open, from the
outermost to the innermost, are the pieces of the tokens taken so far. This
holds for every order of tokens, balanced or not, and closing what is left open
at the end adds nothing.

Owns: the pieces of frames and builders, one law for each step, and the pieces
of every parsed value.
-/

set_option autoImplicit false

namespace CssRescale

/-- The pieces of a token: a number is the measurement it reads as. -/
def Token.pieces : Token → List Piece
  | .number literal unit => (Builder.numberNode literal unit).pieces
  | .string raw _ => Piece.ofText raw
  | .comment raw _ => Piece.ofText raw
  | .word raw => Piece.ofText raw
  | .operator raw => Piece.ofText raw
  | .openParen => Piece.ofText ['(']
  | .closeParen => Piece.ofText [')']
  | .comma => Piece.ofText [',']
  | .space raw => Piece.ofText raw

/-! ## Interleaving at the end -/

theorem interleave_append_item
    {α : Type}
    {separators pieces : List (List α)}
    (aligned : separators.length = pieces.length)
    (separator piece : List α) :
    interleave (separators ++ [separator]) (pieces ++ [piece]) =
      interleave separators pieces ++ separator ++ piece := by
  induction pieces generalizing separators with
  | nil =>
      rw [List.length_nil, List.length_eq_zero_iff] at aligned
      simp [aligned, interleave]
  | cons first rest inductionHypothesis =>
      cases separators with
      | nil => simp at aligned
      | cons head tail =>
          have shorter : tail.length = rest.length := by simpa using aligned
          simp [interleave, inductionHypothesis shorter]

theorem interleave_append_separator
    {α : Type}
    {separators pieces : List (List α)}
    (aligned : separators.length = pieces.length)
    (separator : List α) :
    interleave (separators ++ [separator]) pieces = interleave separators pieces ++ separator := by
  induction pieces generalizing separators with
  | nil =>
      rw [List.length_nil, List.length_eq_zero_iff] at aligned
      simp [aligned, interleave]
  | cons first rest inductionHypothesis =>
      cases separators with
      | nil => simp at aligned
      | cons head tail =>
          have shorter : tail.length = rest.length := by simpa using aligned
          simp [interleave, inductionHypothesis shorter]

/-! ## Frames -/

namespace Frame

/-- Every item of an open sequence has the separator before it. -/
def Aligned (frame : Frame) : Prop := frame.separators.length = frame.items.length

/-- The pieces between the parentheses of an open sequence, as far as they have been taken. -/
def body (frame : Frame) : List Piece :=
  interleave (frame.separators.map Piece.ofText) (Node.piecesEach frame.items)
    ++ Piece.ofText frame.pending

theorem aligned_empty (name : Text) : (empty name).Aligned := rfl

theorem Aligned.push {frame : Frame} (aligned : frame.Aligned) (node : Node) :
    (frame.push node).Aligned := by
  simpa [Aligned, Frame.push] using aligned

theorem Aligned.separate {frame : Frame} (aligned : frame.Aligned) (text : Text) :
    (frame.separate text).Aligned := aligned

theorem Aligned.separators_pieces {frame : Frame} (aligned : frame.Aligned) :
    (frame.separators.map Piece.ofText).length = (Node.piecesEach frame.items).length := by
  rw [List.length_map, Node.length_piecesEach]
  exact aligned

@[simp]
theorem body_empty (name : Text) : (empty name).body = [] := rfl

theorem body_push {frame : Frame} (aligned : frame.Aligned) (node : Node) :
    (frame.push node).body = frame.body ++ node.pieces := by
  have extended := interleave_append_item aligned.separators_pieces
    (Piece.ofText frame.pending) node.pieces
  simp only [body, push, List.map_append, List.map_cons, List.map_nil, Node.piecesEach_append,
    Node.piecesEach]
  rw [extended]
  simp [Piece.ofText]

theorem body_separate (frame : Frame) (text : Text) :
    (frame.separate text).body = frame.body ++ Piece.ofText text := by
  simp [body, separate]

/-- The separators of a finished sequence hold what was pending. -/
theorem interleave_allSeparators {frame : Frame} (aligned : frame.Aligned) :
    interleave (frame.allSeparators.map Piece.ofText) (Node.piecesEach frame.items) =
      frame.body := by
  unfold allSeparators body
  split
  next nothing =>
    simp only [Bool.and_eq_true, List.isEmpty_iff] at nothing
    simp [nothing.2, Piece.ofText]
  next =>
    rw [List.map_append]
    exact interleave_append_separator aligned.separators_pieces _

theorem pieces_toFunction {frame : Frame} (aligned : frame.Aligned) (closed : Bool) :
    (frame.toFunction closed).pieces =
      Piece.ofText (frame.name ++ ['(']) ++ frame.body
        ++ Piece.ofText (if closed then [')'] else []) := by
  simp only [toFunction, Node.pieces, interleave_allSeparators aligned]

theorem pieces_toValue {frame : Frame} (aligned : frame.Aligned) :
    frame.toValue.pieces = frame.body :=
  interleave_allSeparators aligned

end Frame

/-! ## Builders -/

namespace Builder

/-- The pieces of open sequences, the innermost of which comes first in the list. -/
def openPieces : Frame → List Frame → List Piece
  | current, [] => current.body
  | current, parent :: rest =>
      openPieces parent rest ++ Piece.ofText (current.name ++ ['(']) ++ current.body

def pieces (builder : Builder) : List Piece := openPieces builder.current builder.enclosing

/-- Every open sequence is aligned. -/
structure Aligned (builder : Builder) : Prop where
  current : builder.current.Aligned
  enclosing : ∀ frame ∈ builder.enclosing, frame.Aligned

theorem aligned_empty : empty.Aligned where
  current := Frame.aligned_empty []
  enclosing := by
    intro frame member
    cases member

theorem openPieces_append
    {current extended : Frame}
    {added : List Piece}
    (sameBody : extended.body = current.body ++ added)
    (sameName : extended.name = current.name)
    (enclosing : List Frame) :
    openPieces extended enclosing = openPieces current enclosing ++ added := by
  cases enclosing with
  | nil => exact sameBody
  | cons parent rest => simp [openPieces, sameName, sameBody]

theorem Aligned.push {builder : Builder} (aligned : builder.Aligned) (node : Node) :
    (builder.push node).Aligned where
  current := aligned.current.push node
  enclosing := aligned.enclosing

theorem pieces_push {builder : Builder} (aligned : builder.Aligned) (node : Node) :
    (builder.push node).pieces = builder.pieces ++ node.pieces :=
  openPieces_append (Frame.body_push aligned.current node) rfl builder.enclosing

theorem Aligned.separate {builder : Builder} (aligned : builder.Aligned) (text : Text) :
    (builder.separate text).Aligned where
  current := aligned.current.separate text
  enclosing := aligned.enclosing

theorem pieces_separate (builder : Builder) (text : Text) :
    (builder.separate text).pieces = builder.pieces ++ Piece.ofText text :=
  openPieces_append (Frame.body_separate builder.current text) rfl builder.enclosing

theorem Aligned.enter {builder : Builder} (aligned : builder.Aligned) (name : Text) :
    (builder.enter name).Aligned where
  current := Frame.aligned_empty name
  enclosing := by
    intro frame member
    rcases List.mem_cons.mp member with rfl | member
    · exact aligned.current
    · exact aligned.enclosing frame member

theorem pieces_enter (builder : Builder) (name : Text) :
    (builder.enter name).pieces = builder.pieces ++ Piece.ofText (name ++ ['(']) := by
  simp [pieces, enter, openPieces, Frame.empty, Frame.body, interleave, Node.piecesEach,
    Piece.ofText]

theorem Aligned.check
    {builder : Builder}
    (aligned : builder.Aligned)
    (inPlace : Bool)
    (fault : Fault) :
    (builder.check inPlace fault).Aligned := by
  unfold Builder.check
  split
  · exact aligned
  · exact ⟨aligned.current, aligned.enclosing⟩

@[simp]
theorem pieces_check (builder : Builder) (inPlace : Bool) (fault : Fault) :
    (builder.check inPlace fault).pieces = builder.pieces := by
  unfold check
  split <;> rfl

theorem Aligned.leave {builder : Builder} (aligned : builder.Aligned) (offset : Nat) :
    (builder.leave offset).Aligned := by
  unfold Builder.leave
  split
  next => exact ⟨aligned.current.push _, aligned.enclosing⟩
  next parent rest nested =>
    have parentAligned : parent.Aligned := aligned.enclosing parent (by simp [nested])
    refine ⟨parentAligned.push _, ?_⟩
    intro frame member
    exact aligned.enclosing frame (by simp [nested, member])

/-- A closing parenthesis is the last piece, whether or not it ends a call. -/
theorem pieces_leave {builder : Builder} (aligned : builder.Aligned) (offset : Nat) :
    (builder.leave offset).pieces = builder.pieces ++ Piece.ofText [')'] := by
  unfold leave
  split
  next =>
    have rejected : (builder.reject ⟨offset, [')']⟩).Aligned := ⟨aligned.current, aligned.enclosing⟩
    exact pieces_push rejected (.word [')'])
  next parent rest nested =>
    have parentAligned : parent.Aligned := aligned.enclosing parent (by simp [nested])
    have extended : (parent.push (builder.current.toFunction true)).body =
        parent.body ++ (Piece.ofText (builder.current.name ++ ['(']) ++ builder.current.body
          ++ Piece.ofText [')']) := by
      rw [Frame.body_push parentAligned, Frame.pieces_toFunction aligned.current]
      rfl
    simp only [pieces, nested, openPieces]
    rw [openPieces_append extended rfl rest]
    simp only [List.append_assoc]

/-! ## Runs -/

theorem pieces_take {builder : Builder} (aligned : builder.Aligned) (located : LocatedToken) :
    (builder.take located).Aligned ∧
      (builder.take located).pieces = builder.pieces ++ located.token.pieces := by
  unfold take
  cases located.token with
  | number literal unit => exact ⟨aligned.push _, pieces_push aligned _⟩
  | string raw terminated =>
      have checked := aligned.check terminated ⟨located.offset, raw⟩
      exact ⟨checked.push _, by rw [pieces_push checked, pieces_check]; rfl⟩
  | comment raw terminated =>
      have checked := aligned.check terminated ⟨located.offset, raw⟩
      exact ⟨checked.push _, by rw [pieces_push checked, pieces_check]; rfl⟩
  | word raw => exact ⟨aligned.push _, pieces_push aligned _⟩
  | operator raw => exact ⟨aligned.push _, pieces_push aligned _⟩
  | openParen => exact ⟨aligned.enter [], pieces_enter builder []⟩
  | closeParen => exact ⟨aligned.leave _, pieces_leave aligned _⟩
  | comma => exact ⟨aligned.separate _, pieces_separate builder _⟩
  | space raw => exact ⟨aligned.separate _, pieces_separate builder _⟩

/-- A run of tokens adds their pieces at the end. -/
theorem pieces_takeAll
    (tokens : List LocatedToken)
    {builder : Builder}
    (aligned : builder.Aligned) :
    (takeAll tokens builder).Aligned ∧
      (takeAll tokens builder).pieces =
        builder.pieces ++ tokens.flatMap fun located => located.token.pieces := by
  fun_induction takeAll tokens builder with
  | case1 builder => simpa using aligned
  | case2 _ name _ rest builder inductionHypothesis =>
      obtain ⟨after, added⟩ := inductionHypothesis (aligned.enter name)
      refine ⟨after, ?_⟩
      rw [added, pieces_enter]
      simp [Token.pieces]
  | case3 located rest builder _ inductionHypothesis =>
      obtain ⟨taken, first⟩ := pieces_take aligned located
      obtain ⟨after, added⟩ := inductionHypothesis taken
      refine ⟨after, ?_⟩
      rw [added, first]
      simp

theorem pieces_closeAll
    {current : Frame}
    (enclosing : List Frame)
    (currentAligned : current.Aligned)
    (enclosingAligned : ∀ frame ∈ enclosing, frame.Aligned) :
    (closeAll current enclosing).Aligned ∧
      (closeAll current enclosing).body = openPieces current enclosing := by
  induction enclosing generalizing current with
  | nil => exact ⟨currentAligned, rfl⟩
  | cons parent rest inductionHypothesis =>
      have parentAligned : parent.Aligned := enclosingAligned parent (by simp)
      have restAligned : ∀ frame ∈ rest, frame.Aligned := fun frame member =>
        enclosingAligned frame (by simp [member])
      have extended : (parent.push (current.toFunction false)).body =
          parent.body ++ (Piece.ofText (current.name ++ ['(']) ++ current.body) := by
        rw [Frame.body_push parentAligned, Frame.pieces_toFunction currentAligned]
        simp [Piece.ofText]
      obtain ⟨closed, flat⟩ := inductionHypothesis (parentAligned.push _) restAligned
      refine ⟨closed, ?_⟩
      rw [closeAll, flat, openPieces_append extended rfl rest]
      simp only [openPieces, List.append_assoc]

theorem pieces_finish {builder : Builder} (aligned : builder.Aligned) :
    builder.finish.pieces = builder.pieces := by
  obtain ⟨closed, flat⟩ := pieces_closeAll builder.enclosing aligned.current aligned.enclosing
  rw [finish, Frame.pieces_toValue closed, flat]
  rfl

end Builder

/-! ## Parsed values -/

theorem LocatedToken.flatMap_ofTokens
    {α : Type}
    (write : Token → List α)
    (tokens : List Token)
    (offset : Nat) :
    (LocatedToken.ofTokens offset tokens).flatMap (fun located => write located.token) =
      tokens.flatMap write := by
  induction tokens generalizing offset with
  | nil => rfl
  | cons token rest inductionHypothesis =>
      simp only [LocatedToken.ofTokens, List.flatMap_cons, inductionHypothesis]

/-- The pieces of a parsed value are those of its tokens, in order. -/
theorem Value.pieces_parse (source : Text) :
    (Value.parse source).pieces = (Token.scan source).flatMap Token.pieces := by
  obtain ⟨aligned, taken⟩ := Builder.pieces_takeAll (Token.scanLocated source) Builder.aligned_empty
  calc
    (Value.parse source).pieces = (Builder.ofText source).pieces := Builder.pieces_finish aligned
    _ = (Token.scanLocated source).flatMap fun located => located.token.pieces := by
      rw [Builder.ofText, taken]
      rfl
    _ = (Token.scan source).flatMap Token.pieces := LocatedToken.flatMap_ofTokens _ _ _

end CssRescale
