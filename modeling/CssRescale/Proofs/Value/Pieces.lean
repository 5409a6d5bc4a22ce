import CssRescale.Convert.Text

/-!
Contract: trees spelled out as pieces.

The pieces of a tree are the characters it is written with and, at the places
of its numbers, the measurements themselves. Writing, listing and walking a
tree depend on its pieces alone.

Owns:
- the type `Piece` and the pieces of items and values;
- `css`, `numbers` and `visit` as functions of the pieces.

Does not own: the pieces of a tree that was built from text.
-/

set_option autoImplicit false

namespace CssRescale

/-- A character as it is written, or a measurement. -/
inductive Piece where
  | char (c : Char)
  | number (measurement : Measurement)

namespace Piece

def ofText (text : Text) : List Piece := text.map char

def css : Piece → Text
  | char c => [c]
  | number measurement => measurement.css

def measurement? : Piece → Option Measurement
  | char _ => none
  | number measurement => some measurement

/-- Changes the measurement that a piece is. -/
def mapNumber (change : Measurement → Measurement) : Piece → Piece
  | char c => char c
  | number measurement => number (change measurement)

variable {σ : Type}

def walk (visitor : Visitor σ) : List Piece → σ → List Piece × σ
  | [], state => ([], state)
  | char c :: rest, state =>
      let (changed, after) := walk visitor rest state
      (char c :: changed, after)
  | number measurement :: rest, state =>
      let (changed, between) := visitor.number measurement state
      let (changedRest, after) := walk visitor rest between
      (number changed :: changedRest, after)

def walkEach (visitor : Visitor σ) : List (List Piece) → σ → List (List Piece) × σ
  | [], state => ([], state)
  | pieces :: rest, state =>
      let (changed, between) := walk visitor pieces state
      let (changedRest, after) := walkEach visitor rest between
      (changed :: changedRest, after)

@[simp]
theorem ofText_append (left right : Text) :
    ofText (left ++ right) = ofText left ++ ofText right :=
  List.map_append

@[simp]
theorem flatMap_css_ofText (text : Text) : (ofText text).flatMap css = text := by
  induction text with
  | nil => rfl
  | cons first rest inductionHypothesis =>
      show first :: (ofText rest).flatMap css = first :: rest
      rw [inductionHypothesis]

@[simp]
theorem filterMap_measurement?_ofText (text : Text) :
    (ofText text).filterMap measurement? = [] := by
  simp [ofText, measurement?]

@[simp]
theorem map_mapNumber_ofText (change : Measurement → Measurement) (text : Text) :
    (ofText text).map (mapNumber change) = ofText text := by
  simp [ofText, mapNumber]

theorem walk_append
    (visitor : Visitor σ)
    (left right : List Piece)
    (state : σ) :
    walk visitor (left ++ right) state =
      ((walk visitor left state).1 ++ (walk visitor right (walk visitor left state).2).1,
        (walk visitor right (walk visitor left state).2).2) := by
  induction left generalizing state with
  | nil => rfl
  | cons piece rest inductionHypothesis =>
      cases piece with
      | char c => simp only [List.cons_append, walk, inductionHypothesis]
      | number measurement => simp only [List.cons_append, walk, inductionHypothesis]

@[simp]
theorem walk_ofText (visitor : Visitor σ) (text : Text) (state : σ) :
    walk visitor (ofText text) state = (ofText text, state) := by
  induction text with
  | nil => rfl
  | cons first rest inductionHypothesis =>
      show walk visitor (char first :: ofText rest) state = (char first :: ofText rest, state)
      simp only [walk, inductionHypothesis]

end Piece

/-! ## Interleaved sequences -/

theorem flatMap_interleave
    {α β : Type}
    (write : α → List β)
    (separators pieces : List (List α)) :
    (interleave separators pieces).flatMap write =
      interleave (separators.map (·.flatMap write)) (pieces.map (·.flatMap write)) := by
  fun_induction interleave separators pieces with
  | case1 separators =>
      simp [interleave, List.flatMap, List.map_flatten, List.flatten_flatten, Function.comp_def]
  | case2 piece pieces inductionHypothesis => simpa [interleave] using inductionHypothesis
  | case3 separator separators piece pieces inductionHypothesis =>
      simpa [interleave] using inductionHypothesis

theorem interleave_ofText_nil (separators : List Text) :
    interleave (separators.map Piece.ofText) [] = Piece.ofText separators.flatten := by
  show (separators.map Piece.ofText).flatten = separators.flatten.map Piece.char
  rw [List.map_flatten]
  rfl

/-- A walk goes past separators and over the items between them. -/
theorem Piece.walk_interleave
    {σ : Type}
    (visitor : Visitor σ)
    (separators : List Text)
    (pieces : List (List Piece))
    (state : σ) :
    Piece.walk visitor (interleave (separators.map Piece.ofText) pieces) state =
      (interleave (separators.map Piece.ofText) (Piece.walkEach visitor pieces state).1,
        (Piece.walkEach visitor pieces state).2) := by
  induction pieces generalizing separators state with
  | nil =>
      simp only [Piece.walkEach, interleave_ofText_nil, Piece.walk_ofText]
  | cons first rest inductionHypothesis =>
      cases separators with
      | nil =>
          have tail := inductionHypothesis [] (Piece.walk visitor first state).2
          simp only [List.map_nil] at tail
          simp only [List.map_nil, interleave, Piece.walkEach, Piece.walk_append, tail]
      | cons separator separators =>
          simp only [List.map_cons, interleave, Piece.walkEach, Piece.walk_append,
            Piece.walk_ofText, inductionHypothesis]

/-! ## The pieces of a tree -/

mutual

def Node.pieces : Node → List Piece
  | .number measurement => [.number measurement]
  | .string raw _ => Piece.ofText raw
  | .word raw => Piece.ofText raw
  | .comment raw _ => Piece.ofText raw
  | .function name arguments separators closed =>
      Piece.ofText (name ++ ['('])
        ++ interleave (separators.map Piece.ofText) (Node.piecesEach arguments)
        ++ Piece.ofText (if closed then [')'] else [])

def Node.piecesEach : List Node → List (List Piece)
  | [] => []
  | node :: rest => node.pieces :: Node.piecesEach rest

end

def Value.pieces (value : Value) : List Piece :=
  interleave (value.separators.map Piece.ofText) (Node.piecesEach value.items)

@[simp]
theorem Node.piecesEach_append (left right : List Node) :
    Node.piecesEach (left ++ right) = Node.piecesEach left ++ Node.piecesEach right := by
  induction left with
  | nil => rfl
  | cons node rest inductionHypothesis =>
      simp only [List.cons_append, Node.piecesEach, inductionHypothesis]

@[simp]
theorem Node.length_piecesEach (nodes : List Node) :
    (Node.piecesEach nodes).length = nodes.length := by
  induction nodes with
  | nil => rfl
  | cons node rest inductionHypothesis =>
      simp only [Node.piecesEach, List.length_cons, inductionHypothesis]

theorem flatMap_css_separators (separators : List Text) :
    (separators.map Piece.ofText).map (·.flatMap Piece.css) = separators := by
  simp [List.map_map, Function.comp_def]

/-! ## Writing -/

mutual

/-- An item is written piece by piece. -/
theorem Node.css_eq_pieces : ∀ node : Node, node.css = node.pieces.flatMap Piece.css
  | .number measurement => by simp [Node.css, Node.pieces, Piece.css]
  | .string raw _ => by simp [Node.css, Node.pieces]
  | .word raw => by simp [Node.css, Node.pieces]
  | .comment raw _ => by simp [Node.css, Node.pieces]
  | .function name arguments separators closed => by
      have inside := Node.cssEach_eq_pieces arguments
      simp only [Node.css, Node.pieces, List.flatMap_append, flatMap_interleave,
        flatMap_css_separators, Piece.flatMap_css_ofText, inside]
      simp

theorem Node.cssEach_eq_pieces :
    ∀ nodes : List Node,
      Node.cssEach nodes = (Node.piecesEach nodes).map (·.flatMap Piece.css)
  | [] => rfl
  | node :: rest => by
      simp only [Node.cssEach, Node.piecesEach, List.map_cons, Node.css_eq_pieces node,
        Node.cssEach_eq_pieces rest]

end

/-- A value is written piece by piece. -/
theorem Value.css_eq_pieces (value : Value) : value.css = value.pieces.flatMap Piece.css := by
  simp only [Value.css, Value.pieces, flatMap_interleave, flatMap_css_separators,
    Node.cssEach_eq_pieces]

/-! ## Listing numbers -/

theorem filterMap_interleave
    (separators : List Text)
    (pieces : List (List Piece)) :
    (interleave (separators.map Piece.ofText) pieces).filterMap Piece.measurement? =
      pieces.flatMap (·.filterMap Piece.measurement?) := by
  induction pieces generalizing separators with
  | nil =>
      simp [interleave_ofText_nil]
  | cons first rest inductionHypothesis =>
      cases separators with
      | nil =>
          have tail := inductionHypothesis []
          simp only [List.map_nil] at tail
          simp [interleave, tail]
      | cons separator separators => simp [interleave, inductionHypothesis]

mutual

/-- The measurements of an item are those among its pieces. -/
theorem Node.numbers_eq_pieces :
    ∀ node : Node, node.numbers = node.pieces.filterMap Piece.measurement?
  | .number measurement => rfl
  | .string raw _ => by simp [Node.numbers, Node.pieces]
  | .word raw => by simp [Node.numbers, Node.pieces]
  | .comment raw _ => by simp [Node.numbers, Node.pieces]
  | .function name arguments separators closed => by
      simp only [Node.numbers, Node.pieces, List.filterMap_append, filterMap_interleave,
        Piece.filterMap_measurement?_ofText, Node.numbersEach_eq_pieces arguments]
      simp

theorem Node.numbersEach_eq_pieces :
    ∀ nodes : List Node,
      Node.numbersEach nodes =
        (Node.piecesEach nodes).flatMap (·.filterMap Piece.measurement?)
  | [] => rfl
  | node :: rest => by
      simp only [Node.numbersEach, Node.piecesEach, List.flatMap_cons,
        Node.numbers_eq_pieces node, Node.numbersEach_eq_pieces rest]

end

/-- The measurements of a value are those among its pieces. -/
theorem Value.numbers_eq_pieces (value : Value) :
    value.numbers = value.pieces.filterMap Piece.measurement? := by
  simp only [Value.numbers, Value.pieces, filterMap_interleave, Node.numbersEach_eq_pieces]

/-! ## Walking -/

section Walking

variable {σ : Type} {visitor : Visitor σ}

mutual

/-- A walk that goes into every call walks over the pieces of an item. -/
theorem Node.visit_pieces
    (descends : ∀ name state, visitor.function name state = (true, state)) :
    ∀ (node : Node) (state : σ),
      ((node.visit visitor state).1.pieces, (node.visit visitor state).2) =
        Piece.walk visitor node.pieces state
  | .number measurement, state => rfl
  | .string raw _, state => by simp [Node.visit, Node.pieces]
  | .word raw, state => by simp [Node.visit, Node.pieces]
  | .comment raw _, state => by simp [Node.visit, Node.pieces]
  | .function name arguments separators closed, state => by
      have inside := Node.visitEach_pieces descends arguments state
      simp only [Node.visit, descends, Node.pieces, Piece.walk_append, Piece.walk_ofText,
        Piece.walk_interleave, ← inside]

theorem Node.visitEach_pieces
    (descends : ∀ name state, visitor.function name state = (true, state)) :
    ∀ (nodes : List Node) (state : σ),
      (Node.piecesEach (Node.visitEach visitor nodes state).1,
          (Node.visitEach visitor nodes state).2) =
        Piece.walkEach visitor (Node.piecesEach nodes) state
  | [], state => rfl
  | node :: rest, state => by
      have first := Node.visit_pieces descends node state
      have others := Node.visitEach_pieces descends rest (node.visit visitor state).2
      simp only [Node.visitEach, Node.piecesEach, Piece.walkEach, ← first, ← others]

end

/-- A walk that goes into every call walks over the pieces of a value. -/
theorem Value.visit_pieces
    (descends : ∀ name state, visitor.function name state = (true, state))
    (value : Value)
    (state : σ) :
    ((value.visit visitor state).1.pieces, (value.visit visitor state).2) =
      Piece.walk visitor value.pieces state := by
  have inside := Node.visitEach_pieces descends value.items state
  simp only [Value.visit, Value.pieces, Piece.walk_interleave, ← inside]

end Walking

end CssRescale
