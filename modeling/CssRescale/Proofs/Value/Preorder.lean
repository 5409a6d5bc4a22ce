import CssRescale.Value.Visit

/-!
Contract: trees spelled out in preorder.

The entries of a tree are its leaves and calls in the order in which a walk from the
outside in and from left to right meets them, each with its depth. Listing the numbers of
a tree, and walking over it, go by its entries.

Owns:
- leaves, entries, and the entries of items and values;
- `numbers`, and `visit` into every call, by the entries.

Does not own: the entries of a tree that was built from text.
-/

set_option autoImplicit false

namespace CssRescale

/-- An item that is no call. -/
inductive Leaf where
  | number (measurement : Measurement)
  | string (raw : Text) (terminated : Bool)
  | word (raw : Text)
  | comment (raw : Text) (terminated : Bool)

/-- What a walk meets, with the number of calls around it. -/
inductive Entry where
  | leaf (depth : Nat) (leaf : Leaf)
  | call (depth : Nat) (name : Text) (closed : Bool)

/-- The measurement of an entry that is a number. -/
def Entry.measurement? : Entry → Option Measurement
  | leaf _ (.number measurement) => some measurement
  | _ => none

mutual

/-- An item before the arguments it has, which are one deeper. -/
def Node.entries (depth : Nat) : Node → List Entry
  | .number measurement => [.leaf depth (.number measurement)]
  | .string raw terminated => [.leaf depth (.string raw terminated)]
  | .word raw => [.leaf depth (.word raw)]
  | .comment raw terminated => [.leaf depth (.comment raw terminated)]
  | .function name arguments _ closed =>
      .call depth name closed :: Node.entriesEach (depth + 1) arguments

def Node.entriesEach (depth : Nat) : List Node → List Entry
  | [] => []
  | node :: rest => node.entries depth ++ Node.entriesEach depth rest

end

/-- The leaves and calls of a value in preorder. -/
def Value.entries (value : Value) : List Entry := Node.entriesEach 0 value.items

@[simp]
theorem Node.entriesEach_append (depth : Nat) (left right : List Node) :
    Node.entriesEach depth (left ++ right) =
      Node.entriesEach depth left ++ Node.entriesEach depth right := by
  induction left with
  | nil => rfl
  | cons node rest inductionHypothesis =>
      simp only [List.cons_append, Node.entriesEach, inductionHypothesis, List.append_assoc]

/-! ## Listing numbers -/

mutual

theorem Node.numbers_eq_entries (depth : Nat) :
    ∀ node : Node, node.numbers = (node.entries depth).filterMap Entry.measurement?
  | .number _ => rfl
  | .string _ _ => rfl
  | .word _ => rfl
  | .comment _ _ => rfl
  | .function _ arguments _ _ => Node.numbersEach_eq_entries (depth + 1) arguments

theorem Node.numbersEach_eq_entries (depth : Nat) :
    ∀ nodes : List Node,
      Node.numbersEach nodes = (Node.entriesEach depth nodes).filterMap Entry.measurement?
  | [] => rfl
  | node :: rest => by
      rw [Node.numbersEach, Node.entriesEach, List.filterMap_append,
        Node.numbers_eq_entries depth node, Node.numbersEach_eq_entries depth rest]

end

/-- The numbers of a value are its entries that are numbers. -/
theorem Value.numbers_eq_entries (value : Value) :
    value.numbers = value.entries.filterMap Entry.measurement? :=
  Node.numbersEach_eq_entries 0 value.items

/-! ## Walking -/

section Walking

variable
  {σ : Type}
  {visitor : Visitor σ}

mutual

theorem Node.visit_numbers
    (descends : ∀ name state, visitor.function name state = (true, state)) :
    ∀ (node : Node) (state : σ),
      (node.visit visitor state).2 =
        node.numbers.foldl (fun state measurement => (visitor.number measurement state).2) state
  | .number _, _ => rfl
  | .string _ _, _ => rfl
  | .word _, _ => rfl
  | .comment _ _, _ => rfl
  | .function name arguments separators closed, state => by
      rw [Node.visit, descends]
      exact Node.visitEach_numbers descends arguments state

theorem Node.visitEach_numbers
    (descends : ∀ name state, visitor.function name state = (true, state)) :
    ∀ (nodes : List Node) (state : σ),
      (Node.visitEach visitor nodes state).2 =
        (Node.numbersEach nodes).foldl
          (fun state measurement => (visitor.number measurement state).2) state
  | [], _ => rfl
  | node :: rest, state => by
      rw [Node.numbersEach, List.foldl_append, ← Node.visit_numbers descends node state]
      exact Node.visitEach_numbers descends rest (node.visit visitor state).2

end

/-- A walk that goes into every call meets the numbers of a value, each once and in order. -/
theorem Value.visit_numbers
    (descends : ∀ name state, visitor.function name state = (true, state))
    (value : Value)
    (state : σ) :
    (value.visit visitor state).2 =
      value.numbers.foldl (fun state measurement => (visitor.number measurement state).2) state :=
  Node.visitEach_numbers descends value.items state

end Walking

end CssRescale
