import CssRescale.Proofs.Token.Run
import CssRescale.Proofs.Value.Build

/-!
Contract: strict building refuses exactly the texts whose tree shows a fault.

While tokens are taken, a fault is remembered if and only if an item of a sequence
that is still open, or an item inside one, is out of place. Ending the sequences
that are left open makes calls without a closing parenthesis. So the tree of a text
has every item in its place exactly if nothing was remembered and nothing was left
open.

Owns:
- items that are in their place, at every depth;
- the only token that is written as a closing parenthesis;
- when strict building and strict conversion succeed, and with what.
-/

set_option autoImplicit false

namespace CssRescale

mutual

/-- Is everything at this item and inside it in its place? Calls are closed, strings
and comments are terminated, and no word is a closing parenthesis. -/
def Node.isWellFormed : Node → Bool
  | .number _ => true
  | .string _ terminated => terminated
  | .comment _ terminated => terminated
  | .word raw => raw != [')']
  | .function _ arguments _ closed => closed && Node.areWellFormed arguments

def Node.areWellFormed : List Node → Bool
  | [] => true
  | node :: rest => node.isWellFormed && Node.areWellFormed rest

end

def Value.isWellFormed (value : Value) : Bool := Node.areWellFormed value.items

@[simp]
theorem Node.areWellFormed_append (left right : List Node) :
    Node.areWellFormed (left ++ right) =
      (Node.areWellFormed left && Node.areWellFormed right) := by
  induction left with
  | nil => rfl
  | cons node rest inductionHypothesis =>
      simp only [List.cons_append, Node.areWellFormed, inductionHypothesis, Bool.and_assoc]

/-! ## Tokens that are closing parentheses -/

namespace Token

/-- What is read starts with the first character, if that is a part of it. -/
theorem exists_text_of_next?
    {state : UrlState}
    {first : Char}
    {rest left : Text}
    {token : Token}
    (reading : next? state (first :: rest) = some (token, left)) :
    ∃ tail, token.text = first :: tail := by
  have whole := next?_append reading
  cases written : token.text with
  | nil => exact absurd written (next?_text_ne_nil reading)
  | cons head tail =>
      rw [written, List.cons_append, List.cons.injEq] at whole
      exact ⟨tail, by rw [whole.1]⟩

/-- A token that is written as a closing parenthesis is one. -/
def ClosesAsWritten (token : Token) : Prop := token.text = [')'] → token = closeParen

/-- The body of a URL and every token but a closing parenthesis start with another
character. -/
theorem closesAsWritten_of_next?
    {state : UrlState}
    {source left : Text}
    {token : Token}
    (reading : next? state source = some (token, left)) :
    token.ClosesAsWritten := by
  intro written
  rcases next?_cases reading with ⟨body, rfl, expected⟩ | ⟨first, rest, rfl, _, starts⟩
  · -- A body is expected only where the first character that is not blank differs from
    -- the parenthesis, so a body cannot start with it.
    have found := takeUrlBody?_of_expectedBody? expected
    have whole := takeUrlBody?_append found
    have body_eq : body = [')'] := written
    subst body_eq
    rw [← whole] at found
    simp [takeUrlBody?, isBlank, isQuote] at found
  · obtain ⟨tail, starting⟩ := exists_text_of_next? reading
    rw [written, List.cons.injEq] at starting
    obtain ⟨rfl, -⟩ := starting
    have read := starts.nextOf_eq
    have paren : nextOf ')' rest = (closeParen, rest) := Starts.closeParen.nextOf_eq
    rw [paren] at read
    exact (congrArg Prod.fst read).symm

/-- What building needs to know of a scanned token: its literal is a number, and it is
no other token that looks like a closing parenthesis. -/
structure IsScanned (token : Token) : Prop where
  reads : token.ReadsNumeral
  closes : token.ClosesAsWritten

theorem isScanned_of_mem_scan {source : Text} : ∀ token ∈ scan source, token.IsScanned := by
  intro token member
  exact ⟨readsNumeral_of_mem_scan token member,
    forall_mem_scanFrom closesAsWritten_of_next? .outside source token member⟩

end Token

/-! ## Builders -/

theorem Builder.numberNode_numeral (numeral : Numeral) (unit : Text) :
    ∃ measurement, numberNode numeral.text unit = .number measurement := by
  unfold numberNode Measurement.read?
  rw [numeral.read?_text]
  exact ⟨_, rfl⟩

namespace Builder

/-- Is every item of the sequences that are open in its place? -/
def isWellFormed (builder : Builder) : Bool :=
  Node.areWellFormed builder.current.items
    && builder.enclosing.all fun frame => Node.areWellFormed frame.items

/-- A fault is remembered exactly if an item that was taken is out of place. -/
def Remembers (builder : Builder) : Prop := builder.fault?.isNone = builder.isWellFormed

theorem remembers_empty : empty.Remembers := rfl

theorem isWellFormed_push (node : Node) (builder : Builder) :
    (builder.push node).isWellFormed = (builder.isWellFormed && node.isWellFormed) := by
  simp only [isWellFormed, push, Frame.push, Node.areWellFormed_append, Node.areWellFormed,
    Bool.and_true]
  ac_rfl

theorem Remembers.push
    {builder : Builder}
    {node : Node}
    (remembers : builder.Remembers)
    (inPlace : node.isWellFormed = true) :
    (builder.push node).Remembers := by
  unfold Remembers
  rw [isWellFormed_push, inPlace, Bool.and_true]
  exact remembers

/-- An item that is out of place is taken together with its fault. -/
theorem Remembers.push_check
    {builder : Builder}
    {node : Node}
    {inPlace : Bool}
    (remembers : builder.Remembers)
    (same : node.isWellFormed = inPlace)
    (fault : Fault) :
    ((builder.check inPlace fault).push node).Remembers := by
  cases inPlace with
  | true => exact remembers.push same
  | false =>
      unfold Remembers
      rw [isWellFormed_push, same, Bool.and_false]
      show (builder.fault?.or (some fault)).isNone = false
      cases builder.fault? <;> rfl

theorem Remembers.separate
    {builder : Builder}
    (remembers : builder.Remembers)
    (text : Text) :
    (builder.separate text).Remembers := remembers

theorem Remembers.enter
    {builder : Builder}
    (remembers : builder.Remembers)
    (name : Text) :
    (builder.enter name).Remembers := remembers

/-- A closing parenthesis moves the items of the innermost call into the sequence
around it, or else is a fault itself. -/
theorem Remembers.leave
    {builder : Builder}
    (remembers : builder.Remembers)
    (offset : Nat) :
    (builder.leave offset).Remembers := by
  unfold Builder.leave
  split
  next =>
    have outOfPlace : (Node.word [')']).isWellFormed = false := rfl
    exact remembers.push_check outOfPlace ⟨offset, [')']⟩
  next parent rest nested =>
    unfold Remembers isWellFormed at remembers ⊢
    rw [remembers, nested]
    simp only [Frame.push, Frame.toFunction, Node.areWellFormed_append, Node.areWellFormed,
      Node.isWellFormed, Bool.true_and, Bool.and_true, List.all_cons]
    ac_rfl

theorem Remembers.take
    {builder : Builder}
    {located : LocatedToken}
    (remembers : builder.Remembers)
    (scanned : located.token.IsScanned) :
    (builder.take located).Remembers := by
  obtain ⟨offset, token⟩ := located
  cases token with
  | space text => exact remembers.separate text
  | comma => exact remembers.separate [',']
  | openParen => exact remembers.enter []
  | closeParen => exact remembers.leave offset
  | number literal unit =>
      obtain ⟨numeral, rfl⟩ := scanned.reads literal unit rfl
      obtain ⟨measurement, node⟩ := numberNode_numeral numeral unit
      show (builder.push (numberNode numeral.text unit)).Remembers
      rw [node]
      exact remembers.push rfl
  | string raw terminated => exact remembers.push_check rfl ⟨offset, raw⟩
  | comment raw terminated => exact remembers.push_check rfl ⟨offset, raw⟩
  | word raw =>
      refine remembers.push (bne_iff_ne.mpr fun same => ?_)
      exact absurd (scanned.closes same) Token.noConfusion
  | operator raw =>
      refine remembers.push (bne_iff_ne.mpr fun same => ?_)
      exact absurd (scanned.closes same) Token.noConfusion

theorem Remembers.takeAll
    {tokens : List LocatedToken}
    {builder : Builder}
    (remembers : builder.Remembers)
    (scanned : ∀ located ∈ tokens, located.token.IsScanned) :
    (takeAll tokens builder).Remembers := by
  fun_induction Builder.takeAll tokens builder with
  | case1 builder => exact remembers
  | case2 _ name _ rest builder inductionHypothesis =>
      apply inductionHypothesis (remembers.enter name)
      intro located member
      exact scanned located (List.mem_cons_of_mem _ (List.mem_cons_of_mem _ member))
  | case3 located rest builder _ inductionHypothesis =>
      apply inductionHypothesis (remembers.take (scanned located List.mem_cons_self))
      intro other member
      exact scanned other (List.mem_cons_of_mem _ member)

/-! ## The end of a text -/

/-- Ending an open call makes an item that is not closed. -/
theorem areWellFormed_closeAll (current : Frame) (enclosing : List Frame) :
    Node.areWellFormed (closeAll current enclosing).items =
      (Node.areWellFormed current.items && enclosing.isEmpty) := by
  induction enclosing generalizing current with
  | nil => simp [closeAll]
  | cons parent rest inductionHypothesis =>
      rw [closeAll, inductionHypothesis]
      simp [Frame.push, Frame.toFunction, Node.areWellFormed, Node.isWellFormed]

/-- There is no fault at the end exactly if the finished tree has none. -/
theorem Remembers.finalFault?_isNone
    {builder : Builder}
    (remembers : builder.Remembers)
    (length : Nat) :
    (builder.finalFault? length).isNone = builder.finish.isWellFormed := by
  unfold Remembers isWellFormed at remembers
  have finished : builder.finish.isWellFormed =
      (Node.areWellFormed builder.current.items && builder.enclosing.isEmpty) :=
    areWellFormed_closeAll builder.current builder.enclosing
  rw [finished]
  unfold finalFault?
  cases enclosing : builder.enclosing with
  | nil =>
      rw [enclosing, List.all_nil, Bool.and_true] at remembers
      rw [← remembers]
      cases builder.fault? <;> simp
  | cons parent rest =>
      cases builder.fault? <;> simp

end Builder

theorem LocatedToken.token_mem_of_mem_ofTokens
    {tokens : List Token}
    {offset : Nat}
    {located : LocatedToken}
    (member : located ∈ ofTokens offset tokens) :
    located.token ∈ tokens := by
  induction tokens generalizing offset with
  | nil => cases member
  | cons token rest inductionHypothesis =>
      rcases List.mem_cons.mp member with rfl | member
      · exact List.mem_cons_self
      · exact List.mem_cons_of_mem token (inductionHypothesis member)

theorem Builder.remembers_ofText (source : Text) : (ofText source).Remembers := by
  apply remembers_empty.takeAll
  intro located member
  exact Token.isScanned_of_mem_scan _ (LocatedToken.token_mem_of_mem_ofTokens member)

/-! ## Strict building and strict conversion -/

/-- What strict building does: it gives the tree of the text if all is in its place,
and otherwise a fault. -/
theorem Value.parseStrict_cases (source : Text) :
    (parse source).isWellFormed = true ∧ parseStrict source = .ok (parse source) ∨
      (parse source).isWellFormed = false ∧ ∃ fault, parseStrict source = .error fault := by
  have none := (Builder.remembers_ofText source).finalFault?_isNone (Text.byteLength source)
  have tree : (Builder.ofText source).finish = parse source := rfl
  rw [tree] at none
  unfold parseStrict
  cases found : (Builder.ofText source).finalFault? (Text.byteLength source) with
  | none =>
      rw [found] at none
      exact Or.inl ⟨none.symm, rfl⟩
  | some fault =>
      rw [found] at none
      exact Or.inr ⟨none.symm, fault, rfl⟩

/-- Strict building refines loose building: it succeeds on exactly the texts whose
tree is well formed, and there strict and loose building, and conversion by any rules,
give the same. -/
theorem Rules.strict_refines_loose (rules : Rules) (source : Text) :
    (∀ value, Value.parseStrict source = .ok value ↔
        (Value.parse source).isWellFormed = true ∧ value = Value.parse source) ∧
      ∀ text, rules.convertTextStrict source = .ok text ↔
        (Value.parse source).isWellFormed = true ∧ text = rules.convertText source := by
  unfold convertTextStrict
  rcases Value.parseStrict_cases source with ⟨wellFormed, built⟩ | ⟨illFormed, fault, refused⟩
  · rw [built, wellFormed]
    refine ⟨fun value => ?_, fun text => ?_⟩
    · rw [Except.ok.injEq]
      exact ⟨fun same => ⟨rfl, same.symm⟩, fun same => same.2.symm⟩
    · show Except.ok (rules.convertText source) = Except.ok text ↔ _
      rw [Except.ok.injEq]
      exact ⟨fun same => ⟨rfl, same.symm⟩, fun same => same.2.symm⟩
  · rw [refused, illFormed]
    refine ⟨fun value => iff_of_false nofun nofun, fun text => iff_of_false nofun nofun⟩

end CssRescale
