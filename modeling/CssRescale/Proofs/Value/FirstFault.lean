import CssRescale.Proofs.Token.Problems
import CssRescale.Proofs.Value.Calls

/-!
Contract: strict building reports the first token that is out of place.

While tokens are taken, the names of the open calls say how many parentheses are open, and
the fault that is remembered is the first token out of place among those taken. A name
that is left at the end belongs to a parenthesis behind which everything is nested.

Owns:
- the fault that is remembered and the calls that are open after tokens;
- faults that point at what is wrong with a part of a text;
- the fault of a text that strict building refuses.
-/

set_option autoImplicit false

namespace CssRescale

open Text (byteLength)

/-- The fault of a token that is out of place. -/
def LocatedToken.fault (located : LocatedToken) : Fault := ⟨located.offset, located.token.text⟩

namespace Builder

/-! ## The fault that is remembered -/

theorem length_calls_take (located : LocatedToken) (builder : Builder) :
    (builder.take located).calls.length =
      Token.openAfterOne builder.calls.length located.token := by
  rw [calls_take]
  cases located.token <;> simp [callsAfter, Token.openAfterOne]

/-- A token that is out of place is remembered, unless there was a fault before. -/
theorem fault?_take (located : LocatedToken) (builder : Builder) :
    (builder.take located).fault? =
      builder.fault?.or
        (if located.token.isOutOfPlace builder.calls.length then some located.fault else none) := by
  have inPlace : builder.fault? = builder.fault?.or none := (Option.or_none).symm
  have checked : ∀ (terminated : Bool) (fault : Fault),
      (builder.check terminated fault).fault? =
        builder.fault?.or (if !terminated then some fault else none) := by
    intro terminated fault
    cases terminated with
    | true => exact inPlace
    | false => rfl
  obtain ⟨offset, token⟩ := located
  cases token with
  | closeParen =>
      obtain ⟨current, enclosing, fault?⟩ := builder
      cases enclosing with
      | nil => rfl
      | cons parent rest => exact inPlace
  | string raw terminated => exact checked terminated ⟨offset, raw⟩
  | comment raw terminated => exact checked terminated ⟨offset, raw⟩
  | _ => exact inPlace

theorem fault?_takeAll (tokens : List LocatedToken) (builder : Builder) :
    (takeAll tokens builder).fault? =
      builder.fault?.or
        ((Token.firstProblem? builder.calls.length tokens).map LocatedToken.fault) := by
  fun_induction takeAll tokens builder with
  | case1 builder => exact (Option.or_none).symm
  | case2 _ name _ rest builder inductionHypothesis => exact inductionHypothesis
  | case3 located rest builder _ inductionHypothesis =>
      rw [inductionHypothesis, fault?_take, length_calls_take, Token.firstProblem?, Option.or_assoc]
      split
      · rfl
      · rfl

/-! ## The calls that are left open -/

/-- A call that is open in the end was open in the beginning and has not been closed since,
or it has been opened by one of the tokens, and everything behind it is nested. -/
theorem calls_takeAll_cases
    {tokens : List LocatedToken}
    {builder : Builder}
    {name : Text}
    {outer : List Text}
    (left : (takeAll tokens builder).calls = name :: outer) :
    (∃ closed, Token.closes closed (tokens.map LocatedToken.token) = true ∧
        builder.calls.drop closed = name :: outer) ∨
      ∃ front back, tokens.map LocatedToken.token = front ++ .openParen :: back ∧
        Token.closes 0 back = true ∧ name = Token.callName front := by
  fun_induction takeAll tokens builder with
  | case1 builder => exact .inl ⟨0, rfl, left⟩
  | case2 _ given _ rest builder inductionHypothesis =>
      rcases inductionHypothesis left with
        ⟨closed, closes, dropped⟩ | ⟨front, back, split, nested, named⟩
      · cases closed with
        | zero =>
            obtain ⟨rfl, -⟩ := List.cons.inj dropped
            exact .inr ⟨[.word _], _, rfl, closes, rfl⟩
        | succ closed => exact .inl ⟨closed, closes, dropped⟩
      · refine .inr ⟨.word given :: .openParen :: front, back, ?_, nested, ?_⟩
        · rw [List.map_cons, List.map_cons, split]
          rfl
        · have paren : Token.callName (.openParen :: front) = Token.callName front :=
            Token.callName_cons fun _ _ isWord => Token.noConfusion isWord
          have word : Token.callName (.word given :: .openParen :: front) =
              Token.callName (.openParen :: front) :=
            Token.callName_cons fun none => absurd none (List.cons_ne_nil _ _)
          rw [named, word, paren]
  | case3 located rest builder unnamed inductionHypothesis =>
      rcases inductionHypothesis left with
        ⟨closed, closes, dropped⟩ | ⟨front, back, split, nested, named⟩
      · rw [calls_take] at dropped
        rw [List.map_cons]
        cases token : located.token with
        | openParen =>
            rw [token] at dropped
            cases closed with
            | zero =>
                obtain ⟨rfl, -⟩ := List.cons.inj dropped
                exact .inr ⟨[], _, rfl, closes, rfl⟩
            | succ closed => exact .inl ⟨closed, closes, dropped⟩
        | closeParen =>
            rw [token, callsAfter, List.drop_tail] at dropped
            exact .inl ⟨closed + 1, closes, dropped⟩
        | _ =>
            rw [token] at dropped
            exact .inl ⟨closed, closes, dropped⟩
      · refine .inr ⟨located.token :: front, back, by rw [List.map_cons, split]; rfl, nested, ?_⟩
        rw [named, Token.callName_cons]
        rintro rfl name isWord
        -- A word right before the parenthesis would have been taken together with it.
        exact head?_ne_openParen unnamed isWord (by rw [split]; rfl)

end Builder

/-! ## Faults that point into a text -/

/-- The fault points at what is wrong with the value between two places of a text. If some
tokens of the value are out of place, it is the first of them, which stands in the text at
the offset of the fault. If none is, the fault is at the end of the value and names the
innermost call that is still open there. -/
inductive Fault.PointsInto (source : Text) (start stop : Nat) : Fault → Prop where
  | problem {value : Text} {located : LocatedToken}
      (isValue : source.slice? start stop = some value)
      (isProblem : Token.IsProblemOf value located)
      (first : ∀ other, Token.IsProblemOf value other → located.offset ≤ other.offset)
      (begins : source.slice? (start + located.offset)
          (start + located.offset + byteLength located.token.text) = some located.token.text) :
      PointsInto source start stop ⟨start + located.offset, located.token.text⟩
  | unclosed {value : Text} {front back : List Token}
      (isValue : source.slice? start stop = some value)
      (noProblem : ∀ located, ¬Token.IsProblemOf value located)
      (split : Token.scan value = front ++ .openParen :: back)
      (nested : Token.closes 0 back = true) :
      PointsInto source start stop ⟨stop, Token.callName front ++ ['(']⟩

theorem Value.parseStrict_eq_error_iff
    {source : Text}
    {fault : Fault} :
    parseStrict source = .error fault ↔
      (Builder.ofText source).finalFault? (byteLength source) = some fault := by
  unfold parseStrict
  cases (Builder.ofText source).finalFault? (byteLength source) with
  | none => exact iff_of_false nofun nofun
  | some found => rw [Except.error.injEq, Option.some.injEq]

/-- The fault of a text, seen from a larger one, points into it. -/
theorem Value.pointsInto_of_parseStrict
    {source value : Text}
    {start stop : Nat}
    {fault : Fault}
    (isValue : source.slice? start stop = some value)
    (refused : parseStrict value = .error fault) :
    (fault.shift start).PointsInto source start stop := by
  have remembered : (Builder.ofText value).fault? =
      (Token.firstProblem? 0 (Token.scanLocated value)).map LocatedToken.fault :=
    Builder.fault?_takeAll (Token.scanLocated value) Builder.empty
  have reported := Builder.finalFault?_eq (byteLength value) (Builder.ofText value)
  rw [parseStrict_eq_error_iff.mp refused, remembered] at reported
  cases problem : Token.firstProblem? 0 (Token.scanLocated value) with
  | some located =>
      rw [problem] at reported
      obtain rfl : fault = located.fault := Option.some.inj reported
      obtain ⟨isProblem, first⟩ := Token.isProblemOf_of_firstProblem? problem
      have begins := Text.slice?_slice? isValue isProblem.slice?
      rw [Fault.shift, LocatedToken.fault, Nat.add_comm]
      exact .problem isValue isProblem first (Nat.add_assoc _ _ _ ▸ begins)
  | none =>
      rw [problem] at reported
      obtain ⟨name, innermost, rfl⟩ := Option.map_eq_some_iff.mp reported.symm
      obtain ⟨outer, left⟩ := List.head?_eq_some_iff.mp innermost
      rcases Builder.calls_takeAll_cases left with
        ⟨closed, -, dropped⟩ | ⟨front, back, split, nested, rfl⟩
      · exact absurd dropped (by simp)
      · obtain ⟨before, after, rfl, rfl, rfl⟩ := Text.exists_of_slice? isValue
        rw [Token.scanLocated, LocatedToken.map_token_ofTokens] at split
        rw [Fault.shift, Nat.add_comm, ← Text.byteLength_append]
        exact .unclosed isValue (Token.not_isProblemOf problem) split nested

end CssRescale
