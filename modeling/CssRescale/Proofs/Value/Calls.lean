import CssRescale.Proofs.Token.Locality
import CssRescale.Proofs.Token.Located
import CssRescale.Proofs.Value.Strict

/-!
Contract: what the fault of a text depends on.

The fault that strict building reports depends on little: the names of the calls that
are open, and the fault remembered so far. Both can be followed from token to token
without the items. So building goes on after a text without a fault as it goes on from
the start, with all offsets larger by the length of that text.

Owns:
- the names of the open calls, token by token;
- the tokens of a text without a fault are closed;
- builders that differ in their items and by a distance, and the faults they report;
- the fault of a text without one with a comma and another text behind it.
-/

set_option autoImplicit false

namespace CssRescale

namespace Builder

/-! ## Open calls -/

/-- The names of the calls that are open, innermost first. -/
def calls (builder : Builder) : List Text :=
  ((builder.current :: builder.enclosing).map Frame.name).dropLast

@[simp]
theorem calls_empty : empty.calls = [] := rfl

@[simp]
theorem calls_push (node : Node) (builder : Builder) :
    (builder.push node).calls = builder.calls := rfl

@[simp]
theorem calls_separate (text : Text) (builder : Builder) :
    (builder.separate text).calls = builder.calls := rfl

@[simp]
theorem calls_enter (name : Text) (builder : Builder) :
    (builder.enter name).calls = name :: builder.calls := rfl

@[simp]
theorem calls_check (inPlace : Bool) (fault : Fault) (builder : Builder) :
    (builder.check inPlace fault).calls = builder.calls := by
  cases inPlace <;> rfl

@[simp]
theorem calls_leave (offset : Nat) (builder : Builder) :
    (builder.leave offset).calls = builder.calls.tail := by
  obtain ⟨current, enclosing, fault?⟩ := builder
  cases enclosing <;> rfl

theorem length_calls (builder : Builder) : builder.calls.length = builder.enclosing.length := by
  simp [calls]

theorem calls_eq_nil_iff (builder : Builder) : builder.calls = [] ↔ builder.enclosing = [] := by
  obtain ⟨current, enclosing, fault?⟩ := builder
  cases enclosing <;> simp [calls]

/-- The names after a token, by the names before it. -/
def callsAfter (calls : List Text) : Token → List Text
  | .openParen => [] :: calls
  | .closeParen => calls.tail
  | _ => calls

theorem calls_take (located : LocatedToken) (builder : Builder) :
    (builder.take located).calls = callsAfter builder.calls located.token := by
  unfold take
  cases located.token <;> simp [callsAfter]

/-- A word that names no call has no parenthesis right behind it. -/
theorem head?_ne_openParen
    {located : LocatedToken}
    {rest : List LocatedToken}
    {name : Text}
    (unnamed : ∀ offset name parenOffset others,
      located = ⟨offset, .word name⟩ → rest = ⟨parenOffset, .openParen⟩ :: others → False)
    (isWord : located.token = .word name) :
    (rest.map LocatedToken.token).head? ≠ some .openParen := by
  intro next
  obtain ⟨offset, token⟩ := located
  cases rest with
  | nil => cases next
  | cons second others =>
      obtain ⟨secondOffset, secondToken⟩ := second
      cases isWord
      cases next
      exact unnamed _ _ _ _ rfl rfl

theorem length_callsAfter {token : Token} (stays : token ≠ .closeParen) (calls : List Text) :
    calls.length ≤ (callsAfter calls token).length := by
  cases token with
  | closeParen => exact absurd rfl stays
  | openParen => exact Nat.le_succ calls.length
  | _ => exact Nat.le_refl calls.length

/-- Without a closing parenthesis no call is closed. -/
theorem length_calls_takeAll
    {tokens : List LocatedToken}
    (builder : Builder)
    (stay : ∀ located ∈ tokens, located.token ≠ .closeParen) :
    builder.calls.length ≤ (takeAll tokens builder).calls.length := by
  fun_induction takeAll tokens builder with
  | case1 builder => exact Nat.le_refl _
  | case2 _ name _ rest builder inductionHypothesis =>
      have later := inductionHypothesis fun located member =>
        stay located (List.mem_cons_of_mem _ (List.mem_cons_of_mem _ member))
      rw [calls_enter] at later
      exact (Nat.le_succ _).trans later
  | case3 located rest builder _ inductionHypothesis =>
      have later := inductionHypothesis fun other member =>
        stay other (List.mem_cons_of_mem _ member)
      rw [calls_take] at later
      exact (length_callsAfter (stay located List.mem_cons_self) _).trans later

/-- A parenthesis without a closing one behind it leaves a call open. -/
theorem calls_takeAll_ne_nil
    {tokens front back : List LocatedToken}
    {offset : Nat}
    (builder : Builder)
    (shape : tokens = front ++ ⟨offset, .openParen⟩ :: back)
    (stay : ∀ located ∈ back, located.token ≠ .closeParen) :
    (takeAll tokens builder).calls ≠ [] := by
  have opened : ∀ opened : Builder, opened.calls ≠ [] → (takeAll back opened).calls ≠ [] := by
    intro opened some none
    have later := length_calls_takeAll opened stay
    rw [none, List.length_nil, Nat.le_zero, List.length_eq_zero_iff] at later
    exact some later
  fun_induction takeAll tokens builder generalizing front with
  | case1 builder => exact absurd shape (by simp)
  | case2 _ name _ rest builder inductionHypothesis =>
      cases front with
      | nil => simp at shape
      | cons first front =>
          obtain ⟨-, shape⟩ := List.cons.inj shape
          cases front with
          | nil =>
              obtain ⟨-, rfl⟩ := List.cons.inj shape
              exact opened _ (by simp)
          | cons second front => exact inductionHypothesis (List.cons.inj shape).2
  | case3 located rest builder _ inductionHypothesis =>
      cases front with
      | nil =>
          obtain ⟨rfl, rfl⟩ := List.cons.inj shape
          exact opened _ (by simp [calls_take, callsAfter])
      | cons first front => exact inductionHypothesis (List.cons.inj shape).2

/-! ## Texts without a fault -/

/-- A fault stays remembered, and so does a token that is not terminated. -/
theorem isTerminated_of_take
    {located : LocatedToken}
    {builder : Builder}
    (noFault : (builder.take located).fault? = none) :
    builder.fault? = none ∧ located.token.isTerminated = true := by
  have checked : ∀ (inPlace : Bool) (fault : Fault),
      (builder.check inPlace fault).fault? = none → builder.fault? = none ∧ inPlace = true := by
    intro inPlace fault noFault
    cases inPlace with
    | true => exact ⟨noFault, rfl⟩
    | false => simp [check, reject] at noFault
  obtain ⟨offset, token⟩ := located
  cases token with
  | closeParen =>
      refine ⟨?_, rfl⟩
      simp only [take, leave] at noFault
      split at noFault
      · simp [push, reject] at noFault
      · exact noFault
  | string raw terminated => exact checked terminated ⟨offset, raw⟩ noFault
  | comment raw terminated => exact checked terminated ⟨offset, raw⟩ noFault
  | _ => exact ⟨noFault, rfl⟩

theorem isTerminated_of_takeAll
    {tokens : List LocatedToken}
    {builder : Builder}
    (noFault : (takeAll tokens builder).fault? = none) :
    builder.fault? = none ∧ ∀ located ∈ tokens, located.token.isTerminated = true := by
  fun_induction takeAll tokens builder with
  | case1 builder => exact ⟨noFault, by simp⟩
  | case2 _ name _ rest builder inductionHypothesis =>
      obtain ⟨before, terminated⟩ := inductionHypothesis noFault
      exact ⟨before, by simpa [Token.isTerminated] using terminated⟩
  | case3 located rest builder _ inductionHypothesis =>
      obtain ⟨between, terminated⟩ := inductionHypothesis noFault
      obtain ⟨before, first⟩ := isTerminated_of_take between
      exact ⟨before, by simpa [first] using terminated⟩

/-- There is no fault exactly if none is remembered and no call is open. -/
theorem finalFault?_eq_none_iff (length : Nat) (builder : Builder) :
    builder.finalFault? length = none ↔ builder.fault? = none ∧ builder.calls = [] := by
  rw [calls_eq_nil_iff]
  unfold finalFault?
  cases builder.fault? <;> cases builder.enclosing <;> simp

/-! ## Faults at a distance -/

/-- The fault at the end, by the names of the open calls. -/
theorem finalFault?_eq (length : Nat) (builder : Builder) :
    builder.finalFault? length =
      builder.fault?.or (builder.calls.head?.map fun name => ⟨length, name ++ ['(']⟩) := by
  obtain ⟨current, enclosing, fault?⟩ := builder
  cases fault? <;> cases enclosing <;> rfl

/-- Two builders with the same open calls, where the fault of the first is the fault of
the other at a distance. Their items may differ. -/
structure IsBehind (distance : Nat) (builder start : Builder) : Prop where
  calls : builder.calls = start.calls
  fault? : builder.fault? = start.fault?.map (Fault.shift distance)

namespace IsBehind

variable
  {distance : Nat}
  {builder start : Builder}
  (behind : builder.IsBehind distance start)

include behind

theorem push (node other : Node) : (builder.push node).IsBehind distance (start.push other) :=
  ⟨behind.calls, behind.fault?⟩

theorem separate (text other : Text) :
    (builder.separate text).IsBehind distance (start.separate other) :=
  ⟨behind.calls, behind.fault?⟩

theorem enter (name : Text) : (builder.enter name).IsBehind distance (start.enter name) :=
  ⟨by rw [calls_enter, calls_enter, behind.calls], behind.fault?⟩

theorem reject (fault : Fault) :
    (builder.reject (fault.shift distance)).IsBehind distance (start.reject fault) := by
  refine ⟨behind.calls, ?_⟩
  simp only [Builder.reject, behind.fault?, Option.map_or, Option.map_some]

theorem check (inPlace : Bool) (fault : Fault) :
    (builder.check inPlace (fault.shift distance)).IsBehind distance
      (start.check inPlace fault) := by
  cases inPlace with
  | true => exact behind
  | false => exact behind.reject fault

theorem leave (offset : Nat) :
    (builder.leave (offset + distance)).IsBehind distance (start.leave offset) := by
  refine ⟨by rw [calls_leave, calls_leave, behind.calls], ?_⟩
  have same : builder.enclosing = [] ↔ start.enclosing = [] := by
    rw [← calls_eq_nil_iff, ← calls_eq_nil_iff, behind.calls]
  unfold Builder.leave
  cases nested : start.enclosing with
  | nil =>
      rw [same.mpr nested]
      exact (behind.reject ⟨offset, [')']⟩).fault?
  | cons parent rest =>
      obtain ⟨_, _, shape⟩ := List.exists_cons_of_ne_nil
        (mt same.mp (by rw [nested]; exact List.cons_ne_nil parent rest))
      rw [shape]
      exact behind.fault?

theorem take (located : LocatedToken) :
    (builder.take (located.shift distance)).IsBehind distance (start.take located) := by
  obtain ⟨offset, token⟩ := located
  cases token with
  | space text => exact behind.separate text text
  | comma => exact behind.separate [','] [',']
  | openParen => exact behind.enter []
  | closeParen => exact behind.leave offset
  | number literal unit => exact behind.push _ _
  | string raw terminated => exact (behind.check terminated ⟨offset, raw⟩).push _ _
  | comment raw terminated => exact (behind.check terminated ⟨offset, raw⟩).push _ _
  | word raw => exact behind.push _ _
  | operator raw => exact behind.push _ _

theorem takeAll (tokens : List LocatedToken) :
    (takeAll (tokens.map (LocatedToken.shift distance)) builder).IsBehind distance
      (takeAll tokens start) := by
  fun_induction Builder.takeAll tokens start generalizing builder with
  | case1 start => exact behind
  | case2 _ name _ rest start inductionHypothesis => exact inductionHypothesis (behind.enter name)
  | case3 located rest start unnamed inductionHypothesis =>
      rw [List.map_cons, Builder.takeAll]
      · exact inductionHypothesis (behind.take located)
      · intro offset name parenOffset others same following
        cases rest with
        | nil => cases following
        | cons second rest =>
            obtain ⟨secondSame, -⟩ := List.cons.inj following
            cases located
            cases second
            cases same
            cases secondSame
            exact unnamed _ _ _ _ rfl rfl

theorem finalFault? (length : Nat) :
    builder.finalFault? (length + distance) =
      (start.finalFault? length).map (Fault.shift distance) := by
  rw [finalFault?_eq, finalFault?_eq, behind.calls, behind.fault?, Option.map_or, Option.map_map]
  rfl

end IsBehind

/-! ## A comma and another text behind -/

/-- Building goes on after some tokens, unless the next one is a parenthesis that a word
before it names. -/
theorem takeAll_append
    (front : List LocatedToken)
    {back : List LocatedToken}
    (builder : Builder)
    (unnamed : ∀ offset rest, back ≠ ⟨offset, .openParen⟩ :: rest) :
    takeAll (front ++ back) builder = takeAll back (takeAll front builder) := by
  fun_induction takeAll front builder with
  | case1 builder => rfl
  | case2 _ name _ rest builder inductionHypothesis => exact inductionHypothesis
  | case3 located rest builder alone inductionHypothesis =>
      rw [List.cons_append, takeAll]
      · exact inductionHypothesis
      · intro offset name parenOffset others same following
        cases rest with
        | nil => exact unnamed _ _ following
        | cons second rest =>
            obtain ⟨rfl, -⟩ := List.cons.inj following
            exact alone _ _ _ _ same rfl

theorem finalFault?_of_parseStrict
    {source : Text}
    {value : Value}
    (accepted : Value.parseStrict source = .ok value) :
    (ofText source).fault? = none ∧ (ofText source).calls = [] := by
  rw [← finalFault?_eq_none_iff (Text.byteLength source)]
  unfold Value.parseStrict at accepted
  split at accepted
  · cases accepted
  · assumption

end Builder

/-- In a text without a fault all strings, comments and parentheses are closed. -/
theorem Token.areClosed_of_parseStrict
    {source : Text}
    {value : Value}
    (accepted : Value.parseStrict source = .ok value) :
    AreClosed (scan source) := by
  obtain ⟨noFault, noCalls⟩ := Builder.finalFault?_of_parseStrict accepted
  have tokens : (scanLocated source).map LocatedToken.token = scan source :=
    LocatedToken.map_token_ofTokens 0 _
  refine ⟨fun token member => ?_, fun front back shape => ?_⟩
  · rw [← tokens] at member
    obtain ⟨located, locatedMember, rfl⟩ := List.mem_map.mp member
    exact (Builder.isTerminated_of_takeAll noFault).2 located locatedMember
  · rw [← tokens] at shape
    obtain ⟨locatedFront, located, locatedBack, split, _, paren, rfl⟩ :
        ∃ locatedFront located locatedBack,
          scanLocated source = locatedFront ++ located :: locatedBack ∧
          locatedFront.map LocatedToken.token = front ∧ located.token = .openParen ∧
          locatedBack.map LocatedToken.token = back := by
      obtain ⟨locatedFront, tail, split, frontSame, tailSame⟩ := List.map_eq_append_iff.mp shape
      obtain ⟨located, locatedBack, rfl, paren, backSame⟩ := List.map_eq_cons_iff.mp tailSame
      exact ⟨locatedFront, located, locatedBack, split, frontSame, paren, backSame⟩
    by_contra absent
    obtain ⟨offset, token⟩ := located
    subst paren
    refine Builder.calls_takeAll_ne_nil Builder.empty split (fun other member closes => absent ?_)
      noCalls
    rw [← closes]
    exact List.mem_map_of_mem member

/-- Behind a text without a fault and a comma, building finds the faults of what follows,
further in the text. -/
theorem Builder.finalFault?_append_comma
    {source : Text}
    {value : Value}
    (accepted : Value.parseStrict source = .ok value)
    (plain : source.getLast? ≠ some '\\')
    (rest : Text) :
    (ofText (source ++ ',' :: rest)).finalFault? (Text.byteLength (source ++ ',' :: rest)) =
      ((ofText rest).finalFault? (Text.byteLength rest)).map
        (Fault.shift (Text.byteLength source + 1)) := by
  obtain ⟨noFault, noCalls⟩ := finalFault?_of_parseStrict accepted
  have tokens : Token.scan (source ++ ',' :: rest) =
      Token.scan source ++ .comma :: Token.scan rest :=
    Token.scanFrom_append_mark .comma rest plain (Token.areClosed_of_parseStrict accepted) nofun
  have located : Token.scanLocated (source ++ ',' :: rest) =
      Token.scanLocated source ++ ⟨Text.byteLength source, .comma⟩ ::
        (Token.scanLocated rest).map (LocatedToken.shift (Text.byteLength source + 1)) := by
    unfold Token.scanLocated
    rw [tokens, LocatedToken.ofTokens_append, Token.concat_scan, Nat.zero_add,
      LocatedToken.map_shift_ofTokens, Nat.zero_add]
    rfl
  have behind : ((ofText source).take ⟨Text.byteLength source, .comma⟩).IsBehind
      (Text.byteLength source + 1) empty := ⟨noCalls, noFault⟩
  have run : ofText (source ++ ',' :: rest) =
      takeAll ((Token.scanLocated rest).map (LocatedToken.shift (Text.byteLength source + 1)))
        ((ofText source).take ⟨Text.byteLength source, .comma⟩) := by
    rw [ofText, located, takeAll_append _ _ (by simp)]
    rfl
  have length : Text.byteLength (source ++ ',' :: rest) =
      Text.byteLength rest + (Text.byteLength source + 1) := by
    rw [Text.byteLength_append, Text.byteLength_cons, show Char.utf8Size ',' = 1 from rfl]
    omega
  rw [run, length]
  exact (behind.takeAll _).finalFault? _

end CssRescale
