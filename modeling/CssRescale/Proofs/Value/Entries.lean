import CssRescale.Proofs.Token.Matching
import CssRescale.Proofs.Value.FirstFault
import CssRescale.Proofs.Value.Preorder
import CssRescale.Proofs.Value.RoundTrip

/-!
Contract: building a tree loses, adds and moves no leaf.

The entries of a parsed value can be read off its tokens, one for each token that is
neither white space nor a comma nor the name of a call nor a matched closing parenthesis.
While tokens are taken, the entries of the open sequences are those of the tokens taken so
far. Whether an open call will be closed only the tokens to come can tell.

Owns:
- the entry of a token at its place;
- the entries of builders, one law for each step;
- the entries of every parsed value, and what listing and walking make of them.
-/

set_option autoImplicit false

namespace CssRescale

/-! ## The entry of a token -/

namespace Token.Place

/-- The leaf that the token of a place makes. A word right before an opening parenthesis
names a call and makes none, and neither does a closing parenthesis that is matched. -/
def leaf? (place : Place) : Option Leaf :=
  match place.token with
  | .number literal unit => (Measurement.read? literal unit).map .number
  | .string raw terminated => some (.string raw terminated)
  | .comment raw terminated => some (.comment raw terminated)
  | .word raw => if place.after.head? = some .openParen then none else some (.word raw)
  | .operator raw => some (.word raw)
  | .openParen => none
  | .closeParen => if IsOpenedIn place.before then none else some (.word [')'])
  | .comma => none
  | .space _ => none

/-- The leaf or call that the token of a place makes. An opening parenthesis makes a call,
which is closed if the parenthesis is matched. -/
def entry? (place : Place) : Option Entry :=
  if place.token = .openParen then
    some (.call (depth place.before) (callName place.before) (decide (IsClosedIn place.after)))
  else
    place.leaf?.map (.leaf (depth place.before))

end Token.Place

/-- A word and the parenthesis right behind it make one call. -/
theorem Token.filterMap_entry?_named (before after : List Token) (name : Text) :
    (placesFrom before (word name :: openParen :: after)).filterMap Place.entry? =
      .call (depth before) name (closesOuter 0 after) ::
        (placesFrom (before ++ [word name] ++ [openParen]) after).filterMap Place.entry? := by
  have named : Place.entry? ⟨before, word name, openParen :: after⟩ = none := rfl
  have outside : depth (before ++ [word name]) = depth before := by
    simp [depth_eq, openAfter, openAfterOne]
  have call : Place.entry? ⟨before ++ [word name], openParen, after⟩ =
      some (.call (depth before) name (closesOuter 0 after)) := by
    simp [Place.entry?, callName_append_singleton, isClosedIn_iff, outside]
  simp only [placesFrom, List.filterMap_cons, named, call]

/-! ## Builders -/

namespace Builder

/-- The entries of open sequences, the innermost of which comes first in the list. Whether
an open call will be closed is given by the number of calls inside it. -/
def openEntries : (Nat → Bool) → Frame → List Frame → List Entry
  | _, current, [] => Node.entriesEach 0 current.items
  | closed, current, parent :: rest =>
      openEntries (fun index => closed (index + 1)) parent rest
        ++ .call rest.length current.name (closed 0)
        :: Node.entriesEach (rest.length + 1) current.items

/-- The entries so far, if these tokens follow. -/
def entries (after : List Token) (builder : Builder) : List Entry :=
  openEntries (fun index => Token.closesOuter index after) builder.current builder.enclosing

theorem openEntries_push
    (closed : Nat → Bool)
    (current : Frame)
    (enclosing : List Frame)
    (node : Node) :
    openEntries closed (current.push node) enclosing =
      openEntries closed current enclosing ++ node.entries enclosing.length := by
  cases enclosing with
  | nil => simp [openEntries, Frame.push, Node.entriesEach]
  | cons parent rest => simp [openEntries, Frame.push, Node.entriesEach]

theorem entries_push (after : List Token) (node : Node) (builder : Builder) :
    (builder.push node).entries after =
      builder.entries after ++ node.entries builder.enclosing.length :=
  openEntries_push _ _ _ _

@[simp]
theorem entries_separate (after : List Token) (text : Text) (builder : Builder) :
    (builder.separate text).entries after = builder.entries after := by
  obtain ⟨current, enclosing, fault?⟩ := builder
  cases enclosing <;> rfl

/-- The sequences that are left open at the end are closed by nothing. -/
theorem entries_finish (builder : Builder) : builder.finish.entries = builder.entries [] := by
  obtain ⟨current, enclosing, fault?⟩ := builder
  show Node.entriesEach 0 (closeAll current enclosing).items =
    openEntries (fun _ => false) current enclosing
  induction enclosing generalizing current with
  | nil => rfl
  | cons parent rest inductionHypothesis =>
      rw [closeAll, inductionHypothesis, openEntries_push]
      rfl

/-! ## Steps -/

@[simp]
theorem enclosing_check (inPlace : Bool) (fault : Fault) (builder : Builder) :
    (builder.check inPlace fault).enclosing = builder.enclosing := by
  cases inPlace <;> rfl

@[simp]
theorem entries_check
    (after : List Token)
    (inPlace : Bool)
    (fault : Fault)
    (builder : Builder) :
    (builder.check inPlace fault).entries after = builder.entries after := by
  cases inPlace <;> rfl

theorem entries_numberNode (depth : Nat) (numeral : Numeral) (unit : Text) :
    (numberNode numeral.text unit).entries depth =
      [.leaf depth (.number (.ofNumeral numeral unit))] := by
  rw [numberNode, Measurement.read?_numeral]
  rfl

/-- A builder that has taken these tokens has as many open calls as they leave open. -/
def IsAfter (before : List Token) (builder : Builder) : Prop :=
  builder.enclosing.length = Token.openAfter 0 before

theorem IsAfter.take
    {before : List Token}
    {builder : Builder}
    (isAfter : builder.IsAfter before)
    (located : LocatedToken) :
    (builder.take located).IsAfter (before ++ [located.token]) := by
  rw [IsAfter, ← length_calls, length_calls_take, length_calls, isAfter]
  simp [Token.openAfter]

theorem entries_enter (after : List Token) (name : Text) (builder : Builder) :
    (builder.enter name).entries after =
      builder.entries (.openParen :: after)
        ++ [.call builder.enclosing.length name (Token.closesOuter 0 after)] := rfl

/-- A closing parenthesis adds no entry if it ends a call, and is a word otherwise. -/
theorem entries_leave
    {before : List Token}
    {builder : Builder}
    (isAfter : builder.IsAfter before)
    (offset : Nat)
    (after : List Token) :
    (builder.leave offset).entries after =
      builder.entries (.closeParen :: after)
        ++ (Token.Place.entry? ⟨before, .closeParen, after⟩).toList := by
  have opened := Token.isOpenedIn_iff before
  have depth := Token.depth_eq before
  obtain ⟨current, enclosing, fault?⟩ := builder
  rw [← isAfter] at opened depth
  cases enclosing with
  | nil =>
      have unmatched : ¬Token.IsOpenedIn before := mt opened.mp (Nat.lt_irrefl 0)
      simp only [Token.Place.entry?, Token.Place.leaf?, unmatched, depth]
      exact entries_push after (.word [')']) _
  | cons parent rest =>
      have matched : Token.IsOpenedIn before := opened.mpr (Nat.succ_pos _)
      simp only [Token.Place.entry?, Token.Place.leaf?, matched]
      exact (openEntries_push _ _ _ _).trans (List.append_nil _).symm

theorem entries_cons
    {token : Token}
    (noOpen : token ≠ .openParen)
    (noClose : token ≠ .closeParen)
    (after : List Token)
    (builder : Builder) :
    builder.entries (token :: after) = builder.entries after := by
  unfold entries
  cases token with
  | openParen => exact absurd rfl noOpen
  | closeParen => exact absurd rfl noClose
  | _ => simp only [Token.closesOuter]

/-- A token adds its entry at the end. -/
theorem entries_take
    {before : List Token}
    {builder : Builder}
    (isAfter : builder.IsAfter before)
    (located : LocatedToken)
    (after : List Token)
    (reads : located.token.ReadsNumeral)
    (unnamed : located.token = .openParen → Token.callName before = [])
    (alone : ∀ name, located.token = .word name → after.head? ≠ some .openParen) :
    (builder.take located).entries after =
      builder.entries (located.token :: after)
        ++ (Token.Place.entry? ⟨before, located.token, after⟩).toList := by
  have depth := (Token.depth_eq before).trans isAfter.symm
  obtain ⟨offset, token⟩ := located
  cases token with
  | closeParen => exact entries_leave isAfter offset after
  | openParen =>
      simp only [Token.Place.entry?, depth, unnamed rfl, Token.isClosedIn_iff]
      simp [take, entries_enter]
  | number literal unit =>
      obtain ⟨numeral, rfl⟩ := reads literal unit rfl
      simp [take, entries_push, entries_numberNode, entries_cons, Token.Place.entry?,
        Token.Place.leaf?, Measurement.read?_numeral, depth]
  | word raw =>
      have kept := alone raw rfl
      simp [take, entries_push, entries_cons, Token.Place.entry?, Token.Place.leaf?, kept, depth,
        Node.entries]
  | comma => simp [take, entries_cons, Token.Place.entry?, Token.Place.leaf?]
  | space => simp [take, entries_cons, Token.Place.entry?, Token.Place.leaf?]
  | _ =>
      simp [take, entries_push, entries_cons, Token.Place.entry?, Token.Place.leaf?, depth,
        Node.entries]

/-! ## Runs -/

/-- A run of tokens, and what ends it, add the entries of their places at the end. -/
theorem entries_takeAll
    {before : List Token}
    {tokens : List LocatedToken}
    {builder : Builder}
    (isAfter : builder.IsAfter before)
    (reads : ∀ located ∈ tokens, located.token.ReadsNumeral)
    (unnamed : (tokens.map LocatedToken.token).head? = some .openParen →
      Token.callName before = []) :
    (takeAll tokens builder).finish.entries =
      builder.entries (tokens.map LocatedToken.token)
        ++ (Token.placesFrom before (tokens.map LocatedToken.token)).filterMap
          Token.Place.entry? := by
  fun_induction takeAll tokens builder generalizing before with
  | case1 builder => simpa [Token.placesFrom] using entries_finish builder
  | case2 _ name _ rest builder inductionHypothesis =>
      -- The builder is behind the word as well, since the word opens and closes nothing.
      have isAfterName : builder.IsAfter (before ++ [.word name]) := isAfter.take ⟨0, .word name⟩
      have isAfterParen : (builder.enter name).IsAfter (before ++ [.word name] ++ [.openParen]) :=
        isAfterName.take ⟨0, .openParen⟩
      have readsRest : ∀ located ∈ rest, located.token.ReadsNumeral := fun located member =>
        reads located (List.mem_cons_of_mem _ (List.mem_cons_of_mem _ member))
      have unnamedRest : Token.callName (before ++ [.word name] ++ [.openParen]) = [] :=
        Token.callName_append_singleton _ _
      have passed : builder.entries (.word name :: .openParen :: rest.map LocatedToken.token) =
          builder.entries (.openParen :: rest.map LocatedToken.token) :=
        entries_cons (by simp) (by simp) _ builder
      rw [inductionHypothesis isAfterParen readsRest fun _ => unnamedRest, entries_enter,
        List.map_cons, List.map_cons, passed, Token.filterMap_entry?_named, Token.depth_eq,
        ← isAfter, List.append_assoc]
      rfl
  | case3 located rest builder notNamed inductionHypothesis =>
      have alone : ∀ name, located.token = .word name →
          (rest.map LocatedToken.token).head? ≠ some .openParen :=
        fun _ => head?_ne_openParen notNamed
      have unnamedRest : (rest.map LocatedToken.token).head? = some .openParen →
          Token.callName (before ++ [located.token]) = [] := by
        intro next
        rw [Token.callName_append_singleton]
        split
        case h_1 name isWord => exact absurd next (alone name isWord)
        case h_2 => rfl
      have readsRest : ∀ other ∈ rest, other.token.ReadsNumeral := fun other member =>
        reads other (List.mem_cons_of_mem located member)
      have step := entries_take isAfter located (rest.map LocatedToken.token)
        (reads located List.mem_cons_self) (fun isOpen => unnamed (congrArg some isOpen)) alone
      rw [inductionHypothesis (isAfter.take located) readsRest unnamedRest, step, List.map_cons,
        Token.placesFrom, List.filterMap_eq_flatMap_toList, List.filterMap_eq_flatMap_toList,
        List.flatMap_cons, List.append_assoc]

end Builder

/-! ## Parsed values -/

/-- The tree of a text loses, adds and moves no leaf. Every number token is a measurement.
In preorder the leaves and calls of the tree are those of the tokens at their places. Its
numbers are the leaves that are numbers, and a walk that goes into every call meets these,
each once and in this order. -/
theorem Value.entries_parse (source : Text) :
    (∀ token ∈ Token.scan source, token.isNumber = true → token.measurement?.isSome = true) ∧
      (parse source).entries =
        (Token.places (Token.scan source)).filterMap Token.Place.entry? ∧
      (parse source).numbers = (parse source).entries.filterMap Entry.measurement? ∧
      ∀ (σ : Type) (record : Measurement → σ → Measurement × σ) (state : σ),
        ((parse source).visit { number := record } state).2 =
          (parse source).numbers.foldl
            (fun state measurement => (record measurement state).2) state := by
  have tokens : (Token.scanLocated source).map LocatedToken.token = Token.scan source :=
    LocatedToken.map_token_ofTokens 0 _
  have reads : ∀ token ∈ Token.scan source, token.ReadsNumeral := Token.readsNumeral_of_mem_scan
  refine ⟨fun token member number => ?_, ?_, (parse source).numbers_eq_entries, ?_⟩
  · cases read : token.measurement? with
    | some measurement => rfl
    | none => exact absurd number (by rw [(reads token member).isNumber_eq_false read]; decide)
  · have start : Builder.empty.IsAfter [] := rfl
    have readsLocated : ∀ located ∈ Token.scanLocated source, located.token.ReadsNumeral := by
      intro located member
      exact reads located.token (tokens ▸ List.mem_map_of_mem member)
    have run := Builder.entries_takeAll start readsLocated fun _ => rfl
    rw [tokens] at run
    exact run
  · intro σ record state
    exact Value.visit_numbers (fun _ _ => rfl) _ state

end CssRescale
