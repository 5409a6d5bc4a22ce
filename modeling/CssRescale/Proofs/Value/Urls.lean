import CssRescale.Proofs.Token.Opaque
import CssRescale.Proofs.Token.Partition
import CssRescale.Proofs.Value.Calls

/-!
Contract: what is remembered of a URL.

A scanner of bytes has two flags. At every place that it reaches in the bytes of a text they
say no more than what the last two tokens and the next byte say, whichever way the scanner
came there. A flag that is out of date would take a parenthesis or some text for those of a
URL that is not there.

Owns:
- the places that the scanner of bytes reaches, and its flags there;
- the body of a URL among the tokens of its text, and in the tree.

Does not own: how far the body of a URL goes.
-/

set_option autoImplicit false

namespace CssRescale

open Utf8 (encode)
open Token (UrlState EndsInUrl EndsInUrlCall concat scanFrom scanLocated)

namespace Octets

/-! ## Places -/

/-- A scanner that starts on these bytes has taken these tokens when it stands, with these
flags, before the bytes that are left. -/
inductive Reaches (source : Bytes) : List OctetToken → Flags → Bytes → Prop where
  | start : Reaches source [] ⟨false, false⟩ source
  | step {before : List OctetToken} {flags after : Flags} {octets left : Bytes}
      {token : OctetToken}
      (reaches : Reaches source before flags octets)
      (reads : next? flags octets = some (token, after, left)) :
      Reaches source (before ++ [token]) after left

/-- The scanner of bytes stands where the scan of a text does, with the same tokens before it
and behind it. Its flags are the state of the scan. -/
structure IsAt
    (source : Text)
    (octets : List OctetToken)
    (flags : Flags)
    (left : Bytes)
    (before after : List LocatedToken)
    (state : UrlState) : Prop where
  tokens : scanLocated source = before ++ after
  reaches :
    Token.Reaches .outside source (before.map LocatedToken.token) state
      (concat (after.map LocatedToken.token))
  taken : octets = before.map fun located => located.token.octets
  flags : flags = flagsOf state
  left : left = encode (concat (after.map LocatedToken.token))

/-- In the bytes of a text the scanner takes the steps of the scan. -/
theorem Reaches.exists_reaches
    {source : Text}
    {octets : List OctetToken}
    {flags : Flags}
    {left : Bytes}
    (reaches : Reaches (encode source) octets flags left) :
    ∃ before state rest,
      Token.Reaches .outside source before state rest ∧
        octets = before.map Token.octets ∧ flags = flagsOf state ∧ left = encode rest := by
  induction reaches with
  | start => exact ⟨[], .outside, source, .start, rfl, rfl, rfl⟩
  | step _ reads inductionHypothesis =>
      obtain ⟨before, state, rest, reaches, rfl, rfl, rfl⟩ := inductionHypothesis
      have nonempty : rest ≠ [] := by
        rintro rfl
        exact absurd reads nofun
      obtain ⟨token, remaining, reading⟩ := Token.exists_next? state nonempty
      have isReached : IsReached state rest := fun named => (reaches.named_iff.mp named).2
      have step := next?_encode isReached reading
      rw [reads] at step
      simp only [Option.some.injEq, Prod.mk.injEq] at step
      obtain ⟨rfl, rfl, rfl⟩ := step
      exact ⟨before ++ [token], _, remaining, .step reaches reading, by simp, rfl, rfl⟩

theorem Reaches.exists_isAt
    {source : Text}
    {octets : List OctetToken}
    {flags : Flags}
    {left : Bytes}
    (reaches : Reaches (encode source) octets flags left) :
    ∃ before after state, IsAt source octets flags left before after state := by
  obtain ⟨before, state, rest, place, rfl, rfl, rfl⟩ := reaches.exists_reaches
  have split : scanLocated source = LocatedToken.ofTokens 0 before ++
      LocatedToken.ofTokens (0 + Text.byteLength (concat before)) (scanFrom state rest) := by
    rw [scanLocated, Token.scan, place.scanFrom_eq, LocatedToken.ofTokens_append]
  refine ⟨_, _, state, split, ?reaches, ?taken, rfl, ?left⟩
  case reaches =>
    rw [LocatedToken.map_token_ofTokens, LocatedToken.map_token_ofTokens, Token.concat_scanFrom]
    exact place
  case taken => rw [← Function.comp_def, ← List.map_map, LocatedToken.map_token_ofTokens]
  case left => rw [LocatedToken.map_token_ofTokens, Token.concat_scanFrom]

/-! ## Flags -/

/-- The flags say what the last tokens are and what follows them. -/
structure Flags.Tell (flags : Flags) (before : List Token) (left : Bytes) : Prop where
  /-- The name of a URL was the last token, and a parenthesis is next. -/
  pending_iff : flags.pending = true ↔ EndsInUrl before ∧ startsWith (· == '(') left = true
  /-- The name of a URL and its parenthesis were the last two tokens. -/
  body_iff : flags.body = true ↔ EndsInUrlCall before
  apart : ¬(flags.pending = true ∧ flags.body = true)

theorem pending_flagsOf_iff (state : UrlState) :
    (flagsOf state).pending = true ↔ state = .named := by
  cases state <;> decide

theorem body_flagsOf_iff (state : UrlState) :
    (flagsOf state).body = true ↔ state = .opened := by
  cases state <;> decide

theorem tell_flagsOf
    {source rest : Text}
    {before : List Token}
    {state : UrlState}
    (reaches : Token.Reaches .outside source before state rest) :
    (flagsOf state).Tell before (encode rest) where
  pending_iff := by rw [pending_flagsOf_iff, reaches.named_iff, startsWithParen_encode]
  body_iff := by rw [body_flagsOf_iff, reaches.opened_iff]
  apart := by
    rw [pending_flagsOf_iff, body_flagsOf_iff]
    rintro ⟨rfl, opened⟩
    cases opened

end Octets

/-! ## Bodies -/

/-- Behind the body of a URL there is nothing, or its closing parenthesis. -/
theorem Token.head?_scanFrom_of_expectedBody?
    {state : UrlState}
    {source body left : Text}
    (expected : expectedBody? state source = some (body, left)) :
    ∀ next ∈ (scanFrom (state.after (.word body) left) left).head?, next = closeParen := by
  rw [Octets.after_of_expected expected]
  rcases left_of_takeUrlBody? (takeUrlBody?_of_expectedBody? expected) with rfl | ⟨rest, rfl⟩
  · rw [scanFrom_nil]
    exact nofun
  · have closes : next? .outside (')' :: rest) = some (closeParen, rest) :=
      next?_of_starts rfl .closeParen
    rw [scanFrom_of_next? closes]
    rintro next ⟨⟩
    rfl

/-- A word is an item, unless a parenthesis is right behind it. -/
theorem Builder.takeAll_word
    {before after : List LocatedToken}
    {offset : Nat}
    {raw : Text}
    (unnamed : ∀ next ∈ after.head?, next.token ≠ .openParen)
    (builder : Builder) :
    takeAll (before ++ ⟨offset, .word raw⟩ :: after) builder =
      takeAll after ((takeAll before builder).push (.word raw)) := by
  rw [takeAll_append before builder (by simp), takeAll]
  · rfl
  · rintro _ name parenOffset others - rfl
    exact unnamed _ rfl rfl

/-- A word between these tokens of a text names no call. It is not empty, a closing
parenthesis follows it if anything does, and the builder that has taken the tokens before it
takes it as an item. -/
structure LocatedToken.NamesNoCall
    (source : Text)
    (before : List LocatedToken)
    (raw : Text)
    (after : List LocatedToken) : Prop where
  nonempty : raw ≠ []
  closed : ∀ next ∈ after.head?, next.token = .closeParen
  isItem :
    Builder.ofText source =
      Builder.takeAll after ((Builder.takeAll before .empty).push (.word raw))

/-- Where the body of a URL is expected, it is the next token, and it names no call. -/
theorem Octets.IsAt.exists_namesNoCall
    {source body remaining : Text}
    {octets : List OctetToken}
    {flags : Flags}
    {left : Bytes}
    {before after : List LocatedToken}
    {state : UrlState}
    (isAt : IsAt source octets flags left before after state)
    (expected :
      Token.expectedBody? state (concat (after.map LocatedToken.token)) = some (body, remaining)) :
    ∃ offset rest,
      after = ⟨offset, .word body⟩ :: rest ∧
        LocatedToken.NamesNoCall source before body rest := by
  have reading := Token.next?_of_expected expected
  have scanned : after.map LocatedToken.token =
      .word body :: scanFrom (state.after (.word body) remaining) remaining := by
    have tokens := congrArg (List.map LocatedToken.token) isAt.tokens
    rw [scanLocated, LocatedToken.map_token_ofTokens, Token.scan, isAt.reaches.scanFrom_eq,
      List.map_append] at tokens
    rw [← List.append_cancel_left tokens, Token.scanFrom_of_next? reading]
  obtain ⟨⟨offset, token⟩, rest, rfl, rfl, following⟩ := List.map_eq_cons_iff.mp scanned
  have closed : ∀ next ∈ rest.head?, next.token = .closeParen := by
    intro next member
    apply Token.head?_scanFrom_of_expectedBody? expected
    rw [← following, List.head?_map]
    exact Option.mem_map_of_mem LocatedToken.token member
  refine ⟨offset, rest, rfl, Token.next?_text_ne_nil reading, closed, ?_⟩
  rw [Builder.ofText, isAt.tokens]
  apply Builder.takeAll_word
  intro next member isOpen
  rw [closed next member] at isOpen
  cases isOpen

/-- At every place that the scanner of bytes reaches in the bytes of a text, one flag is up
exactly if the last token is the name of a URL, in any case, and a parenthesis is the next
byte. The other one is up exactly if the last two tokens are such a name and its
parenthesis, so they are never both up. The body that the scanner then takes is not empty.
A closing parenthesis follows it if anything does, and building the tree makes it no name. -/
theorem Octets.flags_of_reaches
    {source : Text}
    {octets : List OctetToken}
    {flags : Flags}
    {left : Bytes}
    (reaches : Reaches (encode source) octets flags left) :
    ∃ before after state,
      IsAt source octets flags left before after state ∧
        flags.Tell (before.map LocatedToken.token) left ∧
        ∀ raw behind, flags.body = true → takeUrlBody? left = some (raw, behind) →
          ∃ offset body rest,
            after = ⟨offset, .word body⟩ :: rest ∧ raw = encode body ∧
              LocatedToken.NamesNoCall source before body rest := by
  obtain ⟨before, after, state, isAt⟩ := reaches.exists_isAt
  refine ⟨before, after, state, isAt, ?tell, ?body⟩
  case tell =>
    rw [isAt.flags, isAt.left]
    exact tell_flagsOf isAt.reaches
  case body =>
    intro raw behind isBody takes
    rw [isAt.flags, body_flagsOf_iff] at isBody
    rw [isAt.left, takeUrlBody?_encode, Option.map_eq_some_iff] at takes
    obtain ⟨⟨body, remaining⟩, takes, same⟩ := takes
    have expected : Token.expectedBody? state (concat (after.map LocatedToken.token)) =
        some (body, remaining) := by
      rw [Token.expectedBody?, if_pos isBody, takes]
    obtain ⟨offset, rest, shape, names⟩ := isAt.exists_namesNoCall expected
    exact ⟨offset, body, rest, shape, (congrArg Prod.fst same).symm, names⟩

/-- A body that starts with an escaped character of two bytes, behind a name in capitals. -/
theorem Octets.flags_of_reaches_escape :
    Reaches (encode "URL(\\é)url(".toList) [.word [0x55, 0x52, 0x4C], .openParen] ⟨false, true⟩
        (encode "\\é)url(".toList) ∧
      takeUrlBody? (encode "\\é)url(".toList) =
        some ([0x5C, 0xC3, 0xA9], encode ")url(".toList) ∧
      EndsInUrlCall [.word "URL".toList, .openParen] ∧
      LocatedToken.NamesNoCall "URL(\\é)url(".toList
        [⟨0, .word "URL".toList⟩, ⟨3, .openParen⟩] "\\é".toList
        [⟨7, .closeParen⟩, ⟨8, .word "url".toList⟩, ⟨11, .openParen⟩] := by
  have name : Reaches (encode "URL(\\é)url(".toList) [.word [0x55, 0x52, 0x4C]] ⟨true, false⟩
      (encode "(\\é)url(".toList) :=
    .step .start (by decide +kernel)
  have reaches : Reaches (encode "URL(\\é)url(".toList) [.word [0x55, 0x52, 0x4C], .openParen]
      ⟨false, true⟩ (encode "\\é)url(".toList) :=
    .step name (by decide +kernel)
  have takes : takeUrlBody? (encode "\\é)url(".toList) =
      some ([0x5C, 0xC3, 0xA9], encode ")url(".toList) := by
    decide +kernel
  have tokens : scanLocated "URL(\\é)url(".toList =
      [⟨0, .word "URL".toList⟩, ⟨3, .openParen⟩] ++ [⟨4, .word "\\é".toList⟩, ⟨7, .closeParen⟩,
        ⟨8, .word "url".toList⟩, ⟨11, .openParen⟩] := by
    decide +kernel
  obtain ⟨before, after, state, isAt, tell, bodies⟩ := flags_of_reaches reaches
  have length := congrArg List.length isAt.taken
  rw [List.length_map] at length
  obtain ⟨rfl, rfl⟩ := List.append_inj (isAt.tokens.symm.trans tokens) length.symm
  obtain ⟨offset, body, rest, shape, -, names⟩ := bodies _ _ rfl takes
  obtain ⟨located, rfl⟩ := List.cons.inj shape
  cases located
  exact ⟨reaches, takes, tell.body_iff.mp rfl, names⟩

end CssRescale
