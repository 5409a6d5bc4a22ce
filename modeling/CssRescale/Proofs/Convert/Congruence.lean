import CssRescale.Proofs.Convert.TokenWise
import CssRescale.Proofs.Value.Calls

/-!
Contract: conversion goes into parts.

In a text without a fault everything that was opened is closed, so a comma or a closing
parenthesis behind it parts the tokens. Conversion works token by token, and strict
building token by token up to the open calls. So both can be done on the parts: on the
items of a list, and inside a call by any name but the one of URLs.

Owns:
- the tokens of a call by a name of letters;
- conversion of a list and of a call by conversion of their parts;
- the faults of a list by the faults of its last part.
-/

set_option autoImplicit false

namespace CssRescale

open Text (ne_of_isAlpha headIs endsRun)

namespace Token

/-! ## Names of letters -/

theorem readWord_letters
    {letters rest : Text}
    (areLetters : ∀ c ∈ letters, c.isAlpha = true)
    (ends : endsRun endsWord rest = true) :
    readWord (letters ++ rest) = (word letters, rest) := by
  have inside : ∀ c ∈ letters, endsWord c = false ∧ c ≠ '\\' := by
    intro c member
    have letter := areLetters c member
    exact ⟨by simp [endsWord, isBlank, isQuote, ne_of_isAlpha letter], ne_of_isAlpha letter rfl⟩
  have taken := Text.takeEscaped_plain inside ends
  simp only [readWord, taken]

theorem starts_letters
    {first : Char}
    {letters rest : Text}
    (areLetters : ∀ c ∈ first :: letters, c.isAlpha = true)
    (ends : endsRun endsWord rest = true) :
    Starts first (letters ++ rest) (word (first :: letters), rest) := by
  have letter := areLetters first List.mem_cons_self
  rw [← readWord_letters areLetters ends]
  refine .word ?_ ?_ (startsNumber_of_isAlpha letter _) ?_
  · simp [endsWord, isBlank, isQuote, ne_of_isAlpha letter]
  · simp [isOperator, ne_of_isAlpha letter]
  · rw [startsDashedWord_cons]
    simp [ne_of_isAlpha letter]

/-- A parenthesis behind a name other than that of URLs opens nothing but a call. -/
theorem exists_scan_call
    {name : Text}
    (letters : ∀ c ∈ name, c.isAlpha = true)
    (noUrl : Text.equalIgnoringCase name urlName = false)
    (rest : Text) :
    ∃ opening, scan (name ++ '(' :: rest) = opening ++ scan rest ∧
      concat opening = name ++ ['('] ∧ ∀ token ∈ opening, token.isNumber = false := by
  have paren : scan ('(' :: rest) = openParen :: scan rest :=
    scanFrom_of_next? (next?_of_starts rfl .openParen)
  cases name with
  | nil => exact ⟨[openParen], paren, rfl, by simp [isNumber]⟩
  | cons first letters' =>
      refine ⟨[word (first :: letters'), openParen], ?_, rfl, by simp [isNumber]⟩
      have outside :
          UrlState.outside.after (word (first :: letters')) ('(' :: rest) = .outside := by
        simp [UrlState.after, noUrl]
      have read : next? .outside (first :: (letters' ++ '(' :: rest)) =
          some (word (first :: letters'), '(' :: rest) :=
        next?_of_starts rfl (starts_letters letters rfl)
      rw [scan, List.cons_append, scanFrom_of_next? read, outside, ← scan, paren]
      rfl

end Token

/-! ## Conversion of parts -/

namespace Rules

variable (rules : Rules)

theorem convertText_eq_flatMap (source : Text) :
    rules.convertText source = (Token.scan source).flatMap rules.convertedText := by
  rw [convertText_eq_css, css_convertValue]

theorem convertedText_of_isNumber_eq_false
    {token : Token}
    (other : token.isNumber = false) :
    rules.convertedText token = token.text := by
  cases token with
  | number literal unit => cases other
  | _ => rfl

theorem convertTextStrict_eq (source : Text) :
    rules.convertTextStrict source =
      match Value.parseStrict source with
      | .ok _ => .ok (rules.convertText source)
      | .error fault => .error fault := by
  unfold convertTextStrict
  rcases Value.parseStrict_cases source with ⟨-, built⟩ | ⟨-, fault, refused⟩
  · rw [built]
    rfl
  · rw [refused]
    rfl

theorem flatMap_convertedText_of_isNumber_eq_false
    {tokens : List Token}
    (others : ∀ token ∈ tokens, token.isNumber = false) :
    tokens.flatMap rules.convertedText = Token.concat tokens := by
  rw [Token.concat, List.flatMap_def, List.flatMap_def, List.map_congr_left fun token member =>
    rules.convertedText_of_isNumber_eq_false (others token member)]

section

variable
  {source : Text}
  {value : Value}
  (accepted : Value.parseStrict source = .ok value)
  (plain : source.getLast? ≠ some '\\')

include accepted plain

/-- Behind a text without a fault and a mark, conversion starts anew. -/
theorem convertText_append_mark
    {c : Char}
    {mark : Token}
    (isMark : Token.IsMark c mark)
    (rest : Text) :
    rules.convertText (source ++ c :: rest) =
      rules.convertText source ++ c :: rules.convertText rest := by
  have kept : rules.convertedText mark = [c] := by cases isMark <;> rfl
  have tokens : Token.scan (source ++ c :: rest) =
      Token.scan source ++ mark :: Token.scan rest :=
    Token.scanFrom_append_mark isMark rest plain (Token.areClosed_of_parseStrict accepted) nofun
  rw [convertText_eq_flatMap, tokens, List.flatMap_append, List.flatMap_cons, kept,
    ← convertText_eq_flatMap, ← convertText_eq_flatMap]
  rfl

theorem convertText_call
    {name : Text}
    (letters : ∀ c ∈ name, c.isAlpha = true)
    (noUrl : Text.equalIgnoringCase name Token.urlName = false) :
    rules.convertText (name ++ '(' :: (source ++ [')'])) =
      name ++ '(' :: (rules.convertText source ++ [')']) := by
  obtain ⟨opening, tokens, written, others⟩ :=
    Token.exists_scan_call letters noUrl (source ++ [')'])
  have inside := rules.convertText_append_mark accepted plain .closeParen []
  have nothing : rules.convertText [] = [] := by
    rw [convertText_eq_flatMap, Token.scan, Token.scanFrom_nil]
    rfl
  rw [convertText_eq_flatMap, tokens, List.flatMap_append,
    rules.flatMap_convertedText_of_isNumber_eq_false others, written, ← convertText_eq_flatMap,
    inside, nothing]
  simp

/-- The fault of a list whose first part has none is the fault of the rest, further in
the text. -/
theorem parseStrict_append_comma (rest : Text) :
    Value.parseStrict (source ++ ',' :: rest) =
      match Value.parseStrict rest with
      | .ok _ => .ok (Value.parse (source ++ ',' :: rest))
      | .error fault => .error (fault.shift (Text.byteLength source + 1)) := by
  have faults := Builder.finalFault?_append_comma accepted plain rest
  unfold Value.parseStrict
  rw [faults]
  cases (Builder.ofText rest).finalFault? (Text.byteLength rest) <;> rfl

/-- Conversion is a congruence. For a text without a fault that does not end in a
backslash, it goes into the parts of a list that starts with the text, and into a call of
the text by any name of letters other than that of URLs. Strict building accepts the list
exactly if it accepts the rest, and otherwise reports the fault of the rest further in
the text; so does strict conversion, which gives what loose conversion gives. -/
theorem convertText_congruence :
    (∀ rest, rules.convertText (source ++ ',' :: rest) =
        rules.convertText source ++ ',' :: rules.convertText rest) ∧
      (∀ name : Text, (∀ c ∈ name, c.isAlpha = true) →
        Text.equalIgnoringCase name Token.urlName = false →
        rules.convertText (name ++ '(' :: (source ++ [')'])) =
          name ++ '(' :: (rules.convertText source ++ [')'])) ∧
      (∀ rest, (∃ tree, Value.parseStrict (source ++ ',' :: rest) = .ok tree) ↔
        ∃ tree, Value.parseStrict rest = .ok tree) ∧
      (∀ rest fault, Value.parseStrict rest = .error fault →
        Value.parseStrict (source ++ ',' :: rest) =
          .error { fault with offset := fault.offset + (Text.byteLength source + 1) }) ∧
      ∀ rest, rules.convertTextStrict (source ++ ',' :: rest) =
        match rules.convertTextStrict rest with
        | .ok text => .ok (rules.convertText source ++ ',' :: text)
        | .error fault =>
            .error { fault with offset := fault.offset + (Text.byteLength source + 1) } := by
  have list := rules.convertText_append_mark accepted plain .comma
  have strict := parseStrict_append_comma accepted plain
  refine ⟨list, fun _ => rules.convertText_call accepted plain, fun rest => ?_,
    fun rest fault refused => ?_, fun rest => ?_⟩
  · rw [strict]
    cases Value.parseStrict rest with
    | ok tree => exact ⟨fun _ => ⟨tree, rfl⟩, fun _ => ⟨_, rfl⟩⟩
    | error fault => exact iff_of_false nofun nofun
  · rw [strict, refused]
    rfl
  · rw [convertTextStrict_eq, convertTextStrict_eq, strict, list]
    cases Value.parseStrict rest <;> rfl

end

/-- A string with a parenthesis in it and a call, before a call that is not closed. -/
theorem convertText_string_and_call :
    (∃ tree, Value.parseStrict "')' f(36px)".toList = .ok tree) ∧
      "')' f(36px)".toList.getLast? ≠ some '\\' ∧
      (∀ c ∈ "calc".toList, c.isAlpha = true) ∧
      Text.equalIgnoringCase "calc".toList Token.urlName = false ∧
      default.convertText "calc(')' f(36px))".toList = "calc(')' f(1.5rem))".toList ∧
      default.convertText "')' f(36px),g(24px".toList = "')' f(1.5rem),g(1rem".toList ∧
      Value.parseStrict "')' f(36px),g(24px".toList = .error ⟨18, "g(".toList⟩ := by
  have wellFormed : (Value.parse "')' f(36px)".toList).isWellFormed = true := by decide +kernel
  have accepted : Value.parseStrict "')' f(36px)".toList =
      .ok (Value.parse "')' f(36px)".toList) := by
    rcases Value.parseStrict_cases "')' f(36px)".toList with ⟨-, built⟩ | ⟨illFormed, -⟩
    · exact built
    · exact Bool.noConfusion (wellFormed.symm.trans illFormed)
  have plain : "')' f(36px)".toList.getLast? ≠ some '\\' := by decide
  have letters : ∀ c ∈ "calc".toList, c.isAlpha = true := List.all_eq_true.mp rfl
  have noUrl : Text.equalIgnoringCase "calc".toList Token.urlName = false := by decide
  have item : default.convertText "')' f(36px)".toList = "')' f(1.5rem)".toList := by
    decide +kernel
  have rest : default.convertText "g(24px".toList = "g(1rem".toList := by decide +kernel
  have refused : Value.parseStrict "g(24px".toList = .error ⟨6, "g(".toList⟩ := by
    have leftOpen : (Builder.ofText "g(24px".toList).finalFault? (Text.byteLength "g(24px".toList) =
        some ⟨6, "g(".toList⟩ := by decide +kernel
    rw [Value.parseStrict, leftOpen]
  have inCall : "calc(')' f(36px))".toList =
      "calc".toList ++ '(' :: ("')' f(36px)".toList ++ [')']) := by decide
  have inList : "')' f(36px),g(24px".toList = "')' f(36px)".toList ++ ',' :: "g(24px".toList := by
    decide
  obtain ⟨list, call, -, faults, -⟩ := convertText_congruence default accepted plain
  refine ⟨⟨_, accepted⟩, plain, letters, noUrl, ?_, ?_, ?_⟩
  · rw [inCall, call _ letters noUrl, item]
    decide
  · rw [inList, list, item, rest]
    decide
  · rw [inList, faults _ _ refused]
    exact congrArg Except.error (by decide)

end Rules

end CssRescale
