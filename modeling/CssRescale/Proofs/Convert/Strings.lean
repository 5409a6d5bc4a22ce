import CssRescale.Proofs.Convert.Congruence
import CssRescale.Proofs.Token.Quoted

/-!
Contract: strings are kept, and influence nothing.

What a string contains may look like measurements, calls or the opening of a comment.
Conversion of a text with a string in it gives the same text around the string, whatever
the string contains, and rewrites as many numbers.

Owns: conversion of two texts that differ in what one string contains.
-/

set_option autoImplicit false

namespace CssRescale

open Text (byteLength)
open Token (IsPlainContent aroundString)

namespace Rules

variable (rules : Rules)

theorem convertText_append_string
    {source back raw : Text}
    {before : List Token}
    {terminated : Bool}
    (tokens : Token.scan source = before ++ .string raw terminated :: Token.scan back) :
    rules.convertText source =
      before.flatMap rules.convertedText ++ (raw ++ rules.convertText back) := by
  rw [convertText_eq_flatMap, tokens, List.flatMap_append, List.flatMap_cons,
    ← convertText_eq_flatMap]
  rfl

/-- The numbers that are rewritten stand before the string or behind it. -/
theorem count_append_string
    {source back raw : Text}
    {before : List Token}
    {terminated : Bool}
    (tokens : Token.scan source = before ++ .string raw terminated :: Token.scan back) :
    (rules.convertValue (Value.parse source)).2 =
      (before.filterMap Token.measurement?).countP rules.isRewritten +
        (rules.convertValue (Value.parse back)).2 := by
  rw [count_convertValue, count_convertValue, Value.numbers_parse, Value.numbers_parse, tokens,
    List.filterMap_append, List.countP_append]
  rfl

end Rules

/-- What a string contains influences nothing else. Where a string with plain contents
starts behind a text, a string starts there with any other plain contents as well.
Conversion of the two texts gives texts that differ in these contents only, with the
conversion of the text behind the string at the end, and the same number of rewritten
numbers. -/
theorem Rules.convertText_aroundString
    {front left right back : Text}
    {quote : Char}
    (isQuote : isQuote quote = true)
    (leftPlain : IsPlainContent quote left)
    (rightPlain : IsPlainContent quote right)
    (isString : ∃ raw terminated, ⟨byteLength front, .string raw terminated⟩ ∈
      Token.scanLocated (aroundString quote front left back)) :
    (∃ raw terminated, ⟨byteLength front, .string raw terminated⟩ ∈
        Token.scanLocated (aroundString quote front right back)) ∧
      ∀ rules : Rules,
        (∃ frontText,
          rules.convertText (aroundString quote front left back) =
              aroundString quote frontText left (rules.convertText back) ∧
            rules.convertText (aroundString quote front right back) =
              aroundString quote frontText right (rules.convertText back)) ∧
          (rules.convertValue (Value.parse (aroundString quote front left back))).2 =
            (rules.convertValue (Value.parse (aroundString quote front right back))).2 := by
  obtain ⟨raw, terminated, member⟩ := isString
  obtain ⟨before, rfl, scanned⟩ := Token.exists_scan_aroundString isQuote member rfl
  have leftTokens := scanned left leftPlain
  have rightTokens := scanned right rightPlain
  refine ⟨⟨quote :: (right ++ [quote]), true, ?_⟩,
    fun rules => ⟨⟨before.flatMap rules.convertedText, ?_, ?_⟩, ?_⟩⟩
  · rw [Token.scanLocated, rightTokens, LocatedToken.ofTokens_append, Nat.zero_add]
    exact List.mem_append_right _ List.mem_cons_self
  · rw [rules.convertText_append_string leftTokens]
    simp [aroundString]
  · rw [rules.convertText_append_string rightTokens]
    simp [aroundString]
  · rw [rules.count_append_string leftTokens, rules.count_append_string rightTokens]

/-- Inside the parentheses of a URL, behind white space, a string that looks like a
measurement, the end of the call, a comment and another URL. -/
theorem Rules.convertText_aroundString_url :
    isQuote '"' = true ∧
      IsPlainContent '"' "36px)/*,url(".toList ∧
      IsPlainContent '"' "'".toList ∧
      (∃ raw terminated, ⟨byteLength "12px url( ".toList, .string raw terminated⟩ ∈
        Token.scanLocated
          (aroundString '"' "12px url( ".toList "36px)/*,url(".toList "24px".toList)) ∧
      ((default : Rules).convertValue
          (Value.parse "12px url( \"36px)/*,url(\"24px".toList)).2 =
        ((default : Rules).convertValue (Value.parse "12px url( \"'\"24px".toList)).2 := by
  have leftPlain : IsPlainContent '"' "36px)/*,url(".toList := ⟨by decide, by decide⟩
  have rightPlain : IsPlainContent '"' "'".toList := ⟨by decide, by decide⟩
  have isString : ∃ raw terminated, ⟨byteLength "12px url( ".toList, .string raw terminated⟩ ∈
      Token.scanLocated
        (aroundString '"' "12px url( ".toList "36px)/*,url(".toList "24px".toList) :=
    ⟨"\"36px)/*,url(\"".toList, true, by decide +kernel⟩
  obtain ⟨-, converted⟩ := convertText_aroundString (by decide) leftPlain rightPlain isString
  exact ⟨by decide, leftPlain, rightPlain, isString, (converted default).2⟩

end CssRescale
