import CssRescale.Proofs.Sheet.Splice
import CssRescale.Proofs.Sheet.Written

/-!
Contract: the block of a rule is located and converted as a list of declarations.

Quiet contents have the same components on their own and inside a curly block, and the
bracket that closes the block is the first one that can. So the segments of a rule are
those of its contents with its two brackets around them, whatever items the contents
hold: a semicolon that is missing at the end, an at-rule, an item without a colon, or a
parenthesis that an unquoted URL has left unmatched, ends at the bracket where it would
end at the end of the text.

Owns:
- declarations and faults at a distance;
- the segments of a rule around quiet contents;
- a rule compared with the list of declarations that it holds.
-/

set_option autoImplicit false

namespace CssRescale

open Text (byteLength)

/-! ## Segments at a distance -/

/-- The declaration that much further in the text. -/
def Declaration.shift (distance : Nat) (declaration : Declaration) : Declaration :=
  { declaration with
    start := declaration.start + distance
    stop := declaration.stop + distance }

theorem Declaration.map_shift_ofSegments (distance offset : Nat) (segments : List Segment) :
    (ofSegments offset segments).map (shift distance) = ofSegments (offset + distance) segments := by
  induction segments generalizing offset with
  | nil => rfl
  | cons segment rest inductionHypothesis =>
      cases segment with
      | verbatim text =>
          rw [ofSegments_verbatim, ofSegments_verbatim, inductionHypothesis, Nat.add_right_comm]
      | value property text =>
          have stop : offset + byteLength text + distance = offset + distance + byteLength text :=
            Nat.add_right_comm offset (byteLength text) distance
          rw [ofSegments_value, ofSegments_value, List.map_cons, inductionHypothesis, shift, stop]

/-- A text behind the last value is no place of a value. -/
theorem Declaration.ofSegments_append_verbatim
    (offset : Nat)
    (segments : List Segment)
    (text : Text) :
    ofSegments offset (segments ++ [.verbatim text]) = ofSegments offset segments := by
  induction segments generalizing offset with
  | nil => rfl
  | cons segment rest inductionHypothesis =>
      cases segment with
      | verbatim front => exact inductionHypothesis _
      | value property value => exact congrArg (List.cons _) (inductionHypothesis _)

namespace Converter

variable {converter : Converter}

/-- Further in a text the same values are converted, and the same one is refused. -/
theorem convertSegments_shift (distance offset : Nat) (segments : List Segment) :
    converter.convertSegments (offset + distance) segments =
      (converter.convertSegments offset segments).mapError (Fault.shift distance) := by
  induction segments generalizing offset with
  | nil => rfl
  | cons segment rest inductionHypothesis =>
      cases segment with
      | verbatim text =>
          rw [convertSegments, convertSegments, Nat.add_right_comm, inductionHypothesis]
          cases converter.convertSegments (offset + byteLength text) rest <;> rfl
      | value property text =>
          rw [convertSegments, convertSegments, Nat.add_right_comm, inductionHypothesis]
          cases converter.convert text with
          | error fault =>
              show Except.error (fault.shift (offset + distance)) =
                Except.error ((fault.shift offset).shift distance)
              simp only [Fault.shift, Nat.add_assoc]
          | ok converted =>
              cases converter.convertSegments (offset + byteLength text) rest <;> rfl

theorem convertSegments_append_verbatim
    (offset : Nat)
    (segments : List Segment)
    (text : Text) :
    converter.convertSegments offset (segments ++ [.verbatim text]) =
      (converter.convertSegments offset segments).map fun (output, report) =>
        (output ++ text, report) := by
  induction segments generalizing offset with
  | nil => simp [convertSegments, prepend, Except.map]
  | cons segment rest inductionHypothesis =>
      cases segment with
      | verbatim front =>
          rw [List.cons_append, convertSegments, convertSegments, inductionHypothesis]
          cases converter.convertSegments (offset + byteLength front) rest with
          | error fault => rfl
          | ok result => simp [prepend, Except.map]
      | value property value =>
          rw [List.cons_append, convertSegments, convertSegments, inductionHypothesis]
          cases converter.convert value with
          | error fault => rfl
          | ok converted =>
              cases converter.convertSegments (offset + byteLength value) rest with
              | error fault => rfl
              | ok result => simp [prependValue, Except.map]

/-- Converting the located values comes to the walk over the segments. -/
theorem splice_concat (segments : List Segment) :
    converter.splice (Segment.concat segments) 0 (Declaration.ofSegments 0 segments) =
      converter.convertSegments 0 segments := by
  have loop := converter.splice_ofSegments segments [] []
  rwa [prepend_nil] at loop

end Converter

/-! ## A rule around contents -/

/-- A sheet of one rule, which has these contents. -/
def Text.ruleAround (contents : Text) : Text :=
  ['a', '\x7b'] ++ contents ++ ['\x7d']

open Text (ruleAround)

/-- The selector of the rule. -/
def LetterName.element : LetterName := ⟨['a'], nofun, List.forall_mem_singleton.mpr (by decide)⟩

section

variable
  {contents : Text}
  (isQuiet : Text.IsQuiet 0 contents)

include isQuiet

theorem Component.ofText_ruleAround :
    ofText (ruleAround contents) =
      [.single ⟨.identifier ['a'], ['a']⟩,
        .block .curly ['\x7b'] (ofText contents) ['\x7d']] := by
  have parts : ruleAround contents = LetterName.element.text ++ '\x7b' :: (contents ++ ['\x7d']) := by
    simp [ruleAround, LetterName.element]
  have opening : ∀ grouping : Grouping, grouping.take ⟨SheetToken.kindOf '\x7b', ['\x7b']⟩ =
      grouping.enter .curly ['\x7b'] := fun _ => rfl
  have outermost : Grouping.empty.IsNotIn .round := nofun
  have inBlock : Grouping.IsNotIn .round
      ((Grouping.empty.pushEach (ofText LetterName.element.text)).enter .curly ['\x7b']) := by
    intro parent member
    cases member
    exact Bracket.noConfusion
  rw [ofText, ofTokens, parts,
    Grouping.foldl_take_quiet LetterName.element.isCalm.isQuiet rfl outermost, opening,
    Grouping.foldl_take_quiet isQuiet rfl inBlock, RuleItem.leave_enter_pushEach,
    Grouping.pushEach_pushEach, ofText_letterName, SheetToken.scan_nil]
  rfl

/-- The segments of a rule are those of its contents, with the rest of the rule around them. -/
theorem Segment.ofSheet_ruleAround :
    ofSheet (ruleAround contents) =
      .verbatim ['a'] :: .verbatim ['\x7b'] :: (ofDeclarations contents ++ [.verbatim ['\x7d']]) := by
  rw [ofSheet, Component.ofText_ruleAround isQuiet]
  simp [Component.sheet, Component.SheetState.step, Component.SheetState.enter,
    Component.makeCustom, Component.customStart, Component.isCurlyBlock,
    Component.SheetState.entersBlock, Component.inside, ofDeclarations]

end

namespace Converter

/-- A rule around a text is converted as the text is converted as a list of declarations.
The values that are located are the same, in the same order and two bytes further; the
conversion succeeds in the same cases, with the converted list in the rule; and if a value
is refused, the fault is the same, two bytes further. -/
theorem convertSheet_ruleAround
    (contents : Text)
    (plain : ∀ c ∈ contents, c ∉ ['\x7b', '\x7d', '[', ']', '"', '\'', '\\', '/'])
    (nested : Text.closes 0 contents = true) :
    Declaration.ofSheet (ruleAround contents) =
        (Declaration.ofList contents).map (Declaration.shift 2) ∧
      ∀ converter : Converter,
        (converter.convertSheet (ruleAround contents)).map Prod.fst =
          ((converter.convertDeclarations contents).map ruleAround).mapError (Fault.shift 2) := by
  have isQuiet : Text.IsQuiet 0 contents := by
    refine ⟨fun c member => ?_, nested⟩
    have other := plain c member
    simp only [List.mem_cons, List.not_mem_nil, or_false, not_or] at other
    simp [Text.isQuiet, isQuote, other]
  have segments := Segment.ofSheet_ruleAround isQuiet
  refine ⟨?located, fun converter => ?converted⟩
  case located =>
    rw [Declaration.ofSheet, segments, Declaration.ofSegments_verbatim,
      Declaration.ofSegments_verbatim, Declaration.ofSegments_append_verbatim,
      Declaration.ofList, Declaration.map_shift_ofSegments]
    rfl
  case converted =>
    -- Both conversions are walks over segments, and the rule adds only verbatim ones.
    have sheet := @splice_concat converter (Segment.ofSheet (ruleAround contents))
    have list := @splice_concat converter (Segment.ofDeclarations contents)
    have further := @convertSegments_shift converter 2 0 (Segment.ofDeclarations contents)
    rw [Segment.concat_ofSheet] at sheet
    rw [Segment.concat_ofDeclarations] at list
    rw [convertSheet, Declaration.ofSheet, sheet, segments, convertSegments, convertSegments,
      convertSegments_append_verbatim, convertDeclarations, Declaration.ofList, list]
    show ((prepend ['a'] (prepend ['\x7b'] (Except.map _
      (converter.convertSegments (0 + 2) (Segment.ofDeclarations contents))))).map Prod.fst) = _
    rw [further]
    cases converter.convertSegments 0 (Segment.ofDeclarations contents) with
    | error fault => rfl
    | ok result => simp [prepend, Except.map, Except.mapError, ruleAround]

/-- Around an item without a colon and a URL that ends before its last bracket, which
strict conversion refuses. -/
theorem convertSheet_ruleAround_url :
    Declaration.ofSheet "a\x7bb:48px;f(g);c:url(d(e))\x7d".toList =
        [⟨['b'], 4, 8⟩, ⟨['c'], 16, 25⟩] ∧
      ((⟨Rules.default, false⟩ : Converter).convertSheet
          "a\x7bb:48px;f(g);c:url(d(e))\x7d".toList).map Prod.fst =
        .ok "a\x7bb:2rem;f(g);c:url(d(e))\x7d".toList ∧
      ((⟨Rules.default, true⟩ : Converter).convertSheet
          "a\x7bb:48px;f(g);c:url(d(e))\x7d".toList).map Prod.fst =
        .error ⟨24, [')']⟩ := by
  have plain : ("b:48px;f(g);c:url(d(e))".toList.all fun c =>
      c ∉ ['\x7b', '\x7d', '[', ']', '"', '\'', '\\', '/']) = true := by decide
  have around := convertSheet_ruleAround "b:48px;f(g);c:url(d(e))".toList
    (fun c member => of_decide_eq_true (List.all_eq_true.mp plain c member)) (by decide)
  have located : Declaration.ofList "b:48px;f(g);c:url(d(e))".toList =
      [⟨['b'], 2, 6⟩, ⟨['c'], 14, 23⟩] := by decide +kernel
  have loose : (⟨Rules.default, false⟩ : Converter).convertDeclarations
      "b:48px;f(g);c:url(d(e))".toList = .ok "b:2rem;f(g);c:url(d(e))".toList := by decide +kernel
  have strict : (⟨Rules.default, true⟩ : Converter).convertDeclarations
      "b:48px;f(g);c:url(d(e))".toList = .error ⟨22, [')']⟩ := by decide +kernel
  rw [located] at around
  refine ⟨around.1, (around.2 ⟨Rules.default, false⟩).trans ?loose,
    (around.2 ⟨Rules.default, true⟩).trans ?strict⟩
  case loose =>
    rw [loose]
    rfl
  case strict =>
    rw [strict]
    rfl

end Converter

end CssRescale
