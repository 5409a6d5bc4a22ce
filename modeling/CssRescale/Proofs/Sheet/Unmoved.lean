import CssRescale.Proofs.Convert.Tokens
import CssRescale.Proofs.Sheet.Exchange
import CssRescale.Proofs.Sheet.Splice
import CssRescale.Proofs.Sheet.Values

/-!
Contract: conversion moves no declaration.

Values and sheets are split into tokens by different rules, so a number that conversion
writes anew may stand in a string, in a name or in a URL of the sheet. But the number and
what is written for it are inert there. So a converted sheet has the segments of its
source, with each value converted, and its declarations are located where the converted
values stand.

Owns:
- rules whose units make numbers inert;
- the segments of converted sheets and lists of declarations;
- the declarations that are located in them.
-/

set_option autoImplicit false

namespace CssRescale

open Text (byteLength)
open Sheet (InertBefore Variants isNumeric)
open SheetToken (outline)

/-! ## Converted numbers -/

namespace Sheet

theorem InertBefore.append
    {rest text front : Text}
    (inert : InertBefore rest text)
    (numeric : ∀ c ∈ front, isNumeric c = true) :
    InertBefore rest (front ++ text) := by
  induction front with
  | nil => exact inert
  | cons first front inductionHypothesis =>
      apply InertBefore.cons (numeric first List.mem_cons_self)
      exact inductionHypothesis fun c member => numeric c (List.mem_cons_of_mem first member)

/-- The text is inert wherever it stands. -/
def IsInert (text : Text) : Prop := ∀ rest, InertBefore rest (text ++ rest)

theorem isNumeric_of_mem_numeral (numeral : Numeral) : ∀ c ∈ numeral.text, isNumeric c = true := by
  have none : numeral.text.any (fun c => !isNumeric c) = false := by
    apply numeral.any_text_eq_false _ rfl rfl rfl
    · intro c mark
      simp only [isExponentMark, Bool.or_eq_true, beq_iff_eq] at mark
      rcases mark with rfl | rfl <;> rfl
    · intro c digit
      simp [isNumeric, Char.isAlphanum, digit]
  intro c member
  simpa using List.any_eq_false.mp none c member

/-- A number is inert if its unit is. -/
theorem IsInert.numeral {unit : Text} (inert : IsInert unit) (numeral : Numeral) :
    IsInert (numeral.text ++ unit) := by
  intro rest
  rw [List.append_assoc]
  exact (inert rest).append (isNumeric_of_mem_numeral numeral)

end Sheet

open Sheet (IsInert)

namespace Rules

/-- All units of the rules make numbers inert. -/
structure HasInertUnits (rules : Rules) : Prop where
  riUnit : IsInert rules.riUnit
  unit : IsInert rules.unit
  absoluteUnit : IsInert rules.absoluteUnit

theorem hasInertUnits_default : default.HasInertUnits where
  riUnit _ := .cons rfl (.cons rfl (.last rfl))
  unit _ := .cons rfl (.last rfl)
  absoluteUnit _ := .cons rfl (.cons rfl (.last rfl))

variable {rules : Rules}

/-- A token that changes is inert, and so is the converted one. -/
theorem HasInertUnits.convertedToken
    (inert : rules.HasInertUnits)
    {token : Token}
    (reads : token.ReadsNumeral) :
    rules.convertedToken token = token ∨
      IsInert token.text ∧ IsInert (rules.convertedToken token).text := by
  cases token with
  | number literal unit =>
      obtain ⟨numeral, rfl⟩ := reads literal unit rfl
      rw [convertedToken_numeral]
      split
      next modified =>
        obtain ⟨converted, written⟩ := rules.units_of_isModified modified
        have source : IsInert unit := by
          rcases converted with rfl | rfl
          · exact inert.unit
          · exact inert.absoluteUnit
        have target : IsInert
            ((rules.convertMeasurement (.ofNumeral numeral unit)).unit.getD []) := by
          rcases written with written | written
          · rw [written]
            exact inert.riUnit
          · rw [written]
            exact inert.unit
        exact Or.inr ⟨source.numeral numeral, target.numeral _⟩
      next => exact Or.inl rfl
  | _ => exact Or.inl rfl

end Rules

/-! ## Converted segments -/

namespace Segment

variable {rules : Rules}

/-- Cutting a text into segments, in which located values may be exchanged. -/
structure IsLocator (locate : Text → List Segment) : Prop where
  concat_eq : ∀ source, concat (locate source) = source
  placed : ∀ source, ArePlaced [] false (locate source)
  exchangeable : Exchangeable locate

theorem isLocator_ofSheet : IsLocator ofSheet :=
  ⟨concat_ofSheet, arePlaced_ofSheet, exchangeable_ofSheet⟩

theorem isLocator_ofDeclarations : IsLocator ofDeclarations :=
  ⟨concat_ofDeclarations, arePlaced_ofDeclarations, exchangeable_ofDeclarations⟩

/-- A text is cut into the segments that it is written by, and its tokens have the outline. -/
structure IsCut
    (locate : Text → List Segment)
    (kinds : List SheetTokenKind)
    (segments : List Segment) : Prop where
  located : locate (concat segments) = segments
  outlined : outline (SheetToken.scan (concat segments)) = kinds

variable
  {locate : Text → List Segment}
  {kinds : List SheetTokenKind}
  {front behind : List Segment}
  {property : Text}

theorem IsLocator.isCut_locate (locator : IsLocator locate) (source : Text) :
    IsCut locate (outline (SheetToken.scan source)) (locate source) := by
  constructor <;> rw [locator.concat_eq]

theorem ArePlaced.endsValue
    {following value : Text}
    {opened : Bool}
    (placed : ArePlaced following opened (front ++ .value property value :: behind)) :
    EndsValue (concat behind ++ following) := by
  induction front generalizing opened with
  | nil => exact placed.2.1
  | cons segment front inductionHypothesis =>
      cases segment with
      | verbatim text => exact inductionHypothesis placed
      | value other text => exact inductionHypothesis placed.2.2

theorem headIs_eq_false_of_endsValue {text : Text} (ends : EndsValue text) :
    Text.headIs (· == '(') text = false := by
  cases text with
  | nil => rfl
  | cons first rest => rcases ends with rfl | rfl <;> rfl

/-- The exchange of an inert part of a value exchanges this value, and nothing else. -/
theorem IsLocator.exchange
    (locator : IsLocator locate)
    {before number other after : Text}
    (inert : IsInert number)
    (otherInert : IsInert other)
    (cut : IsCut locate kinds (front ++ .value property (before ++ (number ++ after)) :: behind)) :
    IsCut locate kinds (front ++ .value property (before ++ (other ++ after)) :: behind) := by
  have ends := (cut.located ▸ locator.placed _).endsValue
  rw [List.append_nil] at ends
  obtain ⟨tokens, colon, inside, rest, scanned, isColon, frontText, valueText, exchange⟩ :=
    locator.exchangeable cut.located
  have restText : SheetToken.concat rest = concat behind := by
    have whole := congrArg SheetToken.concat scanned
    rw [SheetToken.concat_scan, SheetToken.concat_append _ (inside ++ rest),
      SheetToken.concat_append inside, ← frontText, valueText, concat_append, concat_cons] at whole
    exact (List.append_cancel_left (List.append_cancel_left whole)).symm
  -- What stands behind the number to the end of the text is common to both.
  have variants : Variants (after ++ concat behind) (SheetToken.concat (inside ++ rest))
      (before ++ (other ++ (after ++ concat behind))) := by
    have pair := (Variants.inert (inert (after ++ concat behind)) (otherInert _)).append before
    rw [SheetToken.concat_append, valueText, restText, List.append_assoc, List.append_assoc]
    exact pair
  have within : (SheetToken.concat rest).length ≤ (after ++ concat behind).length := by
    rw [restText, List.length_append]
    omega
  obtain ⟨others, otherScanned, same⟩ :=
    SheetToken.exists_scan_exchange isColon scanned variants within
      (restText ▸ headIs_eq_false_of_endsValue ends)
  have otherText : SheetToken.concat others = before ++ (other ++ after) := by
    have whole := congrArg SheetToken.concat otherScanned
    rw [SheetToken.concat_scan, SheetToken.concat_append _ (others ++ rest),
      SheetToken.concat_append others, restText] at whole
    have written := List.append_cancel_left whole
    rw [← List.append_assoc other, ← List.append_assoc before] at written
    exact (List.append_cancel_right written).symm
  have edited : SheetToken.concat (tokens ++ [colon]) ++
        (before ++ (other ++ (after ++ concat behind))) =
      concat (front ++ .value property (before ++ (other ++ after)) :: behind) := by
    rw [← frontText, concat_append, concat_cons, text, List.append_assoc, List.append_assoc]
  rw [edited] at otherScanned
  constructor
  · rw [exchange otherScanned same, otherText]
  · have sourceOutline := cut.outlined
    rw [scanned, SheetToken.outline_append, SheetToken.outline_append inside] at sourceOutline
    rw [otherScanned, SheetToken.outline_append, SheetToken.outline_append others, same]
    exact sourceOutline

/-- The conversion of a value exchanges this value, token by token. -/
theorem IsLocator.isCut_tokens
    (locator : IsLocator locate)
    (units : rules.HasInertUnits)
    {before : Text}
    {tokens : List Token}
    (reads : ∀ token ∈ tokens, token.ReadsNumeral)
    (cut : IsCut locate kinds
      (front ++ .value property (before ++ Token.concat tokens) :: behind)) :
    IsCut locate kinds
      (front ++ .value property (before ++ Token.concat (tokens.map rules.convertedToken))
        :: behind) := by
  induction tokens generalizing before with
  | nil => exact cut
  | cons token tokens inductionHypothesis =>
      have exchanged : IsCut locate kinds
          (front ++ .value property
            (before ++ ((rules.convertedToken token).text ++ Token.concat tokens)) :: behind) := by
        rcases units.convertedToken (reads token List.mem_cons_self) with same | inert
        · rw [same]
          exact cut
        · exact locator.exchange inert.1 inert.2 cut
      rw [← List.append_assoc] at exchanged
      have others := inductionHypothesis
        (fun other member => reads other (List.mem_cons_of_mem token member)) exchanged
      rw [List.append_assoc] at others
      exact others

/-- The segment with its value, if it is one, replaced by a function of it. -/
def mapValue (function : Text → Text) : Segment → Segment
  | verbatim text => .verbatim text
  | value property text => .value property (function text)

/-- The conversion of all values exchanges these values, and nothing else. -/
theorem IsLocator.isCut_segments
    (locator : IsLocator locate)
    (units : rules.HasInertUnits)
    {segments : List Segment}
    (cut : IsCut locate kinds (front ++ segments)) :
    IsCut locate kinds (front ++ segments.map (mapValue rules.convertText)) := by
  induction segments generalizing front with
  | nil => exact cut
  | cons segment segments inductionHypothesis =>
      have exchanged : IsCut locate kinds
          (front ++ segment.mapValue rules.convertText :: segments) := by
        cases segment with
        | verbatim text => exact cut
        | value property text =>
            have scanned : [] ++ Token.concat (Token.scan text) = text := Token.concat_scan text
            rw [mapValue, rules.convertText_eq_concat]
            apply @IsLocator.isCut_tokens _ _ _ _ _ _ locator units []
            · intro token member
              exact Token.readsNumeral_of_mem_scan token member
            · rw [scanned]
              exact cut
      rw [List.append_cons] at exchanged
      rw [List.map_cons, List.append_cons]
      exact inductionHypothesis exchanged

end Segment

/-! ## Converted declarations -/

open Segment (concat mapValue IsLocator)

/-- Loose conversion succeeds, and writes every value converted. -/
theorem Converter.exists_convertSegments
    (rules : Rules)
    (segments : List Segment)
    (offset : Nat) :
    ∃ report, (⟨rules, false⟩ : Converter).convertSegments offset segments =
      .ok (concat (segments.map (mapValue rules.convertText)), report) := by
  induction segments generalizing offset with
  | nil => exact ⟨_, rfl⟩
  | cons segment segments inductionHypothesis =>
      cases segment with
      | verbatim text =>
          obtain ⟨report, others⟩ := inductionHypothesis (offset + byteLength text)
          rw [convertSegments, others]
          exact ⟨_, rfl⟩
      | value property text =>
          obtain ⟨report, others⟩ := inductionHypothesis (offset + byteLength text)
          have converted :
              (⟨rules, false⟩ : Converter).convert text = .ok (rules.convertText text) := rfl
          rw [convertSegments, converted]
          simp only [others]
          exact ⟨_, rfl⟩

namespace Declaration

/-- The first declaration has a value in the source. The second has the same property, and
in the output it has this value converted. -/
structure IsConverted
    (rules : Rules)
    (source output : Text)
    (declaration converted : Declaration) : Prop where
  property : converted.property = declaration.property
  value : ∃ value,
    source.slice? declaration.start declaration.stop = some value ∧
      output.slice? converted.start converted.stop = some (rules.convertText value)

theorem forall₂_ofSegments
    (rules : Rules)
    (front otherFront : Text)
    (segments : List Segment) :
    List.Forall₂
      (IsConverted rules (front ++ concat segments)
        (otherFront ++ concat (segments.map (mapValue rules.convertText))))
      (ofSegments (byteLength front) segments)
      (ofSegments (byteLength otherFront) (segments.map (mapValue rules.convertText))) := by
  induction segments generalizing front otherFront with
  | nil => exact .nil
  | cons segment segments inductionHypothesis =>
      cases segment with
      | verbatim text =>
          have others := inductionHypothesis (front ++ text) (otherFront ++ text)
          rw [List.append_assoc, List.append_assoc, Text.byteLength_append,
            Text.byteLength_append] at others
          exact others
      | value property text =>
          have others := inductionHypothesis (front ++ text) (otherFront ++ rules.convertText text)
          rw [List.append_assoc, List.append_assoc, Text.byteLength_append,
            Text.byteLength_append] at others
          refine .cons ⟨rfl, text, ?_, ?_⟩ others
          · rw [← Text.byteLength_append]
            exact Text.slice?_append front text _
          · rw [← Text.byteLength_append]
            exact Text.slice?_append otherFront (rules.convertText text) _

/-- Loose conversion by rules with inert units moves no declaration. -/
theorem exists_splice
    {rules : Rules}
    {locate : Text → List Segment}
    (units : rules.HasInertUnits)
    (locator : IsLocator locate)
    (source : Text) :
    ∃ output report,
      (⟨rules, false⟩ : Converter).splice source 0 (ofSegments 0 (locate source)) =
          .ok (output, report) ∧
        List.Forall₂ (IsConverted rules source output)
          (ofSegments 0 (locate source)) (ofSegments 0 (locate output)) ∧
        outline (SheetToken.scan output) = outline (SheetToken.scan source) := by
  obtain ⟨report, converted⟩ := Converter.exists_convertSegments rules (locate source) 0
  have loop := (⟨rules, false⟩ : Converter).splice_ofSegments (locate source) [] []
  rw [Converter.prepend_nil] at loop
  have spliced := loop.trans converted
  have cut := @IsLocator.isCut_segments _ _ _ [] locator units _ (locator.isCut_locate source)
  have each := forall₂_ofSegments rules [] [] (locate source)
  rw [List.nil_append] at cut
  refine ⟨concat ((locate source).map (mapValue rules.convertText)), report, ?_, ?_, cut.outlined⟩
  · rw [← spliced]
    simp only [List.nil_append, locator.concat_eq]
    rfl
  · rw [cut.located]
    simp only [List.nil_append, locator.concat_eq] at each
    exact each

/-- Loose conversion by the default rules moves no declaration. It succeeds for every sheet
and for every list of declarations. In what it gives as many declarations are located as
in the source, with the same properties in the same order, and each with the value
converted. Semicolons and brackets, too, are the same and in the same order. -/
theorem unmoved_located (source : Text) :
    (∃ output report,
      (⟨Rules.default, false⟩ : Converter).convertSheet source = .ok (output, report) ∧
        List.Forall₂ (IsConverted Rules.default source output)
          (ofSheet source) (ofSheet output) ∧
        outline (SheetToken.scan output) = outline (SheetToken.scan source)) ∧
    ∃ output,
      (⟨Rules.default, false⟩ : Converter).convertDeclarations source = .ok output ∧
        List.Forall₂ (IsConverted Rules.default source output)
          (ofList source) (ofList output) ∧
        outline (SheetToken.scan output) = outline (SheetToken.scan source) := by
  constructor
  · exact exists_splice Rules.hasInertUnits_default Segment.isLocator_ofSheet source
  · obtain ⟨output, report, spliced, each, same⟩ :=
      exists_splice Rules.hasInertUnits_default Segment.isLocator_ofDeclarations source
    exact ⟨output, congrArg (Except.map Prod.fst) spliced, each, same⟩

-- A number that is written anew in a URL: the escape hides its name from values only.
example :
    SheetToken.scan "\\75rl(36px)".toList = [⟨.other, "\\75rl(36px)".toList⟩] ∧
      (⟨Rules.default, false⟩ : Converter).convertDeclarations "a:\\75rl(36px);b:c".toList =
        .ok "a:\\75rl(1.5rem);b:c".toList := by
  decide +kernel

end Declaration

end CssRescale
