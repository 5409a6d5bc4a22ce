import Mathlib.Data.List.Forall2
import CssRescale.Proofs.Sheet.Places
import CssRescale.Proofs.Value.Strict
import CssRescale.Sheet.Convert

/-!
Contract: conversion replaces each located value in its place.

The loop that copies a source lazily comes to a walk over the segments of the source
which copies what stands between values and converts each value: up to any point, what
has not been copied yet is the text between the last changed value and this point. No
place is passed over, for all places are parts of the source, in order.

Owns:
- the walk over segments, and that the loop comes to it;
- a source with other texts in the places of its declarations;
- conversion of sheets and of lists of declarations as replacement of all values, or
  else as the fault of the first value that is refused.
-/

set_option autoImplicit false

namespace CssRescale

open Text (byteLength)
open Segment (concat)

namespace Converter

variable (converter : Converter)

/-! ## A walk over segments -/

/-- A result with a text in front of its output. -/
def prepend (text : Text) (result : Except Fault (Text × Report)) :
    Except Fault (Text × Report) :=
  result.map fun (output, report) => (text ++ output, report)

/-- A result with one more value in front of it. -/
def prependValue (value converted : Text) (result : Except Fault (Text × Report)) :
    Except Fault (Text × Report) :=
  result.map fun (output, report) => (converted ++ output, report.count (converted != value))

/-- Converts the values among segments that start at a byte position. -/
def convertSegments : Nat → List Segment → Except Fault (Text × Report)
  | _, [] => .ok ([], Report.empty)
  | offset, .verbatim text :: rest =>
      prepend text (convertSegments (offset + byteLength text) rest)
  | offset, .value _ text :: rest =>
      match converter.convert text with
      | .error fault => .error (fault.shift offset)
      | .ok converted =>
          prependValue text converted (convertSegments (offset + byteLength text) rest)

theorem prepend_prepend (left right : Text) (result : Except Fault (Text × Report)) :
    prepend left (prepend right result) = prepend (left ++ right) result := by
  cases result with
  | error fault => rfl
  | ok result => simp [prepend, Except.map]

theorem prepend_prependValue
    (text value converted : Text)
    (result : Except Fault (Text × Report)) :
    prepend text (prependValue value converted result) =
      result.map fun (output, report) =>
        (text ++ (converted ++ output), report.count (converted != value)) := by
  cases result with
  | error fault => rfl
  | ok result => rfl

@[simp]
theorem prepend_nil (result : Except Fault (Text × Report)) : prepend [] result = result := by
  cases result with
  | error fault => rfl
  | ok result => rfl

/-! ## The loop -/

section Loop

variable
  {converter : Converter}
  {source value : Text}
  {copied : Nat}
  {declaration : Declaration}
  {rest : List Declaration}

theorem splice_refused
    {fault : Fault}
    (slice : source.slice? declaration.start declaration.stop = some value)
    (inOrder : copied ≤ declaration.start)
    (refused : converter.convert value = .error fault) :
    converter.splice source copied (declaration :: rest) =
      .error (fault.shift declaration.start) := by
  rw [splice, slice]
  simp only [if_neg (Nat.not_lt.mpr inOrder), refused]
  rfl

/-- A value that does not change is left to be copied with what stands after it. -/
theorem splice_unchanged
    (slice : source.slice? declaration.start declaration.stop = some value)
    (inOrder : copied ≤ declaration.start)
    (converted : converter.convert value = .ok value) :
    converter.splice source copied (declaration :: rest) =
      prependValue [] [] (converter.splice source copied rest) := by
  rw [splice, slice]
  simp only [if_neg (Nat.not_lt.mpr inOrder), converted]
  show ite _ _ _ = _
  rw [if_pos rfl]
  cases converter.splice source copied rest with
  | error fault => rfl
  | ok result => rfl

theorem splice_changed
    {output : Text}
    (slice : source.slice? declaration.start declaration.stop = some value)
    (inOrder : copied ≤ declaration.start)
    (converted : converter.convert value = .ok output)
    (changed : output ≠ value) :
    converter.splice source copied (declaration :: rest) =
      prepend ((source.slice? copied declaration.start).getD [])
        (prependValue value output (converter.splice source declaration.stop rest)) := by
  have different : (output != value) = true := by simpa using changed
  rw [splice, slice]
  simp only [if_neg (Nat.not_lt.mpr inOrder), converted]
  show ite _ _ _ = _
  rw [if_neg changed]
  cases converter.splice source declaration.stop rest with
  | error fault => rfl
  | ok result =>
      simp [prepend, prependValue, Except.map, bind, Except.bind, pure, Except.pure, different]

end Loop

/-- The loop comes to the walk over segments. `copied` has been copied, and `skipped`
has not been copied yet. -/
theorem splice_ofSegments (segments : List Segment) (copied skipped : Text) :
    converter.splice (copied ++ skipped ++ concat segments) (byteLength copied)
        (Declaration.ofSegments (byteLength (copied ++ skipped)) segments) =
      prepend skipped (converter.convertSegments (byteLength (copied ++ skipped)) segments) := by
  induction segments generalizing copied skipped with
  | nil =>
      have rest := Text.slice?_end copied skipped
      simp [Declaration.ofSegments, splice, convertSegments, prepend, Except.map, rest,
        -Text.byteLength_append]
  | cons segment rest inductionHypothesis =>
      cases segment with
      | verbatim text =>
          have step := inductionHypothesis copied (skipped ++ text)
          simp only [← List.append_assoc] at step
          rw [Declaration.ofSegments_verbatim, ← Text.byteLength_append, Segment.concat_cons,
            ← List.append_assoc, convertSegments, prepend_prepend, ← Text.byteLength_append]
          exact step
      | value property text =>
          have source : copied ++ skipped ++ concat (.value property text :: rest) =
              copied ++ skipped ++ (text ++ concat rest) := rfl
          have slice := Text.slice?_append (copied ++ skipped) text (concat rest)
          have inOrder : byteLength copied ≤ byteLength (copied ++ skipped) := by
            rw [Text.byteLength_append]
            omega
          rw [Declaration.ofSegments_value, ← Text.byteLength_append, source, convertSegments,
            ← Text.byteLength_append]
          cases converted : converter.convert text with
          | error fault => exact splice_refused slice inOrder converted
          | ok output =>
              by_cases unchanged : output = text
              · have step := inductionHypothesis copied (skipped ++ text)
                simp only [← List.append_assoc] at step
                subst unchanged
                rw [splice_unchanged slice inOrder converted, ← List.append_assoc, step]
                cases converter.convertSegments (byteLength (copied ++ skipped ++ output)) rest with
                | error fault => rfl
                | ok result => simp [prepend, prependValue, Except.map]
              · have step := inductionHypothesis (copied ++ skipped ++ text) []
                have before := Text.slice?_append copied skipped (text ++ concat rest)
                rw [← List.append_assoc] at before
                rw [List.append_nil, prepend_nil] at step
                rw [splice_changed slice inOrder converted unchanged, before,
                  ← List.append_assoc, step]
                rfl

end Converter

/-! ## Replacement -/

/-- The source with another text in the place of each declaration. The last place is
replaced first, so no position has moved when its turn comes. -/
def Declaration.replaceEach (source : Text) (edits : List (Declaration × Text)) : Text :=
  edits.foldr (fun edit text => text.replaceRange edit.1.start edit.1.stop edit.2) source

namespace Converter

/-- The result is that of converting the values at the places given. -/
structure Splices
    (converter : Converter)
    (source : Text)
    (declarations : List Declaration)
    (result : Except Fault (Text × Report)) : Prop where
  /-- The places are parts of the source, so none of them is passed over. -/
  located : ∀ declaration ∈ declarations,
    source.slice? declaration.start declaration.stop = some (declaration.textIn source)
  /-- If every value is converted, the converted texts stand in place of the values. -/
  replaces : ∀ texts : List Text,
    List.Forall₂
      (fun declaration text => converter.convert (declaration.textIn source) = .ok text)
      declarations texts →
    result = .ok
      (Declaration.replaceEach source (declarations.zip texts),
        { declarations := declarations.length
          rewritten := (declarations.zip texts).countP fun edit =>
            edit.2 != edit.1.textIn source })
  /-- If one is refused, the first of those gives the fault, which counts from the
  start of the source. -/
  refuses : ∀ (before after : List Declaration) (declaration : Declaration) (fault : Fault),
    declarations = before ++ declaration :: after →
    (∀ earlier ∈ before, ∃ text, converter.convert (earlier.textIn source) = .ok text) →
    converter.convert (declaration.textIn source) = .error fault →
    result = .error ⟨fault.offset + declaration.start, fault.token⟩

variable {converter : Converter}

/-- One value in front of a converted source. -/
theorem Splices.cons
    {front text tail : Text}
    {property : Text}
    {declarations : List Declaration}
    {result : Except Fault (Text × Report)}
    (later : Splices converter (front ++ (text ++ tail)) declarations
      (prepend (front ++ text) result)) :
    Splices converter (front ++ (text ++ tail))
      (⟨property, byteLength front, byteLength (front ++ text)⟩ :: declarations)
      (prepend front
        (match converter.convert text with
          | .error fault => .error (fault.shift (byteLength front))
          | .ok converted => prependValue text converted result)) := by
  have slice := Text.slice?_append front text tail
  have here : Declaration.textIn (front ++ (text ++ tail))
      ⟨property, byteLength front, byteLength (front ++ text)⟩ = text := by
    rw [Declaration.textIn, slice]
    rfl
  refine ⟨?located, ?replaces, ?refuses⟩
  case located =>
    intro declaration member
    rcases List.mem_cons.mp member with rfl | member
    · rw [here]
      exact slice
    · exact later.located declaration member
  case replaces =>
    intro texts converted
    cases converted with
    | @cons _ output _ outputs first others =>
        rw [here] at first
        have replaced := later.replaces outputs others
        rw [first]
        cases result with
        | error fault => cases replaced
        | ok result =>
            obtain ⟨whole, report⟩ := Prod.mk.inj (Except.ok.inj replaced)
            have place := Text.replaceRange_append front text result.1 output
            rw [← List.append_assoc, whole] at place
            have counted : result.2.count (output != text) =
                { declarations := declarations.length + 1
                  rewritten := ((⟨property, byteLength front, byteLength (front ++ text)⟩, output)
                    :: declarations.zip outputs).countP fun edit =>
                      edit.2 != edit.1.textIn (front ++ (text ++ tail)) } := by
              rw [report, List.countP_cons, here]
              cases output != text <;> rfl
            exact congrArg Except.ok (Prod.ext place.symm counted)
  case refuses =>
    intro before after declaration fault split converted refused
    cases before with
    | nil =>
        obtain ⟨rfl, rfl⟩ := List.cons.inj split
        rw [here] at refused
        rw [refused]
        rfl
    | cons first earlier =>
        obtain ⟨rfl, rfl⟩ := List.cons.inj split
        obtain ⟨output, first⟩ := converted _ List.mem_cons_self
        rw [here] at first
        rw [first]
        have failed := later.refuses earlier after declaration fault rfl
          (fun before member => converted before (List.mem_cons_of_mem _ member)) refused
        cases result with
        | error other => exact failed
        | ok result => cases failed

theorem splices_ofSegments (front : Text) (segments : List Segment) :
    Splices converter (front ++ concat segments)
      (Declaration.ofSegments (byteLength front) segments)
      (prepend front (converter.convertSegments (byteLength front) segments)) := by
  induction segments generalizing front with
  | nil =>
      refine ⟨nofun, ?_, ?_⟩
      · intro texts converted
        cases converted
        rfl
      · intro before after declaration fault split
        exact absurd split.symm (by simp [Declaration.ofSegments])
  | cons segment rest inductionHypothesis =>
      cases segment with
      | verbatim text =>
          have step := inductionHypothesis (front ++ text)
          rw [Declaration.ofSegments_verbatim, convertSegments, ← Text.byteLength_append,
            prepend_prepend, Segment.concat_cons, ← List.append_assoc]
          exact step
      | value property text =>
          have step := inductionHypothesis (front ++ text)
          rw [List.append_assoc] at step
          rw [Declaration.ofSegments_value, convertSegments, ← Text.byteLength_append]
          exact step.cons

/-- Conversion of a source cut into segments. -/
theorem splices_concat (segments : List Segment) :
    Splices converter (concat segments) (Declaration.ofSegments 0 segments)
      (converter.splice (concat segments) 0 (Declaration.ofSegments 0 segments)) := by
  have loop := converter.splice_ofSegments segments [] []
  have splices := @splices_ofSegments converter [] segments
  rw [prepend_nil] at loop splices
  exact (congrArg (Splices converter _ _) loop).mpr splices

/-! ## Strict conversion -/

/-- Where strict conversion succeeds it converts as loose conversion does. -/
theorem convert_loose_of_strict
    {rules : Rules}
    {source text : Text}
    (converted : (⟨rules, true⟩ : Converter).convert source = .ok text) :
    (⟨rules, false⟩ : Converter).convert source = .ok text := by
  have strict : rules.convertTextStrict source = .ok text := converted
  rw [Rules.convertTextStrict] at strict
  rcases Value.parseStrict_cases source with ⟨_, built⟩ | ⟨_, fault, refused⟩
  · rw [built] at strict
    exact strict
  · rw [refused] at strict
    exact absurd strict nofun

/-- What a success carries on to it carries on through a map. -/
theorem map_ok_of_ok
    {Result : Type}
    {strict loose : Except Fault (Text × Report)}
    {mapped : Result}
    (follows : ∀ result, strict = .ok result → loose = .ok result)
    (function : Text × Report → Result)
    (succeeded : strict.map function = .ok mapped) :
    loose.map function = .ok mapped := by
  cases strict with
  | error fault => exact absurd succeeded nofun
  | ok result =>
      rw [follows result rfl]
      exact succeeded

theorem splice_loose_of_strict
    {rules : Rules}
    {source : Text}
    {declarations : List Declaration}
    {copied : Nat}
    {result : Text × Report}
    (spliced : (⟨rules, true⟩ : Converter).splice source copied declarations = .ok result) :
    (⟨rules, false⟩ : Converter).splice source copied declarations = .ok result := by
  induction declarations generalizing copied result with
  | nil => exact spliced
  | cons declaration rest inductionHypothesis =>
      cases slice : source.slice? declaration.start declaration.stop with
      | none =>
          rw [splice, slice] at spliced ⊢
          exact inductionHypothesis spliced
      | some value =>
          by_cases before : declaration.start < copied
          · rw [splice, slice] at spliced ⊢
            simp only [if_pos before] at spliced ⊢
            exact inductionHypothesis spliced
          · have inOrder := Nat.le_of_not_lt before
            cases strict : (⟨rules, true⟩ : Converter).convert value with
            | error fault =>
                rw [splice_refused slice inOrder strict] at spliced
                exact absurd spliced nofun
            | ok output =>
                have loose := convert_loose_of_strict strict
                by_cases unchanged : output = value
                · subst unchanged
                  rw [splice_unchanged slice inOrder strict] at spliced
                  rw [splice_unchanged slice inOrder loose]
                  exact map_ok_of_ok (fun _ => inductionHypothesis) _ spliced
                · rw [splice_changed slice inOrder strict unchanged,
                    prepend_prependValue] at spliced
                  rw [splice_changed slice inOrder loose unchanged, prepend_prependValue]
                  exact map_ok_of_ok (fun _ => inductionHypothesis) _ spliced

/-- Conversion replaces each located value by the converted value, in its place, and
nothing else; the first value that is refused, if any, gives the fault. So strict
conversion, where it succeeds, gives what loose conversion gives. -/
theorem convert_splices (source : Text) :
    (∀ converter : Converter,
      converter.Splices source (Declaration.ofSheet source) (converter.convertSheet source) ∧
      ∃ result, converter.Splices source (Declaration.ofList source) result ∧
        converter.convertDeclarations source = result.map Prod.fst) ∧
    ∀ rules : Rules,
      (∀ result, (⟨rules, true⟩ : Converter).convertSheet source = .ok result →
        (⟨rules, false⟩ : Converter).convertSheet source = .ok result) ∧
      ∀ text, (⟨rules, true⟩ : Converter).convertDeclarations source = .ok text →
        (⟨rules, false⟩ : Converter).convertDeclarations source = .ok text := by
  refine ⟨fun converter => ⟨?sheet, ?list⟩, fun rules => ⟨?strictSheet, ?strictList⟩⟩
  case sheet =>
    have splices := @splices_concat converter (Segment.ofSheet source)
    rw [Segment.concat_ofSheet] at splices
    exact splices
  case list =>
    have splices := @splices_concat converter (Segment.ofDeclarations source)
    rw [Segment.concat_ofDeclarations] at splices
    exact ⟨_, splices, rfl⟩
  case strictSheet =>
    intro result converted
    exact splice_loose_of_strict converted
  case strictList =>
    intro text converted
    exact map_ok_of_ok (fun _ => splice_loose_of_strict) Prod.fst converted

/-- Strict conversion of a sheet and of a list in which one of two values changes. -/
theorem convert_splices_strict :
    (⟨Rules.default, true⟩ : Converter).convertSheet "a\x7bb:24px;c:d\x7d".toList =
        .ok ("a\x7bb:1rem;c:d\x7d".toList, ⟨2, 1⟩) ∧
      (⟨Rules.default, false⟩ : Converter).convertSheet "a\x7bb:24px;c:d\x7d".toList =
        .ok ("a\x7bb:1rem;c:d\x7d".toList, ⟨2, 1⟩) ∧
      (⟨Rules.default, true⟩ : Converter).convertDeclarations "b:24px;c:d".toList =
        .ok "b:1rem;c:d".toList ∧
      (⟨Rules.default, false⟩ : Converter).convertDeclarations "b:24px;c:d".toList =
        .ok "b:1rem;c:d".toList := by
  have sheet : (⟨Rules.default, true⟩ : Converter).convertSheet "a\x7bb:24px;c:d\x7d".toList =
      .ok ("a\x7bb:1rem;c:d\x7d".toList, ⟨2, 1⟩) := by decide +kernel
  have list : (⟨Rules.default, true⟩ : Converter).convertDeclarations "b:24px;c:d".toList =
      .ok "b:1rem;c:d".toList := by decide +kernel
  exact ⟨sheet, ((convert_splices _).2 Rules.default).1 _ sheet,
    list, ((convert_splices _).2 Rules.default).2 _ list⟩

end Converter

end CssRescale
