import CssRescale.Proofs.Sheet.Splice
import CssRescale.Proofs.Value.FirstFault

/-!
Contract: a fault points at the first problem of what is converted.

A conversion of a sheet or of a list of declarations fails with the fault of the first
value that is refused, counted from the start of the source. So the fault points into the
source as the fault of a text points into the text, with the place of the declaration for
the bounds of the text.

Owns: the first declaration whose value a converter refuses, and the faults of texts,
sheets and lists of declarations.
-/

set_option autoImplicit false

namespace CssRescale

open Text (byteLength)

namespace Converter

variable {converter : Converter}

/-- A fault that is left after a map was there before. -/
theorem error_of_map_error
    {Result Mapped : Type}
    {function : Result → Mapped}
    {result : Except Fault Result}
    {fault : Fault}
    (failed : result.map function = .error fault) :
    result = .error fault := by
  cases result with
  | error other => exact congrArg Except.error (Except.error.inj failed)
  | ok result => exact absurd failed nofun

/-- Only strict conversion refuses a value, with the fault of strict building. -/
theorem parseStrict_of_convert
    {source : Text}
    {fault : Fault}
    (refused : converter.convert source = .error fault) :
    Value.parseStrict source = .error fault := by
  rw [convert] at refused
  split at refused
  case isTrue => exact error_of_map_error refused
  case isFalse => exact absurd refused nofun

/-- Of these declarations, all before one have values that are converted; the value of that
one is refused, and the fault points into it. -/
inductive RefusesFirst
    (converter : Converter)
    (source : Text)
    (declarations : List Declaration)
    (fault : Fault) :
    Prop where
  | refused {before after : List Declaration} {declaration : Declaration} {own : Fault}
      (split : declarations = before ++ declaration :: after)
      (converted : ∀ earlier ∈ before,
        ∃ text, converter.convert (earlier.textIn source) = .ok text)
      (refused : converter.convert (declaration.textIn source) = .error own)
      (points : fault.PointsInto source declaration.start declaration.stop)

/-- The values of declarations are all converted, or there is a first one that is refused. -/
theorem forall₂_or_exists_refused
    (converter : Converter)
    (source : Text)
    (declarations : List Declaration) :
    (∃ texts, List.Forall₂
        (fun declaration text => converter.convert (declaration.textIn source) = .ok text)
        declarations texts) ∨
      ∃ before declaration after fault, declarations = before ++ declaration :: after ∧
        (∀ earlier ∈ before, ∃ text, converter.convert (earlier.textIn source) = .ok text) ∧
        converter.convert (declaration.textIn source) = .error fault := by
  induction declarations with
  | nil => exact .inl ⟨[], .nil⟩
  | cons declaration rest inductionHypothesis =>
      cases here : converter.convert (declaration.textIn source) with
      | error fault => exact .inr ⟨[], declaration, rest, fault, rfl, nofun, here⟩
      | ok text =>
          rcases inductionHypothesis with
            ⟨texts, converted⟩ | ⟨before, refused, after, fault, rfl, converted, error⟩
          · exact .inl ⟨text :: texts, .cons here converted⟩
          · refine .inr ⟨declaration :: before, refused, after, fault, rfl, ?_, error⟩
            exact List.forall_mem_cons.mpr ⟨⟨text, here⟩, converted⟩

theorem Splices.refusesFirst
    {source : Text}
    {declarations : List Declaration}
    {fault : Fault}
    (splices : converter.Splices source declarations (.error fault)) :
    converter.RefusesFirst source declarations fault := by
  rcases converter.forall₂_or_exists_refused source declarations with
    ⟨texts, converted⟩ | ⟨before, declaration, after, own, split, converted, refused⟩
  · exact absurd (splices.replaces texts converted) nofun
  · have isValue := splices.located declaration
      (split ▸ List.mem_append_right before List.mem_cons_self)
    have same := Except.error.inj (splices.refuses before after declaration own split converted
      refused)
    refine .refused split converted refused ?_
    rw [same]
    exact Value.pointsInto_of_parseStrict isValue (parseStrict_of_convert refused)

/-- A fault points at the first problem. A text that strict building refuses has the fault
at the first token out of place, or at its end, where a call is still open. A sheet, or a
list of declarations, that is not converted has it there in the first value that is
refused. -/
theorem pointsInto_of_refused (source : Text) :
    (∀ fault, Value.parseStrict source = .error fault →
        fault.PointsInto source 0 (byteLength source)) ∧
      ∀ converter : Converter,
        (∀ fault, converter.convertSheet source = .error fault →
          converter.RefusesFirst source (Declaration.ofSheet source) fault) ∧
        ∀ fault, converter.convertDeclarations source = .error fault →
          converter.RefusesFirst source (Declaration.ofList source) fault := by
  refine ⟨fun fault refused => ?text, fun converter => ⟨fun fault refused => ?sheet,
    fun fault refused => ?list⟩⟩
  case text => exact Value.pointsInto_of_parseStrict (Text.slice?_end [] source) refused
  case sheet =>
    have splices := @splices_concat converter (Segment.ofSheet source)
    rw [Segment.concat_ofSheet] at splices
    rw [convertSheet, Declaration.ofSheet] at refused
    rw [refused] at splices
    exact splices.refusesFirst
  case list =>
    have splices := @splices_concat converter (Segment.ofDeclarations source)
    rw [Segment.concat_ofDeclarations] at splices
    have failed := error_of_map_error refused
    rw [Declaration.ofList] at failed
    rw [failed] at splices
    exact splices.refusesFirst

/-- A text with two problems, of which the second one is a string; a text and a list in
which a call is open at the end of a value; and a sheet in which the second value has a
problem. -/
theorem pointsInto_of_refused_each :
    (⟨3, [')']⟩ : Fault).PointsInto "1px) 'b".toList 0 7 ∧
      (⟨11, "rgba(".toList⟩ : Fault).PointsInto "a rgba(1, 2".toList 0 11 ∧
      (⟨Rules.default, true⟩ : Converter).RefusesFirst "b:(1px);c:f(2px".toList
        (Declaration.ofList "b:(1px);c:f(2px".toList) ⟨15, "f(".toList⟩ ∧
      (⟨Rules.default, true⟩ : Converter).RefusesFirst "a\x7bb:1px;c:url(d(e))\x7d".toList
        (Declaration.ofSheet "a\x7bb:1px;c:url(d(e))\x7d".toList) ⟨18, [')']⟩ := by
  refine ⟨(pointsInto_of_refused "1px) 'b".toList).1 _ (Value.parseStrict_eq_error_iff.mpr ?problem),
    (pointsInto_of_refused "a rgba(1, 2".toList).1 _ (Value.parseStrict_eq_error_iff.mpr ?unclosed),
    ((pointsInto_of_refused "b:(1px);c:f(2px".toList).2 _).2 _ ?list,
    ((pointsInto_of_refused "a\x7bb:1px;c:url(d(e))\x7d".toList).2 _).1 _ ?sheet⟩
  case problem => decide +kernel
  case unclosed => decide +kernel
  case list => decide +kernel
  case sheet => decide +kernel

end Converter

end CssRescale
