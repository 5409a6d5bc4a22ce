import CssRescale.Proofs.Sheet.Segments
import CssRescale.Proofs.Text.Bytes

/-!
Contract: located declarations are parts of their sheet, in order and apart.

The place of a declaration is counted up from the segments before it. So the places
are cut between characters, a colon stands before each of them and the end of the
declaration after it, and each place ends before the next one starts. In particular
nothing is located twice, also where a declaration was tried and found to be a rule.

Owns:
- the places of the values among segments;
- the surroundings and the order of the located declarations of every text.
-/

set_option autoImplicit false

namespace CssRescale

open Text (byteLength)
open Segment (concat ArePlaced EndsValue)

namespace Declaration

/-- The text at the place of a declaration. -/
def textIn (source : Text) (declaration : Declaration) : Text :=
  (source.slice? declaration.start declaration.stop).getD []

/-- The place is a part of the source. The character before it is a colon, and the
character after it, if there is one, is a semicolon or a closing bracket. -/
def IsPlacedIn (source : Text) (declaration : Declaration) : Prop :=
  ∃ front value after : Text,
    source = front ++ [':'] ++ value ++ after ∧
      declaration.start = byteLength (front ++ [':']) ∧
      declaration.stop = byteLength (front ++ [':'] ++ value) ∧
      (after = [] ∨ ∃ rest, after = ';' :: rest ∨ after = '\x7d' :: rest)

/-- Every place is in the source, and each ends before all later ones start. -/
structure AreWellPlaced (source : Text) (declarations : List Declaration) : Prop where
  placed : ∀ declaration ∈ declarations, declaration.IsPlacedIn source
  ordered : declarations.Pairwise fun first second => first.stop < second.start

theorem ofSegments_value (offset : Nat) (property text : Text) (rest : List Segment) :
    ofSegments offset (.value property text :: rest) =
      ⟨property, offset, offset + byteLength text⟩
        :: ofSegments (offset + byteLength text) rest := rfl

theorem ofSegments_verbatim (offset : Nat) (text : Text) (rest : List Segment) :
    ofSegments offset (.verbatim text :: rest) = ofSegments (offset + byteLength text) rest := rfl

theorem exists_of_endsValue {after : Text} (ends : EndsValue after) :
    after = [] ∨ ∃ rest, after = ';' :: rest ∨ after = '\x7d' :: rest := by
  cases after with
  | nil => exact Or.inl rfl
  | cons first rest =>
      rcases ends with rfl | rfl
      · exact Or.inr ⟨rest, Or.inl rfl⟩
      · exact Or.inr ⟨rest, Or.inr rfl⟩

/-- The places of the values among segments that stand after the text `front`. -/
theorem isPlacedIn_of_mem_ofSegments
    {segments : List Segment}
    {opened : Bool}
    {front : Text}
    {declaration : Declaration}
    (placed : ArePlaced [] opened segments)
    (introduced : opened = true → ∃ earlier, front = earlier ++ [':'])
    (member : declaration ∈ ofSegments (byteLength front) segments) :
    declaration.IsPlacedIn (front ++ concat segments) := by
  induction segments generalizing opened front with
  | nil => cases member
  | cons segment rest inductionHypothesis =>
      cases segment with
      | verbatim text =>
          rw [ofSegments_verbatim, ← Text.byteLength_append] at member
          rw [Segment.concat_cons, ← List.append_assoc]
          apply inductionHypothesis placed _ member
          intro colon
          exact ⟨front, by rw [eq_of_beq colon]⟩
      | value property text =>
          obtain ⟨isOpened, ends, others⟩ := placed
          rw [ofSegments_value, ← Text.byteLength_append] at member
          rw [List.append_nil] at ends
          rcases List.mem_cons.mp member with rfl | member
          · obtain ⟨earlier, rfl⟩ := introduced isOpened
            refine ⟨earlier, text, concat rest, ?_, rfl, rfl, exists_of_endsValue ends⟩
            simp only [Segment.concat_cons, Segment.text, List.append_assoc]
          · rw [Segment.concat_cons, ← List.append_assoc]
            exact inductionHypothesis others nofun member

/-- A value that is not the first segment stands after the colon before it. -/
theorem lt_start_of_mem_ofSegments
    {segments : List Segment}
    {following : Text}
    {opened : Bool}
    {offset : Nat}
    {declaration : Declaration}
    (placed : ArePlaced following opened segments)
    (member : declaration ∈ ofSegments offset segments) :
    offset ≤ declaration.start ∧ (opened = false → offset < declaration.start) := by
  induction segments generalizing opened offset with
  | nil => cases member
  | cons segment rest inductionHypothesis =>
      cases segment with
      | verbatim text =>
          rw [ofSegments_verbatim] at member
          obtain ⟨within, apart⟩ := inductionHypothesis placed member
          by_cases colon : text = [':']
          · have size : byteLength text = 1 := by rw [colon]; rfl
            omega
          · have other : (text == [':']) = false := by simpa using colon
            have behind := apart other
            omega
      | value property text =>
          obtain ⟨isOpened, _, others⟩ := placed
          refine ⟨?_, fun notOpened => absurd (isOpened.symm.trans notOpened) nofun⟩
          rw [ofSegments_value] at member
          rcases List.mem_cons.mp member with rfl | member
          · exact Nat.le_refl offset
          · have behind := (inductionHypothesis others member).1
            omega

theorem pairwise_ofSegments
    {segments : List Segment}
    {following : Text}
    {opened : Bool}
    (placed : ArePlaced following opened segments)
    (offset : Nat) :
    (ofSegments offset segments).Pairwise fun first second => first.stop < second.start := by
  induction segments generalizing opened offset with
  | nil => exact List.Pairwise.nil
  | cons segment rest inductionHypothesis =>
      cases segment with
      | verbatim text => exact inductionHypothesis placed _
      | value property text =>
          obtain ⟨_, _, others⟩ := placed
          rw [ofSegments_value]
          apply List.Pairwise.cons
          · intro later member
            exact (lt_start_of_mem_ofSegments others member).2 rfl
          · exact inductionHypothesis others _

theorem areWellPlaced_ofSegments
    {segments : List Segment}
    (placed : ArePlaced [] false segments) :
    AreWellPlaced (concat segments) (ofSegments 0 segments) where
  placed := by
    intro declaration member
    exact @isPlacedIn_of_mem_ofSegments segments false [] declaration placed nofun member
  ordered := pairwise_ofSegments placed 0

/-- The located declarations of a sheet, and those of a list of declarations, are
parts of their source between a colon and the end of the declaration. They come in
the order of the source, each apart from the next one. -/
theorem areWellPlaced_located (source : Text) :
    AreWellPlaced source (ofSheet source) ∧ AreWellPlaced source (ofList source) := by
  have sheet := areWellPlaced_ofSegments (Segment.arePlaced_ofSheet source)
  have list := areWellPlaced_ofSegments (Segment.arePlaced_ofDeclarations source)
  rw [Segment.concat_ofSheet] at sheet
  rw [Segment.concat_ofDeclarations] at list
  exact ⟨sheet, list⟩

end Declaration

end CssRescale
