import Mathlib.Data.List.Forall2
import CssRescale.Proofs.Convert.TokenWise
import CssRescale.Value.Edit

/-!
Contract: edits change the values and units of numbers, and nothing else.

A tree in which every number is put back to its source tells nothing of the edits that
were made: no edit of a single number and no conversion changes it. So after any run of
edits the tree is that of its text but for the values and units of its numbers, and it
is written as the text with each number in its place.

Owns:
- trees with another measurement in the place of each number;
- runs of edits, and what each of them keeps;
- a text with measurements in the places of its number tokens.
-/

set_option autoImplicit false

namespace CssRescale

/-! ## Numbers put back -/

namespace Measurement

/-- The measurement with the value and the unit it was read with. -/
def restored (measurement : Measurement) : Measurement :=
  { measurement with value := measurement.sourceValue, unit := measurement.sourceUnit }

@[simp]
theorem restored_ofNumeral (numeral : Numeral) (suffix : Text) :
    (ofNumeral numeral suffix).restored = ofNumeral numeral suffix := rfl

@[simp]
theorem restored_setValue (value : Binary64) (measurement : Measurement) :
    (measurement.setValue value).restored = measurement.restored := rfl

@[simp]
theorem restored_setUnit (unit : Text) (measurement : Measurement) :
    (measurement.setUnit unit).restored = measurement.restored := rfl

end Measurement

theorem Rules.restored_convertMeasurement (rules : Rules) (measurement : Measurement) :
    (rules.convertMeasurement measurement).restored = measurement.restored := by
  obtain ⟨sourceValue, literal, suffix⟩ := rules.read_convertMeasurement measurement
  simp only [Measurement.restored, Measurement.sourceUnit, sourceValue, literal, suffix]

/-! ## Trees with other numbers -/

mutual

/-- The item with another measurement in the place of each of its numbers. -/
def Node.mapNumbers (change : Measurement → Measurement) : Node → Node
  | .number measurement => .number (change measurement)
  | .string raw terminated => .string raw terminated
  | .word raw => .word raw
  | .comment raw terminated => .comment raw terminated
  | .function name arguments separators closed =>
      .function name (Node.mapNumbersEach change arguments) separators closed

def Node.mapNumbersEach (change : Measurement → Measurement) : List Node → List Node
  | [] => []
  | node :: rest => node.mapNumbers change :: Node.mapNumbersEach change rest

end

/-- The value with each of its numbers put back to its source. -/
def Value.restored (value : Value) : Value :=
  { value with items := Node.mapNumbersEach Measurement.restored value.items }

theorem map_interleave
    {α β : Type}
    (change : α → β)
    (separators pieces : List (List α)) :
    (interleave separators pieces).map change =
      interleave (separators.map (·.map change)) (pieces.map (·.map change)) := by
  have single := flatMap_interleave (fun entry => [change entry]) separators pieces
  simpa only [← List.map_eq_flatMap] using single

namespace Piece

theorem map_mapNumber_separators
    (change : Measurement → Measurement)
    (separators : List Text) :
    (separators.map ofText).map (·.map (mapNumber change)) = separators.map ofText := by
  simp [List.map_map, Function.comp_def]

end Piece

namespace Node

theorem mapNumbersEach_eq_map (change : Measurement → Measurement) (nodes : List Node) :
    mapNumbersEach change nodes = nodes.map (mapNumbers change) := by
  induction nodes with
  | nil => rfl
  | cons node rest inductionHypothesis =>
      rw [mapNumbersEach, inductionHypothesis, List.map_cons]

mutual

/-- Changing the numbers of an item changes them among its pieces. -/
theorem pieces_mapNumbers (change : Measurement → Measurement) :
    ∀ node : Node, (node.mapNumbers change).pieces = node.pieces.map (Piece.mapNumber change)
  | .number measurement => rfl
  | .string raw _ => (Piece.map_mapNumber_ofText change raw).symm
  | .word raw => (Piece.map_mapNumber_ofText change raw).symm
  | .comment raw _ => (Piece.map_mapNumber_ofText change raw).symm
  | .function name arguments separators closed => by
      simp only [mapNumbers, pieces, List.map_append, map_interleave,
        Piece.map_mapNumber_ofText, Piece.map_mapNumber_separators,
        piecesEach_mapNumbersEach change arguments]

theorem piecesEach_mapNumbersEach (change : Measurement → Measurement) :
    ∀ nodes : List Node,
      piecesEach (mapNumbersEach change nodes) =
        (piecesEach nodes).map (·.map (Piece.mapNumber change))
  | [] => rfl
  | node :: rest => by
      simp only [mapNumbersEach, piecesEach, List.map_cons, pieces_mapNumbers change node,
        piecesEach_mapNumbersEach change rest]

end

mutual

/-- An item all of whose numbers stay is the same item. -/
theorem mapNumbers_eq_self {change : Measurement → Measurement} :
    ∀ node : Node, (∀ measurement ∈ node.numbers, change measurement = measurement) →
      node.mapNumbers change = node
  | .number measurement, stays => by
      rw [mapNumbers, stays measurement (List.mem_singleton.mpr rfl)]
  | .string _ _, _ => rfl
  | .word _, _ => rfl
  | .comment _ _, _ => rfl
  | .function _ arguments _ _, stays => by
      rw [mapNumbers, mapNumbersEach_eq_self arguments stays]

theorem mapNumbersEach_eq_self {change : Measurement → Measurement} :
    ∀ nodes : List Node, (∀ measurement ∈ numbersEach nodes, change measurement = measurement) →
      mapNumbersEach change nodes = nodes
  | [], _ => rfl
  | node :: rest, stays => by
      rw [mapNumbersEach,
        mapNumbers_eq_self node fun _ member => stays _ (List.mem_append_left _ member),
        mapNumbersEach_eq_self rest fun _ member => stays _ (List.mem_append_right _ member)]

end

/-! ## What walks and edits keep -/

section Walking

variable {σ : Type} {visitor : Visitor σ} {change : Measurement → Measurement}

mutual

/-- What a visitor keeps of each number a walk keeps of an item, wherever it goes. -/
theorem mapNumbers_visit
    (keeps : ∀ measurement state,
      change (visitor.number measurement state).1 = change measurement) :
    ∀ (node : Node) (state : σ), (node.visit visitor state).1.mapNumbers change =
      node.mapNumbers change
  | .number measurement, state => congrArg Node.number (keeps measurement state)
  | .string _ _, _ => rfl
  | .word _, _ => rfl
  | .comment _ _, _ => rfl
  | .function name arguments _ _, state => by
      rw [visit]
      split
      next inside _ => simp only [mapNumbers, mapNumbersEach_visitEach keeps arguments inside]
      next => rfl

theorem mapNumbersEach_visitEach
    (keeps : ∀ measurement state,
      change (visitor.number measurement state).1 = change measurement) :
    ∀ (nodes : List Node) (state : σ), mapNumbersEach change (visitEach visitor nodes state).1 =
      mapNumbersEach change nodes
  | [], _ => rfl
  | node :: rest, state => by
      simp only [visitEach, mapNumbersEach, mapNumbers_visit keeps node state,
        mapNumbersEach_visitEach keeps rest (node.visit visitor state).2]

end

end Walking

/-- An item in the place of one that it differs from in nothing that is kept. -/
theorem mapNumbersEach_set
    {kept : Measurement → Measurement}
    {position : Nat}
    {nodes : List Node}
    {old new : Node}
    (found : nodes[position]? = some old)
    (same : new.mapNumbers kept = old.mapNumbers kept) :
    mapNumbersEach kept (nodes.set position new) = mapNumbersEach kept nodes := by
  rw [mapNumbersEach_eq_map, mapNumbersEach_eq_map, List.map_set, same]
  apply List.ext_getElem?
  intro index
  rw [List.getElem?_set, List.length_map]
  split
  next here =>
    rw [← here, List.getElem?_map, found]
    split
    next => rfl
    next outside => simp [List.getElem?_eq_none (Nat.not_lt.mp outside)] at found
  next => rfl

/-- What a change keeps of a number an edit keeps of the items around it. -/
theorem mapNumbersEach_editAt
    {change kept : Measurement → Measurement}
    (keeps : ∀ measurement, kept (change measurement) = kept measurement)
    {position : Nat}
    {path : List Nat}
    {nodes edited : List Node}
    (editing : editAt change position path nodes = .ok edited) :
    mapNumbersEach kept edited = mapNumbersEach kept nodes := by
  induction path generalizing position nodes edited with
  | nil =>
      unfold editAt at editing
      split at editing
      next => cases editing
      next measurement found _ =>
        cases editing
        exact mapNumbersEach_set found (congrArg Node.number (keeps measurement))
      next => cases editing
      next goesOn => cases goesOn
      next goesOn => cases goesOn
  | cons next rest inductionHypothesis =>
      unfold editAt at editing
      split at editing
      next => cases editing
      next ended => cases ended
      next ended => cases ended
      next name arguments separators closed _ _ found path =>
        obtain ⟨rfl, rfl⟩ := List.cons.inj path
        cases inner : editAt change next rest arguments with
        | error reason =>
            rw [inner] at editing
            cases editing
        | ok changed =>
            rw [inner] at editing
            cases editing
            apply mapNumbersEach_set found
            rw [mapNumbers, mapNumbers, inductionHypothesis inner]
      next => cases editing

end Node

namespace Value

theorem pieces_restored (value : Value) :
    value.restored.pieces = value.pieces.map (Piece.mapNumber Measurement.restored) := by
  simp only [pieces, restored, map_interleave, Piece.map_mapNumber_separators,
    Node.piecesEach_mapNumbersEach]

theorem restored_convertValue (rules : Rules) (value : Value) :
    (rules.convertValue value).1.restored = value.restored := by
  have keeps : ∀ measurement count,
      (rules.visitor.number measurement count).1.restored = measurement.restored :=
    fun measurement _ => rules.restored_convertMeasurement measurement
  simp only [restored, Rules.convertValue, visit, Node.mapNumbersEach_visitEach keeps]

theorem restored_edit?
    {change : Measurement → Measurement}
    (keeps : ∀ measurement, (change measurement).restored = measurement.restored)
    {path : List Nat}
    {value edited : Value}
    (editing : value.edit? change path = .ok edited) :
    edited.restored = value.restored := by
  cases path with
  | nil => cases editing
  | cons position rest =>
      rw [edit?] at editing
      cases inner : Node.editAt change position rest value.items with
      | error reason =>
          rw [inner] at editing
          cases editing
      | ok items =>
          rw [inner] at editing
          cases editing
          simp only [restored, Node.mapNumbersEach_editAt keeps inner]

/-- A value as it was parsed has every number as in its source. -/
theorem restored_parse (source : Text) : (parse source).restored = parse source := by
  have asRead : ∀ measurement ∈ (parse source).numbers, measurement.restored = measurement := by
    intro measurement member
    rw [numbers_parse] at member
    obtain ⟨token, scanned, read⟩ := List.mem_filterMap.mp member
    obtain ⟨numeral, unit, _, rfl⟩ :=
      (Token.readsNumeral_of_mem_scan token scanned).measurement?_eq_some read
    rfl
  rw [restored, Node.mapNumbersEach_eq_self _ asRead]

end Value

/-! ## Runs of edits -/

/-- An edit of a tree: of one number, found by its path, or of all numbers. -/
inductive Edit where
  | setValue (path : List Nat) (value : Binary64)
  | setUnit (path : List Nat) (unit : Text)
  | convert (rules : Rules)

/-- The tree after an edit. Where the path leads to no number it is the same tree. -/
def Edit.apply (value : Value) : Edit → Value
  | setValue path number => (value.edit? (Measurement.setValue number) path).toOption.getD value
  | setUnit path unit => (value.edit? (Measurement.setUnit unit) path).toOption.getD value
  | convert rules => (rules.convertValue value).1

/-- One edit keeps everything but values and units. -/
theorem Edit.restored_apply (edit : Edit) (value : Value) :
    (edit.apply value).restored = value.restored := by
  cases edit with
  | setValue path number =>
      rw [apply]
      cases editing : value.edit? (Measurement.setValue number) path with
      | error reason => rfl
      | ok edited => exact Value.restored_edit? (Measurement.restored_setValue number) editing
  | setUnit path unit =>
      rw [apply]
      cases editing : value.edit? (Measurement.setUnit unit) path with
      | error reason => rfl
      | ok edited => exact Value.restored_edit? (Measurement.restored_setUnit unit) editing
  | convert rules => exact Value.restored_convertValue rules value

theorem Edit.restored_foldl_apply (edits : List Edit) (value : Value) :
    (edits.foldl Edit.apply value).restored = value.restored := by
  induction edits generalizing value with
  | nil => rfl
  | cons edit rest inductionHypothesis =>
      rw [List.foldl_cons, inductionHypothesis, edit.restored_apply]

/-! ## Texts with numbers in their places -/

/-- The texts of tokens, with the written form of the next measurement in the place of
each number. -/
def Token.weave : List Token → List Measurement → Text
  | .number _ _ :: tokens, measurement :: measurements =>
      measurement.css ++ weave tokens measurements
  | token :: tokens, measurements => token.text ++ weave tokens measurements
  | [], _ => []

theorem Token.weave_cons
    {token : Token}
    (noNumber : token.isNumber = false)
    (tokens : List Token)
    (measurements : List Measurement) :
    weave (token :: tokens) measurements = token.text ++ weave tokens measurements := by
  cases token with
  | number => cases noNumber
  | _ => rfl

/-- The measurement was read from the token, whatever its value and unit are now, and
is written as the token as long as they are those that were read. -/
structure Measurement.IsReadFrom (measurement : Measurement) (token : Token) : Prop where
  source : token = .number measurement.literal measurement.suffix
  read : Measurement.read? measurement.literal measurement.suffix = some measurement.restored
  unmodified : measurement.isModified = false → measurement.css = token.text

/-- The number of a token with another value and unit. -/
theorem Measurement.isReadFrom_of_restored
    {measurement : Measurement}
    {numeral : Numeral}
    {unit : Text}
    (same : measurement.restored = .ofNumeral numeral unit) :
    measurement.IsReadFrom (.number numeral.text unit) := by
  have literal : measurement.literal = numeral.text := congrArg Measurement.literal same
  have suffix : measurement.suffix = unit := congrArg Measurement.suffix same
  refine ⟨by rw [literal, suffix], ?_, fun unmodified => ?_⟩
  · rw [literal, suffix, read?_numeral, same]
  · rw [css_of_isModified_eq_false unmodified, Measurement.source, literal, suffix]
    rfl

theorem Piece.eq_ofText_of_map_restored
    {pieces : List Piece}
    {text : Text}
    (same : pieces.map (mapNumber Measurement.restored) = ofText text) :
    pieces = ofText text := by
  induction pieces generalizing text with
  | nil =>
      cases text with
      | nil => rfl
      | cons first rest => cases same
  | cons piece others inductionHypothesis =>
      cases text with
      | nil => cases same
      | cons first rest =>
          obtain ⟨head, tail⟩ := List.cons.inj same
          cases piece with
          | char c =>
              cases head
              rw [inductionHypothesis tail]
              rfl
          | number measurement => cases head

/-- Pieces that are those of scanned tokens but for the values and units of numbers. -/
theorem Token.weave_of_map_restored
    {tokens : List Token}
    {pieces : List Piece}
    (reads : ∀ token ∈ tokens, token.ReadsNumeral)
    (same : pieces.map (Piece.mapNumber Measurement.restored) = tokens.flatMap Token.pieces) :
    List.Forall₂ Measurement.IsReadFrom (pieces.filterMap Piece.measurement?)
        (tokens.filter Token.isNumber) ∧
      pieces.flatMap Piece.css = weave tokens (pieces.filterMap Piece.measurement?) := by
  induction tokens generalizing pieces with
  | nil =>
      rw [List.flatMap_nil, List.map_eq_nil_iff] at same
      subst same
      exact ⟨.nil, rfl⟩
  | cons token rest inductionHypothesis =>
      have others : ∀ token ∈ rest, token.ReadsNumeral := fun other member =>
        reads other (List.mem_cons_of_mem token member)
      rw [List.flatMap_cons, List.map_eq_append_iff] at same
      obtain ⟨front, back, rfl, head, tail⟩ := same
      obtain ⟨readFrom, written⟩ := inductionHypothesis others tail
      rw [(reads token List.mem_cons_self).pieces_eq] at head
      split at head
      next measurement read =>
        obtain ⟨numeral, unit, rfl, rfl⟩ :=
          (reads token List.mem_cons_self).measurement?_eq_some read
        obtain ⟨piece, rfl, changed⟩ := List.map_eq_singleton_iff.mp head
        cases piece with
        | char c => cases changed
        | number measurement =>
            refine ⟨.cons (Measurement.isReadFrom_of_restored (Piece.number.inj changed))
              readFrom, ?_⟩
            show measurement.css ++ back.flatMap Piece.css = _
            rw [written]
            rfl
      next other =>
        have noNumber := (reads token List.mem_cons_self).isNumber_eq_false other
        rw [Piece.eq_ofText_of_map_restored head, List.filterMap_append,
          Piece.filterMap_measurement?_ofText, List.nil_append, List.flatMap_append,
          Piece.flatMap_css_ofText, written, weave_cons noNumber,
          List.filter_cons_of_neg (by simp [noNumber])]
        exact ⟨readFrom, rfl⟩

/-! ## Edited trees of texts -/

/-- The value is the tree of the text but for the values and units of its numbers. -/
structure Value.IsEditOf (value : Value) (source : Text) : Prop where
  /-- Items, separators, names, and the sources of numbers are those of the parsed tree. -/
  restored : value.restored = parse source
  numbers : List.Forall₂ Measurement.IsReadFrom value.numbers
    ((Token.scan source).filter Token.isNumber)
  css : value.css = Token.weave (Token.scan source) value.numbers
  undone : (∀ measurement ∈ value.numbers, measurement.isModified = false) → value.css = source

theorem Token.weave_unmodified
    {tokens : List Token}
    {measurements : List Measurement}
    (readFrom : List.Forall₂ Measurement.IsReadFrom measurements (tokens.filter Token.isNumber))
    (unmodified : ∀ measurement ∈ measurements, measurement.isModified = false) :
    weave tokens measurements = concat tokens := by
  induction tokens generalizing measurements with
  | nil => rfl
  | cons token rest inductionHypothesis =>
      cases token with
      | number literal unit =>
          rw [List.filter_cons_of_pos rfl] at readFrom
          cases readFrom with
          | @cons measurement _ others _ first tail =>
              rw [weave, concat_cons, first.unmodified (unmodified measurement List.mem_cons_self),
                inductionHypothesis tail fun other member =>
                  unmodified other (List.mem_cons_of_mem measurement member)]
      | _ => exact congrArg _ (inductionHypothesis readFrom unmodified)

/-- A tree with the same restored form as that of a text is that tree with other values
and units. -/
theorem Value.isEditOf_of_restored
    {value : Value}
    {source : Text}
    (restored : value.restored = parse source) :
    value.IsEditOf source := by
  have pieces : value.pieces.map (Piece.mapNumber Measurement.restored) =
      (Token.scan source).flatMap Token.pieces := by
    rw [← pieces_restored, restored, pieces_parse]
  obtain ⟨readFrom, written⟩ :=
    Token.weave_of_map_restored Token.readsNumeral_of_mem_scan pieces
  rw [← numbers_eq_pieces] at readFrom written
  rw [← css_eq_pieces] at written
  refine ⟨restored, readFrom, written, fun unmodified => ?_⟩
  rw [written, Token.weave_unmodified readFrom unmodified, Token.concat_scan]

/-- Any run of edits is surgical: the tree stays that of its text but for the values and
units of numbers, and is written as the text with each number in its place. Where all
values and units are again those that were read, it is written as the text itself. -/
theorem Value.isEditOf_foldl_apply (source : Text) (edits : List Edit) :
    (edits.foldl Edit.apply (parse source)).IsEditOf source := by
  apply isEditOf_of_restored
  rw [Edit.restored_foldl_apply, restored_parse]

/-- A number inside a call that was converted and set, and then put back by hand. -/
theorem Value.css_foldl_apply_undone :
    (∀ measurement ∈ ([Edit.convert Rules.default, .setValue [0, 1] .nan, .setUnit [0, 1] "px".toList,
        .setValue [0, 1] (Binary64.ofNat 36)].foldl Edit.apply
          (parse "f( -1px,+36.0px".toList)).numbers, measurement.isModified = false) ∧
      ([Edit.convert Rules.default, .setValue [0, 1] .nan, .setUnit [0, 1] "px".toList,
        .setValue [0, 1] (Binary64.ofNat 36)].foldl Edit.apply
          (parse "f( -1px,+36.0px".toList)).css = "f( -1px,+36.0px".toList := by
  have unmodified : ∀ measurement ∈ ([Edit.convert Rules.default, .setValue [0, 1] .nan,
      .setUnit [0, 1] "px".toList, .setValue [0, 1] (Binary64.ofNat 36)].foldl Edit.apply
        (parse "f( -1px,+36.0px".toList)).numbers, measurement.isModified = false := by
    decide +kernel
  exact ⟨unmodified, (isEditOf_foldl_apply _ _).undone unmodified⟩

end CssRescale
