import CssRescale.Proofs.Sheet.Outline

/-!
Contract: readers of a style sheet do not tell inert texts apart.

Two texts that are the same but for an inert text in each, in front of the same rest,
are read alike: a reader takes the same from both and leaves two such texts again, or
it passes over the inert texts and then leaves the same of both.

Owns:
- pairs of texts that differ in an inert text;
- each reader of a part of a token on such pairs.
-/

set_option autoImplicit false

namespace CssRescale

open Text (headIs)

namespace Sheet

/-! ## Pairs of texts -/

/-- The texts are the same, except that each has an inert text of its own in front of
the rest. -/
inductive Variants (rest : Text) : Text → Text → Prop where
  | inert {text other : Text}
      (inert : InertBefore rest text)
      (otherInert : InertBefore rest other) :
      Variants rest text other
  | cons {text other : Text} (c : Char)
      (variants : Variants rest text other) :
      Variants rest (c :: text) (c :: other)

/-- What a reader took and left of two texts: the same, so that the texts that are left
differ as before, or else it has passed over the difference. -/
inductive ReadAlike (rest : Text) (result other : Text × Text) : Prop where
  | same
      (raw : result.1 = other.1)
      (left : Variants rest result.2 other.2)
  | beyond
      (left : result.2 = other.2)
      (within : result.2.length ≤ rest.length)

section

variable {rest text other : Text}

theorem ReadAlike.append
    {front otherFront : Text}
    {result otherResult : Text × Text}
    (alike : ReadAlike rest result otherResult)
    (same : front = otherFront) :
    ReadAlike rest (front ++ result.1, result.2) (otherFront ++ otherResult.1, otherResult.2) := by
  cases alike with
  | same raw left => exact .same (by rw [same, raw]) left
  | beyond left within => exact .beyond left within

theorem Variants.append (front : Text) (variants : Variants rest text other) :
    Variants rest (front ++ text) (front ++ other) := by
  induction front with
  | nil => exact variants
  | cons c front inductionHypothesis => exact .cons c inductionHypothesis

theorem Variants.symm (variants : Variants rest text other) : Variants rest other text := by
  induction variants with
  | inert inert otherInert => exact .inert otherInert inert
  | cons c _ inductionHypothesis => exact .cons c inductionHypothesis

/-- Where the texts are not inert, they start with the same characters, one of which is
not a character of numbers. -/
theorem Variants.inert_or_exists (variants : Variants rest text other) :
    (InertBefore rest text ∧ InertBefore rest other) ∨
      ∃ front c left otherLeft,
        text = front ++ c :: left ∧ other = front ++ c :: otherLeft ∧
          isNumeric c = false ∧ Variants rest left otherLeft := by
  induction variants with
  | inert inert otherInert => exact Or.inl ⟨inert, otherInert⟩
  | @cons text other c variants inductionHypothesis =>
      cases numeric : isNumeric c with
      | false => exact Or.inr ⟨[], c, text, other, rfl, rfl, numeric, variants⟩
      | true =>
          rcases inductionHypothesis with ⟨inert, otherInert⟩ | found
          · exact Or.inl ⟨.cons numeric inert, .cons numeric otherInert⟩
          · obtain ⟨front, stop, left, otherLeft, rfl, rfl, isStop, leftVariants⟩ := found
            exact Or.inr ⟨c :: front, stop, left, otherLeft, rfl, rfl, isStop, leftVariants⟩

theorem Variants.startsWithNewline (variants : Variants rest text other) :
    startsWithNewline text = startsWithNewline other := by
  cases variants with
  | inert inert otherInert => rw [inert.startsWithNewline, otherInert.startsWithNewline]
  | cons => rfl

/-! ## Blanks and escapes -/

theorem Variants.span_isBlank (variants : Variants rest text other) :
    text.takeWhile isBlank = other.takeWhile isBlank ∧
      Variants rest (text.dropWhile isBlank) (other.dropWhile isBlank) := by
  have plain : ∀ {text}, InertBefore rest text →
      text.takeWhile isBlank = [] ∧ text.dropWhile isBlank = text := by
    intro text inert
    obtain ⟨first, tail, rfl, numeric, -⟩ := inert.exists_cons
    simp [isBlank_of_isNumeric numeric]
  induction variants with
  | inert inert otherInert =>
      rw [(plain inert).1, (plain otherInert).1, (plain inert).2, (plain otherInert).2]
      exact ⟨rfl, .inert inert otherInert⟩
  | cons c variants inductionHypothesis =>
      cases blank : isBlank c with
      | false => simpa [blank] using Variants.cons c variants
      | true => simpa [blank] using inductionHypothesis

theorem Variants.headIs_eq
    {c : Char}
    (variants : Variants rest text other)
    (isOther : isNumeric c = false) :
    headIs (· == c) text = headIs (· == c) other := by
  cases variants with
  | inert inert otherInert =>
      rw [inert.headIs_eq_false isOther, otherInert.headIs_eq_false isOther]
  | cons => rfl

/-- A character that is not one of numbers stands in both texts. -/
theorem Variants.exists_of_headIs
    {c : Char}
    (variants : Variants rest text other)
    (isOther : isNumeric c = false)
    (head : headIs (· == c) text = true) :
    ∃ left otherLeft, text = c :: left ∧ other = c :: otherLeft ∧ Variants rest left otherLeft := by
  cases variants with
  | inert inert =>
      rw [inert.headIs_eq_false isOther] at head
      cases head
  | @cons left otherLeft d variants =>
      have same : d = c := by simpa [headIs] using head
      subst same
      exact ⟨left, otherLeft, rfl, rfl, variants⟩

theorem takeNewline_cons
    {c : Char}
    (single : ¬(c = '\r' ∧ headIs (· == '\n') text = true)) :
    SheetToken.takeNewline (c :: text) = ([c], text) := by
  unfold SheetToken.takeNewline
  split
  next rest same =>
    obtain ⟨rfl, rfl⟩ := List.cons.inj same
    exact absurd ⟨rfl, rfl⟩ single
  next impossible => cases impossible
  next same =>
    obtain ⟨rfl, rfl⟩ := List.cons.inj same
    rfl

theorem Variants.takeNewline (c : Char) (variants : Variants rest text other) :
    (SheetToken.takeNewline (c :: text)).1 = (SheetToken.takeNewline (c :: other)).1 ∧
      Variants rest (SheetToken.takeNewline (c :: text)).2
        (SheetToken.takeNewline (c :: other)).2 := by
  have heads : headIs (· == '\n') text = headIs (· == '\n') other := variants.headIs_eq rfl
  by_cases double : c = '\r' ∧ headIs (· == '\n') text = true
  · obtain ⟨left, otherLeft, rfl, rfl, leftVariants⟩ := variants.exists_of_headIs rfl double.2
    rw [double.1]
    exact ⟨rfl, leftVariants⟩
  · rw [takeNewline_cons double, takeNewline_cons (heads ▸ double)]
    exact ⟨rfl, variants⟩

/-- At most one blank is the end of a line, or nothing. -/
theorem takeBlank_cons (c : Char) (text : Text) :
    takeBlank (c :: text) =
      if isBlank c then SheetToken.takeNewline (c :: text) else ([], c :: text) := by
  by_cases double : c = '\r' ∧ headIs (· == '\n') text = true
  · obtain ⟨rfl, feed⟩ := double
    cases text with
    | nil => cases feed
    | cons d text =>
        have newline : d = '\n' := by simpa [headIs] using feed
        subst newline
        rfl
  · rw [takeNewline_cons double, Sheet.takeBlank]
    rintro rest rfl rfl
    exact double ⟨rfl, rfl⟩

theorem Variants.takeBlank (variants : Variants rest text other) :
    (takeBlank text).1 = (takeBlank other).1 ∧
      Variants rest (takeBlank text).2 (takeBlank other).2 := by
  cases variants with
  | inert inert otherInert =>
      rw [inert.takeBlank, otherInert.takeBlank]
      exact ⟨rfl, .inert inert otherInert⟩
  | cons c variants =>
      rw [takeBlank_cons, takeBlank_cons]
      split
      · exact variants.takeNewline c
      · exact ⟨rfl, .cons c variants⟩

theorem Variants.takeHex (variants : Variants rest text other) (count : Nat) :
    ((takeHex count text).1 = (takeHex count other).1 ∧
        Variants rest (takeHex count text).2 (takeHex count other).2) ∨
      InertBefore rest (takeHex count text).2 ∧ InertBefore rest (takeHex count other).2 := by
  induction count generalizing text other with
  | zero => exact Or.inl ⟨rfl, variants⟩
  | succ count inductionHypothesis =>
      cases variants with
      | inert inert otherInert => exact Or.inr ⟨inert.takeHex _, otherInert.takeHex _⟩
      | cons c variants =>
          rw [Sheet.takeHex, Sheet.takeHex]
          split
          · rcases inductionHypothesis variants with ⟨digits, left⟩ | inert
            · exact Or.inl ⟨by rw [digits], left⟩
            · exact Or.inr inert
          · exact Or.inl ⟨rfl, .cons c variants⟩

/-- An escape in both texts. -/
inductive EscapesAlike (rest text other : Text) : Prop where
  | same
      (char : escapedChar text = escapedChar other)
      (raw : (takeEscape text).1 = (takeEscape other).1)
      (left : Variants rest (takeEscape text).2 (takeEscape other).2)
  | across
      (across : EscapeAcross rest text)
      (otherAcross : EscapeAcross rest other)

theorem takeEscape_hex {c : Char} (hex : isHexDigit c = true) (text : Text) :
    takeEscape (c :: text) =
      ((takeHex 6 (c :: text)).1 ++ (takeBlank (takeHex 6 (c :: text)).2).1,
        (takeBlank (takeHex 6 (c :: text)).2).2) := by
  rw [takeEscape, if_pos hex]

theorem Variants.takeEscape (variants : Variants rest text other) :
    EscapesAlike rest text other := by
  cases variants with
  | inert inert otherInert => exact .across inert.takeEscape otherInert.takeEscape
  | @cons text other c variants =>
      cases hex : isHexDigit c with
      | false =>
          apply EscapesAlike.same
          · simp [escapedChar, hex]
          · simp [Sheet.takeEscape, hex]
          · simpa [Sheet.takeEscape, hex] using variants
      | true =>
          rcases (Variants.cons c variants).takeHex 6 with ⟨digits, left⟩ | ⟨inert, otherInert⟩
          · obtain ⟨blank, behind⟩ := left.takeBlank
            apply EscapesAlike.same
            · simp [escapedChar, hex, digits]
            · rw [takeEscape_hex hex, takeEscape_hex hex, digits, blank]
            · rw [takeEscape_hex hex, takeEscape_hex hex]
              exact behind
          · apply EscapesAlike.across
            · left
              rw [takeEscape_hex hex, inert.takeBlank]
              exact inert
            · left
              rw [takeEscape_hex hex, otherInert.takeBlank]
              exact otherInert

/-! ## Names -/

/-- A name in both texts. -/
inductive NamesAlike (rest : Text) (result other : Text × Text × Text) : Prop where
  | same
      (name : result.1 = other.1)
      (raw : result.2.1 = other.2.1)
      (left : Variants rest result.2.2 other.2.2)
  | across
      (across : NameAcross rest result)
      (otherAcross : NameAcross rest other)

theorem NamesAlike.prepend
    {result otherResult : Text × Text × Text}
    {c otherChar : Char}
    {taken otherTaken : Text}
    (alike : NamesAlike rest result otherResult)
    (sameChar : c = otherChar)
    (sameTaken : taken = otherTaken) :
    NamesAlike rest (c :: result.1, taken ++ result.2.1, result.2.2)
      (otherChar :: otherResult.1, otherTaken ++ otherResult.2.1, otherResult.2.2) := by
  subst sameChar sameTaken
  cases alike with
  | same name raw left => exact .same (by rw [name]) (by rw [raw]) left
  | across across otherAcross =>
      exact .across (across.prepend c taken) (otherAcross.prepend c taken)

theorem Variants.takeName (variants : Variants rest text other) :
    NamesAlike rest (takeName text) (takeName other) := by
  induction size : text.length using Nat.strongRecOn generalizing text other with
  | _ size inductionHypothesis =>
      cases variants with
      | inert inert otherInert => exact .across inert.takeName otherInert.takeName
      | @cons text other c variants =>
          have alone : Variants rest (c :: text) (c :: other) := .cons c variants
          by_cases escape : c = '\\'
          · subst escape
            have newline := variants.startsWithNewline
            cases goesOn : Sheet.startsWithNewline text with
            | true =>
                have ends := newline.symm.trans goesOn
                rw [Sheet.takeName, Sheet.takeName, if_pos rfl, if_pos rfl, if_pos goesOn,
                  if_pos ends]
                exact .same rfl rfl alone
            | false =>
                have otherGoesOn := newline.symm.trans goesOn
                cases variants.takeEscape with
                | across across otherAcross =>
                    exact .across (across.takeName goesOn) (otherAcross.takeName otherGoesOn)
                | same char raw left =>
                    have shorter := length_takeEscape_le text
                    have names := inductionHypothesis _
                      (by rw [← size]; exact Nat.lt_succ_of_le shorter) left rfl
                    rw [Sheet.takeName, Sheet.takeName, if_pos rfl, if_pos rfl, goesOn, otherGoesOn]
                    exact names.prepend char (congrArg _ raw)
          · rw [Sheet.takeName, Sheet.takeName, if_neg escape, if_neg escape]
            split
            · have names := inductionHypothesis _ (by rw [← size]; exact Nat.lt_succ_self _)
                variants rfl
              exact names.prepend rfl (Eq.refl [c])
            · exact .same rfl rfl alone

/-! ## Strings and comments -/

/-- A reader that passes over inert texts, from the places to which an escape led. -/
theorem ReadAlike.of_escapes
    {c : Char}
    {escape otherEscape : Text × Text}
    (read : Text → Text × Text)
    (passes : ∀ {text}, InertBefore rest text → (read text).2 = (read rest).2)
    (within : (read rest).2.length ≤ rest.length)
    (escapes : escape.1 = otherEscape.1 ∧ Variants rest escape.2 otherEscape.2 ∨
      (InertBefore rest escape.2 ∨ escape.2 = rest) ∧
        (InertBefore rest otherEscape.2 ∨ otherEscape.2 = rest))
    (reads : Variants rest escape.2 otherEscape.2 →
      ReadAlike rest (read escape.2) (read otherEscape.2)) :
    ReadAlike rest (c :: escape.1 ++ (read escape.2).1, (read escape.2).2)
      (c :: otherEscape.1 ++ (read otherEscape.2).1, (read otherEscape.2).2) := by
  rcases escapes with ⟨raw, left⟩ | ⟨left, otherLeft⟩
  · exact (reads left).append (by rw [raw])
  · have passed : ∀ {text}, InertBefore rest text ∨ text = rest →
        (read text).2 = (read rest).2 := by
      rintro text (inert | rfl)
      · exact passes inert
      · rfl
    apply ReadAlike.beyond
    · exact (passed left).trans (passed otherLeft).symm
    · rw [passed left]
      exact within

/-- Two inert texts, for a reader that passes over them. -/
theorem ReadAlike.of_inert
    (read : Text → Text × Text)
    (passes : ∀ {text}, InertBefore rest text → (read text).2 = (read rest).2)
    (within : (read rest).2.length ≤ rest.length)
    (inert : InertBefore rest text)
    (otherInert : InertBefore rest other) :
    ReadAlike rest (read text) (read other) := by
  apply ReadAlike.beyond
  · rw [passes inert, passes otherInert]
  · rw [passes inert]
    exact within

theorem EscapesAlike.left (alike : EscapesAlike rest text other) :
    (takeEscape text).1 = (takeEscape other).1 ∧
        Variants rest (takeEscape text).2 (takeEscape other).2 ∨
      (InertBefore rest (takeEscape text).2 ∨ (takeEscape text).2 = rest) ∧
        (InertBefore rest (takeEscape other).2 ∨ (takeEscape other).2 = rest) := by
  cases alike with
  | same _ raw left => exact Or.inl ⟨raw, left⟩
  | across across otherAcross =>
      exact Or.inr ⟨across.imp_right And.left, otherAcross.imp_right And.left⟩

theorem Variants.takeStringEscape (variants : Variants rest text other) :
    (SheetToken.takeStringEscape text).1 = (SheetToken.takeStringEscape other).1 ∧
        Variants rest (SheetToken.takeStringEscape text).2 (SheetToken.takeStringEscape other).2 ∨
      (InertBefore rest (SheetToken.takeStringEscape text).2 ∨
          (SheetToken.takeStringEscape text).2 = rest) ∧
        (InertBefore rest (SheetToken.takeStringEscape other).2 ∨
          (SheetToken.takeStringEscape other).2 = rest) := by
  have newline := variants.startsWithNewline
  have escapes := variants.takeEscape.left
  unfold SheetToken.takeStringEscape
  rw [← newline]
  split
  next ends =>
    cases variants with
    | inert inert =>
        rw [inert.startsWithNewline] at ends
        cases ends
    | cons c variants => exact Or.inl (variants.takeNewline c)
  next => exact escapes

theorem length_takeString_le (quote : Char) (text : Text) :
    (SheetToken.takeString quote text).2.length ≤ text.length := by
  have whole := congrArg List.length (SheetToken.takeString_append quote text)
  rw [List.length_append] at whole
  omega

theorem Variants.takeString
    {quote : Char}
    (variants : Variants rest text other)
    (isQuote : isQuote quote = true) :
    ReadAlike rest (SheetToken.takeString quote text) (SheetToken.takeString quote other) := by
  have passes : ∀ {text}, InertBefore rest text → _ := fun inert => inert.takeString isQuote
  have within := length_takeString_le quote rest
  induction size : text.length using Nat.strongRecOn generalizing text other with
  | _ size inductionHypothesis =>
      cases variants with
      | inert inert otherInert => exact .of_inert _ passes within inert otherInert
      | @cons text other c variants =>
          have alone : Variants rest (c :: text) (c :: other) := .cons c variants
          rw [SheetToken.takeString, SheetToken.takeString]
          split
          · have shorter := SheetToken.length_takeStringEscape_le text
            exact .of_escapes _ passes within variants.takeStringEscape fun left =>
              inductionHypothesis _ (by rw [← size]; exact Nat.lt_succ_of_le shorter) left rfl
          split
          · exact .same rfl variants
          split
          · exact .same rfl alone
          · have alike := inductionHypothesis _ (by rw [← size]; exact Nat.lt_succ_self _)
              variants rfl
            exact alike.append (Eq.refl [c])

theorem length_takeComment_le (text : Text) :
    (Token.takeComment text).2.2.length ≤ text.length := by
  have whole := congrArg List.length (Token.takeComment_append text)
  rw [List.length_append] at whole
  omega

theorem takeComment_cons
    {c : Char}
    (inside : ¬(c = '*' ∧ headIs (· == '/') text = true)) :
    Token.takeComment (c :: text) =
      (c :: (Token.takeComment text).1, (Token.takeComment text).2.1,
        (Token.takeComment text).2.2) := by
  rw [Token.takeComment]
  rintro rest rfl rfl
  exact inside ⟨rfl, rfl⟩

theorem Variants.takeComment (variants : Variants rest text other) :
    ReadAlike rest ((Token.takeComment text).1, (Token.takeComment text).2.2)
      ((Token.takeComment other).1, (Token.takeComment other).2.2) := by
  induction variants with
  | inert inert otherInert =>
      exact .of_inert (fun text => ((Token.takeComment text).1, (Token.takeComment text).2.2))
        InertBefore.takeComment (length_takeComment_le rest) inert otherInert
  | @cons text other c variants inductionHypothesis =>
      have heads : headIs (· == '/') text = headIs (· == '/') other := variants.headIs_eq rfl
      by_cases closing : c = '*' ∧ headIs (· == '/') text = true
      · obtain ⟨left, otherLeft, rfl, rfl, leftVariants⟩ :=
          variants.exists_of_headIs rfl closing.2
        rw [closing.1]
        exact .same rfl leftVariants
      · rw [takeComment_cons closing, takeComment_cons (heads ▸ closing)]
        exact inductionHypothesis.append (Eq.refl [c])

/-! ## URLs -/

theorem length_takeBadUrl_le (text : Text) :
    (SheetToken.takeBadUrl text).2.length ≤ text.length := by
  have whole := congrArg List.length (SheetToken.takeBadUrl_append text)
  rw [List.length_append] at whole
  omega

theorem length_takeUrl_le (text : Text) : (SheetToken.takeUrl text).2.length ≤ text.length := by
  have whole := congrArg List.length (SheetToken.takeUrl_append text)
  rw [List.length_append] at whole
  omega

theorem takeBadUrl_cons
    {c : Char}
    (inside : c ≠ ')')
    (unescaped : ¬(c = '\\' ∧ (headIs (· == ')') text = true ∨ headIs (· == '\\') text = true))) :
    SheetToken.takeBadUrl (c :: text) =
      (c :: (SheetToken.takeBadUrl text).1, (SheetToken.takeBadUrl text).2) := by
  rw [SheetToken.takeBadUrl]
  · exact inside
  · rintro rest rfl rfl
    exact unescaped ⟨rfl, Or.inl rfl⟩
  · rintro rest rfl rfl
    exact unescaped ⟨rfl, Or.inr rfl⟩

theorem Variants.takeBadUrl (variants : Variants rest text other) :
    ReadAlike rest (SheetToken.takeBadUrl text) (SheetToken.takeBadUrl other) := by
  have passes : ∀ {text}, InertBefore rest text → _ := fun inert => inert.takeBadUrl
  have within := length_takeBadUrl_le rest
  induction size : text.length using Nat.strongRecOn generalizing text other with
  | _ size inductionHypothesis =>
      cases variants with
      | inert inert otherInert => exact .of_inert _ passes within inert otherInert
      | @cons text other c variants =>
          by_cases closing : c = ')'
          · rw [closing]
            exact .same rfl variants
          by_cases escape : c = '\\' ∧
              (headIs (· == ')') text = true ∨ headIs (· == '\\') text = true)
          · obtain ⟨rfl, head⟩ := escape
            -- The escaped character is passed together with its backslash.
            obtain ⟨d, left, otherLeft, rfl, rfl, leftVariants, skips⟩ : ∃ d left otherLeft,
                text = d :: left ∧ other = d :: otherLeft ∧ Variants rest left otherLeft ∧
                  ∀ tail, SheetToken.takeBadUrl ('\\' :: d :: tail) =
                    ('\\' :: d :: (SheetToken.takeBadUrl tail).1,
                      (SheetToken.takeBadUrl tail).2) := by
              rcases head with head | head
              · obtain ⟨left, otherLeft, same, otherSame, leftVariants⟩ :=
                  variants.exists_of_headIs rfl head
                exact ⟨_, left, otherLeft, same, otherSame, leftVariants, fun _ => rfl⟩
              · obtain ⟨left, otherLeft, same, otherSame, leftVariants⟩ :=
                  variants.exists_of_headIs rfl head
                exact ⟨_, left, otherLeft, same, otherSame, leftVariants, fun _ => rfl⟩
            have alike := inductionHypothesis _
              (by rw [← size]; exact Nat.lt_succ_of_lt (Nat.lt_succ_self _)) leftVariants rfl
            rw [skips, skips]
            exact alike.append (Eq.refl ['\\', d])
          · have closes : headIs (· == ')') text = headIs (· == ')') other := variants.headIs_eq rfl
            have escapes : headIs (· == '\\') text = headIs (· == '\\') other :=
              variants.headIs_eq rfl
            have alike := inductionHypothesis _ (by rw [← size]; exact Nat.lt_succ_self _)
              variants rfl
            rw [takeBadUrl_cons closing escape, takeBadUrl_cons closing (closes ▸ escapes ▸ escape)]
            exact alike.append (Eq.refl [c])

theorem Variants.takeUrlEnd (variants : Variants rest text other) :
    ReadAlike rest (SheetToken.takeUrlEnd text) (SheetToken.takeUrlEnd other) := by
  induction variants with
  | inert inert otherInert =>
      apply ReadAlike.beyond
      · rw [inert.takeUrlEnd, otherInert.takeUrlEnd]
      · rw [inert.takeUrlEnd]
        exact length_takeBadUrl_le rest
  | cons c variants inductionHypothesis =>
      rw [SheetToken.takeUrlEnd, SheetToken.takeUrlEnd]
      split
      · exact .same rfl variants
      split
      · exact inductionHypothesis.append (Eq.refl [c])
      · exact variants.takeBadUrl.append (Eq.refl [c])

theorem Variants.takeUrl (variants : Variants rest text other) :
    ReadAlike rest (SheetToken.takeUrl text) (SheetToken.takeUrl other) := by
  have passes : ∀ {text}, InertBefore rest text → _ := fun inert => inert.takeUrl
  have within := length_takeUrl_le rest
  induction size : text.length using Nat.strongRecOn generalizing text other with
  | _ size inductionHypothesis =>
      cases variants with
      | inert inert otherInert => exact .of_inert _ passes within inert otherInert
      | @cons text other c variants =>
          have alone : Variants rest (c :: text) (c :: other) := .cons c variants
          rw [SheetToken.takeUrl, SheetToken.takeUrl, variants.startsWithNewline]
          split
          · exact .same rfl variants
          split
          · exact alone.takeUrlEnd
          split
          · exact alone.takeBadUrl
          split
          · split
            · exact alone.takeBadUrl
            · have shorter := length_takeEscape_le text
              exact .of_escapes _ passes within variants.takeEscape.left fun left =>
                inductionHypothesis _ (by rw [← size]; exact Nat.lt_succ_of_le shorter) left rfl
          · have alike := inductionHypothesis _ (by rw [← size]; exact Nat.lt_succ_self _)
              variants rfl
            exact alike.append (Eq.refl [c])

/-- What follows `url(` in both texts: the argument of a call, or a URL. -/
theorem Variants.takeUrl? (variants : Variants rest text other) :
    SheetToken.takeUrl? text = none ∧ SheetToken.takeUrl? other = none ∨
      ∃ result otherResult, SheetToken.takeUrl? text = some result ∧
        SheetToken.takeUrl? other = some otherResult ∧ ReadAlike rest result otherResult := by
  obtain ⟨blanks, behind⟩ := variants.span_isBlank
  have url := behind.takeUrl
  simp only [SheetToken.takeUrl?, blanks]
  generalize text.dropWhile isBlank = left at behind url
  generalize other.dropWhile isBlank = otherLeft at behind url
  cases behind with
  | inert inert otherInert =>
      obtain ⟨first, tail, rfl, numeric, -⟩ := inert.exists_cons
      obtain ⟨otherFirst, otherTail, rfl, otherNumeric, -⟩ := otherInert.exists_cons
      simp only [isQuote_of_isNumeric numeric, isQuote_of_isNumeric otherNumeric]
      exact Or.inr ⟨_, _, rfl, rfl, url.append rfl⟩
  | cons c =>
      cases quote : isQuote c with
      | false =>
          simp only [quote]
          exact Or.inr ⟨_, _, rfl, rfl, url.append rfl⟩
      | true =>
          simp only [quote]
          exact Or.inl ⟨rfl, rfl⟩

/-! ## Starts of names and numbers -/

theorem startsName_cons_cons (first second : Char) (text other : Text) :
    startsName (first :: second :: text) = startsName (first :: second :: other) := by
  by_cases hyphen : first = '-'
  · rw [hyphen]
    rfl
  by_cases escape : first = '\\'
  · rw [escape]
    rfl
  · simp [startsName]

/-- Where the texts are not inert, names start in both or in neither. -/
theorem Variants.startsName_eq
    (variants : Variants rest text other)
    (notInert : ¬(InertBefore rest text ∧ InertBefore rest other)) :
    startsName text = startsName other := by
  rcases variants.inert_or_exists with inert | found
  · exact absurd inert notInert
  obtain ⟨front, c, left, otherLeft, rfl, rfl, isOther, leftVariants⟩ := found
  match front with
  | [] =>
      have noHyphen : c ≠ '-' := by
        rintro rfl
        cases isOther
      by_cases escape : c = '\\'
      · rw [escape]
        exact congrArg (!·) leftVariants.startsWithNewline
      · simp [startsName]
  | [first] => exact startsName_cons_cons first c left otherLeft
  | first :: second :: _ => exact startsName_cons_cons first second _ _

theorem Variants.continuesName_eq
    (variants : Variants rest text other)
    (notInert : ¬(InertBefore rest text ∧ InertBefore rest other)) :
    continuesName text = continuesName other := by
  cases variants with
  | inert inert otherInert => exact absurd ⟨inert, otherInert⟩ notInert
  | cons c variants =>
      by_cases escape : c = '\\'
      · rw [escape]
        exact congrArg (!·) variants.startsWithNewline
      · simp [continuesName]

theorem isLiteralChar_of_isNumeric {c : Char} (isOther : isNumeric c = false) :
    Token.isLiteralChar c = false := by
  rw [← Bool.not_eq_true]
  intro literal
  simp only [isNumeric, Char.isAlphanum, Bool.or_eq_false_iff, beq_eq_false_iff_ne] at isOther
  simp only [Token.isLiteralChar, isSign, isExponentMark, Bool.or_eq_true, beq_iff_eq] at literal
  rcases literal with ((digit | rfl) | rfl | rfl) | rfl | rfl
  · exact Bool.noConfusion (digit.symm.trans isOther.1.1.1.2)
  · exact isOther.2 rfl
  · exact isOther.1.1.2 rfl
  · exact isOther.1.2 rfl
  · exact absurd isOther.1.1.1.1 (by decide)
  · exact absurd isOther.1.1.1.1 (by decide)

/-- Where the texts are not inert, a character that is not one of numbers ends the
literals in both. -/
theorem Variants.takeLiteral
    (variants : Variants rest text other)
    (notInert : ¬(InertBefore rest text ∧ InertBefore rest other)) :
    Token.startsNumber text = Token.startsNumber other ∧
      (Token.takeLiteral text).1 = (Token.takeLiteral other).1 ∧
      Variants rest (Token.takeLiteral text).2 (Token.takeLiteral other).2 := by
  rcases variants.inert_or_exists with inert | found
  · exact absurd inert notInert
  obtain ⟨front, c, left, otherLeft, rfl, rfl, isOther, leftVariants⟩ := found
  have ends : ∀ tail, headIs Token.isLiteralChar (c :: tail) = false := fun _ =>
    isLiteralChar_of_isNumeric isOther
  rw [Token.startsNumber_append_of_ends (ends left),
    Token.startsNumber_append_of_ends (ends otherLeft),
    Token.takeLiteral_append_of_ends (ends left), Token.takeLiteral_append_of_ends (ends otherLeft)]
  exact ⟨rfl, rfl, (leftVariants.cons c).append _⟩

/-! ## Names that may be absent -/

/-- The name at the start of a text, if one is expected. -/
def takeNameIf (expected : Bool) (text : Text) : Text × Text × Text :=
  if expected then takeName text else ([], [], text)

theorem InertBefore.takeNameIf (inert : InertBefore rest text) (expected : Bool) :
    NameAcross rest (takeNameIf expected text) := by
  cases expected with
  | false => exact .within inert
  | true => exact inert.takeName

/-- A name that is expected in both texts or in neither, unless they are inert. -/
theorem Variants.takeNameIf
    {expected : Text → Bool}
    (variants : Variants rest text other)
    (agrees : ¬(InertBefore rest text ∧ InertBefore rest other) → expected text = expected other) :
    expected text = expected other ∧
        (takeNameIf (expected text) text).1 = (takeNameIf (expected other) other).1 ∧
        (takeNameIf (expected text) text).2.1 = (takeNameIf (expected other) other).2.1 ∧
        Variants rest (takeNameIf (expected text) text).2.2
          (takeNameIf (expected other) other).2.2 ∨
      NameAcross rest (takeNameIf (expected text) text) ∧
        NameAcross rest (takeNameIf (expected other) other) := by
  by_cases inert : InertBefore rest text ∧ InertBefore rest other
  · exact Or.inr ⟨inert.1.takeNameIf _, inert.2.takeNameIf _⟩
  · have same := agrees inert
    rw [← same]
    cases expected text with
    | false => exact Or.inl ⟨rfl, rfl, rfl, variants⟩
    | true =>
        cases variants.takeName with
        | same name raw left => exact Or.inl ⟨rfl, name, raw, left⟩
        | across across otherAcross => exact Or.inr ⟨across, otherAcross⟩

end

end Sheet

end CssRescale
