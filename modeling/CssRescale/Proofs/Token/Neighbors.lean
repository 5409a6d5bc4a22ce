import CssRescale.Proofs.Token.Fuse

/-!
Contract: rewritten tokens against the tokens of their text.

A rewritten token is read again unless a digit came after it: directly after a
token that takes in digits, or after a sign with which it makes an exponent of a
unit of one letter. What is read then does not agree with the rewritten tokens,
except where a number is respelled.

Owns: that the tokens of a text of rewritten tokens agree with them exactly if no
two neighbours fuse.

Does not own: what is read where a digit came after a number.
-/

set_option autoImplicit false

namespace CssRescale.Token

open Text (headIs endsRun startsWithDigit startsWithDigit_eq takeDigits takeSign)
open Numeral (startsExponent)

/-! ## Tokens that are read again -/

theorem Rewrites.absorbsDigit
    {token rewritten : Token}
    (rewrites : Rewrites token rewritten)
    (absorbs : rewritten.absorbsDigit = true) :
    token.absorbsDigit = true := by
  cases rewrites with
  | same => exact absorbs
  | number _ noPercent => simpa [Token.absorbsDigit] using noPercent

theorem Rewrites.text_ne_nil
    {token rewritten : Token}
    (rewrites : Rewrites token rewritten)
    (nonempty : token.text ≠ []) :
    rewritten.text ≠ [] := by
  cases rewrites with
  | same => exact nonempty
  | number _ _ plain => simp [text, plain.ne_nil]

/-- A token stays if its rewritten text starts with a plus sign. -/
theorem Rewrites.eq_of_sign
    {token rewritten : Token}
    {sign : Char}
    {tail : Text}
    (rewrites : Rewrites token rewritten)
    (signed : isSign sign = true)
    (noDash : sign ≠ '-')
    (head : rewritten.text = sign :: tail) :
    rewritten = token := by
  cases rewrites with
  | same => rfl
  | @number literal unit plainUnit numeral _ _ _ _ _ start =>
      cases shape : numeral.text with
      | nil =>
          rw [shape] at start
          rcases start with digit | ⟨minus, _⟩
          · cases digit
          · cases minus
      | cons first others =>
          rw [text, shape, List.cons_append] at head
          obtain rfl : first = sign := (List.cons.inj head).1
          rw [shape] at start
          rcases start with digit | ⟨minus, _⟩
          · have digit : first.isDigit = true := digit
            rw [isDigit_of_isSign signed] at digit
            cases digit
          · exact absurd (eq_of_beq minus) noDash

theorem Agrees.isNumber_eq
    {token other : Token}
    (agrees : Agrees token other) :
    token.isNumber = other.isNumber := by
  cases other with
  | number literal unit =>
      cases token with
      | number => rfl
      | _ => cases agrees
  | _ => rw [agrees.eq_of_other rfl]

/-- A token that is read does not fuse with the one that starts the text after it. -/
theorem not_fuses_of_next?
    {state : UrlState}
    {source tail : Text}
    {token next : Token}
    (reading : next? state source = some (token, next.text ++ tail)) :
    ¬Fuses token next := by
  rintro ⟨absorbs, _, digit, _⟩
  have noDigit := startsWithDigit_of_absorbsDigit reading absorbs
  cases shape : next.text with
  | nil =>
      rw [shape] at digit
      cases digit
  | cons first others =>
      rw [shape] at digit noDigit
      exact absurd (digit.symm.trans noDigit) (by decide)

/-- Where a token is read again, the rest decides. -/
theorem forall₂_agrees_of_next?
    {state : UrlState}
    {rest : Text}
    {token : Token}
    (reading : next? state (token.text ++ rest) = some (token, rest))
    (tokens : List Token) :
    List.Forall₂ Agrees (scanFrom state (token.text ++ rest)) (token :: tokens) ↔
      List.Forall₂ Agrees (scanFrom (state.after token rest) rest) tokens := by
  rw [scanFrom_of_next? reading, List.forall₂_cons,
    and_iff_right (Agrees.refl (readsNumeral_of_next? reading))]

/-! ## Digits directly after a token -/

/-- If a digit came to the front of a text, its first token was a number that was
rewritten. -/
theorem exists_front_scanFrom
    {convert : Token → Token}
    {state : UrlState}
    {source : Text}
    (rewrites : ∀ token ∈ scanFrom state source, Rewrites token (convert token))
    (before : startsWithDigit source = false)
    (digit : startsWithDigit (concat ((scanFrom state source).map convert)) = true) :
    ∃ (front : Front (concat ((scanFrom state source).map convert))) (tokens : List Token),
      (scanFrom state source).map convert = front.token :: tokens := by
  by_cases nonempty : source = []
  · rw [nonempty, scanFrom_nil] at digit
    cases digit
  · obtain ⟨token, left, reading⟩ := exists_next? state nonempty
    rw [scanFrom_of_next? reading] at rewrites digit ⊢
    obtain ⟨_, front, same, _⟩ := exists_front reading (rewrites token List.mem_cons_self) before
      (concat ((scanFrom (state.after token left) left).map convert)) digit
    exact ⟨front, (scanFrom (state.after token left) left).map convert,
      congrArg (· :: (scanFrom (state.after token left) left).map convert) same.symm⟩

theorem Front.text_token {rest : Text} (front : Front rest) :
    front.token.text ++ front.left = rest := by
  conv => rhs; rw [front.rest_eq]
  simp [Front.token, text, front.text_numeral]

theorem Front.startsWithDigit_token {rest : Text} (front : Front rest) :
    startsWithDigit front.token.text = true := by
  have nonempty : front.token.text ≠ [] := by simp [Front.token, text, front.plain.ne_nil]
  have digit := front.digit
  rw [← front.text_token, startsWithDigit_eq, Text.headIs_append _ nonempty] at digit
  rw [startsWithDigit_eq, digit]

/-- A token that takes in digits fuses with a rewritten number unless that is respelled. -/
theorem Front.fuses_iff
    {rest : Text}
    {token : Token}
    (front : Front rest)
    (absorbs : token.absorbsDigit = true) :
    Fuses token front.token ↔ ¬Respells token front.token :=
  ⟨fun fuses => fuses.2.2.2, fun apart => ⟨absorbs, rfl, front.startsWithDigit_token, apart⟩⟩

/-! ## Tokens that are lost -/

theorem not_forall₂_of_lost
    {state : UrlState}
    {source : Text}
    {other : Token}
    (lost : ∀ token left, next? state source = some (token, left) → ¬Agrees token other)
    (tokens : List Token) :
    ¬List.Forall₂ Agrees (scanFrom state source) (other :: tokens) := by
  by_cases nonempty : source = []
  · rw [nonempty, scanFrom_nil]
    exact nofun
  · obtain ⟨token, left, reading⟩ := exists_next? state nonempty
    exact not_forall₂_of_reading reading (lost token left reading) tokens

/-- The two parts of a rewritten number with a unit other than the percent sign:
the unit makes no exponent before the text that it was read before, or before none. -/
theorem Rewrites.exists_unit
    {state : UrlState}
    {source literal unit left : Text}
    {token : Token}
    (reading : next? state source = some (token, left))
    (rewrites : Rewrites token (.number literal unit))
    (nonempty : unit ≠ [])
    (noPercent : unit ≠ ['%']) :
    ∃ (numeral : Numeral) (first : Char) (tail : Text),
      literal = numeral.text ∧ unit = first :: tail ∧ StartsUnit first ∧
        (numeral.exponent? = none → ∃ left, startsExponent (first :: tail ++ left) = false) := by
  cases rewrites with
  | same =>
      obtain ⟨numeral, rfl, ends, taking⟩ := exists_numeral_of_next? reading
      rcases takeUnit_cases taking with ⟨none, _⟩ | percent | ⟨starts, taken⟩
      · exact absurd none nonempty
      · exact absurd percent noPercent
      · obtain ⟨first, tail, rfl, starter, _⟩ := exists_first_of_takeIdentifier starts taken
        exact ⟨numeral, first, tail, rfl, rfl, starter, fun none => ⟨left, ends.exponent none⟩⟩
  | @number _ _ _ numeral _ _ plain =>
      have before : startsExponent (unit ++ []) = false := by simpa using plain.exponent
      obtain ⟨first, tail, rfl, starter⟩ := plain.exists_first
      exact ⟨numeral, first, tail, rfl, rfl, starter, fun _ => ⟨[], before⟩⟩

/-- A rewritten token that takes in digits is lost before a rewritten number that
starts with one, if it is not a number without unit. -/
theorem Front.not_forall₂_of_absorbsDigit
    {state : UrlState}
    {source left rest : Text}
    {token rewritten : Token}
    (front : Front rest)
    (reading : next? state source = some (token, left))
    (rewrites : Rewrites token rewritten)
    (absorbs : rewritten.absorbsDigit = true)
    (other : ∀ literal : Text, rewritten ≠ number literal [])
    (tokens : List Token) :
    ¬List.Forall₂ Agrees (scanFrom state (rewritten.text ++ rest)) (rewritten :: tokens) := by
  apply not_forall₂_of_lost
  intro read remaining again agrees
  cases rewritten with
  | number literal unit =>
      have noPercent : unit ≠ ['%'] := by simpa [absorbsDigit] using absorbs
      have nonempty : unit ≠ [] := by
        intro equal
        subst equal
        exact other literal rfl
      have closed : state ≠ .opened := by
        cases rewrites with
        | same => exact ne_opened_of_next? reading
        | number => exact ne_opened_of_next? reading
      obtain ⟨numeral, first, tail, rfl, rfl, starter, before⟩ :=
        rewrites.exists_unit reading nonempty noPercent
      cases read with
      | number readLiteral readUnit =>
          rw [text, List.append_assoc] at again
          exact unit_ne_of_digit closed starter before front again agrees.1
      | _ => cases agrees
  | operator raw =>
      obtain rfl : read = operator raw := agrees.eq_of_other rfl
      have noDigit := startsWithDigit_of_absorbsDigit again absorbs
      rw [List.append_cancel_left (next?_append again), front.digit] at noDigit
      cases noDigit
  | _ => cases absorbs

/-! ## Exponents that came about -/

/-- A number without exponent that has one before another text: a sign was there,
and a digit came after the sign. -/
structure GainsExponent (token : Token) (left rest : Text) where
  numeral : Numeral
  mark : Char
  sign : Char
  leftTail : Text
  restTail : Text
  token_eq : token = number numeral.text [mark]
  noExponent : numeral.exponent? = none
  isMark : isExponentMark mark = true
  signed : isSign sign = true
  noDash : sign ≠ '-'
  left_eq : left = sign :: leftTail
  rest_eq : rest = sign :: restTail
  noDigit : startsWithDigit leftTail = false
  digit : startsWithDigit restTail = true

theorem isExponentMark_ne_percent {mark : Char} (isMark : isExponentMark mark = true) :
    mark ≠ '%' := by
  intro equal
  subst equal
  exact absurd isMark (by decide)

theorem JoinsExponent.absorbsDigit
    {token : Token}
    {rest : Text}
    (joins : token.JoinsExponent rest) :
    token.absorbsDigit = true := by
  obtain ⟨literal, mark, rfl, _, isMark, _⟩ := joins
  simpa [Token.absorbsDigit] using isExponentMark_ne_percent isMark

theorem exists_gainsExponent
    {state : UrlState}
    {source left rest : Text}
    {token rewritten : Token}
    (reading : next? state source = some (token, left))
    (rewrites : Rewrites token rewritten)
    (alike : Alike left rest)
    (joins : rewritten.JoinsExponent rest) :
    state ≠ .opened ∧ Nonempty (GainsExponent rewritten left rest) := by
  obtain ⟨literal, mark, rfl, noMark, isMark, digit⟩ := joins
  cases rewrites with
  | number _ _ _ other =>
      change isExponentMark mark = false at other
      rw [other] at isMark
      cases isMark
  | same =>
      obtain ⟨numeral, rfl, ends, taking⟩ := exists_numeral_of_next? reading
      have noExponent : numeral.exponent? = none := by
        simpa [Numeral.any_isExponentMark_text] using noMark
      have before : startsWithDigit (takeSign left).2 = false := by
        simpa [startsExponent, isMark] using ends.exponent noExponent
      have noPercent : [mark] ≠ ['%'] := by simpa using isExponentMark_ne_percent isMark
      have ended := endsRun_of_takeUnit taking (by simp) noPercent
      cases alike with
      | ended => cases digit
      | @same first left rest _ _ =>
          by_cases signed : isSign first = true
          · simp only [takeSign, signed, if_true] at before digit
            have noDash : first ≠ '-' := by
              intro equal
              subst equal
              exact absurd ended (by simp [endsRun, endsIdentifier, continuesIdentifier])
            exact ⟨ne_opened_of_next? reading, ⟨numeral, mark, first, left, rest, rfl, noExponent,
              isMark, signed, noDash, rfl, rfl, before, digit⟩⟩
          · simp only [takeSign, signed] at before digit
            exact absurd (digit.symm.trans before) (by decide)

section Exponent

variable {token : Token} {left rest : Text} (gains : GainsExponent token left rest)

include gains

/-- The sign was and is a token of its own, and a rewritten number came after it. -/
theorem GainsExponent.exists_front
    {convert : Token → Token}
    (rewrites : ∀ next ∈ scanFrom .outside left, Rewrites next (convert next))
    (same : concat ((scanFrom .outside left).map convert) = rest) :
    ∃ other tokens,
      other.isNumber = false ∧ (scanFrom .outside left).map convert = other :: tokens ∧
        Nonempty (Front gains.restTail) := by
  obtain ⟨next, remaining, reading⟩ := exists_next? .outside
    (show left ≠ [] by simp [gains.left_eq])
  have scanned := scanFrom_of_next? reading
  rw [scanned] at rewrites same ⊢
  obtain ⟨first, tail, shape⟩ := List.exists_cons_of_ne_nil (next?_text_ne_nil reading)
  have whole := next?_append reading
  rw [gains.left_eq, shape] at whole
  obtain ⟨rfl, leftTail⟩ := List.cons.inj whole
  have rewritesNext := rewrites next List.mem_cons_self
  have rewritesTail := fun other member => rewrites other (List.mem_cons_of_mem next member)
  rw [gains.rest_eq, List.map_cons] at same
  generalize remainder : (scanFrom (UrlState.outside.after next remaining) remaining).map convert =
    tokens at same ⊢
  change (convert next).text ++ concat tokens = _ at same
  have kept : convert next = next := by
    have nonempty := rewritesNext.text_ne_nil (next?_text_ne_nil reading)
    obtain ⟨head, others, headShape⟩ := List.exists_cons_of_ne_nil nonempty
    rw [headShape, List.cons_append] at same
    rw [(List.cons.inj same).1] at headShape
    exact rewritesNext.eq_of_sign gains.signed gains.noDash headShape
  rw [kept, shape] at same
  obtain ⟨_, restTail⟩ := List.cons.inj same
  have lone : tail = [] := by
    cases tail with
    | nil => rfl
    | cons second others =>
        have noDigit := gains.noDigit
        have digit := gains.digit
        rw [← leftTail] at noDigit
        rw [← restTail] at digit
        exact absurd (digit.symm.trans noDigit) (by decide)
  subst lone
  refine ⟨next, tokens, ?_, by rw [List.map_cons, kept, remainder], ?_⟩
  · refine isNumber_of_text (readsNumeral_of_next? reading) ?_
    rw [shape, startsNumber_of_sign gains.signed]
    rfl
  · have noDigit := gains.noDigit
    have digit := gains.digit
    rw [← leftTail] at noDigit
    rw [← restTail, ← remainder] at digit
    obtain ⟨front, _⟩ := exists_front_scanFrom rewritesTail noDigit digit
    rw [← restTail, ← remainder]
    exact ⟨front⟩

theorem GainsExponent.not_forall₂
    {state : UrlState}
    (closed : state ≠ .opened)
    (front : Front gains.restTail)
    (tokens : List Token) :
    ¬List.Forall₂ Agrees (scanFrom state (token.text ++ rest)) (token :: tokens) := by
  apply not_forall₂_of_lost
  intro read remaining again agrees
  have taken : takeSign (gains.sign :: gains.restTail) = ([gains.sign], gains.restTail) := by
    rw [takeSign, if_pos gains.signed]
  have unit : takeSign rest = ([gains.sign], gains.restTail) :=
    (congrArg takeSign gains.rest_eq).trans taken
  have exponent : startsExponent ([gains.mark] ++ rest) = true := by
    rw [List.singleton_append, startsExponent, gains.isMark, unit, gains.digit]
    rfl
  have after : headIs isExponentMark (takeExponent ([gains.mark] ++ rest)).2 = false := by
    rw [List.singleton_append, takeExponent, unit]
    simp only [gains.isMark, gains.digit, Bool.and_self, if_true, front.takeDigits_eq]
    exact front.headIs_pointText
  rw [gains.token_eq] at again agrees
  cases read with
  | number readLiteral readUnit =>
      rw [text, List.append_assoc] at again
      exact unit_ne_of_exponent closed gains.noExponent (by simp) exponent after again agrees.1
  | _ => cases agrees

end Exponent

/-! ## Steps -/

/-- A rewritten token that is read again fuses with nothing. -/
theorem agrees_cons_of_again
    {state : UrlState}
    {token : Token}
    {tokens : List Token}
    (again : next? state (token.text ++ concat tokens) = some (token, concat tokens)) :
    List.Forall₂ Agrees (scanFrom state (token.text ++ concat tokens)) (token :: tokens) ↔
      (∀ next ∈ tokens.head?, ¬Fuses token next) ∧
        List.Forall₂ Agrees (scanFrom (state.after token (concat tokens)) (concat tokens))
          tokens := by
  have apart : ∀ next ∈ tokens.head?, ¬Fuses token next := by
    cases tokens with
    | nil => exact nofun
    | cons next others =>
        intro head isHead
        obtain rfl : next = head := Option.some.inj isHead
        have reading : next? state (token.text ++ concat (next :: others)) =
            some (token, next.text ++ concat others) := again
        exact not_fuses_of_next? reading
  rw [forall₂_agrees_of_next? again, and_iff_right apart]

/-- A rewritten token that takes in digits, before a rewritten number that starts
with one, stays only if that is respelled. -/
theorem agrees_cons_of_front
    {state : UrlState}
    {source left rest : Text}
    {token rewritten : Token}
    (reading : next? state source = some (token, left))
    (rewrites : Rewrites token rewritten)
    (absorbs : rewritten.absorbsDigit = true)
    (front : Front rest)
    (tokens : List Token) :
    List.Forall₂ Agrees (scanFrom state (rewritten.text ++ rest))
        (rewritten :: front.token :: tokens) ↔
      ¬Fuses rewritten front.token ∧
        List.Forall₂ Agrees (scanFrom .outside rest) (front.token :: tokens) := by
  rw [front.fuses_iff absorbs, not_not]
  by_cases bare : ∃ literal, rewritten = number literal []
  · obtain ⟨literal, rfl⟩ := bare
    cases rewrites with
    | number _ _ plain => exact absurd rfl plain.ne_nil
    | same =>
        obtain ⟨numeral, rfl⟩ := readsNumeral_of_next? reading literal [] rfl
        rw [text, List.append_nil]
        exact front.forall₂_agrees_iff (ne_opened_of_next? reading) tokens
  · have lost := front.not_forall₂_of_absorbsDigit reading rewrites absorbs
      (fun literal same => bare ⟨literal, same⟩) (front.token :: tokens)
    refine iff_of_false lost fun both => bare ?_
    cases rewritten with
    | number literal unit => exact ⟨literal, by rw [both.1.1]⟩
    | _ => exact both.1.elim

/-- A rewritten token that gains an exponent is lost, and so is the number that
gives it one. -/
theorem GainsExponent.agrees_cons
    {convert : Token → Token}
    {state : UrlState}
    {token : Token}
    {left : Text}
    (closed : state ≠ .opened)
    (rewrites : ∀ next ∈ scanFrom .outside left, Rewrites next (convert next))
    (gains : GainsExponent token left (concat ((scanFrom .outside left).map convert))) :
    ¬List.Forall₂ Agrees
        (scanFrom state (token.text ++ concat ((scanFrom .outside left).map convert)))
        (token :: (scanFrom .outside left).map convert) ∧
      ¬List.Forall₂ Agrees (scanFrom .outside (concat ((scanFrom .outside left).map convert)))
        ((scanFrom .outside left).map convert) := by
  obtain ⟨other, tokens, noNumber, rewritten, ⟨front⟩⟩ := gains.exists_front rewrites rfl
  refine ⟨gains.not_forall₂ closed front _, ?_⟩
  have number : startsNumber (concat ((scanFrom .outside left).map convert)) = true := by
    rw [gains.rest_eq, startsNumber_of_sign gains.signed, gains.digit]
    rfl
  conv => rhs; rhs; rw [rewritten]
  apply not_forall₂_of_lost
  intro read remaining reading agrees
  have outside : UrlState.outside ≠ .opened := by decide
  rw [← isNumber_of_next? outside reading, agrees.isNumber_eq, noNumber] at number
  cases number

theorem after_of_absorbsDigit
    {token : Token}
    (absorbs : token.absorbsDigit = true)
    (state : UrlState)
    (left : Text) :
    state.after token left = .outside := by
  cases token with
  | number => rfl
  | operator => rfl
  | _ => cases absorbs

/-! ## Runs -/

/-- What one step adds: its token may not fuse with the next one. -/
theorem agrees_cons
    {convert : Token → Token}
    {state : UrlState}
    {source left : Text}
    {token : Token}
    (reading : next? state source = some (token, left))
    (first : Rewrites token (convert token))
    (rewrites : ∀ next ∈ scanFrom (state.after token left) left, Rewrites next (convert next)) :
    List.Forall₂ Agrees
        (scanFrom state (concat ((token :: scanFrom (state.after token left) left).map convert)))
        (convert token :: (scanFrom (state.after token left) left).map convert) ↔
      (∀ next ∈ ((scanFrom (state.after token left) left).map convert).head?,
          ¬Fuses (convert token) next) ∧
        List.Forall₂ Agrees
          (scanFrom (state.after token left)
            (concat ((scanFrom (state.after token left) left).map convert)))
          ((scanFrom (state.after token left) left).map convert) := by
  have resumes := resumes_scanFrom fun next member => (rewrites next member).replaces
  rw [List.map_cons, concat_cons]
  by_cases brought : (convert token).absorbsDigit = true ∧
      startsWithDigit (concat ((scanFrom (state.after token left) left).map convert)) = true
  · -- A digit came directly after the token.
    obtain ⟨absorbs, digit⟩ := brought
    have noDigit := startsWithDigit_of_absorbsDigit reading (first.absorbsDigit absorbs)
    rw [after_of_absorbsDigit (first.absorbsDigit absorbs)] at rewrites digit ⊢
    obtain ⟨front, tokens, rewritten⟩ := exists_front_scanFrom rewrites noDigit digit
    have step := agrees_cons_of_front reading first absorbs front tokens
    have head := congrArg List.head? rewritten
    rw [← rewritten] at step
    rw [step]
    apply and_congr_left
    intro _
    simp [head]
  have alike : (convert token).absorbsDigit = true →
      Alike left (concat ((scanFrom (state.after token left) left).map convert)) := by
    intro absorbs
    cases resumes with
    | alike alike => exact alike
    | digit _ digit => exact absurd ⟨absorbs, digit⟩ brought
  by_cases joins : (convert token).JoinsExponent
      (concat ((scanFrom (state.after token left) left).map convert))
  · -- A digit came after a sign that a unit and the digit make an exponent of.
    have absorbs := joins.absorbsDigit
    have absorbsBefore := first.absorbsDigit absorbs
    obtain ⟨closed, ⟨gains⟩⟩ := exists_gainsExponent reading first (alike absorbs) joins
    rw [after_of_absorbsDigit absorbsBefore] at rewrites gains ⊢
    obtain ⟨lost, lostNext⟩ := gains.agrees_cons closed rewrites
    exact iff_of_false lost fun both => lostNext both.2
  · have again := next?_replaced reading first.replaces resumes alike joins
    rw [agrees_cons_of_again again, after_replaced first.replaces resumes]

/-- Exactly the neighbours that fuse keep the tokens of the text of rewritten
tokens from agreeing with them. -/
theorem forall₂_agrees_iff_isChain
    {convert : Token → Token}
    {state : UrlState}
    {source : Text}
    (rewrites : ∀ token ∈ scanFrom state source, Rewrites token (convert token)) :
    List.Forall₂ Agrees (scanFrom state (concat ((scanFrom state source).map convert)))
        ((scanFrom state source).map convert) ↔
      ((scanFrom state source).map convert).IsChain fun token next => ¬Fuses token next := by
  fun_induction scanFrom state source with
  | case1 state source ended => simp [concat]
  | case2 state source token left reading inductionHypothesis =>
      have rewritesRest : ∀ next ∈ scanFrom (state.after token left) left,
          Rewrites next (convert next) := by
        intro next member
        exact rewrites next (List.mem_cons_of_mem token member)
      have agreesRest := inductionHypothesis rewritesRest
      have first := rewrites token List.mem_cons_self
      rw [List.map_cons, List.isChain_cons, ← agreesRest]
      exact agrees_cons reading first rewritesRest

end CssRescale.Token
