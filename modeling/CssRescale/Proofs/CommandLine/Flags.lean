import CssRescale.CommandLine.Help
import CssRescale.Proofs.Rules.Values
import CssRescale.Proofs.Text.Runs

/-!
Contract: the options that a command line gives.

An option is given by its flag, with its value behind an equals sign or in the next
argument. Arguments that are values of other settings do not look like flags, and nothing
behind two hyphens is a flag, so in a command line that is accepted every argument that
looks like a flag is one. No flag is given twice.

Owns:
- the flags of options, the values that texts give for them, and the arguments by which an
  option is given;
- what reading a command line makes of the flags, one law for each way to read an argument;
- that the help describes the options that are read.

Does not own: the other arguments of a command line.
-/

set_option autoImplicit false

namespace CssRescale

namespace OptionName

/-- The name of the option's flag. -/
def flagName : OptionName → Text
  | .size .baseSize => "base-size".toList
  | .size .minSize => "min-size".toList
  | .size .minUnitSize => "min-unit-size".toList
  | .unit .riUnit => "ri-unit".toList
  | .unit .unit => "unit".toList
  | .unit .absoluteUnit => "absolute-unit".toList
  | .precision => "precision".toList

/-- The argument that is the option's flag. -/
def flag (name : OptionName) : Text := '-' :: '-' :: name.flagName

/-- The value that a text gives for the option. -/
def read? : (name : OptionName) → Text → Option name.Value
  | .size _, text => Decimal.read? text
  | .unit _, text => some text
  | .precision, text => readInteger? text

/-- The arguments give this text for the option. Behind two hyphens there are no flags. -/
inductive IsGivenBy (name : OptionName) (text : Text) : List Text → Prop where
  | attached (rest : List Text) : IsGivenBy name text ((name.flag ++ '=' :: text) :: rest)
  | separate (rest : List Text) : IsGivenBy name text (name.flag :: text :: rest)
  | later {argument : Text} {rest : List Text}
      (goesOn : argument ≠ ['-', '-'])
      (given : IsGivenBy name text rest) :
      IsGivenBy name text (argument :: rest)

/-- Where the value of a setting is expected, the next argument gives it. -/
def IsGivenWhere
    (name : OptionName)
    (text : Text)
    (expected : Option Setting)
    (arguments : List Text) :
    Prop :=
  (expected = some (.option name) ∧ ∃ rest, arguments = text :: rest) ∨
    name.IsGivenBy text arguments

section

variable
  {name : OptionName}
  {text : Text}

theorem flagName_ne_nil (name : OptionName) : name.flagName ≠ [] := by
  rcases name with (_ | _ | _) | (_ | _ | _) | _ <;> decide

theorem equals_not_mem_flagName (name : OptionName) : '=' ∉ name.flagName := by
  rcases name with (_ | _ | _) | (_ | _ | _) | _ <;> decide

theorem not_isGivenBy_nil : ¬name.IsGivenBy text [] := nofun

theorem flag_append_ne (name : OptionName) (text : Text) : name.flag ++ text ≠ ['-', '-'] := by
  intro same
  simp only [flag, List.cons_append, List.cons.injEq, true_and, List.append_eq_nil_iff] at same
  exact name.flagName_ne_nil same.1

theorem not_isGivenBy_end (rest : List Text) : ¬name.IsGivenBy text (['-', '-'] :: rest) := by
  generalize start : ['-', '-'] :: rest = arguments
  rintro (rest | rest | ⟨goesOn, -⟩)
  · exact name.flag_append_ne _ (List.cons.inj start).1.symm
  · exact name.flag_append_ne [] (by rw [List.append_nil, (List.cons.inj start).1])
  · exact goesOn (List.cons.inj start).1.symm

theorem not_isGivenWhere_nil : ¬name.IsGivenWhere text none [] :=
  fun given => given.elim (nofun ∘ And.left) not_isGivenBy_nil

/-- Where nothing is expected, the first argument gives the text, or it is a flag and the
text is expected behind it, or those behind it give the text. -/
theorem isGivenBy_cons_iff
    {argument : Text}
    {rest : List Text}
    (goesOn : argument ≠ ['-', '-']) :
    name.IsGivenBy text (argument :: rest) ↔
      argument = name.flag ++ '=' :: text ∨
        (argument = name.flag ∧ ∃ others, rest = text :: others) ∨ name.IsGivenBy text rest := by
  constructor
  · rintro (rest | rest | ⟨-, given⟩)
    · exact .inl rfl
    · exact .inr (.inl ⟨rfl, rest, rfl⟩)
    · exact .inr (.inr given)
  · rintro (rfl | ⟨rfl, others, rfl⟩ | given)
    · exact .attached rest
    · exact .separate others
    · exact .later goesOn given

/-- An argument that does not look like a flag gives nothing by itself. -/
theorem isGivenBy_cons_iff_of_noFlag
    {argument : Text}
    {rest : List Text}
    (noFlag : ∀ others, argument ≠ '-' :: '-' :: others) :
    name.IsGivenBy text (argument :: rest) ↔ name.IsGivenBy text rest := by
  rw [isGivenBy_cons_iff (noFlag [])]
  constructor
  · rintro (attached | ⟨separate, -⟩ | given)
    · exact absurd attached (noFlag _)
    · exact absurd separate (noFlag _)
    · exact given
  · exact fun given => .inr (.inr given)

end

/-! ## Names of flags -/

theorem longNames_option :
    ∀ entry ∈ OptionKey.longNames, ∀ name ∈ all,
      entry.2 = .setting (.option name) → entry.1.toList = name.flagName := by
  decide

/-- The name of an option's flag stands for the option, and no other one does. -/
theorem ofLong?_eq_option_iff (written : Text) (name : OptionName) :
    OptionKey.ofLong? written = some (.setting (.option name)) ↔ written = name.flagName := by
  constructor
  · intro found
    obtain ⟨entry, isEntry, key⟩ := Option.map_eq_some_iff.mp found
    have named := List.find?_some isEntry
    rw [beq_iff_eq] at named
    rw [← named]
    exact longNames_option entry (List.mem_of_find?_eq_some isEntry) name name.mem_all key
  · rintro rfl
    rcases name with (_ | _ | _) | (_ | _ | _) | _ <;> decide

end OptionName

/-! ## The help -/

namespace OptionKey

/-- Every option is in the help. -/
theorem mem_all (key : OptionKey) : key ∈ all := by
  rcases key with (_ | _ | _ | _ | _) | (_ | _ | _ | (_ | _ | _) | (_ | _ | _) | _) <;> decide

/-- The long name that the help has for an option is read as this option. -/
theorem ofLong?_help (key : OptionKey) : ofLong? key.help.long.toList = some key := by
  rcases key with (_ | _ | _ | _ | _) | (_ | _ | _ | (_ | _ | _) | (_ | _ | _) | _) <;> decide

/-- So is the short name, if it has one. -/
theorem ofShort?_help {key : OptionKey} {name : Char} (short : key.help.short = some name) :
    ofShort? name = some key := by
  rcases key with (_ | _ | _ | _ | _) | (_ | _ | _ | (_ | _ | _) | (_ | _ | _) | _) <;>
    cases short <;> rfl

/-- The help names a value for all options but switches. -/
theorem value_help (key : OptionKey) :
    key.help.value = none ↔ ∃ switch, key = .switch switch := by
  rcases key with switch | setting
  · refine ⟨fun _ => ⟨switch, rfl⟩, fun _ => ?_⟩
    cases switch <;> rfl
  · refine ⟨fun none => ?_, nofun⟩
    rcases setting with _ | _ | _ | (_ | _ | _) | (_ | _ | _) | _ <;> cases none

end OptionKey

namespace Arguments

/-! ## Reading one argument -/

theorem except_bind_eq_ok
    {ε α β : Type}
    {first : Except ε α}
    {next : α → Except ε β}
    {result : β}
    (done : first >>= next = .ok result) :
    ∃ between, first = .ok between ∧ next between = .ok result := by
  cases first with
  | error error => cases done
  | ok between => exact ⟨between, rfl, done⟩

section

variable
  {given after : Arguments}
  {expected : Option Setting}
  {written : Text}

/-- An option is given a value that its text stands for, if it has none. -/
theorem giveOption_eq_ok
    {name : OptionName}
    (gave : given.giveOption name written = .ok after) :
    given.overrides.value? name = none ∧
      ∃ value, name.read? written = some value ∧
        after = { given with overrides := given.overrides.give name value } := by
  unfold giveOption at gave
  split at gave
  case isTrue => cases gave
  case isFalse notGiven =>
    rw [Overrides.gives_eq, Bool.not_eq_true, Option.isSome_eq_false_iff,
      Option.isNone_iff_eq_none] at notGiven
    refine ⟨notGiven, ?_⟩
    rcases name with option | option | _
    · dsimp only at gave
      split at gave
      case h_1 size read => exact ⟨size, read, (Except.ok.inj gave).symm⟩
      case h_2 => cases gave
    · exact ⟨written, rfl, (Except.ok.inj gave).symm⟩
    · dsimp only at gave
      split at gave
      case h_1 digits read => exact ⟨digits, read, (Except.ok.inj gave).symm⟩
      case h_2 => cases gave

/-- The option has the value that it had before, or else one that a text of these stands
for, and each of the texts stands for one. -/
structure TakesFrom
    (name : OptionName)
    (texts : Text → Prop)
    (given after : Arguments) :
    Prop where
  value : ∀ value, after.overrides.value? name = some value ↔
    given.overrides.value? name = some value ∨
      ∃ text, texts text ∧ name.read? text = some value
  reads : ∀ text, texts text → (name.read? text).isSome = true

theorem TakesFrom.of_same
    {name : OptionName}
    {texts : Text → Prop}
    (same : after.overrides.value? name = given.overrides.value? name)
    (none : ∀ text, ¬texts text) :
    TakesFrom name texts given after where
  value value := by
    rw [same]
    exact ⟨.inl, fun either => either.elim id fun ⟨text, isOne, _⟩ => absurd isOne (none text)⟩
  reads text isOne := absurd isOne (none text)

theorem TakesFrom.congr
    {name : OptionName}
    {texts others : Text → Prop}
    (takes : TakesFrom name texts given after)
    (same : ∀ text, others text ↔ texts text) :
    TakesFrom name others given after := by
  obtain rfl : others = texts := funext fun text => propext (same text)
  exact takes

theorem TakesFrom.trans
    {name : OptionName}
    {between : Arguments}
    {texts others : Text → Prop}
    (first : TakesFrom name texts given between)
    (second : TakesFrom name others between after) :
    TakesFrom name (fun text => texts text ∨ others text) given after where
  value value := by
    rw [second.value, first.value]
    simp only [or_and_right, exists_or, or_assoc]
  reads text isOne := isOne.elim (first.reads text) (second.reads text)

theorem overrides_of_unless
    {already : Bool}
    {changed : Arguments}
    (done : (if already then .error .usage else .ok changed : Except Refusal Arguments) = .ok after)
    (same : changed.overrides = given.overrides) :
    after.overrides = given.overrides := by
  split at done
  · cases done
  · rw [← Except.ok.inj done, same]

theorem overrides_of_giveInput (gave : given.giveInput written = .ok after) :
    after.overrides = given.overrides :=
  overrides_of_unless gave rfl

theorem overrides_of_turnOn
    {switch : Switch}
    (turned : given.turnOn switch = .ok after) :
    after.overrides = given.overrides := by
  cases switch with
  | declarations => exact overrides_of_unless turned rfl
  | strict => exact overrides_of_unless turned rfl
  | verbose => exact Except.ok.inj turned ▸ rfl
  | version => cases turned
  | help => cases turned

theorem overrides_of_give
    {setting : Setting}
    (gave : given.give setting written = .ok after)
    (noOption : ∀ name, setting ≠ .option name) :
    after.overrides = given.overrides := by
  cases setting with
  | output => exact overrides_of_unless gave rfl
  | value => exact overrides_of_unless gave rfl
  | config => exact overrides_of_unless gave rfl
  | option name => exact absurd rfl (noOption name)

theorem takesFrom_give
    {setting : Setting}
    (gave : given.give setting written = .ok after)
    (name : OptionName) :
    TakesFrom name (fun text => setting = .option name ∧ text = written) given after := by
  by_cases same : setting = .option name
  · subst same
    obtain ⟨notGiven, value, read, rfl⟩ := giveOption_eq_ok gave
    refine ⟨fun found => ?_, ?_⟩
    · rw [Overrides.value?_give_self, notGiven, ← read]
      simp
    · rintro text ⟨-, rfl⟩
      rw [read]
      rfl
  · refine .of_same ?_ fun text isOne => same isOne.1
    cases setting with
    | option other =>
        obtain ⟨-, value, -, rfl⟩ := giveOption_eq_ok gave
        refine Overrides.value?_give_of_ne (fun isOther => same ?_) _ _
        rw [isOther]
    | output => rw [overrides_of_give gave nofun]
    | value => rw [overrides_of_give gave nofun]
    | config => rw [overrides_of_give gave nofun]

/-- Short options are no conversion options. -/
theorem ofShort?_ne_option (letter : Char) (name : OptionName) :
    OptionKey.ofShort? letter ≠ some (.setting (.option name)) := by
  unfold OptionKey.ofShort?
  repeat' split
  all_goals nofun

theorem overrides_of_readShort
    {expected : Option Setting}
    (read : readShort written given = .ok (after, expected)) :
    after.overrides = given.overrides ∧ ∀ name, expected ≠ some (.option name) := by
  induction written generalizing given with
  | nil =>
      cases read
      exact ⟨rfl, nofun⟩
  | cons letter rest inductionHypothesis =>
      rw [readShort] at read
      have noOption := ofShort?_ne_option letter
      split at read
      case h_1 => cases read
      case h_2 switch _ =>
        obtain ⟨between, turned, readRest⟩ := except_bind_eq_ok read
        obtain ⟨same, none⟩ := inductionHypothesis readRest
        exact ⟨same.trans (overrides_of_turnOn turned), none⟩
      case h_3 setting isSetting =>
        rw [isSetting] at noOption
        split at read
        case isTrue =>
          cases read
          exact ⟨rfl, fun name isOption => noOption name (by rw [Option.some.inj isOption])⟩
        case isFalse =>
          obtain ⟨between, gave, done⟩ := except_bind_eq_ok read
          cases done
          exact ⟨overrides_of_give gave fun name isOption => noOption name (by rw [isOption]),
            nofun⟩

/-- A text is split at the first equals sign; the name of a flag has none. -/
theorem split_at_equals
    (text : Text)
    (name : OptionName)
    (rest : Text)
    (ends : Text.headIs (· != '=') rest = false) :
    text = name.flagName ++ rest ↔
      text.takeWhile (· != '=') = name.flagName ∧ text.dropWhile (· != '=') = rest := by
  constructor
  · rintro rfl
    refine Text.takeWhile_run (fun c member => ?_) ends
    rw [bne_iff_ne]
    rintro rfl
    exact name.equals_not_mem_flagName member
  · rintro ⟨taken, left⟩
    rw [← taken, ← left, List.takeWhile_append_dropWhile]

theorem takesFrom_readLong
    {expected : Option Setting}
    (read : readLong written given = .ok (after, expected))
    (name : OptionName) :
    TakesFrom name (fun text => written = name.flagName ++ '=' :: text) given after ∧
      (expected = some (.option name) ↔ written = name.flagName) := by
  have attached := fun text => split_at_equals written name ('=' :: text) rfl
  have separate := split_at_equals written name [] rfl
  rw [List.append_nil] at separate
  have isOption := OptionName.ofLong?_eq_option_iff (written.takeWhile (· != '=')) name
  have unattached := Text.headIs_dropWhile (· != '=') written
  simp only [attached, separate, ← isOption]
  rw [readLong] at read
  split at read
  case h_1 => cases read
  case h_2 => cases read
  case h_3 switch isSwitch ends =>
    obtain ⟨between, turned, done⟩ := except_bind_eq_ok read
    cases done
    rw [isSwitch, ends]
    refine ⟨.of_same (by rw [overrides_of_turnOn turned]) fun text isOne => ?_, ?_⟩
    · cases isOne.2
    · simp
  case h_4 setting isSetting ends =>
    cases read
    rw [isSetting, ends]
    refine ⟨.of_same rfl fun text isOne => ?_, ?_⟩
    · cases isOne.2
    · simp
  case h_5 setting mark value isSetting begins =>
    obtain ⟨between, gave, done⟩ := except_bind_eq_ok read
    cases done
    rw [begins] at unattached
    have isEquals : mark = '=' := by simpa [Text.headIs] using unattached
    rw [isSetting, begins, isEquals]
    refine ⟨(takesFrom_give gave name).congr fun text => ?_, ?_⟩
    · simp [eq_comm]
    · simp

/-- An argument where no value is expected gives what is attached to its flag; behind a flag
with nothing attached a value is expected. -/
theorem takesFrom_readOne
    {argument : Text}
    {expected : Option Setting}
    (read : given.readOne argument = .ok (after, expected))
    (name : OptionName) :
    TakesFrom name (fun text => argument = name.flag ++ '=' :: text) given after ∧
      (expected = some (.option name) ↔ argument = name.flag) := by
  have noFlag : (∀ others, argument ≠ '-' :: '-' :: others) →
      after.overrides = given.overrides → expected ≠ some (.option name) →
      TakesFrom name (fun text => argument = name.flag ++ '=' :: text) given after ∧
        (expected = some (.option name) ↔ argument = name.flag) := by
    intro unlike same none
    exact ⟨.of_same (by rw [same]) fun _ attached => unlike _ attached,
      iff_of_false none (unlike _)⟩
  unfold readOne at read
  split at read
  case h_1 long =>
    simpa [OptionName.flag] using takesFrom_readLong read name
  case h_2 first rest notLong =>
    obtain ⟨same, none⟩ := overrides_of_readShort read
    refine noFlag (fun others like => ?_) same (none name)
    exact notLong (List.cons.inj (List.cons.inj like).2).1
  case h_3 notLong notShort =>
    obtain ⟨between, gave, done⟩ := except_bind_eq_ok read
    cases done
    exact noFlag notLong (overrides_of_giveInput gave) nofun

theorem overrides_of_readInputs
    {arguments : List Text}
    (read : readInputs arguments given = .ok after) :
    after.overrides = given.overrides := by
  induction arguments generalizing given with
  | nil => exact Except.ok.inj read ▸ rfl
  | cons argument rest inductionHypothesis =>
      obtain ⟨between, gave, readRest⟩ := except_bind_eq_ok read
      rw [inductionHypothesis readRest, overrides_of_giveInput gave]

/-- A value does not look like a flag. -/
theorem ne_flag_of_mayBeValue
    {setting : Setting}
    {argument : Text}
    (isValue : mayBeValue setting argument = true)
    (others : Text) :
    argument ≠ '-' :: '-' :: others := by
  rintro rfl
  simp [mayBeValue, isUnsignedNumber, Text.takeDigits] at isValue

/-- What is read from arguments is what they give, in whatever state the reading is. -/
theorem takesFrom_readFrom
    {expected : Option Setting}
    {arguments : List Text}
    (read : readFrom expected arguments given = .ok after)
    (name : OptionName) :
    TakesFrom name (fun text => name.IsGivenWhere text expected arguments) given after := by
  -- Whether a value is expected changes from argument to argument.
  induction arguments generalizing expected given with
  | nil =>
      cases expected with
      | some setting => cases read
      | none =>
          cases read
          exact .of_same rfl fun text => OptionName.not_isGivenWhere_nil
  | cons argument rest inductionHypothesis =>
      cases expected with
      | some setting =>
          rw [readFrom] at read
          split at read
          case isFalse => cases read
          case isTrue isValue =>
            obtain ⟨between, gave, readRest⟩ := except_bind_eq_ok read
            refine ((takesFrom_give gave name).trans (inductionHypothesis readRest)).congr ?_
            intro text
            simp only [OptionName.IsGivenWhere,
              OptionName.isGivenBy_cons_iff_of_noFlag (ne_flag_of_mayBeValue isValue)]
            simp [eq_comm]
      | none =>
          rw [readFrom] at read
          split at read
          case isTrue isEnd =>
            rw [beq_iff_eq] at isEnd
            subst isEnd
            refine .of_same (by rw [overrides_of_readInputs read]) fun text given => ?_
            exact given.elim (nofun ∘ And.left) (OptionName.not_isGivenBy_end rest)
          case isFalse goesOn =>
            obtain ⟨⟨between, next⟩, readOne, readRest⟩ := except_bind_eq_ok read
            obtain ⟨attached, separate⟩ := takesFrom_readOne readOne name
            refine (attached.trans (inductionHypothesis readRest)).congr fun text => ?_
            simp only [OptionName.IsGivenWhere, separate,
              OptionName.isGivenBy_cons_iff (mt beq_iff_eq.mpr goesOn)]
            simp

/-- In a command line that is accepted, an option has the value that the arguments give for
it, and none if they give none. -/
theorem value?_read
    {arguments : List Text}
    (accepted : Arguments.read arguments = .ok given)
    (name : OptionName) :
    (∀ text, name.IsGivenBy text arguments →
      ∃ value, name.read? text = some value ∧ given.overrides.value? name = some value) ∧
    ((∀ text, ¬name.IsGivenBy text arguments) → given.overrides.value? name = none) := by
  obtain ⟨between, read, checked⟩ := except_bind_eq_ok accepted
  have same : between = given := by
    split at checked
    · cases checked
    · exact Except.ok.inj checked
  subst same
  have takes : TakesFrom name (name.IsGivenBy · arguments) empty between :=
    (takesFrom_readFrom read name).congr (by simp [OptionName.IsGivenWhere])
  constructor
  · intro text isGiven
    obtain ⟨value, reads⟩ := Option.isSome_iff_exists.mp (takes.reads text isGiven)
    exact ⟨value, reads, (takes.value value).mpr (.inr ⟨text, isGiven, reads⟩)⟩
  · intro noText
    rw [Option.eq_none_iff_forall_ne_some]
    intro value isValue
    rcases (takes.value value).mp isValue with before | ⟨text, isGiven, -⟩
    · exact absurd (before.symm.trans (Overrides.value?_empty name)) nofun
    · exact noText text isGiven

end

end Arguments

end CssRescale
