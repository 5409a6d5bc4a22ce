import CssRescale.Proofs.CommandLine.Atomic
import CssRescale.Proofs.CommandLine.Flags
import CssRescale.Proofs.Rules.Checks

/-!
Contract: the options that hold in a run.

Each option has the value of its flag, or else that of the configuration file, or else the
default. Values are checked when all of them are there, so what a file says of an option
that has a flag does not matter, and a run depends on where its options come from in no
way: it is the run on these options.

Owns:
- the value of each option in a run;
- the run on options, and that it is what a command line does;
- which command lines are refused for their options.
-/

set_option autoImplicit false

namespace CssRescale

/-! ## The run on options -/

namespace CommandLine

variable {m : Type → Type} [Monad m]

/-- The run in which these options hold. -/
def runOn (system : System m) (given : Arguments) (options : Options) :
    ExceptT RunError m Unit := do
  let rules ← ExceptT.mk (pure ((Rules.ofOptions options).mapError .options))
  let text ← convert system given ⟨rules, given.strict⟩
  write system given text

/-- A run reads its options, and those given as arguments are laid over them. -/
theorem run_eq_runOn
    [LawfulMonad m]
    (system : System m)
    (given : Arguments) :
    run system given =
      readOptions system given >>= fun options =>
        runOn system given (given.overrides.apply options) := by
  refine bind_congr fun options => ExceptT.ext ?_
  -- One of the two makes the converter, and the other one the rules that are all of it.
  rw [converterOf, runOn, ExceptT.run_bind, ExceptT.run_bind, ExceptT.run_mk, ExceptT.run_mk]
  cases Rules.ofOptions (given.overrides.apply options) with
  | error error => simp only [Except.mapError, pure_bind]
  | ok rules => simp only [Except.mapError, pure_bind]

end CommandLine

/-- The command lines ask for the same, up to the options that hold. -/
structure Arguments.AsksLike (left right : Arguments) : Prop where
  input : left.input = right.input
  output : left.output = right.output
  value : left.value = right.value
  declarations : left.declarations = right.declarations
  strict : left.strict = right.strict

/-- A run on options depends on what is asked for and on the options. -/
theorem Arguments.AsksLike.runOn_eq
    {m : Type → Type}
    [Monad m]
    {left right : Arguments}
    (alike : left.AsksLike right)
    (system : System m)
    (options : Options) :
    CommandLine.runOn system left options = CommandLine.runOn system right options := by
  obtain ⟨input, output, value, config, overrides, declarations, strict, verbosity⟩ := left
  obtain ⟨rfl, rfl, rfl, rfl, rfl⟩ := alike
  rfl

/-! ## Options by name -/

/-- In a run with these arguments, the option has this value: that of its flag, or else that
of the configuration file, or else the default. -/
inductive OptionName.Holds
    (arguments : List Text)
    (file : Overrides)
    (name : OptionName) :
    name.Value → Prop where
  | flag {text : Text} {value : name.Value}
      (isGiven : name.IsGivenBy text arguments)
      (read : name.read? text = some value) :
      Holds arguments file name value
  | file {value : name.Value}
      (noFlag : ∀ text, ¬name.IsGivenBy text arguments)
      (inFile : file.value? name = some value) :
      Holds arguments file name value
  | default
      (noFlag : ∀ text, ¬name.IsGivenBy text arguments)
      (notInFile : file.value? name = none) :
      Holds arguments file name (Options.default.value name)

/-- Exactly the values hold that arguments laid over the file, and that over the defaults,
have. -/
theorem OptionName.holds_iff
    {arguments : List Text}
    {given : Arguments}
    (accepted : Arguments.read arguments = .ok given)
    (file : Overrides)
    (name : OptionName)
    (value : name.Value) :
    name.Holds arguments file value ↔
      value = (given.overrides.apply (file.apply Options.default)).value name := by
  obtain ⟨ofFlag, ofNone⟩ := Arguments.value?_read accepted name
  rw [Overrides.value_apply, Overrides.value_apply]
  constructor
  · rintro (⟨isGiven, read⟩ | ⟨noFlag, inFile⟩ | ⟨noFlag, notInFile⟩)
    · obtain ⟨same, readToo, isValue⟩ := ofFlag _ isGiven
      rw [isValue, Option.getD_some]
      exact Option.some.inj (read.symm.trans readToo)
    · rw [ofNone noFlag, inFile, Option.getD_none, Option.getD_some]
    · rw [ofNone noFlag, notInFile, Option.getD_none, Option.getD_none]
  · rintro rfl
    by_cases isGiven : ∃ text, name.IsGivenBy text arguments
    · obtain ⟨text, isGiven⟩ := isGiven
      obtain ⟨value, read, isValue⟩ := ofFlag text isGiven
      rw [isValue]
      exact .flag isGiven read
    · have noFlag := not_exists.mp isGiven
      rw [ofNone noFlag, Option.getD_none]
      cases inFile : file.value? name with
      | some value => exact .file noFlag inFile
      | none => exact .default noFlag inFile

/-- What a file gives for an option that has a flag does not matter. -/
theorem OptionName.Holds.of_file
    {arguments : List Text}
    {file other : Overrides}
    {name : OptionName}
    {value : name.Value}
    (holds : name.Holds arguments file value)
    (same : (∀ text, ¬name.IsGivenBy text arguments) → other.value? name = file.value? name) :
    name.Holds arguments other value := by
  cases holds with
  | flag isGiven read => exact .flag isGiven read
  | file noFlag inFile => exact .file noFlag ((same noFlag).trans inFile)
  | default noFlag notInFile => exact .default noFlag ((same noFlag).trans notInFile)

namespace Session

/-- What the configuration file that is named gives; if none is named, nothing is given. -/
inductive ConfigGives (session : Session) (given : Arguments) : Overrides → Prop where
  | nothing (unnamed : given.config = none) : ConfigGives session given Overrides.empty
  | file {path text : Text} {file : Overrides}
      (named : given.config = some path)
      (content : session.readAt path = some (Utf8.encode text))
      (read : Overrides.ofConfig text = .ok file) :
      ConfigGives session given file

/-- How a run in which these options hold ends in a session, and the session after it. -/
def runOn (given : Arguments) (options : Options) (session : Session) : Outcome × Session :=
  let (result, after) := (CommandLine.runOn system given options).run.run session
  (outcomeOf result, after)

/-- What the command line does is the run in which these options hold. -/
structure IsRunOn
    (session : Session)
    (arguments : List Text)
    (given : Arguments)
    (options : Options) :
    Prop where
  runs : session.execute arguments = session.runOn given options
  /-- It is refused for the options with the error of the first one whose value is. -/
  refuses : ∀ error, (session.execute arguments).1 = .failure (.options error) ↔
    options.refusal? = some error
  /-- That is the error for which the options make no rules. -/
  invalid : ∀ error, options.refusal? = some error ↔ Rules.ofOptions options = .error error
  /-- It is not refused if each option has a value that is allowed, and the rules are these
  options. -/
  accepts : (∀ error, (session.execute arguments).1 ≠ .failure (.options error)) ↔
    ∀ name : OptionName, name.Allows (options.value name)
  valid : ∀ rules, Rules.ofOptions options = .ok rules →
    rules.toOptions = options ∧ ∀ name : OptionName, name.Allows (options.value name)
  /-- Command lines that ask for the same, and in which the same values hold, do the same,
  with a configuration file or without one. -/
  same : ∀ others other file, Arguments.read others = .ok other → other.AsksLike given →
    session.ConfigGives other file →
    (∀ name : OptionName, name.Holds others file (options.value name)) →
    session.execute others = session.execute arguments

section

variable
  {session : Session}
  {arguments : List Text}
  {given : Arguments}

theorem ConfigGives.configures
    {file : Overrides}
    (gives : session.ConfigGives given file) :
    session.Configures given (file.apply Options.default) := by
  cases gives with
  | nothing unnamed => exact Overrides.apply_empty _ ▸ .defaults unnamed
  | file named content read => exact .file named content (by rw [Options.ofConfig, read]; rfl)

theorem Configures.unique
    {options others : Options}
    (configured : session.Configures given options)
    (configuredToo : session.Configures given others) :
    options = others :=
  Except.ok.inj ((CommandLine.readsTo_readOptions configured).unique
    (CommandLine.readsTo_readOptions configuredToo))

theorem run_readOptions
    {options : Options}
    (configured : session.Configures given options) :
    (CommandLine.readOptions system given).run.run session = (.ok options, session) := by
  cases configured with
  | defaults unnamed =>
      rw [CommandLine.readOptions, unnamed]
      rfl
  | @file path text _ named content read =>
      rw [CommandLine.readOptions, named]
      show (CommandLine.configOptions path (session.readAt path), session) = _
      rw [content, CommandLine.configOptions_encode, read]
      rfl

section

variable
  {options : Options}
  (accepted : Arguments.read arguments = .ok given)
  (configured : session.Configures given options)

include accepted configured

theorem execute_eq_runOn :
    session.execute arguments = session.runOn given (given.overrides.apply options) := by
  have evaluated : (CommandLine.run system given).run.run session =
      (CommandLine.runOn system given (given.overrides.apply options)).run.run session := by
    rw [CommandLine.run_eq_runOn, ExceptT.run_bind, StateT.run_bind, run_readOptions configured]
    rfl
  rw [execute, CommandLine.execute, accepted, StateT.run_bind, evaluated, runOn]
  rcases (CommandLine.runOn system given (given.overrides.apply options)).run.run session with
    ⟨_ | _, after⟩
  · rfl
  · rfl

/-- A command line is refused for its options if these make no rules. -/
theorem execute_eq_failure_options_iff (error : OptionsError) :
    (session.execute arguments).1 = .failure (.options error) ↔
      Rules.ofOptions (given.overrides.apply options) = .error error := by
  have atomic : session.IsAtomic given (session.execute arguments).1
      (session.execute arguments).2 (session.accesses arguments) := by
    rcases session.converts_or_fails given with ⟨text, converts⟩ | ⟨error, fails⟩
    · exact isAtomic_execute_of_converts accepted converts
    · exact isAtomic_execute_of_failsToConvert accepted fails
  rw [atomic.fails]
  constructor
  · intro fails
    cases fails with
    | conversion fails =>
        cases fails with
        | rules configuredToo invalid => rwa [configured.unique configuredToo]
  · exact fun invalid => .conversion (.rules configured invalid)

end

theorem holds_each_iff
    (accepted : Arguments.read arguments = .ok given)
    (file : Overrides)
    (options : Options) :
    (∀ name : OptionName, name.Holds arguments file (options.value name)) ↔
      options = given.overrides.apply (file.apply Options.default) := by
  simp only [OptionName.holds_iff accepted]
  exact ⟨Options.ext_value, fun same name => same ▸ rfl⟩

theorem isRunOn_of_gives
    {file : Overrides}
    (accepted : Arguments.read arguments = .ok given)
    (gives : session.ConfigGives given file) :
    session.IsRunOn arguments given (given.overrides.apply (file.apply Options.default)) := by
  have refuses := execute_eq_failure_options_iff accepted gives.configures
  have invalid := Rules.ofOptions_eq_error_iff (given.overrides.apply (file.apply Options.default))
  exact {
    runs := execute_eq_runOn accepted gives.configures
    refuses := fun error => (refuses error).trans (invalid error)
    invalid := fun error => (invalid error).symm
    accepts := by
      rw [← Options.refusal?_eq_none_iff, Option.eq_none_iff_forall_ne_some]
      exact forall_congr' fun error => not_congr ((refuses error).trans (invalid error))
    valid := by
      intro rules made
      obtain ⟨nothing, same⟩ := (Rules.ofOptions_eq_ok_iff _ rules).mp made
      exact ⟨same, (Options.refusal?_eq_none_iff _).mp nothing⟩
    same := by
      intro others other otherFile acceptedToo alike givesToo holds
      rw [execute_eq_runOn acceptedToo givesToo.configures,
        execute_eq_runOn accepted gives.configures, runOn, runOn, alike.runOn_eq,
        ← (holds_each_iff acceptedToo otherFile _).mp holds] }

/-- In every run, each option has the value of its flag, or else that of the configuration
file, or else the default, and the run is the run on these options. So it is refused for
the first value that is not allowed as they hold; it makes no difference whether a value is
given by a flag or by a file, nor what a file gives for an option that has a flag. -/
theorem isRunOn_holding
    {file : Overrides}
    (accepted : Arguments.read arguments = .ok given)
    (gives : session.ConfigGives given file) :
    ∃ options : Options,
      (∀ others : Options, (∀ name : OptionName, name.Holds arguments file (others.value name)) ↔
        others = options) ∧
      session.IsRunOn arguments given options ∧
      ∀ elsewhere : Session, ∀ other, elsewhere.ConfigGives given other →
        (∀ name : OptionName, (∀ text, ¬name.IsGivenBy text arguments) →
          other.value? name = file.value? name) →
        elsewhere.IsRunOn arguments given options := by
  refine ⟨_, holds_each_iff accepted file, isRunOn_of_gives accepted gives, ?_⟩
  intro elsewhere other givesToo same
  have holds := (holds_each_iff accepted file _).mpr rfl
  rw [(holds_each_iff accepted other _).mp fun name => (holds name).of_file (same name)]
  exact isRunOn_of_gives accepted givesToo

end

/-- A flag in place of a value that would be refused, beside a value of the file that holds. -/
theorem isRunOn_holding_overridden :
    ∃ arguments given, ∃ session : Session, ∃ file : Overrides,
      Arguments.read arguments = .ok given ∧
      session.ConfigGives given file ∧
      (file.apply Options.default).refusal? =
        some (.notPositive .baseSize (Binary64.ofNat 0)) ∧
      (session.execute arguments).1 = .success ∧
      (session.execute arguments).2.output = "1.5vw\n".toList ∧
      ∃ options : Options,
        (∀ others : Options,
          (∀ name : OptionName, name.Holds arguments file (others.value name)) ↔
            others = options) ∧
        session.IsRunOn arguments given options ∧
        ∀ elsewhere : Session, ∀ other, elsewhere.ConfigGives given other →
          (∀ name : OptionName, (∀ text, ¬name.IsGivenBy text arguments) →
            other.value? name = file.value? name) →
          elsewhere.IsRunOn arguments given options := by
  have gives : ConfigGives
      ⟨filesOf [(['f'], Utf8.encode "\x7b\x22baseSize\x22:0,\x22riUnit\x22:\x22vw\x22\x7d".toList)],
        [], []⟩
      ⟨none, none, some "48px".toList, some ['f'],
        Overrides.empty.give (.size .baseSize) (Binary64.ofNat 32), false, false, 0⟩
      ⟨some (Binary64.ofNat 0), some ['v', 'w'], none, none, none, none, none⟩ := by
    refine .file rfl rfl ?read
    case read => decide +kernel
  refine ⟨["--value", "48px", "-c", "f", "--base-size=32"].map String.toList, _, _, _,
    ?accepted, gives, ?refused, ?success, ?written, isRunOn_holding ?accepted gives⟩
  case accepted => decide +kernel
  case refused => decide +kernel
  case success => decide +kernel
  case written => decide +kernel

end Session

end CssRescale
