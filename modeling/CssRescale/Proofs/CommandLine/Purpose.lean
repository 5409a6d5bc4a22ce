import CssRescale.CommandLine.Session

/-!
Contract: what the runs of a command line are for.

It is said without regard to how a run goes about it: what configures it, what it
converts, where the result goes, which uses of a system serve to read and to write, and
each way in which a run can fail.

Owns:
- what a session and the arguments of a run make: options, rules, input, converted text;
- the ways in which a run fails; there is one of them, or a converted text;
- the session after the converted text has been delivered.

Does not own: the reading of the command line, and the steps of a run.
-/

set_option autoImplicit false

namespace CssRescale

namespace Session

section

variable
  (session : Session)
  (given : Arguments)

/-! ## What a run is for -/

/-- The options before those that are given as arguments: the default ones, or those of
the configuration file. -/
inductive Configures : Options → Prop where
  | defaults (unnamed : given.config = none) : Configures Options.default
  | file {path text : Text} {options : Options}
      (named : given.config = some path)
      (content : session.readAt path = some (Utf8.encode text))
      (read : Options.ofConfig text = .ok options) :
      Configures options

/-- The rules that the options make together with those given as arguments, and the
strictness of the run. -/
inductive Equips : Converter → Prop where
  | rules {options : Options} {rules : Rules}
      (configured : Configures session given options)
      (valid : Rules.ofOptions (given.overrides.apply options) = .ok rules) :
      Equips ⟨rules, given.strict⟩

/-- The bytes of the input: those of the file that is named, or of the standard input if
none or a single hyphen is. -/
inductive Supplies : Bytes → Prop where
  | standard (unnamed : given.input = none ∨ given.input = some ['-']) : Supplies session.input
  | file {path : Text} {content : Bytes}
      (named : given.input = some path)
      (notHyphen : path ≠ ['-'])
      (present : session.readAt path = some content) :
      Supplies content

/-- What a converter makes of what a run is to convert. A value that is given as an
argument is converted whatever the input is said to be, and a line end follows it. -/
inductive Results (converter : Converter) : Except Fault Text → Prop where
  | value {value : Text}
      (named : given.value = some value) :
      Results converter ((converter.convert value).map (· ++ ['\n']))
  | declarations {content : Bytes}
      (noValue : given.value = none)
      (asked : given.declarations = true)
      (supplied : Supplies session given content) :
      Results converter (converter.convertDeclarations (Encoding.decodeSheet content))
  | sheet {content : Bytes}
      (noValue : given.value = none)
      (notAsked : given.declarations = false)
      (supplied : Supplies session given content) :
      Results converter ((converter.convertSheet (Encoding.decodeSheet content)).map Prod.fst)

/-- This is the text that the run converts to. -/
inductive Converts (text : Text) : Prop where
  | converted {converter : Converter}
      (equipped : Equips session given converter)
      (result : Results session given converter (.ok text))

/-- The ways in which there is no converted text. -/
inductive FailsToConvert : RunError → Prop where
  | configMissing {path : Text}
      (named : given.config = some path)
      (missing : session.readAt path = none) :
      FailsToConvert (.file path)
  | configNotText {path : Text} {content : Bytes}
      (named : given.config = some path)
      (present : session.readAt path = some content)
      (notText : ∀ text, content ≠ Utf8.encode text) :
      FailsToConvert (.file path)
  | configMalformed {path text : Text} {error : ConfigError}
      (named : given.config = some path)
      (content : session.readAt path = some (Utf8.encode text))
      (malformed : Options.ofConfig text = .error error) :
      FailsToConvert (.config path error)
  | rules {options : Options} {error : OptionsError}
      (configured : Configures session given options)
      (invalid : Rules.ofOptions (given.overrides.apply options) = .error error) :
      FailsToConvert (.options error)
  | inputMissing {converter : Converter} {path : Text}
      (equipped : Equips session given converter)
      (noValue : given.value = none)
      (named : given.input = some path)
      (notHyphen : path ≠ ['-'])
      (missing : session.readAt path = none) :
      FailsToConvert (.file path)
  | refused {converter : Converter} {fault : Fault}
      (equipped : Equips session given converter)
      (result : Results session given converter (.error fault)) :
      FailsToConvert (.fault fault)

/-- The ways in which a run fails: there is no converted text, or it cannot be written. -/
inductive Fails : RunError → Prop where
  | conversion {error : RunError}
      (fails : FailsToConvert session given error) :
      Fails error
  | output {text path : Text}
      (converted : Converts session given text)
      (named : given.output = some path)
      (unwritable : fileName? path = none) :
      Fails (.file path)

/-- The session after the text has been written to where the arguments say: to the file
that is named, which may be one that was read, or else to the standard output. -/
inductive Delivers (text : Text) (after : Session) : Prop where
  | output
      (unnamed : given.output = none)
      (files : after.files = session.files)
      (output : after.output = session.output ++ text)
  | file {path name : Text}
      (named : given.output = some path)
      (leads : fileName? path = some name)
      (content : after.files name = some (Utf8.encode text))
      (others : ∀ other, other ≠ name → after.files other = session.files other)
      (output : after.output = session.output)

end

/-! ## There is a converted text, or a failure -/

section

variable
  (session : Session)
  (given : Arguments)

theorem configures_or_fails :
    (∃ options, session.Configures given options) ∨ ∃ error, session.FailsToConvert given error := by
  cases named : given.config with
  | none => exact .inl ⟨_, .defaults named⟩
  | some path =>
      cases content : session.readAt path with
      | none => exact .inr ⟨_, .configMissing named content⟩
      | some bytes =>
          by_cases isText : ∃ text, bytes = Utf8.encode text
          · obtain ⟨text, rfl⟩ := isText
            cases read : Options.ofConfig text with
            | error error => exact .inr ⟨_, .configMalformed named content read⟩
            | ok options => exact .inl ⟨_, .file named content read⟩
          · exact .inr ⟨_, .configNotText named content fun text same => isText ⟨text, same⟩⟩

theorem equips_or_fails :
    (∃ converter, session.Equips given converter) ∨
      ∃ error, session.FailsToConvert given error := by
  rcases session.configures_or_fails given with ⟨options, configured⟩ | fails
  · cases made : Rules.ofOptions (given.overrides.apply options) with
    | error error => exact .inr ⟨_, .rules configured made⟩
    | ok rules => exact .inl ⟨_, .rules configured made⟩
  · exact .inr fails

variable {session given}

theorem supplies_or_fails
    {converter : Converter}
    (equipped : session.Equips given converter)
    (noValue : given.value = none) :
    (∃ content, session.Supplies given content) ∨
      ∃ error, session.FailsToConvert given error := by
  cases named : given.input with
  | none => exact .inl ⟨_, .standard (.inl named)⟩
  | some path =>
      by_cases hyphen : path = ['-']
      · exact .inl ⟨_, .standard (.inr (hyphen ▸ named))⟩
      · cases content : session.readAt path with
        | none => exact .inr ⟨_, .inputMissing equipped noValue named hyphen content⟩
        | some bytes => exact .inl ⟨_, .file named hyphen content⟩

theorem results_or_fails
    {converter : Converter}
    (equipped : session.Equips given converter) :
    (∃ result, session.Results given converter result) ∨
      ∃ error, session.FailsToConvert given error := by
  cases named : given.value with
  | some value => exact .inl ⟨_, .value named⟩
  | none =>
      rcases supplies_or_fails equipped named with ⟨content, supplied⟩ | fails
      · cases asked : given.declarations with
        | true => exact .inl ⟨_, .declarations named asked supplied⟩
        | false => exact .inl ⟨_, .sheet named asked supplied⟩
      · exact .inr fails

variable (session given)

theorem converts_or_fails :
    (∃ text, session.Converts given text) ∨ ∃ error, session.FailsToConvert given error := by
  rcases session.equips_or_fails given with ⟨converter, equipped⟩ | fails
  · rcases results_or_fails equipped with ⟨result, results⟩ | fails
    · cases result with
      | error fault => exact .inr ⟨_, .refused equipped results⟩
      | ok text => exact .inl ⟨text, equipped, results⟩
    · exact .inr fails
  · exact .inr fails

end

end Session

end CssRescale
