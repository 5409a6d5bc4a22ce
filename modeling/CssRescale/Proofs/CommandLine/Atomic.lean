import Mathlib.Control.Monad.Basic
import CssRescale.Proofs.CommandLine.Stages

/-!
Contract: a run writes its whole result or nothing.

The first stage of a run comes to the converted text or to a failure and only reads. So
nothing is written unless there is a converted text, and then it is the only thing that
is written, even where the output is a file that has been read.

Owns: what a run does to a session, and the uses it makes of it, in order.
-/

set_option autoImplicit false

namespace CssRescale

namespace Session

/-! ## What a run does to a session -/

/-- A run that ended like this, leaving `after`, with these uses of the session, wrote the
whole result or nothing. -/
structure IsAtomic
    (session : Session)
    (given : Arguments)
    (outcome : Outcome)
    (after : Session)
    (accesses : List Access) :
    Prop where
  /-- It succeeded or failed. -/
  ends : outcome = .success ∨ ∃ error, outcome = .failure error
  /-- It failed exactly for the reasons there are. -/
  fails : ∀ error, outcome = .failure error ↔ session.Fails given error
  /-- If it failed, it has written nothing. -/
  unchanged : ∀ error, outcome = .failure error →
    after.files = session.files ∧ after.output = session.output
  /-- If it succeeded, there is one converted text, and all that it has written is this text,
  in its place. -/
  delivers : outcome = .success → ∃ text, session.Delivers given text after ∧
    ∀ other, session.Converts given other ↔ other = text
  /-- It read first, and then wrote at most once, and only the converted text. -/
  order : ∃ reads writes, accesses = reads ++ writes ∧
    (∀ access ∈ reads, given.Reads access) ∧
    (writes = [] ∨ ∃ text, session.Converts given text ∧ writes = [given.writing text])
  /-- If a value was given, it has read neither the standard input nor any file but the
  configuration. -/
  value : ∀ value, given.value = some value →
    .readInput ∉ accesses ∧ ∀ path, .readFile path ∈ accesses → given.config = some path

section

variable
  {session after : Session}
  {given : Arguments}

theorem Converts.unique
    {text other : Text}
    (converts : session.Converts given text)
    (convertsToo : session.Converts given other) :
    text = other :=
  Except.ok.inj ((CommandLine.readsTo_produce converts).unique
    (CommandLine.readsTo_produce convertsToo))

/-- A run has a converted text or fails to have one, not both, and fails in one way only. -/
theorem FailsToConvert.unique
    {error : RunError}
    (fails : session.FailsToConvert given error) :
    (∀ text, ¬session.Converts given text) ∧
      ∀ other, session.FailsToConvert given other → other = error := by
  have stage := CommandLine.readsTo_produce_error fails
  constructor
  · intro text converts
    exact absurd (stage.unique (CommandLine.readsTo_produce converts)) nofun
  · intro other failsToo
    exact Except.error.inj ((CommandLine.readsTo_produce_error failsToo).unique stage)

/-- What reads in these ways and writes no more than that, reads with a value only the
configuration. -/
theorem readsConfig_of_order
    {accesses reads writes : List Access}
    {value : Text}
    (parts : accesses = reads ++ writes)
    (areReads : ∀ access ∈ reads, given.Reads access)
    (areWrites : ∀ access ∈ writes, ∃ text, access = given.writing text)
    (named : given.value = some value) :
    .readInput ∉ accesses ∧ ∀ path, .readFile path ∈ accesses → given.config = some path := by
  have noWrite : ∀ {access : Access}, (∀ text, access ≠ given.writing text) →
      access ∈ accesses → given.Reads access := by
    intro access noWriting member
    rcases List.mem_append.mp (parts ▸ member) with reading | writing
    · exact areReads access reading
    · obtain ⟨text, same⟩ := areWrites access writing
      exact absurd same (noWriting text)
  refine ⟨fun member => ?_, fun path member => ?_⟩
  · have reads := noWrite (fun text => by unfold Arguments.writing; split <;> nofun) member
    cases reads with
    | standardInput noValue unnamed => exact absurd (named.symm.trans noValue) nofun
  · have reads := noWrite (fun text => by unfold Arguments.writing; split <;> nofun) member
    cases reads with
    | config isConfig => exact isConfig
    | input noValue isInput notHyphen => exact absurd (named.symm.trans noValue) nofun

/-- How a run with this result ends. -/
def outcomeOf : Except RunError Unit → Outcome
  | .ok () => .success
  | .error error => .failure error

section

variable
  {arguments : List Text}
  (accepted : Arguments.read arguments = .ok given)

include accepted

theorem execute_of_run
    {result : Except RunError Unit}
    {accesses : List Access}
    (evaluated : Evaluates (CommandLine.run system.noting given).run session result accesses after) :
    session.execute arguments = (outcomeOf result, after) ∧
      session.accesses arguments = accesses := by
  refine execute_of_evaluates ?_
  rw [CommandLine.execute, accepted, ← List.append_nil accesses]
  refine evaluated.bind ?_
  cases result with
  | error error => exact Evaluates.pure _
  | ok done => exact Evaluates.pure _

/-- What is executed, from the stages of the run. -/
theorem execute_of_stages
    {text : Text}
    {result : Except RunError Unit}
    {reads writes : List Access}
    (produced : Evaluates (CommandLine.produce system.noting given).run session (.ok text) reads
      session)
    (written : Evaluates (CommandLine.write system.noting given text).run session result writes
      after) :
    session.execute arguments = (outcomeOf result, after) ∧
      session.accesses arguments = reads ++ writes := by
  refine execute_of_run accepted ?_
  rw [CommandLine.run_eq_produce_write]
  exact produced.bindOk written

theorem execute_of_produce_error
    {error : RunError}
    {reads : List Access}
    (produced : Evaluates (CommandLine.produce system.noting given).run session (.error error) reads
      session) :
    session.execute arguments = (.failure error, session) ∧
      session.accesses arguments = reads := by
  have evaluated : Evaluates (CommandLine.run system.noting given).run session (.error error) reads
      session := by
    rw [CommandLine.run_eq_produce_write]
    exact produced.bindError
  exact execute_of_run accepted evaluated

end

/-- A run without a converted text fails, and has only read. -/
theorem isAtomic_of_failsToConvert
    {error : RunError}
    {reads : List Access}
    (fails : session.FailsToConvert given error)
    (areReads : ∀ access ∈ reads, given.Reads access) :
    session.IsAtomic given (.failure error) session reads where
  ends := .inr ⟨error, rfl⟩
  fails other := by
    obtain ⟨noText, only⟩ := fails.unique
    constructor
    · rintro ⟨⟩
      exact .conversion fails
    · intro failsToo
      cases failsToo with
      | conversion failsToo => rw [only _ failsToo]
      | output converted _ _ => exact absurd converted (noText _)
  unchanged _ _ := ⟨rfl, rfl⟩
  delivers := nofun
  order := ⟨reads, [], (List.append_nil reads).symm, areReads, .inl rfl⟩
  value value named := readsConfig_of_order (List.append_nil reads).symm areReads nofun named

section

variable
  {text : Text}
  {reads : List Access}
  (converts : session.Converts given text)
  (areReads : ∀ access ∈ reads, given.Reads access)

include converts areReads

/-- A run with a converted text that cannot be written fails, and has changed nothing. -/
theorem isAtomic_of_unwritable
    {path : Text}
    (named : given.output = some path)
    (unwritable : fileName? path = none) :
    session.IsAtomic given (.failure (.file path)) session (reads ++ [given.writing text]) where
  ends := .inr ⟨_, rfl⟩
  fails other := by
    constructor
    · rintro ⟨⟩
      exact .output converts named unwritable
    · intro fails
      cases fails with
      | conversion fails => exact absurd converts (fails.unique.1 text)
      | output _ namedToo _ => rw [Option.some.inj (named.symm.trans namedToo)]
  unchanged _ _ := ⟨rfl, rfl⟩
  delivers := nofun
  order := ⟨reads, _, rfl, areReads, .inr ⟨text, converts, rfl⟩⟩
  value value named := readsConfig_of_order rfl areReads
    (fun _ member => ⟨text, List.mem_singleton.mp member⟩) named

/-- A run with a converted text that is written succeeds. -/
theorem isAtomic_of_delivers
    (delivers : session.Delivers given text after) :
    session.IsAtomic given .success after (reads ++ [given.writing text]) where
  ends := .inl rfl
  fails other := by
    refine ⟨fun failed => Outcome.noConfusion failed, fun fails => ?_⟩
    cases fails with
    | conversion fails => exact absurd converts (fails.unique.1 text)
    | output _ named unwritable =>
        cases delivers with
        | output unnamed _ _ => exact absurd (unnamed.symm.trans named) nofun
        | file namedToo leads _ _ _ =>
            rw [Option.some.inj (named.symm.trans namedToo), leads] at unwritable
            exact absurd unwritable nofun
  unchanged _ failed := Outcome.noConfusion failed
  delivers _ := ⟨text, delivers, fun other =>
    ⟨fun convertsToo => convertsToo.unique converts, fun same => same ▸ converts⟩⟩
  order := ⟨reads, _, rfl, areReads, .inr ⟨text, converts, rfl⟩⟩
  value value named := readsConfig_of_order rfl areReads
    (fun _ member => ⟨text, List.mem_singleton.mp member⟩) named

end

section

variable
  {arguments : List Text}
  (accepted : Arguments.read arguments = .ok given)

include accepted

theorem isAtomic_execute_of_converts
    {text : Text}
    (converts : session.Converts given text) :
    session.IsAtomic given (session.execute arguments).1 (session.execute arguments).2
      (session.accesses arguments) := by
  obtain ⟨reads, areReads, produced⟩ := CommandLine.readsTo_produce converts
  cases named : given.output with
  | none =>
      obtain ⟨executed, used⟩ :=
        execute_of_stages accepted produced (CommandLine.evaluates_write_output text named)
      rw [executed, used]
      exact isAtomic_of_delivers converts areReads (.output named rfl rfl)
  | some path =>
      cases leads : fileName? path with
      | none =>
          obtain ⟨executed, used⟩ :=
            execute_of_stages accepted produced (CommandLine.evaluates_write_error text named leads)
          rw [executed, used]
          exact isAtomic_of_unwritable converts areReads named leads
      | some name =>
          obtain ⟨executed, used⟩ :=
            execute_of_stages accepted produced (CommandLine.evaluates_write_file text named leads)
          rw [executed, used]
          exact isAtomic_of_delivers converts areReads
            (.file named leads (if_pos rfl) (fun other differs => if_neg differs) rfl)

theorem isAtomic_execute_of_failsToConvert
    {error : RunError}
    (fails : session.FailsToConvert given error) :
    session.IsAtomic given (session.execute arguments).1 (session.execute arguments).2
      (session.accesses arguments) := by
  obtain ⟨reads, areReads, produced⟩ := CommandLine.readsTo_produce_error fails
  obtain ⟨executed, used⟩ := execute_of_produce_error accepted produced
  rw [executed, used]
  exact isAtomic_of_failsToConvert fails areReads

end

/-- A command line that asks for a run does it whole or not at all. If the run fails, no
file is changed and nothing is written to the standard output; it fails exactly if there
is no converted text, or no place to write it. Otherwise the converted text is written to
the file that is named as the output, and nothing else is changed, or to the standard
output. All that is read is read before, so this is so too where the output is a file
that has been read. -/
theorem isAtomic_execute
    (arguments : List Text)
    (given : Arguments)
    (session : Session)
    (accepted : Arguments.read arguments = .ok given) :
    session.IsAtomic given (session.execute arguments).1 (session.execute arguments).2
      (session.accesses arguments) := by
  rcases session.converts_or_fails given with ⟨text, converts⟩ | ⟨error, fails⟩
  · exact isAtomic_execute_of_converts accepted converts
  · exact isAtomic_execute_of_failsToConvert accepted fails

/-- A run whose output is its own configuration file. -/
theorem isAtomic_execute_onto_config :
    ∃ arguments given, ∃ session : Session,
      Arguments.read arguments = .ok given ∧
      given.config = some ['f'] ∧ given.output = some ['f'] ∧
      session.files ['f'] = some (Utf8.encode "\x7b\x22riUnit\x22:\x22em\x22\x7d".toList) ∧
      (session.execute arguments).1 = .success ∧
      (session.execute arguments).2.files ['f'] = some (Utf8.encode "2em\n".toList) ∧
      session.IsAtomic given (session.execute arguments).1 (session.execute arguments).2
        (session.accesses arguments) := by
  refine ⟨["--value", "48px", "-c", "f", "-o", "f"].map String.toList,
    ⟨none, some ['f'], some "48px".toList, some ['f'], Overrides.empty, false, false, 0⟩,
    ⟨filesOf [(['f'], Utf8.encode "\x7b\x22riUnit\x22:\x22em\x22\x7d".toList)], [], []⟩,
    ?accepted, rfl, rfl, ?config, ?success, ?written, isAtomic_execute _ _ _ ?accepted⟩
  case accepted => decide +kernel
  case config => decide +kernel
  case success => decide +kernel
  case written => decide +kernel

end

end Session

end CssRescale
