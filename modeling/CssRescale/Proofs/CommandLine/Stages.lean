import CssRescale.Proofs.CommandLine.Purpose
import CssRescale.Proofs.CommandLine.Recording
import CssRescale.Proofs.Encoding.Utf8

/-!
Contract: the stages of a run.

A run is two stages. The first one comes to the converted text or to a failure, and only
reads, in the ways in which the arguments say that a run reads. The second one writes the
text, by one use of the system.

Owns:
- the uses by which a run reads and writes;
- the stages, and that the run is one after the other;
- what each stage comes to on a session.

Does not own: what the run as a whole does to a session.
-/

set_option autoImplicit false

namespace CssRescale

/-! ## Uses -/

namespace Arguments

/-- The uses by which a run with these arguments reads. -/
inductive Reads (given : Arguments) : Access → Prop where
  | config {path : Text}
      (named : given.config = some path) :
      Reads given (.readFile path)
  | standardInput
      (noValue : given.value = none)
      (unnamed : given.input = none ∨ given.input = some ['-']) :
      Reads given .readInput
  | input {path : Text}
      (noValue : given.value = none)
      (named : given.input = some path)
      (notHyphen : path ≠ ['-']) :
      Reads given (.readFile path)

/-- The use by which a run with these arguments writes a text. -/
def writing (given : Arguments) (text : Text) : Access :=
  match given.output with
  | none => .writeOutput text
  | some path => .writeFile path text

end Arguments

/-! ## Stages of a run -/

namespace CommandLine

section

variable {m : Type → Type} [Monad m]

/-- The stage that comes to the converter. -/
def equip (system : System m) (given : Arguments) : ExceptT RunError m Converter := do
  let options ← readOptions system given
  ExceptT.mk (pure (converterOf given options))

/-- The stage that comes to the converted text. -/
def produce (system : System m) (given : Arguments) : ExceptT RunError m Text := do
  let converter ← equip system given
  convert system given converter

/-- A run writes what it produces. -/
theorem run_eq_produce_write
    [LawfulMonad m]
    (system : System m)
    (given : Arguments) :
    run system given = produce system given >>= write system given := by
  simp only [run, produce, equip, bind_assoc]

end

/-! ### Configuration texts -/

theorem strictText?_encode (text : Text) : strictText? (Utf8.encode text) = some text := by
  obtain ⟨wellFormed, decoded⟩ := (Utf8.decode_eq_iff _ text).mpr rfl
  rw [strictText?, wellFormed, decoded]
  rfl

/-- Bytes that are those of no text have no strict text. -/
theorem strictText?_eq_none
    {bytes : Bytes}
    (notText : ∀ text, bytes ≠ Utf8.encode text) :
    strictText? bytes = none := by
  cases malformed : (Utf8.decode bytes).isMalformed with
  | true => rw [strictText?, malformed, if_pos rfl]
  | false => exact absurd (Utf8.encode_text_decode malformed).symm (notText _)

theorem configOptions_encode (path text : Text) :
    configOptions path (some (Utf8.encode text)) =
      (Options.ofConfig text).mapError (.config path) := by
  rw [configOptions, Option.bind_some, strictText?_encode]

theorem configOptions_notText
    {path : Text}
    {bytes : Bytes}
    (notText : ∀ text, bytes ≠ Utf8.encode text) :
    configOptions path (some bytes) = .error (.file path) := by
  rw [configOptions, Option.bind_some, strictText?_eq_none notText]

/-! ### Stages that only read -/

/-- The stage comes to this result and leaves the session as it is: it only reads, in ways
in which a run with these arguments reads. -/
def ReadsTo
    {Result : Type}
    (session : Session)
    (given : Arguments)
    (stage : ExceptT RunError (StateT (List Access) (StateM Session)) Result)
    (result : Except RunError Result) :
    Prop :=
  ∃ reads, (∀ access ∈ reads, given.Reads access) ∧ Evaluates stage.run session result reads session

section

variable
  {session : Session}
  {given : Arguments}

namespace ReadsTo

variable {Result Next : Type}

theorem pure (result : Except RunError Result) :
    ReadsTo session given (ExceptT.mk (Pure.pure result)) result :=
  ⟨[], nofun, Evaluates.pure result⟩

theorem use
    {access : Access}
    {use : StateM Session Result}
    {result : Result}
    (reads : given.Reads access)
    (used : use.run session = (result, session)) :
    ReadsTo session given (ExceptT.lift (access.note use)) (.ok result) :=
  ⟨[access], fun _ member => List.mem_singleton.mp member ▸ reads, (Evaluates.note used).lift⟩

theorem readFile
    {path : Text}
    (reads : given.Reads (.readFile path)) :
    ReadsTo session given (ExceptT.lift (Session.system.noting.readFile path))
      (.ok (session.readAt path)) :=
  use reads rfl

theorem readInput (reads : given.Reads .readInput) :
    ReadsTo session given (ExceptT.lift Session.system.noting.readInput) (.ok session.input) :=
  use reads rfl

section

variable
  {stage : ExceptT RunError (StateT (List Access) (StateM Session)) Result}
  {next : Result → ExceptT RunError (StateT (List Access) (StateM Session)) Next}

theorem bindOk
    {first : Result}
    {last : Except RunError Next}
    (readsTo : ReadsTo session given stage (.ok first))
    (readsNext : ReadsTo session given (next first) last) :
    ReadsTo session given (stage >>= next) last := by
  obtain ⟨reads, areReads, evaluated⟩ := readsTo
  obtain ⟨further, areFurther, evaluatedNext⟩ := readsNext
  exact ⟨reads ++ further,
    fun access member => (List.mem_append.mp member).elim (areReads access) (areFurther access),
    evaluated.bindOk evaluatedNext⟩

theorem bindError
    {error : RunError}
    (readsTo : ReadsTo session given stage (.error error)) :
    ReadsTo session given (stage >>= next) (.error error) := by
  obtain ⟨reads, areReads, evaluated⟩ := readsTo
  exact ⟨reads, areReads, evaluated.bindError⟩

end

theorem unique
    {stage : ExceptT RunError (StateT (List Access) (StateM Session)) Result}
    {first second : Except RunError Result}
    (readsTo : ReadsTo session given stage first)
    (readsToo : ReadsTo session given stage second) :
    first = second := by
  obtain ⟨_, _, evaluated⟩ := readsTo
  obtain ⟨_, _, evaluatedToo⟩ := readsToo
  exact (evaluated.unique evaluatedToo).1

end ReadsTo

theorem readsTo_readOptions_default (unnamed : given.config = none) :
    ReadsTo session given (readOptions Session.system.noting given) (.ok Options.default) := by
  rw [readOptions, unnamed]
  exact ReadsTo.pure _

theorem readsTo_readOptions_file
    {path : Text}
    (named : given.config = some path) :
    ReadsTo session given (readOptions Session.system.noting given)
      (configOptions path (session.readAt path)) := by
  rw [readOptions, named]
  exact (ReadsTo.readFile (.config named)).bindOk (ReadsTo.pure _)

theorem readsTo_readOptions
    {options : Options}
    (configured : session.Configures given options) :
    ReadsTo session given (readOptions Session.system.noting given) (.ok options) := by
  cases configured with
  | defaults unnamed => exact readsTo_readOptions_default unnamed
  | file named content read =>
      have stage := @readsTo_readOptions_file session given _ named
      rwa [content, configOptions_encode, read] at stage

theorem readsTo_equip
    {converter : Converter}
    (equipped : session.Equips given converter) :
    ReadsTo session given (equip Session.system.noting given) (.ok converter) := by
  cases equipped with
  | rules configured valid =>
      refine (readsTo_readOptions configured).bindOk ?_
      rw [converterOf, valid]
      exact ReadsTo.pure _

/-- A file that is named as the input. -/
theorem readsTo_readBytes_file
    {path : Text}
    (noValue : given.value = none)
    (named : given.input = some path)
    (notHyphen : path ≠ ['-']) :
    ReadsTo session given (readBytes Session.system.noting given)
      (match session.readAt path with
      | some content => .ok content
      | none => .error (.file path)) := by
  unfold readBytes
  rw [named]
  split
  case h_1 unnamed => exact absurd unnamed nofun
  case h_2 hyphen => exact absurd (Option.some.inj hyphen) notHyphen
  case h_3 same =>
    cases same
    refine (ReadsTo.readFile (.input noValue named notHyphen)).bindOk ?_
    cases session.readAt path with
    | none => exact ReadsTo.pure _
    | some content => exact ReadsTo.pure _

theorem readsTo_readBytes
    {content : Bytes}
    (noValue : given.value = none)
    (supplied : session.Supplies given content) :
    ReadsTo session given (readBytes Session.system.noting given) (.ok content) := by
  cases supplied with
  | standard unnamed =>
      have reads : given.Reads .readInput := .standardInput noValue unnamed
      rcases unnamed with unnamed | unnamed
      · rw [readBytes, unnamed]
        exact ReadsTo.readInput reads
      · rw [readBytes, unnamed]
        exact ReadsTo.readInput reads
  | file named notHyphen present =>
      have stage := @readsTo_readBytes_file session given _ noValue named notHyphen
      rwa [present] at stage

theorem readsTo_convert
    {converter : Converter}
    {result : Except Fault Text}
    (results : session.Results given converter result) :
    ReadsTo session given (convert Session.system.noting given converter)
      (result.mapError .fault) := by
  cases results with
  | value named =>
      rw [convert, named]
      exact ReadsTo.pure _
  | declarations noValue asked supplied =>
      have converted : ∀ content, convertInput given converter content =
          (converter.convertDeclarations (Encoding.decodeSheet content)).mapError .fault := by
        intro content
        rw [convertInput, if_pos asked]
      rw [convert, noValue, ← converted]
      exact (readsTo_readBytes noValue supplied).bindOk (ReadsTo.pure _)
  | sheet noValue notAsked supplied =>
      have converted : ∀ content, convertInput given converter content =
          ((converter.convertSheet (Encoding.decodeSheet content)).map Prod.fst).mapError
            .fault := by
        intro content
        rw [convertInput, if_neg (notAsked ▸ Bool.false_ne_true)]
      rw [convert, noValue, ← converted]
      exact (readsTo_readBytes noValue supplied).bindOk (ReadsTo.pure _)

theorem readsTo_produce
    {text : Text}
    (converts : session.Converts given text) :
    ReadsTo session given (produce Session.system.noting given) (.ok text) := by
  obtain ⟨equipped, results⟩ := converts
  exact (readsTo_equip equipped).bindOk (readsTo_convert results)

theorem readsTo_produce_error
    {error : RunError}
    (fails : session.FailsToConvert given error) :
    ReadsTo session given (produce Session.system.noting given) (.error error) := by
  cases fails with
  | configMissing named missing =>
      have stage := @readsTo_readOptions_file session given _ named
      rw [missing] at stage
      exact stage.bindError.bindError
  | configNotText named present notText =>
      have stage := @readsTo_readOptions_file session given _ named
      rw [present, configOptions_notText notText] at stage
      exact stage.bindError.bindError
  | configMalformed named content malformed =>
      have stage := @readsTo_readOptions_file session given _ named
      rw [content, configOptions_encode, malformed] at stage
      exact stage.bindError.bindError
  | rules configured invalid =>
      refine ReadsTo.bindError ((readsTo_readOptions configured).bindOk ?_)
      rw [converterOf, invalid]
      exact ReadsTo.pure _
  | inputMissing equipped noValue named notHyphen missing =>
      refine (readsTo_equip equipped).bindOk ?_
      have stage := @readsTo_readBytes_file session given _ noValue named notHyphen
      rw [missing] at stage
      rw [convert, noValue]
      exact stage.bindError
  | refused equipped result => exact (readsTo_equip equipped).bindOk (readsTo_convert result)

end

/-! ### The stage that writes -/

section

variable
  {session : Session}
  {given : Arguments}
  (text : Text)

theorem evaluates_write_output (unnamed : given.output = none) :
    Evaluates (write Session.system.noting given text).run session (.ok ())
      [given.writing text] (session.print text) := by
  rw [write, Arguments.writing, unnamed]
  exact (Evaluates.note rfl).lift

section

variable
  {path : Text}
  (named : given.output = some path)

include named

theorem evaluates_write_file
    {name : Text}
    (leads : fileName? path = some name) :
    Evaluates (write Session.system.noting given text).run session (.ok ())
      [given.writing text] (session.put name (Utf8.encode text)) := by
  have used : (Session.system.writeFile path text).run session =
      (true, session.put name (Utf8.encode text)) := by
    simp only [Session.system, leads]
    rfl
  rw [write, Arguments.writing, named]
  exact (Evaluates.note used).lift.bindOk (Evaluates.pure _)

theorem evaluates_write_error (unwritable : fileName? path = none) :
    Evaluates (write Session.system.noting given text).run session (.error (.file path))
      [given.writing text] session := by
  have used : (Session.system.writeFile path text).run session = (false, session) := by
    simp only [Session.system, unwritable]
    rfl
  rw [write, Arguments.writing, named]
  exact (Evaluates.note used).lift.bindOk (Evaluates.pure _)

end

end

end CommandLine

end CssRescale
