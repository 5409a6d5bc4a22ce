import CssRescale.CommandLine.Session

/-!
Contract: what a run uses of its system, in order.

A system can note each use that is made of it and else do what it does. A run on the
system that notes is the run on the system that does not, whatever the system is, so
what is noted is what the run does.

Owns:
- the uses of a system, and the system that notes them;
- the run that notes its uses compared with the run that does not;
- evaluation of computations on sessions, with their uses, one rule for each way in
  which computations are put together.

Does not own: which uses a run makes.
-/

set_option autoImplicit false

namespace CssRescale

/-- One use of a system. -/
inductive Access where
  | readFile (path : Text)
  | readInput
  | writeFile (path : Text) (text : Text)
  | writeOutput (text : Text)
deriving DecidableEq, Repr

section

variable {m : Type → Type} [Monad m]

/-- Does what is to be done, and notes the use that this is. -/
def Access.note {Result : Type} (access : Access) (use : m Result) :
    StateT (List Access) m Result := fun noted => do
  let result ← use
  return (result, noted ++ [access])

/-- The system that notes each use of it after those that were noted before. -/
def System.noting (system : System m) : System (StateT (List Access) m) where
  readFile path := Access.note (.readFile path) (system.readFile path)
  readInput := Access.note .readInput system.readInput
  writeFile path text := Access.note (.writeFile path text) (system.writeFile path text)
  writeOutput text := Access.note (.writeOutput text) (system.writeOutput text)

/-! ## Noting changes nothing -/

/-- Whatever was noted before, what notes gives what does not. -/
def Notes {Result : Type} (noting : StateT (List Access) m Result) (plain : m Result) : Prop :=
  ∀ noted, Prod.fst <$> noting.run noted = plain

namespace Notes

variable
  [LawfulMonad m]
  {Result Next Error : Type}

theorem note (access : Access) (use : m Result) : Notes (access.note use) use := by
  intro noted
  simp [Access.note, StateT.run]

theorem pure (result : Result) : Notes (m := m) (Pure.pure result) (Pure.pure result) := by
  intro noted
  simp

theorem bind
    {noting : StateT (List Access) m Result}
    {plain : m Result}
    {notingNext : Result → StateT (List Access) m Next}
    {plainNext : Result → m Next}
    (first : Notes noting plain)
    (next : ∀ result, Notes (notingNext result) (plainNext result)) :
    Notes (noting >>= notingNext) (plain >>= plainNext) := by
  intro noted
  rw [StateT.run_bind, map_bind, ← first noted, bind_map_left]
  exact bind_congr fun (result, _) => next result _

/-- In a computation that can fail, what follows is done where the first part succeeds. -/
theorem bindExcept
    {noting : ExceptT Error (StateT (List Access) m) Result}
    {plain : ExceptT Error m Result}
    {notingNext : Result → ExceptT Error (StateT (List Access) m) Next}
    {plainNext : Result → ExceptT Error m Next}
    (first : Notes noting.run plain.run)
    (next : ∀ result, Notes (notingNext result).run (plainNext result).run) :
    Notes (noting >>= notingNext).run (plain >>= plainNext).run := by
  rw [ExceptT.run_bind, ExceptT.run_bind]
  refine first.bind fun result => ?_
  cases result with
  | error error => exact pure _
  | ok result => exact next result

theorem lift
    {noting : StateT (List Access) m Result}
    {plain : m Result}
    (notes : Notes noting plain) :
    Notes (ExceptT.lift (ε := Error) noting).run (ExceptT.lift (ε := Error) plain).run := by
  intro noted
  simp [ExceptT.lift, ← notes noted]

end Notes

namespace CommandLine

open Notes

variable
  [LawfulMonad m]
  (system : System m)
  (given : Arguments)

theorem notes_readOptions :
    Notes (readOptions system.noting given).run (readOptions system given).run := by
  unfold readOptions
  split
  · exact pure _
  · exact (lift (note _ _)).bindExcept fun _ => pure _

theorem notes_readBytes :
    Notes (readBytes system.noting given).run (readBytes system given).run := by
  unfold readBytes
  split
  · exact lift (note _ _)
  · exact lift (note _ _)
  · refine (lift (note _ _)).bindExcept fun bytes? => ?_
    cases bytes? with
    | none => exact pure _
    | some bytes => exact pure _

theorem notes_convert (converter : Converter) :
    Notes (convert system.noting given converter).run (convert system given converter).run := by
  unfold convert
  split
  · exact pure _
  · exact (notes_readBytes system given).bindExcept fun _ => pure _

theorem notes_write (text : Text) :
    Notes (write system.noting given text).run (write system given text).run := by
  unfold write
  split
  · exact lift (note _ _)
  · refine (lift (note _ _)).bindExcept fun written => ?_
    cases written with
    | false => exact pure _
    | true => exact pure _

theorem notes_run : Notes (run system.noting given).run (run system given).run :=
  (notes_readOptions system given).bindExcept fun _ =>
    bindExcept (pure _) fun converter =>
      (notes_convert system given converter).bindExcept (notes_write system given)

/-- A command line does what it does whether or not the system notes its uses. -/
theorem notes_execute (arguments : List Text) :
    Notes (execute system.noting arguments) (execute system arguments) := by
  unfold execute
  split
  · exact pure _
  · exact (note _ _).bind fun _ => pure _
  · exact (note _ _).bind fun _ => pure _
  · refine (notes_run system _).bind fun result => ?_
    cases result with
    | error error => exact pure _
    | ok done => exact pure _

end CommandLine

end

/-! ## Evaluation on a session -/

/-- Whatever was noted before, the computation gives this result in the session, with
these uses, and leaves the session as `after`. -/
def Evaluates
    {Result : Type}
    (computation : StateT (List Access) (StateM Session) Result)
    (session : Session)
    (result : Result)
    (accesses : List Access)
    (after : Session) :
    Prop :=
  ∀ noted, (computation.run noted).run session = ((result, noted ++ accesses), after)

namespace Evaluates

section

variable
  {Result Next Error : Type}
  {session between after : Session}
  {accesses further : List Access}

theorem note
    {access : Access}
    {use : StateM Session Result}
    {result : Result}
    (used : use.run session = (result, after)) :
    Evaluates (access.note use) session result [access] after := by
  intro noted
  show (use >>= fun result => Pure.pure (result, noted ++ [access])).run session = _
  rw [StateT.run_bind, used]
  rfl

theorem pure (result : Result) : Evaluates (Pure.pure result) session result [] session := by
  intro noted
  rw [List.append_nil]
  rfl

theorem bind
    {computation : StateT (List Access) (StateM Session) Result}
    {next : Result → StateT (List Access) (StateM Session) Next}
    {first : Result}
    {last : Next}
    (evaluated : Evaluates computation session first accesses between)
    (evaluatedNext : Evaluates (next first) between last further after) :
    Evaluates (computation >>= next) session last (accesses ++ further) after := by
  intro noted
  rw [StateT.run_bind, StateT.run_bind, evaluated noted, ← List.append_assoc]
  exact evaluatedNext (noted ++ accesses)

section

variable
  {computation : ExceptT Error (StateT (List Access) (StateM Session)) Result}
  {next : Result → ExceptT Error (StateT (List Access) (StateM Session)) Next}

theorem bindOk
    {first : Result}
    {last : Except Error Next}
    (evaluated : Evaluates computation.run session (.ok first) accesses between)
    (evaluatedNext : Evaluates (next first).run between last further after) :
    Evaluates (computation >>= next).run session last (accesses ++ further) after := by
  rw [ExceptT.run_bind]
  exact evaluated.bind evaluatedNext

/-- Where the first part fails, nothing follows. -/
theorem bindError
    {error : Error}
    (evaluated : Evaluates computation.run session (.error error) accesses after) :
    Evaluates (computation >>= next).run session (.error error) accesses after := by
  rw [ExceptT.run_bind, ← List.append_nil accesses]
  exact evaluated.bind (pure _)

end

theorem lift
    {computation : StateT (List Access) (StateM Session) Result}
    {result : Result}
    (evaluated : Evaluates computation session result accesses after) :
    Evaluates (ExceptT.lift (ε := Error) computation).run session (.ok result) accesses after := by
  intro noted
  show ((Except.ok <$> computation).run noted).run session = _
  rw [StateT.run_map, StateT.run_map, evaluated noted]
  rfl

/-- A computation gives one result only, in one way. -/
theorem unique
    {computation : StateT (List Access) (StateM Session) Result}
    {first second : Result}
    {other : Session}
    (evaluated : Evaluates computation session first accesses after)
    (evaluatedToo : Evaluates computation session second further other) :
    first = second ∧ accesses = further ∧ after = other := by
  obtain ⟨resultAndUses, sameSession⟩ :=
    Prod.mk.inj ((evaluated []).symm.trans (evaluatedToo []))
  obtain ⟨sameResult, sameUses⟩ := Prod.mk.inj resultAndUses
  exact ⟨sameResult, sameUses, sameSession⟩

end

end Evaluates

namespace Session

/-- The uses that a command line makes of a session, in order. -/
def accesses (arguments : List Text) (session : Session) : List Access :=
  (((CommandLine.execute system.noting arguments).run []).run session).1.2

/-- What is evaluated with uses noted is what is executed. -/
theorem execute_of_evaluates
    {arguments : List Text}
    {session after : Session}
    {outcome : Outcome}
    {uses : List Access}
    (evaluated : Evaluates (CommandLine.execute system.noting arguments) session outcome uses after) :
    session.execute arguments = (outcome, after) ∧ session.accesses arguments = uses := by
  constructor
  · have plain := CommandLine.notes_execute system arguments []
    rw [execute, ← plain, StateT.run_map, evaluated []]
    rfl
  · rw [accesses, evaluated []]
    rfl

end Session

end CssRescale
