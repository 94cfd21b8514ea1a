import StaticInit.LazySequentializer.Initialization
import StaticInit.Runs

namespace StaticInit.Lazily

/-!
# A finalizable static shared by threads

Any number of threads access one static that is driven by
`FinalizableLazySequentializer`, and the pass at program exit finalizes it.
The write lock lets one thread at a time run its `GuardCode`; the phase of its
guard is published when the guard is dropped.  Accesses that end up with a
read guard or without a guard change nothing and are no steps here.
-/

/-- The functions that may initialize a static. -/
inductive Access where
  | init
  | initThenReadGuard
  | initThenWriteGuard
  | tryInitThenReadGuard
  | tryInitThenWriteGuard
  deriving Repr, DecidableEq

/-- What the holder of the write lock is doing. -/
inductive Task where
  | initializing
  /-- Owning a write guard of the value. -/
  | write
  | finalize
  deriving Repr, DecidableEq

/-- What an access does with the write lock, if its closure asks for it. -/
def Access.enter
    (tolerance : GeneratorTolerance)
    (phase : Phase) : Access → Option (Task × GuardCode)
  | .initThenWriteGuard =>
      if tolerance.shallInit phase then
        some (.initializing, lazyInitialization tolerance phase)
      else
        some (.write, .done)
  | .tryInitThenWriteGuard =>
      if tolerance.shallInit phase then
        some (.initializing, lazyInitialization tolerance phase)
      else
        some (.write, .done)
  | _ =>
      if tolerance.shallInit phase then
        some (.initializing, lazyInitialization tolerance phase)
      else
        none

/-- No access finalizes. -/
theorem Access.enter_task
    {tolerance : GeneratorTolerance}
    {access : Access}
    {phase : Phase}
    {task : Task}
    {code : GuardCode}
    (enters : access.enter tolerance phase = some (task, code)) :
    task ≠ .finalize := by
  rintro rfl
  unfold Access.enter at enters
  split at enters
  all_goals split at enters <;> cases enters

/-- The thread that holds the write lock. -/
structure Holder (ι : Type) where
  actor : ι
  task : Task
  /-- The phase of the guard, to be published. -/
  guard : Phase
  code : GuardCode
  /-- In the user call at the head of `code`. -/
  calling : Bool

/-- Where the exit pass is with this static. -/
inductive ExitStage where
  /-- Its node was not reached. -/
  | pending
  /-- `finalize_callback` waits for the write lock. -/
  | waiting
  /-- `finalize_callback` has the write lock. -/
  | finalizing
  | returned
  deriving Repr, DecidableEq

/-- One static. -/
structure State (ι : Type) where
  phase : Phase
  written : Bool
  holder : Option (Holder ι)
  /-- Its node is in the register of program exit. -/
  listed : Bool
  exit : ExitStage

/-- A static before its first access. -/
def State.fresh (ι : Type) : State ι where
  phase := .empty
  written := false
  holder := none
  listed := false
  exit := .pending

inductive Event (ι : Type) where
  /-- An access gets the write lock. -/
  | acquire (actor : ι) (access : Access)
  | call (actor : ι) (call : UserCall)
  | returned (actor : ι) (call : UserCall) (value : Bool)
  | panicked (actor : ι) (call : UserCall)
  | setPhase (actor : ι)
  | release (actor : ι)
  /-- A debug assertion fails. -/
  | failed (actor : ι) (assertion : DebugAssertion)
  /-- The exit pass calls `finalize_callback`. -/
  | reach
  /-- The lock is free for `finalize_callback`. -/
  | resume (actor : ι)
  deriving DecidableEq

namespace Holder

variable {ι : Type}

/-- The guard of a user call holds the phase for a panic. -/
def start (holder : Holder ι) (call : UserCall) : Option (Holder ι) :=
  match holder.code with
  | .transition expected _ onPanic _ =>
      if expected = call ∧ holder.calling = false then
        some { holder with guard := onPanic, calling := true }
      else
        none
  | _ => none

/-- The user call returns. -/
def finish
    (holder : Holder ι)
    (call : UserCall)
    (value : Bool) : Option (Holder ι) :=
  match holder.code with
  | .transition expected onSuccess _ next =>
      if expected = call ∧ holder.calling = true then
        some
          { holder with
            guard := onSuccess
            code := next value
            calling := false }
      else
        none
  | _ => none

/-- Whether the user call is running and may panic. -/
def isCalling (holder : Holder ι) (call : UserCall) : Bool :=
  match holder.code with
  | .transition expected _ _ _ => expected = call && holder.calling
  | _ => false

def setPhase (holder : Holder ι) : Option (Holder ι) :=
  match holder.code with
  | .setPhase phase next => some { holder with guard := phase, code := next }
  | _ => none

/-- Whether the code is done and its guard may be dropped. -/
def isDone (holder : Holder ι) : Bool :=
  match holder.code with
  | .done => true
  | _ => false

/-- The assertion that fails now. -/
def fails (holder : Holder ι) : Option DebugAssertion :=
  match holder.code with
  | .failed assertion => some assertion
  | _ => none

variable {holder after : Holder ι} {call : UserCall}

/-- A call that starts is next in the code. -/
theorem start_eq
    (starts : holder.start call = some after) :
    holder.calling = false ∧
      ∃ onSuccess onPanic next,
        holder.code = .transition call onSuccess onPanic next ∧
          after = { holder with guard := onPanic, calling := true } := by
  unfold start at starts
  split at starts
  case h_1 expected onSuccess onPanic next code =>
    split at starts
    case isTrue now =>
      obtain ⟨rfl, idle⟩ := now
      exact ⟨idle, onSuccess, onPanic, next, code,
        (Option.some.inj starts).symm⟩
    case isFalse => cases starts
  case h_2 => cases starts

/-- A call that returns is running. -/
theorem finish_eq
    {value : Bool}
    (finishes : holder.finish call value = some after) :
    holder.calling = true ∧
      ∃ onSuccess onPanic next,
        holder.code = .transition call onSuccess onPanic next ∧
          after =
            { holder with
              guard := onSuccess
              code := next value
              calling := false } := by
  unfold finish at finishes
  split at finishes
  case h_1 expected onSuccess onPanic next code =>
    split at finishes
    case isTrue now =>
      obtain ⟨rfl, running⟩ := now
      exact ⟨running, onSuccess, onPanic, next, code,
        (Option.some.inj finishes).symm⟩
    case isFalse => cases finishes
  case h_2 => cases finishes

/-- A call that may panic is running. -/
theorem isCalling_eq
    (running : holder.isCalling call = true) :
    holder.calling = true ∧
      ∃ onSuccess onPanic next,
        holder.code = .transition call onSuccess onPanic next := by
  unfold isCalling at running
  split at running
  case h_1 expected onSuccess onPanic next code =>
    rw [Bool.and_eq_true, decide_eq_true_eq] at running
    obtain ⟨rfl, calling⟩ := running
    exact ⟨calling, onSuccess, onPanic, next, code⟩
  case h_2 => cases running

/-- A phase that is set is next in the code. -/
theorem setPhase_eq
    (sets : holder.setPhase = some after) :
    ∃ phase next,
      holder.code = .setPhase phase next ∧
        after = { holder with guard := phase, code := next } := by
  unfold setPhase at sets
  split at sets
  case h_1 phase next code =>
    exact ⟨phase, next, code, (Option.some.inj sets).symm⟩
  case h_2 => cases sets

theorem isDone_eq
    (finished : holder.isDone = true) :
    holder.code = .done := by
  unfold isDone at finished
  split at finished
  case h_1 code => exact code
  case h_2 => cases finished

theorem fails_eq
    {assertion : DebugAssertion}
    (fails : holder.fails = some assertion) :
    holder.code = .failed assertion := by
  unfold Holder.fails at fails
  split at fails
  case h_1 failed code =>
    obtain rfl := Option.some.inj fails
    exact code
  case h_2 => cases fails

end Holder

namespace State

variable {ι : Type} [DecidableEq ι]

/-- The lock held by a thread. -/
def heldBy (state : State ι) (actor : ι) : Option (Holder ι) :=
  state.holder.filter fun holder => holder.actor = actor

/-- The guard is dropped and its phase published. -/
def publish (state : State ι) (holder : Holder ι) : State ι :=
  { state with
    phase := holder.guard
    holder := none
    exit := if holder.task = .finalize then .returned else state.exit }

/-- `finalize_callback` evaluates its closure on the published phase. -/
def reach (state : State ι) : State ι :=
  if state.phase.intersects .initialized then
    { state with exit := .waiting }
  else
    { state with exit := .returned }

/-- `finalize_callback` gets the free write lock, if it still asks for it. -/
def resume (state : State ι) (actor : ι) : State ι :=
  if state.phase.intersects .initialized then
    { state with
      holder :=
        some
          { actor := actor
            task := .finalize
            guard := state.phase
            code := finalizeCallback state.phase
            calling := false }
      exit := .finalizing }
  else
    { state with exit := .returned }

/-- What happens next, if it can. -/
def exec
    (tolerance : GeneratorTolerance)
    (state : State ι) : Event ι → Option (State ι)
  | .acquire actor access =>
      match state.holder with
      | some _ => none
      | none =>
          (access.enter tolerance state.phase).map fun (task, code) =>
            { state with
              holder :=
                some
                  { actor := actor
                    task := task
                    guard := state.phase
                    code := code
                    calling := false } }
  | .call actor call =>
      (state.heldBy actor).bind fun holder =>
        (holder.start call).map fun holder =>
          { state with holder := some holder }
  | .returned actor call value =>
      (state.heldBy actor).bind fun holder =>
        (holder.finish call value).map fun holder =>
          { state with
            holder := some holder
            written := state.written || call = .init
            listed := state.listed || (call = .reg && value) }
  | .panicked actor call =>
      (state.heldBy actor).bind fun holder =>
        if holder.isCalling call then some (state.publish holder) else none
  | .setPhase actor =>
      (state.heldBy actor).bind fun holder =>
        holder.setPhase.map fun holder => { state with holder := some holder }
  | .release actor =>
      (state.heldBy actor).bind fun holder =>
        if holder.isDone then some (state.publish holder) else none
  | .failed actor assertion =>
      (state.heldBy actor).bind fun holder =>
        if holder.fails = some assertion then
          some (state.publish holder)
        else
          none
  | .reach =>
      if state.listed ∧ state.exit = .pending then
        some state.reach
      else
        none
  | .resume actor =>
      if state.exit = .waiting ∧ state.holder.isNone then
        some (state.resume actor)
      else
        none

/-- One step of a static with a tolerance. -/
def Step
    (tolerance : GeneratorTolerance)
    (state : State ι)
    (event : Event ι)
    (after : State ι) : Prop :=
  state.exec tolerance event = some after

omit [DecidableEq ι] in
/-- What a step does, and when. -/
inductive Effect
    (tolerance : GeneratorTolerance)
    (state : State ι) : Event ι → State ι → Prop where
  | acquire
      (actor : ι)
      (access : Access)
      (task : Task)
      (code : GuardCode)
      (free : state.holder = none)
      (enters : access.enter tolerance state.phase = some (task, code)) :
      Effect tolerance state (.acquire actor access)
        { state with
          holder := some ⟨actor, task, state.phase, code, false⟩ }
  | call
      (call : UserCall)
      (holder after : Holder ι)
      (held : state.holder = some holder)
      (starts : holder.start call = some after) :
      Effect tolerance state (.call holder.actor call)
        { state with holder := some after }
  | returned
      (call : UserCall)
      (value : Bool)
      (holder after : Holder ι)
      (held : state.holder = some holder)
      (finishes : holder.finish call value = some after) :
      Effect tolerance state (.returned holder.actor call value)
        { state with
          holder := some after
          written := state.written || call = .init
          listed := state.listed || (call = .reg && value) }
  | panicked
      (call : UserCall)
      (holder : Holder ι)
      (held : state.holder = some holder)
      (running : holder.isCalling call = true) :
      Effect tolerance state (.panicked holder.actor call)
        (state.publish holder)
  | setPhase
      (holder after : Holder ι)
      (held : state.holder = some holder)
      (sets : holder.setPhase = some after) :
      Effect tolerance state (.setPhase holder.actor)
        { state with holder := some after }
  | release
      (holder : Holder ι)
      (held : state.holder = some holder)
      (finished : holder.isDone = true) :
      Effect tolerance state (.release holder.actor) (state.publish holder)
  | failed
      (assertion : DebugAssertion)
      (holder : Holder ι)
      (held : state.holder = some holder)
      (fails : holder.fails = some assertion) :
      Effect tolerance state (.failed holder.actor assertion)
        (state.publish holder)
  | reach
      (listed : state.listed = true)
      (pending : state.exit = .pending) :
      Effect tolerance state .reach state.reach
  | resume
      (actor : ι)
      (waiting : state.exit = .waiting)
      (free : state.holder = none) :
      Effect tolerance state (.resume actor) (state.resume actor)

omit [DecidableEq ι] in
/-- A look at the phase changes the exit stage only. -/
theorem reach_eq (state : State ι) :
    state.reach =
      { state with
        exit :=
          if state.phase.intersects .initialized then
            .waiting
          else
            .returned } := by
  unfold reach
  split
  case isTrue => rfl
  case isFalse => rfl

theorem heldBy_eq
    {state : State ι}
    {actor : ι}
    {holder : Holder ι}
    (held : state.heldBy actor = some holder) :
    state.holder = some holder ∧ holder.actor = actor := by
  obtain ⟨found, same⟩ := Option.filter_eq_some_iff.mp held
  exact ⟨found, of_decide_eq_true same⟩

/-- Who holds the lock, for each actor. -/
theorem heldBy_of_holder
    {state : State ι}
    {holder : Holder ι}
    (held : state.holder = some holder)
    (actor : ι) :
    state.heldBy actor =
      if holder.actor = actor then some holder else none := by
  simp [heldBy, held, Option.filter]

theorem heldBy_of_free
    {state : State ι}
    (free : state.holder = none)
    (actor : ι) :
    state.heldBy actor = none := by
  simp [heldBy, free]

/-- Next to the holder nobody else holds the lock. -/
theorem heldBy_other
    {state : State ι}
    {actor other : ι}
    {holder : Holder ι}
    (held : state.heldBy actor = some holder)
    (different : other ≠ actor) :
    state.heldBy other = none := by
  obtain ⟨found, rfl⟩ := heldBy_eq held
  rw [heldBy_of_holder found, if_neg (Ne.symm different)]

/-- Each step has one of the effects. -/
theorem effect_of_step
    {tolerance : GeneratorTolerance}
    {state after : State ι}
    {event : Event ι}
    (step : Step tolerance state event after) :
    Effect tolerance state event after := by
  unfold Step at step
  cases event with
  | acquire actor access =>
      simp only [exec] at step
      split at step
      case h_1 => cases step
      case h_2 free =>
        obtain ⟨⟨task, code⟩, enters, rfl⟩ := Option.map_eq_some_iff.mp step
        exact .acquire actor access task code free enters
  | call actor call =>
      obtain ⟨holder, held, moves⟩ := Option.bind_eq_some_iff.mp step
      obtain ⟨moved, starts, rfl⟩ := Option.map_eq_some_iff.mp moves
      obtain ⟨found, rfl⟩ := heldBy_eq held
      exact .call call holder moved found starts
  | returned actor call value =>
      obtain ⟨holder, held, moves⟩ := Option.bind_eq_some_iff.mp step
      obtain ⟨moved, finishes, rfl⟩ := Option.map_eq_some_iff.mp moves
      obtain ⟨found, rfl⟩ := heldBy_eq held
      exact .returned call value holder moved found finishes
  | panicked actor call =>
      obtain ⟨holder, held, moves⟩ := Option.bind_eq_some_iff.mp step
      obtain ⟨found, rfl⟩ := heldBy_eq held
      obtain ⟨running, same⟩ := Option.ite_none_right_eq_some.mp moves
      obtain rfl := Option.some.inj same
      exact .panicked call holder found running
  | setPhase actor =>
      obtain ⟨holder, held, moves⟩ := Option.bind_eq_some_iff.mp step
      obtain ⟨moved, sets, rfl⟩ := Option.map_eq_some_iff.mp moves
      obtain ⟨found, rfl⟩ := heldBy_eq held
      exact .setPhase holder moved found sets
  | release actor =>
      obtain ⟨holder, held, moves⟩ := Option.bind_eq_some_iff.mp step
      obtain ⟨found, rfl⟩ := heldBy_eq held
      obtain ⟨finished, same⟩ := Option.ite_none_right_eq_some.mp moves
      obtain rfl := Option.some.inj same
      exact .release holder found finished
  | failed actor assertion =>
      obtain ⟨holder, held, moves⟩ := Option.bind_eq_some_iff.mp step
      obtain ⟨found, rfl⟩ := heldBy_eq held
      obtain ⟨fails, same⟩ := Option.ite_none_right_eq_some.mp moves
      obtain rfl := Option.some.inj same
      exact .failed assertion holder found fails
  | reach =>
      obtain ⟨⟨listed, pending⟩, same⟩ :=
        Option.ite_none_right_eq_some.mp step
      obtain rfl := Option.some.inj same
      exact .reach listed pending
  | resume actor =>
      obtain ⟨⟨waiting, free⟩, same⟩ :=
        Option.ite_none_right_eq_some.mp step
      obtain rfl := Option.some.inj same
      exact .resume actor waiting (Option.isNone_iff_eq_none.mp free)

end State

end StaticInit.Lazily
