import StaticInit.PhaseLocker.Sync.Program
import StaticInit.Runs

namespace StaticInit.Sync

/-!
# Threads sharing a futex locker

A state holds the word, the two counters of the futex and, for each thread,
its place in the code and the guards it owns.  `State.exec` performs one
action: a thread starts an operation, a thread performs its next atomic
instruction, or a parked thread is interrupted by a signal.  The scheduler
chooses the thread, whether a weak exchange fails for no reason, and which
parked threads a wake picks.
-/

/-- The place of a thread and the guards it owns outside the locker. -/
structure Thread where
  pc : Pc
  locks : List Lock
  readLocks : List ReadLock

/-- A thread outside the locker that owns no guard. -/
def Thread.outside : Thread := ⟨.idle, [], []⟩

/-- An operation a thread may start; guards are given by their position. -/
inductive UserOp where
  | lock (closures : Closures) (hint : Phase)
  | tryLock (how : Phase → LockNature) (hint : Phase)
  | dropLock (index : Nat)
  | dropReadLock (index : Nat)
  | clone (index : Nat)
  | convert (index : Nat)
  /-- `set_phase`, and each of the two assignments of `transition`. -/
  | setPhase (index : Nat) (phase : Phase)

/-- Start an operation: only outside the locker, only on owned guards. -/
def Thread.start (thread : Thread) (op : UserOp) : Option Thread :=
  match thread.pc with
  | .idle =>
      match op with
      | .lock closures hint =>
          some { thread with pc := .optimistic (.lock closures hint) }
      | .tryLock how hint =>
          some { thread with pc := .optimistic (.tryLock how hint) }
      | .dropLock index =>
          thread.locks[index]?.map fun lock =>
            { thread with
              pc := .dropLockCas lock .done
              locks := thread.locks.eraseIdx index }
      | .dropReadLock index =>
          thread.readLocks[index]?.map fun lock =>
            { thread with
              pc := .dropReadSub lock .done
              readLocks := thread.readLocks.eraseIdx index }
      | .clone index =>
          thread.readLocks[index]?.map fun lock =>
            { thread with
              pc := .cloneLoad lock .new
              readLocks := thread.readLocks.eraseIdx index }
      | .convert index =>
          thread.locks[index]?.map fun lock =>
            { thread with
              pc := .convertXor lock lock.initPhase .guard
              locks := thread.locks.eraseIdx index }
      | .setPhase index phase =>
          thread.locks[index]?.map fun lock =>
            { thread with
              locks :=
                thread.locks.set index { lock with onUnlock := phase } }
  | _ => none

/-- Continue a thread with the end of its local code. -/
def Thread.continue (thread : Thread) (next : Next) :
    Except Assertion Thread :=
  match next with
  | .goto pc => .ok { thread with pc := pc }
  | .ret result =>
      .ok
        { pc := .idle
          locks := result.locks ++ thread.locks
          readLocks := result.readLocks ++ thread.readLocks }
  | .panic assertion => .error assertion

/-- Where a thread parked as a writer continues when a wake picks it. -/
def Pc.wokenWriter : Pc → Option Pc
  | .parkedWriter closures => some (.writerCountSub closures true)
  | _ => none

/-- Where a thread parked as a reader continues when a wake picks it. -/
def Pc.wokenReader : Pc → Option Pc
  | .parkedReader closures => some (.readerLoad closures)
  | .parkedClone guard => some (.cloneWoken guard)
  | _ => none

/-- Where a parked thread continues when a signal interrupts its wait. -/
def Pc.interrupted : Pc → Option Pc
  | .parkedWriter closures => some (.writerCountSub closures false)
  | .parkedReader closures => some (.slowLoad closures .new)
  | .parkedClone guard => some (.cloneLoad guard .new)
  | _ => none

/-- The futex locker and its threads. -/
structure State (ι : Type) where
  word : U32
  writerCount : BitVec 32
  fairness : BitVec 16
  thread : ι → Thread

/-- A locker in some phase, with every thread outside. -/
def State.init (ι : Type) (phase : Phase) : State ι where
  word := phase.bits
  writerCount := 0
  fairness := 0
  thread := fun _ => .outside

/-- One scheduling decision. -/
inductive Action (ι : Type) where
  | start (actor : ι) (op : UserOp)
  | run (actor : ι) (spurious : Bool)
  | wake (actor : ι) (picked : List ι)
  | interrupt (actor : ι)

namespace State

variable {ι : Type} [DecidableEq ι]

/-- Replace one thread. -/
def setThread (state : State ι) (actor : ι) (thread : Thread) : State ι :=
  { state with thread := Function.update state.thread actor thread }

/-- Continue one thread with the end of its local code. -/
def finish (state : State ι) (actor : ι) (next : Next) :
    Except Assertion (State ι) :=
  ((state.thread actor).continue next).map (state.setThread actor)

/-- Perform an instruction that is not a wake. -/
def runInstr
    (state : State ι)
    (actor : ι)
    (spurious : Bool) : Instr → Option (Except Assertion (State ι))
  | .fetch update next =>
      some <| { state with word := update state.word }.finish actor
        (next state.word)
  | .exchange weak cur new ok err =>
      some <|
        if state.word = cur ∧ (weak && spurious) = false then
          { state with word := new }.finish actor ok
        else
          state.finish actor (err state.word)
  | .fetchWriterCount update next =>
      some <|
        { state with writerCount := update state.writerCount }.finish actor
          (next state.writerCount)
  | .fetchFairness update next =>
      some <|
        { state with fairness := update state.fairness }.finish actor
          (next state.fairness)
  | .wait value parked failed =>
      some <|
        if state.word = value then
          state.finish actor (.goto parked)
        else
          state.finish actor failed
  | .wakeOneWriter _ => none
  | .wakeReaders _ => none
  | .rest => none

/-- Move a picked thread to the place after its wait. -/
def wakeThread (woken : Pc → Option Pc) (thread : Thread) : Thread :=
  match woken thread.pc with
  | some pc => { thread with pc := pc }
  | none => thread

/-- Move every picked thread to the place after its wait. -/
def wakePicked
    (state : State ι)
    (woken : Pc → Option Pc)
    (picked : List ι) : State ι :=
  { state with
    thread := fun actor =>
      if actor ∈ picked then
        wakeThread woken (state.thread actor)
      else
        state.thread actor }

/-- `picked` are different parked threads: all of them, or `limit` of them. -/
def CanWake
    (state : State ι)
    (woken : Pc → Option Pc)
    (limit : Nat)
    (picked : List ι) : Prop :=
  picked.Nodup ∧
    (∀ actor ∈ picked, (woken (state.thread actor).pc).isSome) ∧
    picked.length ≤ limit ∧
    (picked.length < limit →
      ∀ actor, (woken (state.thread actor).pc).isSome → actor ∈ picked)

instance [Fintype ι]
    (state : State ι)
    (woken : Pc → Option Pc)
    (limit : Nat)
    (picked : List ι) :
    Decidable (state.CanWake woken limit picked) :=
  inferInstanceAs (Decidable (_ ∧ _))

variable [Fintype ι]

/-- Perform a wake that picks the given parked threads. -/
def wakeInstr
    (state : State ι)
    (actor : ι)
    (picked : List ι) : Instr → Option (Except Assertion (State ι))
  | .wakeOneWriter next =>
      if state.CanWake Pc.wokenWriter 1 picked then
        some <| (state.wakePicked Pc.wokenWriter picked).finish actor
          (next (picked.length == 1))
      else
        none
  | .wakeReaders next =>
      if state.CanWake Pc.wokenReader maxWakedReaders picked then
        some <| (state.wakePicked Pc.wokenReader picked).finish actor
          (next picked.length)
      else
        none
  | _ => none

/-- Perform one action: not possible, a failed assertion, or a new state. -/
def exec
    (backend : Backend)
    (state : State ι) :
    Action ι → Option (Except Assertion (State ι))
  | .start actor op =>
      ((state.thread actor).start op).map fun thread =>
        .ok (state.setThread actor thread)
  | .run actor spurious =>
      state.runInstr actor spurious ((state.thread actor).pc.instr backend)
  | .wake actor picked =>
      state.wakeInstr actor picked ((state.thread actor).pc.instr backend)
  | .interrupt actor =>
      (state.thread actor).pc.interrupted.map fun pc =>
        .ok (state.setThread actor { state.thread actor with pc := pc })

/-- One step in which no assertion fails. -/
def Step
    (backend : Backend)
    (state : State ι)
    (action : Action ι)
    (after : State ι) : Prop :=
  state.exec backend action = some (.ok after)

/-- An action in which an assertion fails. -/
def Fails
    (backend : Backend)
    (state : State ι)
    (action : Action ι)
    (assertion : Assertion) : Prop :=
  state.exec backend action = some (.error assertion)

/-- Perform a schedule until an action is not possible or fails. -/
def execAll
    (backend : Backend)
    (state : State ι) :
    List (Action ι) → Option (Except Assertion (State ι))
  | [] => some (.ok state)
  | action :: actions =>
      match state.exec backend action with
      | some (.ok after) => after.execAll backend actions
      | result => result

/-- States reached from a fresh locker by steps in which no assertion fails. -/
def Reachable (backend : Backend) (state : State ι) : Prop :=
  ∃ phase actions, Run (Step backend) (init ι phase) actions state

/-- A longer schedule continues where the shorter one ended. -/
theorem execAll_append
    {backend : Backend}
    {initial middle : State ι}
    {earlier later : List (Action ι)}
    (performed : initial.execAll backend earlier = some (.ok middle)) :
    initial.execAll backend (earlier ++ later) =
      middle.execAll backend later := by
  induction earlier generalizing initial with
  | nil =>
      obtain rfl := Except.ok.inj (Option.some.inj performed)
      rfl
  | cons action actions inductionHypothesis =>
      unfold execAll at performed
      split at performed
      case h_1 after executed =>
        simp only [List.cons_append, execAll, executed]
        exact inductionHypothesis performed
      case h_2 failed => exact absurd performed (failed middle)

/-- A schedule that was performed is a run. -/
theorem run_of_execAll
    {backend : Backend}
    {state final : State ι}
    {actions : List (Action ι)}
    (performed : state.execAll backend actions = some (.ok final)) :
    Run (Step backend) state actions final := by
  induction actions generalizing state with
  | nil =>
      obtain rfl := Except.ok.inj (Option.some.inj performed)
      exact .refl
  | cons action actions inductionHypothesis =>
      unfold execAll at performed
      split at performed
      case h_1 after executed =>
        exact Run.cons executed (inductionHypothesis performed)
      case h_2 failed =>
        exact absurd performed (failed final)

/-- A performed schedule reaches its final state. -/
theorem reachable_of_execAll
    {backend : Backend}
    {final : State ι}
    (phase : Phase)
    (actions : List (Action ι))
    (performed :
      (init ι phase).execAll backend actions = some (.ok final)) :
    Reachable backend final :=
  ⟨phase, actions, run_of_execAll performed⟩

end State

end StaticInit.Sync
