import StaticInit.PhaseLocker.Sync.System

namespace StaticInit.Spinning

/-!
# The spinning locker as a program of atomic instructions

The `SyncPhaseLocker` of the feature `spin_loop`, cut at its atomic accesses
like the futex locker.  Its word has no waiter bits: a thread that cannot lock
reads the word again.  The guards, the closures and the operations are those
of the futex locker; only the code differs.

The counter of the outer loop of `raw_lock_slow` and that of `clone` are only
used for backoff and are left out.
-/

open Sync (Lock ReadLock Closures Call Result UserOp SpinWait)

def hasNoReaders (v : U32) : Bool :=
  v &&& (readerOverf ||| readerBits) == 0

/-- All 21 bits of the reader field are set. -/
def hasReadersMax (v : U32) : Bool :=
  v &&& (readerOverf ||| readerBits) == readerOverf ||| readerBits

def isNotWriteLocked (v : U32) : Bool :=
  v &&& lockedBit == 0

def isWriteLockable (v : U32) : Bool :=
  isNotWriteLocked v && hasNoReaders v

def isReadLockable (v : U32) : Bool :=
  isNotWriteLocked v && !hasReadersMax v

/-- `spin_no_yield`: the answer is always to go on. -/
def spinNoYield (wait : SpinWait) : Bool × SpinWait :=
  (true, ⟨if wait.counter + 1 > 10 then 10 else wait.counter + 1⟩)

/-- A place before an atomic instruction, with the live local variables. -/
inductive Pc where
  /-- Outside the locker. -/
  | idle
  /-- The first attempt of `raw_lock` and `try_raw_lock`, on the hint. -/
  | optimistic (call : Call)
  -- the second attempt of `try_raw_lock`
  | tryWrite (how : Phase → LockNature) (cur : U32)
  | tryRead (how : Phase → LockNature) (cur : U32)
  -- `raw_lock_slow`
  | slowWrite (how : Phase → LockNature) (cur : U32)
  | slowRead (how : Phase → LockNature) (spinWait : SpinWait) (cur : U32)
  | slowReadLoad (how : Phase → LockNature) (spinWait : SpinWait)
  | slowLoad (how : Phase → LockNature)
  -- `Drop for Lock`, `into_read_lock`, `Drop for ReadLock`
  | dropLock (lock : Lock)
  | convert (lock : Lock) (cur : Phase)
  | dropReadLock (lock : ReadLock)
  -- `Clone for ReadLock`
  | cloneLoad (guard : ReadLock)
  | cloneCas (guard : ReadLock) (cur : U32)

/-- Where the local code after an atomic instruction ends. -/
inductive Next where
  | goto (pc : Pc)
  | ret (result : Result)
  /-- The `unreachable!` of `Drop for Lock`. -/
  | unreachable

/-- Return `LockResult::None`. -/
def Next.retNone (phase : Phase) : Next :=
  .ret (.locked (some (.none phase)))

/-- Return `LockResult::Write`. -/
def Next.retWrite (lock : Lock) : Next :=
  .ret (.locked (some (.write lock)))

/-- Return `LockResult::Read`. -/
def Next.retRead (lock : ReadLock) : Next :=
  .ret (.locked (some (.read lock)))

/-- The head of the read loop of `try_raw_lock`. -/
def tryReadLoop (how : Phase → LockNature) (cur : U32) : Next :=
  if isReadLockable cur then
    .goto (.tryRead how cur)
  else
    .ret (.locked none)

/-- A failed exchange in the read loop of `try_raw_lock`. -/
def tryReadFailed (how : Phase → LockNature) (cur : U32) : Next :=
  if how (.fromBitsTruncate cur) = .read then
    tryReadLoop how cur
  else
    .ret (.locked none)

/-- `try_raw_lock` after the attempt on the hint. -/
def trySecond (how : Phase → LockNature) (cur : U32) : Next :=
  match how (.fromBitsTruncate cur) with
  | .write =>
      if isWriteLockable cur then
        .goto (.tryWrite how cur)
      else
        .ret (.locked none)
  | .read => tryReadLoop how cur
  | .none => .retNone (.fromBitsTruncate cur)

/-- The head of the inner loop of the `LockNature::Read` arm of `raw_lock_slow`. -/
def slowReadLoop
    (how : Phase → LockNature)
    (spinWait : SpinWait)
    (cur : U32) : Next :=
  if isReadLockable cur then
    .goto (.slowRead how spinWait cur)
  else
    .goto (.slowLoad how)

/-- A failed exchange in that inner loop. -/
def slowReadFailed (how : Phase → LockNature) (spinWait : SpinWait) : Next :=
  match spinNoYield spinWait with
  | (true, spinWait) => .goto (.slowReadLoad how spinWait)
  | (false, _) => .goto (.slowLoad how)

/-- The word that inner loop has read again. -/
def slowReadLoaded
    (how : Phase → LockNature)
    (spinWait : SpinWait)
    (cur : U32) : Next :=
  if how (.fromBitsTruncate cur) = .read then
    slowReadLoop how spinWait cur
  else
    .goto (.slowLoad how)

/-- The head of the loop of `raw_lock_slow`. -/
def slowLoop (how : Phase → LockNature) (cur : U32) : Next :=
  match how (.fromBitsTruncate cur) with
  | .write =>
      if isWriteLockable cur then
        .goto (.slowWrite how cur)
      else
        .goto (.slowLoad how)
  | .read => slowReadLoop how .new cur
  | .none => .retNone (.fromBitsTruncate cur)

/-- `raw_lock` and `try_raw_lock` after the attempt on the hint read `cur`. -/
def second (call : Call) (cur : U32) : Next :=
  match call with
  | .lock closures _ => slowLoop closures.how cur
  | .tryLock how _ => trySecond how cur

/-- The `LockNature::None` arm of the attempt on the hint. -/
def optimisticNone (call : Call) (cur : U32) : Next :=
  if call.how (.fromBitsTruncate cur) = .none then
    .retNone (.fromBitsTruncate cur)
  else
    second call cur

/-- The loop of `clone` has read `cur`. -/
def cloneLoop (guard : ReadLock) (cur : U32) : Next :=
  if !hasReadersMax cur then
    .goto (.cloneCas guard cur)
  else
    .goto (.cloneLoad guard)

/-- One atomic instruction, with the code that gets its result. -/
inductive Instr where
  /-- Replace the word and get its old value. -/
  | fetch (update : U32 → U32) (then_ : U32 → Next)
  /-- Replace the word if it is `cur`; a weak exchange may fail anyway. -/
  | exchange (weak : Bool) (cur new : U32) (ok : Next) (err : U32 → Next)
  /-- Nothing to do. -/
  | rest

/-- The attempt of `raw_lock` and `try_raw_lock` on the hint. -/
def optimistic (call : Call) : Instr :=
  match call.how call.hint with
  | .none => .fetch id (optimisticNone call)
  | .write =>
      .exchange true call.hint.bits (call.hint.bits ||| lockedBit)
        (.retWrite (.new call.hint.bits)) (second call)
  | .read =>
      .exchange true call.hint.bits (call.hint.bits + readerUnity)
        (.retRead (.new call.hint.bits)) (second call)

/-- The value by which `into_read_lock` flips the word. -/
def convertMask (lock : Lock) (cur : Phase) : U32 :=
  (cur ^^^ lock.onUnlock).bits ||| lockedBit ||| readerUnity

/-- The next atomic instruction at each place of the code. -/
def Pc.instr : Pc → Instr
  | .idle => .rest
  | .optimistic call => Spinning.optimistic call
  | .tryWrite _ cur =>
      .exchange false cur (cur ||| lockedBit)
        (.retWrite (.new cur)) (fun _ => .ret (.locked none))
  | .tryRead how cur =>
      .exchange true cur (cur + readerUnity)
        (.retRead (.new cur)) (tryReadFailed how)
  | .slowWrite how cur =>
      .exchange true cur (cur ||| lockedBit)
        (.retWrite (.new cur)) (slowLoop how)
  | .slowRead how spinWait cur =>
      .exchange true cur (cur + readerUnity)
        (.retRead (.new cur)) (fun _ => slowReadFailed how spinWait)
  | .slowReadLoad how spinWait => .fetch id (slowReadLoaded how spinWait)
  | .slowLoad how => .fetch id (slowLoop how)
  | .dropLock lock =>
      .exchange false (lock.initPhase.bits ||| lockedBit) lock.onUnlock.bits
        (.ret .dropped) (fun _ => .unreachable)
  | .convert lock cur =>
      .fetch (fun word => word ^^^ convertMask lock cur)
        (fun _ => .ret (.converted (.new lock.onUnlock.bits)))
  | .dropReadLock _ =>
      .fetch (fun word => word - readerUnity) (fun _ => .ret .dropped)
  | .cloneLoad guard => .fetch id (cloneLoop guard)
  | .cloneCas guard cur =>
      .exchange true cur (cur + readerUnity)
        (.ret (.cloned guard ⟨guard.initPhase⟩))
        (fun _ => .goto (.cloneLoad guard))

/-- The word after an instruction and the end of the local code. -/
def Instr.perform (word : U32) (spurious : Bool) : Instr → Option (U32 × Next)
  | .fetch update next => some (update word, next word)
  | .exchange weak cur new ok err =>
      some <|
        if word = cur ∧ (weak && spurious) = false then
          (new, ok)
        else
          (word, err word)
  | .rest => none

/-- The place of a thread and the guards it owns outside the locker. -/
structure Thread where
  pc : Pc
  locks : List Lock
  readLocks : List ReadLock

/-- A thread outside the locker that owns no guard. -/
def Thread.outside : Thread := ⟨.idle, [], []⟩

/-- Start an operation: only outside the locker, only on owned guards. -/
def Thread.start (thread : Thread) (op : UserOp) : Option Thread :=
  match thread.pc with
  | .idle =>
      match op with
      | .lock closures hint =>
          some { thread with pc := .optimistic (.lock closures hint) }
      | .tryLock how hint =>
          some { thread with pc := .optimistic (.tryLock how hint) }
      | .dropLock index =>
          thread.locks[index]?.map fun lock =>
            { thread with
              pc := .dropLock lock
              locks := thread.locks.eraseIdx index }
      | .dropReadLock index =>
          thread.readLocks[index]?.map fun lock =>
            { thread with
              pc := .dropReadLock lock
              readLocks := thread.readLocks.eraseIdx index }
      | .clone index =>
          thread.readLocks[index]?.map fun lock =>
            { thread with
              pc := .cloneLoad lock
              readLocks := thread.readLocks.eraseIdx index }
      | .convert index =>
          thread.locks[index]?.map fun lock =>
            { thread with
              pc := .convert lock lock.initPhase
              locks := thread.locks.eraseIdx index }
      | .setPhase index phase =>
          thread.locks[index]?.map fun lock =>
            { thread with
              locks :=
                thread.locks.set index { lock with onUnlock := phase } }
  | _ => none

/-- The panic of the locker: the `unreachable!` of `Drop for Lock`. -/
inductive Panic where
  | unreachable
  deriving Repr, DecidableEq

/-- Continue a thread with the end of its local code. -/
def Thread.continue (thread : Thread) (next : Next) : Except Panic Thread :=
  match next with
  | .goto pc => .ok { thread with pc := pc }
  | .ret result =>
      .ok
        { pc := .idle
          locks := result.locks ++ thread.locks
          readLocks := result.readLocks ++ thread.readLocks }
  | .unreachable => .error .unreachable

/-- The spinning locker and its threads. -/
structure State (ι : Type) where
  word : U32
  thread : ι → Thread

/-- A locker in some phase, with every thread outside. -/
def State.init (ι : Type) (phase : Phase) : State ι where
  word := phase.bits
  thread := fun _ => .outside

/-- One scheduling decision. -/
inductive Action (ι : Type) where
  | start (actor : ι) (op : UserOp)
  | run (actor : ι) (spurious : Bool)

/-- The thread that performs an action. -/
def Action.actor {ι : Type} : Action ι → ι
  | .start actor _ => actor
  | .run actor _ => actor

namespace State

variable {ι : Type} [DecidableEq ι]

/-- Replace the word and one thread. -/
def setThread
    (state : State ι)
    (word : U32)
    (actor : ι)
    (thread : Thread) : State ι where
  word := word
  thread := Function.update state.thread actor thread

/-- Perform one action: not possible, a panic, or a new state. -/
def exec (state : State ι) : Action ι → Option (Except Panic (State ι))
  | .start actor op =>
      ((state.thread actor).start op).map fun thread =>
        .ok (state.setThread state.word actor thread)
  | .run actor spurious =>
      ((state.thread actor).pc.instr.perform state.word spurious).map
        fun (word, next) =>
          ((state.thread actor).continue next).map
            (state.setThread word actor)

/-- One step without a panic. -/
def Step (state : State ι) (action : Action ι) (after : State ι) : Prop :=
  state.exec action = some (.ok after)

theorem setThread_self
    (state : State ι)
    (word : U32)
    (actor : ι)
    (thread : Thread) :
    (state.setThread word actor thread).thread actor = thread :=
  Function.update_self _ _ _

theorem setThread_other
    {state : State ι}
    {actor other : ι}
    (word : U32)
    (thread : Thread)
    (different : other ≠ actor) :
    (state.setThread word actor thread).thread other = state.thread other :=
  Function.update_of_ne different _ _

/-- What a step does to the word and to its own thread. -/
inductive ActorStep (state : State ι) : Action ι → State ι → Prop where
  | start
      {actor : ι}
      {op : UserOp}
      {thread : Thread}
      (starts : (state.thread actor).start op = some thread) :
      ActorStep state (.start actor op)
        (state.setThread state.word actor thread)
  | instruction
      {actor : ι}
      {spurious : Bool}
      {word : U32}
      {next : Next}
      {thread : Thread}
      (performs :
        (state.thread actor).pc.instr.perform state.word spurious =
          some (word, next))
      (continues : (state.thread actor).continue next = .ok thread) :
      ActorStep state (.run actor spurious)
        (state.setThread word actor thread)

theorem actorStep
    {state after : State ι}
    {action : Action ι}
    (step : State.Step state action after) :
    ActorStep state action after := by
  unfold State.Step at step
  cases action with
  | start actor op =>
      rw [State.exec, Option.map_eq_some_iff] at step
      obtain ⟨thread, starts, same⟩ := step
      obtain rfl := Except.ok.inj same
      exact .start starts
  | run actor spurious =>
      rw [State.exec, Option.map_eq_some_iff] at step
      obtain ⟨⟨word, next⟩, performs, finishes⟩ := step
      dsimp only at finishes
      cases continues : (state.thread actor).continue next with
      | error panic =>
          rw [continues] at finishes
          cases finishes
      | ok thread =>
          rw [continues] at finishes
          obtain rfl := Except.ok.inj finishes
          exact .instruction performs continues

/-- Perform one action, if it is possible and does not panic. -/
def advance (state : State ι) (action : Action ι) : Option (State ι) :=
  match state.exec action with
  | some (.ok after) => some after
  | _ => none

theorem step_of_advance
    {state after : State ι}
    {action : Action ι}
    (advances : state.advance action = some after) :
    Step state action after := by
  unfold advance at advances
  split at advances
  case h_1 executed =>
    obtain rfl := Option.some.inj advances
    exact executed
  case h_2 => cases advances

/-- A schedule that was performed is a run. -/
theorem run_of_advances
    {state final : State ι}
    {actions : List (Action ι)}
    (performed : runAll advance state actions = some final) :
    Run Step state actions final :=
  (Run.of_runAll performed).mono fun _ _ _ _ => step_of_advance

/-- The phase that the word shows. -/
def phase (state : State ι) : Phase :=
  Phase.fromBitsTruncate state.word

/-- States reached from a fresh locker by steps without a panic. -/
def Reachable (state : State ι) : Prop :=
  ∃ phase actions, Run Step (init ι phase) actions state

end State

end StaticInit.Spinning
