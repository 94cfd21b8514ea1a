import StaticInit.PhaseLocker.Sync.Bits

namespace StaticInit.Sync

/-!
# The futex locker as a program of atomic instructions

Each function of the futex based `SyncPhaseLocker` is cut at its atomic
accesses.  A `Pc` is a place in the code where a thread is about to perform
one atomic instruction, together with the local variables that are live
there; `Pc.instr` gives that instruction and what the code does with its
result.  The code between two accesses is local and runs in the step of the
access before it.

The calls of `spin_loop`, `sched_yield`, `fence` and `compiler_fence` do not
change any value and are left out, as is the counter of `read_lock`, which is
only used for backoff.
-/

/-- Exponential backoff of `SpinWait`: how often `spin` was called. -/
structure SpinWait where
  counter : Nat
  deriving Repr, DecidableEq

namespace SpinWait

def new : SpinWait := ⟨0⟩

/-- Whether the thread shall spin once more, and the advanced counter. -/
def spin (wait : SpinWait) : Bool × SpinWait :=
  if wait.counter ≥ 10 then
    (false, wait)
  else
    (true, ⟨wait.counter + 1⟩)

end SpinWait

/-- Write access to the locker. -/
structure Lock where
  initPhase : Phase
  onUnlock : Phase
  deriving Repr, DecidableEq

/-- Read access to the locker. -/
structure ReadLock where
  initPhase : Phase
  deriving Repr, DecidableEq

def Lock.new (current : U32) : Lock :=
  ⟨Phase.fromBitsTruncate current, Phase.fromBitsTruncate current⟩

def ReadLock.new (current : U32) : ReadLock :=
  ⟨Phase.fromBitsTruncate current⟩

/-- The two futex implementations. -/
inductive Backend where
  | linux
  | other
  deriving Repr, DecidableEq

def readFairnessPeriod : BitVec 16 := 32#16

def Backend.preferWakeOneWriter
    (backend : Backend)
    (fairness : BitVec 16) : Bool :=
  match backend with
  | .linux => fairness % readFairnessPeriod != 0
  | .other => fairness % readFairnessPeriod == 0

/-- The two closures of `lock`. -/
structure Closures where
  how : Phase → LockNature
  onWaitingHow : Phase → LockNature

/-- A call of `lock` or `try_lock`. -/
inductive Call where
  | lock (closures : Closures) (hint : Phase)
  | tryLock (how : Phase → LockNature) (hint : Phase)

def Call.how : Call → Phase → LockNature
  | .lock closures _ => closures.how
  | .tryLock how _ => how

def Call.hint : Call → Phase
  | .lock _ hint => hint
  | .tryLock _ hint => hint

/-- What a thread gets when an operation of the locker returns. -/
inductive Result where
  /-- `lock` or `try_lock`; no value is the `None` of `try_lock`. -/
  | locked (result : Option (LockResult ReadLock Lock))
  /-- The cloned guard and its clone. -/
  | cloned (original clone : ReadLock)
  | converted (guard : ReadLock)
  | dropped

/-- The write guards an operation returns to its caller. -/
def Result.locks : Result → List Lock
  | .locked (some (.write lock)) => [lock]
  | _ => []

/-- The read guards an operation returns to its caller. -/
def Result.readLocks : Result → List ReadLock
  | .locked (some (.read lock)) => [lock]
  | .cloned original clone => [original, clone]
  | .converted guard => [guard]
  | _ => []

/-- The code that runs once a guard dropped inside the locker is released. -/
inductive After where
  /-- The guard was dropped by its owner. -/
  | done
  /-- A woken thread drops its lock and returns `LockResult::None`. -/
  | retNone (phase : Phase)
  /-- A woken reader drops its lock and goes round `raw_lock_slow` again. -/
  | relock (closures : Closures)

/-- The code that gets the read lock of `into_read_lock`. -/
inductive Converter where
  /-- A write guard is converted by its owner. -/
  | guard
  /-- A thread woken as a writer returns `LockResult::Read`. -/
  | woken

def Converter.result
    (converter : Converter)
    (guard : ReadLock) : Result :=
  match converter with
  | .guard => .converted guard
  | .woken => .locked (some (.read guard))

/-- The code that called `wake_readers`. -/
inductive Waker where
  | converting (converter : Converter)
  | releasing (after : After)

def Waker.isConverting : Waker → Bool
  | .converting _ => true
  | .releasing _ => false

/-- Which waiters `transfer_lock` prefers to wake. -/
inductive Preference where
  | writer
  | readers
  deriving Repr, DecidableEq

/-- The assertions of the locker. -/
inductive Assertion where
  | transferUnlocked
  | transferHasWaiters
  | transferWriteWaiter
  | transferSawWriteWaiter
  | transferSawUnlocked
  | transferStillLocked
  | wakeSawUnactivated
  | wakeSawNoReader
  | wakeSawUnlocked
  | waitAsWriterBit
  | waitAsReaderBit
  | wokenWriterLocked
  | wokenReaderCounted
  | cloneCounted
  | writerCountNotMax
  | writerCountNotZero
  deriving Repr, DecidableEq

/-- A place before an atomic instruction, with the live local variables. -/
inductive Pc where
  /-- Outside the locker. -/
  | idle
  -- `optimistic_lock`, then the second attempt of `raw_lock`, `try_raw_lock`
  | optimistic (call : Call)
  | secondWrite (call : Call) (cur : U32)
  | secondRead (call : Call) (cur : U32)
  | secondReadLoad (closures : Closures) (hint : Phase)
  -- `raw_lock_slow`
  | slowLoad (closures : Closures) (spinWait : SpinWait)
  | slowWrite (closures : Closures) (spinWait : SpinWait) (cur : U32)
  | slowWhileReaders (closures : Closures) (spinWait : SpinWait) (cur : U32)
  | slowRead (closures : Closures) (spinWait : SpinWait) (cur : U32)
  | slowReadLoad (closures : Closures) (spinWait : SpinWait)
  | setWriteWaiter (closures : Closures) (spinWait : SpinWait) (cur : U32)
  | setReadWaiter (closures : Closures) (spinWait : SpinWait) (cur : U32)
  -- `wait_for_readers`
  | waitReadersLoad (closures : Closures) (spinWait inner : SpinWait)
  | waitReadersCas (closures : Closures) (spinWait : SpinWait) (cur : U32)
  -- `wait_as_writer_then_wake_with_lock`
  | writerCountAdd (closures : Closures) (cur : U32)
  | writerWait (closures : Closures) (cur : U32)
  | parkedWriter (closures : Closures)
  | writerCountSub (closures : Closures) (res : Bool)
  | writerOr (closures : Closures)
  | writerLoad (closures : Closures)
  -- `wait_as_reader_then_wake_with_lock`
  | readerWait (closures : Closures) (cur : U32)
  | parkedReader (closures : Closures)
  | readerLoad (closures : Closures)
  -- `Drop for Lock`, `into_read_lock`, `Drop for ReadLock`
  | dropLockCas (lock : Lock) (after : After)
  | dropLockXor (lock : Lock) (after : After)
  | convertXor (lock : Lock) (cur : Phase) (converter : Converter)
  | dropReadSub (lock : ReadLock) (after : After)
  -- `transfer_lock`
  | transferPrefer (cur : U32) (after : After)
  | transferXor (preference : Preference) (cur : U32) (after : After)
  | transferFairness (preference : Preference) (cur : U32) (after : After)
  | transferWake (preference : Preference) (cur : U32) (after : After)
  | transferAnd (preference : Preference) (after : After)
  -- `wake_readers`
  | wakeXor (toUnactivate : U32) (waker : Waker)
  | wakeFairness (waker : Waker)
  | wakeCall (waker : Waker)
  | wakeOr (count : Nat) (waker : Waker)
  | wakeSub (count : Nat) (waker : Waker)
  -- `Clone for ReadLock`
  | cloneLoad (guard : ReadLock) (spinWait : SpinWait)
  | cloneCas (guard : ReadLock) (spinWait : SpinWait) (cur : U32)
  | cloneReadLoad (guard : ReadLock) (spinWait : SpinWait)
  | cloneSetWaiter (guard : ReadLock) (spinWait : SpinWait) (cur : U32)
  | cloneWait (guard : ReadLock) (cur : U32)
  | parkedClone (guard : ReadLock)
  | cloneWoken (guard : ReadLock)

/-- Where the local code after an atomic instruction ends. -/
inductive Next where
  | goto (pc : Pc)
  | ret (result : Result)
  | panic (assertion : Assertion)

/-- `assert!(condition)` followed by the rest of the code. -/
def Next.assert
    (condition : Bool)
    (assertion : Assertion)
    (rest : Next) : Next :=
  if condition then rest else .panic assertion

/-- Leave the locker with `LockResult::None`. -/
def Next.retNone (phase : Phase) : Next :=
  .ret (.locked (some (.none phase)))

def After.resume : After → Next
  | .done => .ret .dropped
  | .retNone phase => .retNone phase
  | .relock closures => .goto (.slowLoad closures .new)

/-- The end of `try_raw_lock`, or the call of `raw_lock_slow` in `raw_lock`. -/
def Call.secondFailed : Call → Next
  | .lock closures _ => .goto (.slowLoad closures .new)
  | .tryLock _ _ => .ret (.locked none)

/-- `try_raw_lock` and `raw_lock` after `optimistic_lock` returned `Err(cur)`. -/
def Call.second (call : Call) (cur : U32) : Next :=
  match call.how (.fromBitsTruncate cur) with
  | .write =>
      if isWriteLockable cur && hasNoReaders cur then
        .goto (.secondWrite call cur)
      else
        call.secondFailed
  | .read =>
      if isReadLockable cur then
        .goto (.secondRead call cur)
      else
        call.secondFailed
  | .none => .retNone (.fromBitsTruncate cur)

/-- The `LockNature::None` arm of `optimistic_lock`. -/
def Call.optimisticNone (call : Call) (cur : U32) : Next :=
  if call.how (.fromBitsTruncate cur) = .none then
    .retNone (.fromBitsTruncate cur)
  else
    call.second cur

/-- A failed exchange in the read loop: reload in `read_lock`, test in `try_raw_lock`. -/
def Call.secondReadFailed (call : Call) (cur : U32) : Next :=
  match call with
  | .lock closures hint => .goto (.secondReadLoad closures hint)
  | .tryLock how _ =>
      if how (.fromBitsTruncate cur) = .read ∧ isReadLockable cur = true then
        .goto (.secondRead call cur)
      else
        call.secondFailed

/-- The closure `shall_continue` of the calls of `read_lock` in `raw_lock`. -/
def Closures.shallContinue (closures : Closures) (cur : U32) : Bool :=
  closures.how (.fromBitsTruncate cur) == .read && isReadLockable cur

def waitAsWriter (closures : Closures) (cur : U32) : Next :=
  .assert (cur &&& writeWaiterBit != 0) .waitAsWriterBit
    (.goto (.writerCountAdd closures cur))

def waitAsReader (closures : Closures) (cur : U32) : Next :=
  .assert (cur &&& readWaiterBit != 0) .waitAsReaderBit
    (.goto (.readerWait closures cur))

/-- The waiting part of `raw_lock_slow`. -/
def slowWaiting
    (closures : Closures)
    (spinWait : SpinWait)
    (cur : U32) : Next :=
  match closures.onWaitingHow (.fromBitsTruncate cur) with
  | .none => .retNone (.fromBitsTruncate cur)
  | .write =>
      if cur &&& writeWaiterBit == 0 then
        .goto (.setWriteWaiter closures spinWait cur)
      else
        waitAsWriter closures cur
  | .read =>
      if cur &&& readWaiterBit == 0 then
        .goto (.setReadWaiter closures spinWait cur)
      else
        waitAsReader closures cur

/-- Spin once more if `condition` allows it, else go on to wait. -/
def slowSpin
    (closures : Closures)
    (spinWait : SpinWait)
    (cur : U32)
    (condition : Bool) : Next :=
  if condition then
    match spinWait.spin with
    | (true, spinWait) => .goto (.slowLoad closures spinWait)
    | (false, spinWait) => slowWaiting closures spinWait cur
  else
    slowWaiting closures spinWait cur

/-- The end of the `LockNature::Write` arm of `raw_lock_slow`. -/
def slowWriteSpin
    (closures : Closures)
    (spinWait : SpinWait)
    (cur : U32) : Next :=
  slowSpin closures spinWait cur (cur &&& writeWaiterBit == 0)

/-- The end of the `LockNature::Read` arm of `raw_lock_slow`. -/
def slowReadSpin
    (closures : Closures)
    (spinWait : SpinWait)
    (cur : U32) : Next :=
  slowSpin closures spinWait cur (hasNoWaiters cur)

/-- The head of the loop of `raw_lock_slow`. -/
def slowLoop
    (closures : Closures)
    (spinWait : SpinWait)
    (cur : U32) : Next :=
  match closures.how (.fromBitsTruncate cur) with
  | .none => .retNone (.fromBitsTruncate cur)
  | .write =>
      if isWriteLockable cur then
        if hasNoReaders cur then
          .goto (.slowWrite closures spinWait cur)
        else
          .goto (.slowWhileReaders closures spinWait cur)
      else
        slowWriteSpin closures spinWait cur
  | .read =>
      if isReadLockable cur then
        .goto (.slowRead closures spinWait cur)
      else
        slowReadSpin closures spinWait cur

/-- The head of the spinning loop of `wait_for_readers`. -/
def waitForReaders
    (closures : Closures)
    (spinWait inner : SpinWait)
    (cur : U32) : Next :=
  match inner.spin with
  | (true, inner) => .goto (.waitReadersLoad closures spinWait inner)
  | (false, _) => .goto (.waitReadersCas closures spinWait cur)

/-- Return the write lock of `LockResult::Write`. -/
def Next.retWrite (lock : Lock) : Next :=
  .ret (.locked (some (.write lock)))

/-- Return the read lock of `LockResult::Read`. -/
def Next.retRead (lock : ReadLock) : Next :=
  .ret (.locked (some (.read lock)))

/-- A thread woken as a writer settles for what `how` asks for now. -/
def writerWoken (closures : Closures) (cur : U32) : Next :=
  .assert (cur &&& lockedBit != 0) .wokenWriterLocked <|
    match closures.how (.fromBitsTruncate cur) with
    | .write => .retWrite (.new cur)
    | .read =>
        .goto (.convertXor (.new cur) (.fromBitsTruncate cur) .woken)
    | .none =>
        .goto (.dropLockCas (.new cur) (.retNone (.fromBitsTruncate cur)))

/-- `compare_and_wait_as_writer` has returned `res`. -/
def writerWaited (closures : Closures) (res : Bool) : Next :=
  if res then
    .goto (.writerLoad closures)
  else
    .goto (.slowLoad closures .new)

/-- A thread woken as a reader settles for what `how` asks for now. -/
def readerWoken (closures : Closures) (cur : U32) : Next :=
  .assert (cur &&& (readerBits ||| readerOverf) != 0) .wokenReaderCounted <|
    match closures.how (.fromBitsTruncate cur) with
    | .read => .retRead (.new cur)
    | .none =>
        .goto (.dropReadSub (.new cur) (.retNone (.fromBitsTruncate cur)))
    | .write => .goto (.dropReadSub (.new cur) (.relock closures))

/-- The entry of `transfer_lock`. -/
def transferLock (cur : U32) (after : After) : Next :=
  .assert (cur &&& (lockedBit ||| readerBits ||| readerOverf) == 0)
      .transferUnlocked <|
    .assert (cur &&& (readWaiterBit ||| writeWaiterBit) != 0)
      .transferHasWaiters <|
    .goto (.transferPrefer cur after)

/-- The head of the loop of `transfer_lock` for each preference. -/
def transferLoop
    (preference : Preference)
    (cur : U32)
    (after : After) : Next :=
  match preference with
  | .writer =>
      if cur &&& writeWaiterBit != 0 then
        .goto (.transferXor .writer cur after)
      else if cur &&& readWaiterBit != 0 then
        .goto (.wakeXor 0 (.releasing after))
      else
        .goto (.transferAnd .writer after)
  | .readers =>
      if cur &&& readWaiterBit != 0 then
        .goto (.wakeXor 0 (.releasing after))
      else
        .assert (cur &&& writeWaiterBit != 0) .transferWriteWaiter
          (.goto (.transferXor .readers cur after))

/-- `transfer_lock` after `wake_one_writer`. -/
def transferWoken
    (preference : Preference)
    (cur : U32)
    (after : After)
    (woken : Bool) : Next :=
  if woken then
    after.resume
  else
    match preference with
    | .writer =>
        if (cur ^^^ (writeWaiterBit ||| lockedBit)) &&& readWaiterBit != 0 then
          .goto (.wakeXor lockedBit (.releasing after))
        else
          .goto (.transferAnd .writer after)
    | .readers => .goto (.transferAnd .readers after)

/-- `transfer_lock` after it gave the lock bit back and read `cur`. -/
def transferReleased
    (preference : Preference)
    (after : After)
    (cur : U32) : Next :=
  .assert (cur &&& lockedBit != 0) .transferStillLocked <|
    if hasNoWaiters cur then
      after.resume
    else
      transferLoop preference (cur &&& ~~~lockedBit) after

/-- The mask of the first exchange of `wake_readers`. -/
def wakeMask (toUnactivate : U32) (converting : Bool) : U32 :=
  readWaiterBit ||| toUnactivate ||| readerOverf |||
    (if converting then 0 else readerUnity)

/-- `wake_readers` after its first exchange read `v`. -/
def wakeMarked (toUnactivate : U32) (waker : Waker) (v : U32) : Next :=
  .assert (v &&& toUnactivate == toUnactivate) .wakeSawUnactivated <|
    .assert (waker.isConverting || v &&& readerUnity != readerUnity)
      .wakeSawNoReader <|
    .assert ((v ^^^ toUnactivate) &&& lockedBit == 0) .wakeSawUnlocked <|
    .goto (.wakeFairness waker)

/-- `Futex::wake_readers` after the wake of `count` readers. -/
def wakeCounted (waker : Waker) (count : Nat) : Next :=
  if count = maxWakedReaders then
    .goto (.wakeOr count waker)
  else
    .goto (.wakeSub count waker)

/-- The value `wake_readers` subtracts at last. -/
def wakeUnits (count : Nat) : U32 :=
  readerOverf - readerUnity * BitVec.ofNat 32 count

/-- The end of `wake_readers`, and the drop of the lock when releasing. -/
def Waker.woken (waker : Waker) (cur : U32) : Next :=
  match waker with
  | .converting converter => .ret (converter.result (.new cur))
  | .releasing after => .goto (.dropReadSub (.new cur) after)

/-- `Drop for ReadLock` after the subtraction read `prev`. -/
def readDropped (after : After) (prev : U32) : Next :=
  if hasOneReader prev && isNotWriteLocked prev && hasWaiters prev then
    transferLock (prev - readerUnity) after
  else
    after.resume

/-- The value by which the slow release of a lock flips the word. -/
def Lock.releaseMask (lock : Lock) : U32 :=
  (lock.initPhase ^^^ lock.onUnlock).bits ||| lockedBit

/-- `Drop for Lock` after the slow release read `prev`. -/
def Lock.released (lock : Lock) (after : After) (prev : U32) : Next :=
  if hasWaiters prev then
    transferLock (prev ^^^ lock.releaseMask) after
  else
    after.resume

/-- The value by which `into_read_lock` flips the word. -/
def Lock.convertMask (lock : Lock) (cur : Phase) : U32 :=
  (cur ^^^ lock.onUnlock).bits ||| lockedBit ||| readerUnity

/-- `into_read_lock` after its exchange read `prev`. -/
def Lock.converted (lock : Lock) (converter : Converter) (prev : U32) : Next :=
  if prev &&& readWaiterBit != 0 then
    .goto (.wakeXor 0 (.converting converter))
  else
    .ret (converter.result (.new lock.onUnlock.bits))

/-- The part of the loop of `clone` for a saturated word. -/
def cloneFull (guard : ReadLock) (spinWait : SpinWait) (cur : U32) : Next :=
  if cur &&& readWaiterBit == 0 then
    match spinWait.spin with
    | (true, spinWait) => .goto (.cloneLoad guard spinWait)
    | (false, spinWait) => .goto (.cloneSetWaiter guard spinWait cur)
  else
    .goto (.cloneWait guard cur)

/-- The head of the loop of `clone`. -/
def cloneLoop (guard : ReadLock) (spinWait : SpinWait) (cur : U32) : Next :=
  if !hasReadersMax cur then
    .goto (.cloneCas guard spinWait cur)
  else
    cloneFull guard spinWait cur

/-- One atomic instruction, with the code that gets its result. -/
inductive Instr where
  /-- Replace the word and get its old value. -/
  | fetch (update : U32 → U32) (then_ : U32 → Next)
  /-- Replace the word if it is `cur`; a weak exchange may fail anyway. -/
  | exchange (weak : Bool) (cur new : U32) (ok : Next) (err : U32 → Next)
  | fetchWriterCount
      (update : BitVec 32 → BitVec 32) (then_ : BitVec 32 → Next)
  | fetchFairness
      (update : BitVec 16 → BitVec 16) (then_ : BitVec 16 → Next)
  /-- Park if the word is `value`, else go on. -/
  | wait (value : U32) (parked : Pc) (failed : Next)
  | wakeOneWriter (then_ : Bool → Next)
  | wakeReaders (then_ : Nat → Next)
  /-- Nothing to do: idle or parked. -/
  | rest

namespace Instr

def load (then_ : U32 → Next) : Instr :=
  .fetch id then_

def fetchXor (mask : U32) (then_ : U32 → Next) : Instr :=
  .fetch (fun word => word ^^^ mask) then_

def fetchAnd (mask : U32) (then_ : U32 → Next) : Instr :=
  .fetch (fun word => word &&& mask) then_

def fetchOr (mask : U32) (then_ : U32 → Next) : Instr :=
  .fetch (fun word => word ||| mask) then_

def fetchSub (value : U32) (then_ : U32 → Next) : Instr :=
  .fetch (fun word => word - value) then_

end Instr

/-- `optimistic_lock`. -/
def Call.optimistic (call : Call) : Instr :=
  match call.how call.hint with
  | .none => .load call.optimisticNone
  | .write =>
      .exchange true call.hint.bits (call.hint.bits ||| lockedBit)
        (.retWrite (.new call.hint.bits)) call.second
  | .read =>
      .exchange true call.hint.bits (call.hint.bits + readerUnity)
        (.retRead (.new call.hint.bits)) call.second

/-- The second attempt to get a write lock: weak in `lock` only. -/
def Call.secondWrite (call : Call) (cur : U32) : Instr :=
  match call with
  | .lock _ _ =>
      .exchange true cur (cur ||| lockedBit)
        (.retWrite (.new cur)) (fun _ => call.secondFailed)
  | .tryLock _ _ =>
      .exchange false cur (cur ||| lockedBit)
        (.retWrite (.new cur)) (fun _ => call.secondFailed)

/-- The next atomic instruction at each place of the code. -/
def Pc.instr (backend : Backend) : Pc → Instr
  | .idle => .rest
  | .optimistic call => call.optimistic
  | .secondWrite call cur => call.secondWrite cur
  | .secondRead call cur =>
      .exchange true cur (cur + readerUnity)
        (.retRead (.new cur)) call.secondReadFailed
  | .secondReadLoad closures hint =>
      .load fun cur =>
        if closures.shallContinue cur then
          .goto (.secondRead (.lock closures hint) cur)
        else
          .goto (.slowLoad closures .new)
  | .slowLoad closures spinWait =>
      .load (slowLoop closures spinWait)
  | .slowWrite closures spinWait cur =>
      .exchange true cur (cur ||| lockedBit)
        (.retWrite (.new cur)) (slowLoop closures spinWait)
  | .slowWhileReaders closures spinWait cur =>
      .exchange true cur (cur ||| lockedBit)
        (waitForReaders closures spinWait .new (cur ||| lockedBit))
        (slowLoop closures spinWait)
  | .slowRead closures spinWait cur =>
      .exchange true cur (cur + readerUnity)
        (.retRead (.new cur))
        (fun _ => .goto (.slowReadLoad closures spinWait))
  | .slowReadLoad closures spinWait =>
      .load fun cur =>
        if closures.shallContinue cur then
          .goto (.slowRead closures spinWait cur)
        else
          slowReadSpin closures spinWait cur
  | .setWriteWaiter closures spinWait cur =>
      .exchange true cur (cur ||| writeWaiterBit)
        (waitAsWriter closures (cur ||| writeWaiterBit))
        (slowLoop closures spinWait)
  | .setReadWaiter closures spinWait cur =>
      .exchange true cur (cur ||| readWaiterBit)
        (waitAsReader closures (cur ||| readWaiterBit))
        (slowLoop closures spinWait)
  | .waitReadersLoad closures spinWait inner =>
      .load fun cur =>
        if hasNoReaders cur then
          .retWrite (.new cur)
        else
          waitForReaders closures spinWait inner cur
  | .waitReadersCas closures spinWait cur =>
      .exchange true cur ((cur ||| writeWaiterBit) &&& ~~~lockedBit)
        (slowWriteSpin closures spinWait
          ((cur ||| writeWaiterBit) &&& ~~~lockedBit))
        (fun cur =>
          if hasNoReaders cur then
            .retWrite (.new cur)
          else
            .goto (.waitReadersCas closures spinWait cur))
  | .writerCountAdd closures cur =>
      .fetchWriterCount (fun count => count + 1) fun prev =>
        .assert (prev != BitVec.allOnes 32) .writerCountNotMax
          (.goto (.writerWait closures cur))
  | .writerWait closures cur =>
      .wait cur (.parkedWriter closures)
        (.goto (.writerCountSub closures false))
  | .parkedWriter _ => .rest
  | .writerCountSub closures res =>
      .fetchWriterCount (fun count => count - 1) fun prev =>
        .assert (prev != 0) .writerCountNotZero <|
          if res && prev > 1 then
            .goto (.writerOr closures)
          else
            writerWaited closures res
  | .writerOr closures =>
      .fetchOr writeWaiterBit fun _ => writerWaited closures true
  | .writerLoad closures => .load (writerWoken closures)
  | .readerWait closures cur =>
      .wait cur (.parkedReader closures)
        (.goto (.slowLoad closures .new))
  | .parkedReader _ => .rest
  | .readerLoad closures => .load (readerWoken closures)
  | .dropLockCas lock after =>
      .exchange false (lock.initPhase.bits ||| lockedBit) lock.onUnlock.bits
        after.resume (fun _ => .goto (.dropLockXor lock after))
  | .dropLockXor lock after =>
      .fetchXor lock.releaseMask (lock.released after)
  | .convertXor lock cur converter =>
      .fetchXor (lock.convertMask cur) (lock.converted converter)
  | .dropReadSub _ after =>
      .fetchSub readerUnity (readDropped after)
  | .transferPrefer cur after =>
      .fetchFairness id fun fairness =>
        if backend.preferWakeOneWriter fairness then
          transferLoop .writer cur after
        else
          transferLoop .readers cur after
  | .transferXor preference cur after =>
      .fetchXor (writeWaiterBit ||| lockedBit) fun prev =>
        .assert (prev &&& writeWaiterBit != 0) .transferSawWriteWaiter <|
          .assert
            (prev &&& (lockedBit ||| readerBits ||| readerOverf) == 0)
            .transferSawUnlocked <|
          .goto (.transferFairness preference cur after)
  | .transferFairness preference cur after =>
      .fetchFairness (fun fairness => fairness + 1) fun _ =>
        .goto (.transferWake preference cur after)
  | .transferWake preference cur after =>
      .wakeOneWriter (transferWoken preference cur after)
  | .transferAnd preference after =>
      .fetchAnd (~~~lockedBit) (transferReleased preference after)
  | .wakeXor toUnactivate waker =>
      .fetchXor (wakeMask toUnactivate waker.isConverting)
        (wakeMarked toUnactivate waker)
  | .wakeFairness waker =>
      .fetchFairness (fun _ => 1) fun _ => .goto (.wakeCall waker)
  | .wakeCall waker => .wakeReaders (wakeCounted waker)
  | .wakeOr count waker =>
      .fetchOr readWaiterBit fun _ => .goto (.wakeSub count waker)
  | .wakeSub count waker =>
      .fetchSub (wakeUnits count) waker.woken
  | .cloneLoad guard spinWait => .load (cloneLoop guard spinWait)
  | .cloneCas guard spinWait cur =>
      .exchange true cur (cur + readerUnity)
        (.ret (.cloned guard (.new cur)))
        (fun _ => .goto (.cloneReadLoad guard spinWait))
  | .cloneReadLoad guard spinWait =>
      .load fun cur =>
        if !hasReadersMax cur then
          .goto (.cloneCas guard spinWait cur)
        else
          cloneFull guard spinWait cur
  | .cloneSetWaiter guard spinWait cur =>
      .exchange true cur (cur ||| readWaiterBit)
        (.goto (.cloneWait guard (cur ||| readWaiterBit)))
        (cloneLoop guard spinWait)
  | .cloneWait guard cur =>
      .wait cur (.parkedClone guard) (.goto (.cloneLoad guard .new))
  | .parkedClone _ => .rest
  | .cloneWoken guard =>
      .load fun cur =>
        .assert (cur &&& (readerBits ||| readerOverf) != 0) .cloneCounted
          (.ret (.cloned guard (.new cur)))

end StaticInit.Sync
