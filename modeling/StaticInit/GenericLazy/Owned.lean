import StaticInit.GenericLazy.Accessors
import StaticInit.PhaseLocker.Spinning.System
import StaticInit.PhaseLocker.Sync.Phases
import StaticInit.PhaseLocker.UnSync

namespace StaticInit

/-!
# The lazies that are owned

`Lazy`, `LockedLazy`, `UnSyncLazy` and `UnSyncLockedLazy` may be built as
local variables.  Whoever owns one may also initialize it without the lock,
and the value is dropped with the lazy.  The accesses come one after the
other; guards may stay alive between them.
-/

/-- The lockers of the owned lazies. -/
inductive LockerType where
  /-- `SyncPhaseLocker` on a futex. -/
  | futex
  /-- `SyncPhaseLocker` that spins. -/
  | spinning
  /-- `UnSyncPhaseLocker`. -/
  | unSync
  deriving Repr, DecidableEq

/-- The owned lazies: which locker, and whether access goes through guards. -/
structure OwnedType where
  locker : LockerType
  isLocked : Bool
  deriving Repr, DecidableEq

/-- The process-wide lazy with the same accessors and the same policy. -/
def OwnedType.lazyType (type : OwnedType) : LazyType :=
  if type.isLocked then .lockedLazy else .lazy

/-- The generator of an owned lazy. -/
inductive OwnedGenerator where
  /-- A closure that implements `Fn`. -/
  | always
  /-- `Cell<Option<G>>`, and whether the closure is still there. -/
  | once (available : Bool)
  deriving Repr, DecidableEq

def OwnedGenerator.tolerance : OwnedGenerator → GeneratorTolerance
  | .always => ⟨true, false⟩
  | .once _ => ⟨false, false⟩

/-- How a use of a locker ends when nobody else uses it. -/
inductive LockerEnd where
  | taken (word : U32) (result : LockResult Unit Phase)
  /-- `None` of a `try_lock`. -/
  | refused
  /-- The thread waits for guards that nobody will drop. -/
  | waits
  | panicked (panic : UnSync.Panic)
  deriving DecidableEq

namespace LockerType

/-- When a synchronized locker takes a write lock at once. -/
def isWriteLockable (locker : LockerType) (word : U32) : Bool :=
  match locker with
  | .futex => Sync.isWriteLockable word && Sync.hasNoReaders word
  | _ => Spinning.isWriteLockable word

/-- When a synchronized locker takes a read lock at once. -/
def isReadLockable (locker : LockerType) (word : U32) : Bool :=
  match locker with
  | .futex => Sync.isReadLockable word
  | _ => Spinning.isReadLockable word

/-- A synchronized locker. -/
def syncLock
    (locker : LockerType)
    (fast : Bool)
    (word : U32)
    (how : Phase → LockNature) : LockerEnd :=
  match how (.fromBitsTruncate word) with
  | .write =>
      if locker.isWriteLockable word then
        .taken (word ||| lockedBit) (.write (.fromBitsTruncate word))
      else if fast then
        .refused
      else
        .waits
  | .read =>
      if locker.isReadLockable word then
        .taken (word + readerUnity) (.read ())
      else if fast then
        .refused
      else
        .waits
  | .none => .taken word (.none (.fromBitsTruncate word))

/-- The phase of a write guard, in a result of the locker. -/
def guardPhase :
    LockResult Unit UnSync.WriteGuard → LockResult Unit Phase
  | .write guard => .write guard.phase
  | .read () => .read ()
  | .none phase => .none phase

/-- The locker of a single thread. -/
def unSyncLock
    (fast : Bool)
    (word : U32)
    (how : Phase → LockNature) : LockerEnd :=
  if fast then
    match UnSync.tryLock word how with
    | .ok (word, some result) => .taken word (guardPhase result)
    | .ok (_, none) => .refused
    | .error panic => .panicked panic
  else
    match UnSync.lock word how with
    | .ok (word, result) => .taken word (guardPhase result)
    | .error panic => .panicked panic

/-- `lock`, or `try_lock` if it is `fast`. -/
def lock
    (locker : LockerType)
    (fast : Bool)
    (word : U32)
    (how : Phase → LockNature) : LockerEnd :=
  match locker with
  | .unSync => unSyncLock fast word how
  | _ => locker.syncLock fast word how

/-- The word once a write guard is turned into a read guard. -/
def convert (locker : LockerType) (phase : Phase) : U32 :=
  match locker with
  | .unSync => UnSync.convert ⟨phase⟩
  | _ => phase.bits + readerUnity

/-- The word once a read guard is cloned. -/
def clone (locker : LockerType) (word : U32) : LockerEnd :=
  match locker with
  | .futex =>
      if Sync.hasReadersMax word then
        .waits
      else
        .taken (word + readerUnity) (.read ())
  | .spinning =>
      if Spinning.hasReadersMax word then
        .waits
      else
        .taken (word + readerUnity) (.read ())
  | .unSync =>
      match UnSync.clone word with
      | .ok word => .taken word (.read ())
      | .error panic => .panicked panic

end LockerType

/-- An owned lazy between two accesses. -/
structure Owned where
  word : U32
  /-- What was written to the slot: the number of a run of the generator. -/
  slot : Option Nat
  generator : OwnedGenerator
  writeGuards : List Phase
  readGuards : Nat
  /-- How many runs of the generator were started. -/
  started : Nat
  /-- The runs of the generator that returned a value. -/
  completed : List Nat
  /-- The panic of `Cell<Option<G>>` that has no closure left. -/
  calledTwice : Bool
  deriving DecidableEq

/-- What a user of the lazy sees. -/
inductive Reply where
  /-- A reference to the slot, with what is there. -/
  | reference (value : Option Nat)
  | error (phase : Phase)
  | phase (phase : Phase)
  /-- The lock was not free for a `fast_` accessor. -/
  | busy
  /-- The generator has panicked. -/
  | unwound
  | panicked (panic : UnSync.Panic)
  /-- `get_phase_unique` unwraps the phase of a word with other bits. -/
  | unwrapped
  /-- `init` of a locked lazy returns no phase. -/
  | done
  deriving DecidableEq

/-- What an access holds when it checks the phase. -/
inductive Held where
  | nothing (phase : Phase)
  | readGuard (phase : Phase)
  | writeGuard (phase : Phase)
  /-- The access is over. -/
  | ended (reply : Reply)

namespace Owned

/-- `from_generator`. -/
def new (generator : OwnedGenerator) : Owned where
  word := Phase.empty.bits
  slot := none
  generator := generator
  writeGuards := []
  readGuards := 0
  started := 0
  completed := []
  calledTwice := false

def tolerance (owned : Owned) : GeneratorTolerance :=
  owned.generator.tolerance

/-- The phase in the word. -/
def phase (owned : Owned) : Phase :=
  .fromBitsTruncate owned.word

/-- No guard borrows the lazy. -/
def isUnique (owned : Owned) : Bool :=
  owned.writeGuards.isEmpty && owned.readGuards == 0

def shallInit (owned : Owned) (phase : Phase) : Bool :=
  (InitializedChecker owned.tolerance).shallInit phase

/-- Start a run of the generator; a value is written over the slot. -/
def run (completes : Bool) (owned : Owned) : Owned × Bool :=
  if completes then
    ({ owned with
        started := owned.started + 1
        slot := some owned.started
        completed := owned.completed ++ [owned.started] },
      true)
  else
    ({ owned with started := owned.started + 1 }, false)

/-- `Generator::generate` and the write of its value; whether it returned. -/
def generate (completes : Bool) (owned : Owned) : Owned × Bool :=
  match owned.generator with
  | .always => owned.run completes
  | .once true => { owned with generator := .once false }.run completes
  | .once false => ({ owned with calledTwice := true }, false)

/-- Take over what the locker gave. -/
def receive
    (owned : Owned)
    (word : U32) : LockResult Unit Phase → Owned
  | .write phase =>
      { owned with word := word, writeGuards := phase :: owned.writeGuards }
  | .read () =>
      { owned with word := word, readGuards := owned.readGuards + 1 }
  | .none _ => { owned with word := word }

/-- Drop a write guard that shows a phase. -/
def dropWrite (index : Nat) (phase : Phase) (owned : Owned) : Owned :=
  { owned with
    word := phase.bits
    writeGuards := owned.writeGuards.eraseIdx index }

def dropRead (owned : Owned) : Owned :=
  { owned with
    word := owned.word - readerUnity
    readGuards := owned.readGuards - 1 }

/-- `From<WriteGuard> for ReadGuard`, of the guard that was just taken. -/
def convert
    (locker : LockerType)
    (phase : Phase)
    (owned : Owned) : Owned :=
  { owned with
    word := locker.convert phase
    writeGuards := owned.writeGuards.tail
    readGuards := owned.readGuards + 1 }

/-- The phase of `initialized`. -/
def initializedPhase : Phase :=
  .empty ||| .initialized

/-- The phase of `initialization_panic`. -/
def panicPhase : Phase :=
  .empty ||| .initializationPanicked ||| .initializationSkiped

/-- `set_phase`, of the guard that was just taken. -/
def setPhase (phase : Phase) (owned : Owned) : Owned :=
  { owned with writeGuards := owned.writeGuards.set 0 phase }

/-- `lazy_initialization_only`; a panic drops the guard. -/
def lazyInitializationOnly (completes : Bool) (owned : Owned) : Owned × Bool :=
  match (owned.setPhase panicPhase).generate completes with
  | (owned, true) => (owned.setPhase initializedPhase, true)
  | (owned, false) => (owned.dropWrite 0 panicPhase, false)

/-- `mut_lazy_initialization_only`, without the lock. -/
def mutLazyInitializationOnly
    (completes : Bool)
    (owned : Owned) : Owned × Bool :=
  match owned.generate completes with
  | (owned, true) => ({ owned with word := initializedPhase.bits }, true)
  | (owned, false) => ({ owned with word := panicPhase.bits }, false)

/-- Initialize under the guard, and go on if the generator returns. -/
def initializing
    (completes : Bool)
    (next : Owned → Owned × Held)
    (owned : Owned) : Owned × Held :=
  match owned.lazyInitializationOnly completes with
  | (owned, true) => next owned
  | (owned, false) => (owned, .ended .unwound)

/-- Lock, then go on with the result of the locker. -/
def lock
    (locker : LockerType)
    (fast : Bool)
    (how : Phase → LockNature)
    (next : LockResult Unit Phase → Owned → Owned × Held)
    (owned : Owned) : Option (Owned × Held) :=
  match locker.lock fast owned.word how with
  | .taken word result => some (next result (owned.receive word result))
  | .refused => some (owned, .ended .busy)
  | .waits => none
  | .panicked panic => some (owned, .ended (.panicked panic))

/-- `LazySequentializer::init`. -/
def init
    (locker : LockerType)
    (completes : Bool)
    (owned : Owned) : Option (Owned × Held) :=
  owned.lock locker false
    (fun phase => if owned.shallInit phase then .write else .none)
    fun result owned =>
      match result with
      | .none phase => (owned, .nothing phase)
      | .read () => (owned.dropRead, .nothing owned.phase)
      | .write _ =>
          owned.initializing completes fun owned =>
            (owned.dropWrite 0 initializedPhase, .nothing initializedPhase)

/-- `init_then_read_guard` and `try_init_then_read_guard`. -/
def initThenReadGuard
    (locker : LockerType)
    (fast completes : Bool)
    (owned : Owned) : Option (Owned × Held) :=
  owned.lock locker fast
    (fun phase => if owned.shallInit phase then .write else .read)
    fun result owned =>
      match result with
      | .none phase => (owned, .nothing phase)
      | .read () => (owned, .readGuard owned.phase)
      | .write _ =>
          owned.initializing completes fun owned =>
            (owned.convert locker initializedPhase, .readGuard initializedPhase)

/-- `init_then_write_guard` and `try_init_then_write_guard`. -/
def initThenWriteGuard
    (locker : LockerType)
    (fast completes : Bool)
    (owned : Owned) : Option (Owned × Held) :=
  owned.lock locker fast (fun _ => .write) fun result owned =>
    match result with
    | .none phase => (owned, .nothing phase)
    | .read () => (owned, .readGuard owned.phase)
    | .write phase =>
        if owned.shallInit phase then
          owned.initializing completes fun owned =>
            (owned, .writeGuard initializedPhase)
        else
          (owned, .writeGuard phase)

/-- `read_lock_unchecked` and `fast_read_lock_unchecked`. -/
def readLock
    (locker : LockerType)
    (fast : Bool)
    (owned : Owned) : Option (Owned × Held) :=
  owned.lock locker fast (fun _ => .read) fun result owned =>
    match result with
    | .none phase => (owned, .nothing phase)
    | .read () => (owned, .readGuard owned.phase)
    | .write phase => (owned, .writeGuard phase)

/-- `write_lock_unchecked` and `fast_write_lock_unchecked`. -/
def writeLock
    (locker : LockerType)
    (fast : Bool)
    (owned : Owned) : Option (Owned × Held) :=
  owned.lock locker fast (fun _ => .write) fun result owned =>
    match result with
    | .none phase => (owned, .nothing phase)
    | .read () => (owned, .readGuard owned.phase)
    | .write phase => (owned, .writeGuard phase)

/-- `init_unique`. -/
def initUnique (completes : Bool) (owned : Owned) : Owned × Held :=
  match Phase.fromBits owned.word with
  | none => (owned, .ended .unwrapped)
  | some phase =>
      if owned.shallInit phase then
        match owned.mutLazyInitializationOnly completes with
        | (owned, true) =>
            match Phase.fromBits owned.word with
            | none => (owned, .ended .unwrapped)
            | some phase => (owned, .nothing phase)
        | (owned, false) => (owned, .ended .unwound)
      else
        (owned, .nothing phase)

/-- The first part of an access, up to the check. -/
def prepare
    (type : OwnedType)
    (accessor : Accessor)
    (completes : Bool)
    (owned : Owned) : Option (Owned × Held) :=
  match accessor with
  | .get => owned.init type.locker completes
  | .init =>
      if type.isLocked then
        owned.initThenWriteGuard type.locker false completes
      else
        owned.init type.locker completes
  | .read | .fastRead =>
      owned.initThenReadGuard type.locker accessor.isFast completes
  | .write | .fastWrite =>
      owned.initThenWriteGuard type.locker accessor.isFast completes
  | .tryRead | .fastTryRead => owned.readLock type.locker accessor.isFast
  | .tryWrite | .fastTryWrite => owned.writeLock type.locker accessor.isFast
  | .tryGet => some (owned, .nothing owned.phase)
  | .getMut => if owned.isUnique then some (owned.initUnique completes) else none
  | .tryGetMut =>
      if owned.isUnique then some (owned, .nothing owned.phase) else none
  | _ => none

/-- What the check of a phase lets the user see. -/
def reply (owned : Owned) : AccessResult → Reply
  | .reference => .reference owned.slot
  | .error phase => .error phase
  | .phase phase => .phase phase
  | .busy => .busy
  | _ => .unwound

/-- A read guard is dropped unless the check passes. -/
def checkRead (owned : Owned) : AccessResult → Owned × Reply
  | .reference => (owned, .reference owned.slot)
  | result => (owned.dropRead, owned.reply result)

/-- So is a write guard; `init` of a locked lazy drops it anyhow. -/
def checkWrite
    (accessor : Accessor)
    (phase : Phase)
    (owned : Owned) : AccessResult → Owned × Reply
  | .reference =>
      if accessor = .init then
        (owned.dropWrite 0 phase, .done)
      else
        (owned, .reference owned.slot)
  | result => (owned.dropWrite 0 phase, owned.reply result)

/-- The second part of an access. -/
def check
    (type : OwnedType)
    (accessor : Accessor)
    (owned : Owned) : Held → Owned × Reply
  | .nothing phase =>
      (owned, owned.reply (type.lazyType.check owned.tolerance accessor phase))
  | .readGuard phase =>
      owned.checkRead (type.lazyType.check owned.tolerance accessor phase)
  | .writeGuard phase =>
      owned.checkWrite accessor phase
        (type.lazyType.check owned.tolerance accessor phase)
  | .ended reply => (owned, reply)

/-- One access, unless it waits for a guard of its own thread. -/
def access
    (type : OwnedType)
    (accessor : Accessor)
    (completes : Bool)
    (owned : Owned) : Option (Owned × Reply) :=
  (owned.prepare type accessor completes).map fun (owned, held) =>
    owned.check type accessor held

/-- What `Drop` drops in place: the content of the slot, if there is one. -/
def drop (owned : Owned) : List (Option Nat) :=
  if owned.phase.intersects .initialized then [owned.slot] else []

/-- A use of an owned lazy or of one of its guards. -/
inductive Event where
  | access (accessor : Accessor) (completes : Bool) (reply : Reply)
  | dropWrite (index : Nat)
  | dropRead
  | clone
  /-- Look through a guard. -/
  | deref (reply : Reply)
  deriving DecidableEq

/-- The user cloned a read guard. -/
def cloned (owned : Owned) : LockerEnd → Option Owned
  | .taken word result => some (owned.receive word result)
  | .waits => none
  | _ => some owned

/-- One use. -/
def Step (type : OwnedType) (before : Owned) : Event → Owned → Prop
  | .access accessor completes reply, after =>
      type.lazyType.offers accessor = true ∧
        before.access type accessor completes = some (after, reply)
  | .dropWrite index, after =>
      ∃ phase,
        before.writeGuards[index]? = some phase ∧
          after = before.dropWrite index phase
  | .dropRead, after => 0 < before.readGuards ∧ after = before.dropRead
  | .clone, after =>
      0 < before.readGuards ∧
        before.cloned (type.locker.clone before.word) = some after
  | .deref reply, after =>
      before.isUnique = false ∧ reply = .reference before.slot ∧ after = before

end Owned

/-- What a locker takes, and what it gives for it. -/
inductive LockerType.Takes
    (word : U32)
    (how : Phase → LockNature) : U32 → LockResult Unit Phase → Prop where
  | write
      (nature : how (.fromBitsTruncate word) = .write) :
      Takes word how (word ||| lockedBit) (.write (.fromBitsTruncate word))
  | read
      (nature : how (.fromBitsTruncate word) = .read) :
      Takes word how (word + readerUnity) (.read ())
  | none
      (nature : how (.fromBitsTruncate word) = .none) :
      Takes word how word (.none (.fromBitsTruncate word))

namespace LockerType

variable
  {fast : Bool} {word after : U32} {how : Phase → LockNature}
  {result : LockResult Unit Phase}

theorem takes_of_syncLock
    {locker : LockerType}
    (taken : locker.syncLock fast word how = .taken after result) :
    Takes word how after result := by
  unfold syncLock at taken
  split at taken
  case h_1 nature =>
    split at taken
    case isTrue =>
      obtain ⟨rfl, rfl⟩ := LockerEnd.taken.inj taken
      exact .write nature
    case isFalse => split at taken <;> cases taken
  case h_2 nature =>
    split at taken
    case isTrue =>
      obtain ⟨rfl, rfl⟩ := LockerEnd.taken.inj taken
      exact .read nature
    case isFalse => split at taken <;> cases taken
  case h_3 nature =>
    obtain ⟨rfl, rfl⟩ := LockerEnd.taken.inj taken
    exact .none nature

theorem addReader_eq
    {cell : U32}
    (added : UnSync.addReader word = .ok cell) :
    cell = word + readerUnity := by
  unfold UnSync.addReader UnSync.checkedAdd at added
  split at added
  case h_1 found =>
    split at found
    case isTrue =>
      obtain rfl := Option.some.inj found
      exact (Except.ok.inj added).symm
    case isFalse => cases found
  case h_2 => cases added

/-- A guard of the locker of a single thread shows the phase in the cell. -/
theorem takes_write
    (nature : how (.fromBitsTruncate word) = .write) :
    Takes word how (word ||| lockedBit)
      (guardPhase (.write (.new (word ||| lockedBit)))) := by
  have shown :
      (UnSync.WriteGuard.new (word ||| lockedBit)).phase =
        .fromBitsTruncate word :=
    Sync.fromBitsTruncate_or_lockedBit word
  rw [guardPhase, shown]
  exact .write nature

theorem takes_of_tryLock
    {given : LockResult Unit UnSync.WriteGuard}
    (taken : UnSync.tryLock word how = .ok (after, some given)) :
    Takes word how after (guardPhase given) := by
  unfold UnSync.tryLock UnSync.phase at taken
  split at taken
  case h_1 nature =>
    split at taken
    case isTrue => cases taken
    case isFalse =>
      cases taken
      exact takes_write nature
  case h_2 nature =>
    split at taken
    case isTrue => cases taken
    case isFalse =>
      cases added : UnSync.addReader word with
      | error => rw [added] at taken; cases taken
      | ok cell =>
          rw [added] at taken
          cases taken
          rw [addReader_eq added]
          exact .read nature
  case h_3 nature =>
    cases taken
    exact .none nature

theorem takes_of_lock
    {given : LockResult Unit UnSync.WriteGuard}
    (taken : UnSync.lock word how = .ok (after, given)) :
    Takes word how after (guardPhase given) := by
  unfold UnSync.lock UnSync.phase at taken
  split at taken
  case h_1 nature =>
    split at taken
    case isTrue =>
      cases taken
      exact takes_write nature
    case isFalse => cases taken
  case h_2 nature =>
    split at taken
    case isTrue =>
      split at taken
      case isTrue =>
        cases added : UnSync.addReader word with
        | error => rw [added] at taken; cases taken
        | ok cell =>
            rw [added] at taken
            cases taken
            rw [addReader_eq added]
            exact .read nature
      case isFalse => cases taken
    case isFalse => cases taken
  case h_3 nature =>
    cases taken
    exact .none nature

theorem takes_of_unSyncLock
    (taken : unSyncLock fast word how = .taken after result) :
    Takes word how after result := by
  unfold unSyncLock at taken
  cases fast with
  | true =>
      rw [if_pos rfl] at taken
      split at taken
      case h_1 tried =>
        obtain ⟨rfl, rfl⟩ := LockerEnd.taken.inj taken
        exact takes_of_tryLock tried
      case h_2 => cases taken
      case h_3 => cases taken
  | false =>
      rw [if_neg Bool.false_ne_true] at taken
      split at taken
      case h_1 tried =>
        obtain ⟨rfl, rfl⟩ := LockerEnd.taken.inj taken
        exact takes_of_lock tried
      case h_2 => cases taken

/-- Every locker takes what the lock nature says. -/
theorem takes_of_taken
    {locker : LockerType}
    (taken : locker.lock fast word how = .taken after result) :
    Takes word how after result := by
  cases locker with
  | futex => exact takes_of_syncLock taken
  | spinning => exact takes_of_syncLock taken
  | unSync => exact takes_of_unSyncLock taken

/-- A word that shows a write guard and nothing else. -/
theorem locked_shown (phase : Phase) :
    Sync.readerCount (phase.bits ||| lockedBit) = 0 ∧
      (LockWord.view (phase.bits ||| lockedBit)).locked = true := by
  simp [Sync.readerCount]

theorem syncLock_not_taken
    {locker : LockerType}
    (exclusive : ∀ phase, how phase ≠ .none)
    (notWritable : locker.isWriteLockable word = false)
    (notReadable : locker.isReadLockable word = false) :
    locker.syncLock fast word how ≠ .taken after result := by
  unfold syncLock
  rw [notWritable, notReadable]
  cases nature : how (.fromBitsTruncate word) with
  | write => cases fast with | _ => nofun
  | read => cases fast with | _ => nofun
  | none => exact absurd nature (exclusive _)

theorem unSyncLock_not_taken
    (exclusive : ∀ phase, how phase ≠ .none)
    (notWritable : ¬ word &&& (lockedBit ||| readerBits) = 0)
    (locked : ¬ word &&& lockedBit = 0) :
    unSyncLock fast word how ≠ .taken after result := by
  unfold unSyncLock UnSync.tryLock UnSync.lock UnSync.phase
  rw [beq_eq_false_iff_ne.mpr notWritable, bne_iff_ne.mpr notWritable,
    beq_eq_false_iff_ne.mpr locked, bne_iff_ne.mpr locked]
  cases nature : how (.fromBitsTruncate word) with
  | write => cases fast with | _ => nofun
  | read => cases fast with | _ => nofun
  | none => exact absurd nature (exclusive _)

/-- Nothing is taken from a locker that is write locked. -/
theorem not_taken_of_locked
    {locker : LockerType}
    (phase : Phase)
    (exclusive : ∀ phase, how phase ≠ .none) :
    locker.lock fast (phase.bits ||| lockedBit) how ≠
      .taken after result := by
  obtain ⟨noReaders, locked⟩ := locked_shown phase
  have held : Sync.isNotWriteLocked (phase.bits ||| lockedBit) = false := by
    rw [← Bool.not_eq_true, Sync.isNotWriteLocked_iff, locked]
    exact Bool.noConfusion
  have unread : Sync.hasReaders (phase.bits ||| lockedBit) = false := by
    rw [← Bool.not_eq_true, Sync.hasReaders_iff, noReaders]
    exact not_not.mpr rfl
  cases locker with
  | futex =>
      refine syncLock_not_taken exclusive ?_ ?_
      · rw [isWriteLockable, Sync.isWriteLockable, held]
        rfl
      · rw [isReadLockable, Sync.isReadLockable, held, unread, Bool.and_false]
        rfl
  | spinning =>
      have spinning :
          Spinning.isNotWriteLocked (phase.bits ||| lockedBit) = false :=
        held
      refine syncLock_not_taken exclusive ?_ ?_
      · change Spinning.isWriteLockable _ = false
        rw [Spinning.isWriteLockable, spinning]
        rfl
      · change Spinning.isReadLockable _ = false
        rw [Spinning.isReadLockable, spinning]
        rfl
  | unSync =>
      refine unSyncLock_not_taken exclusive ?_ ?_
      · rw [UnSync.writable_iff, locked]
        exact fun free => Bool.noConfusion free.1
      · rw [UnSync.unlocked_iff, locked]
        exact Bool.noConfusion

end LockerType

end StaticInit
