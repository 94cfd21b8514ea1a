import StaticInit.PhaseLocker.Spinning.System
import StaticInit.PhaseLocker.Sync.Phases

namespace StaticInit.Spinning

/-!
# Mutual exclusion of the spinning locker

The word counts the guards that are alive: the lock bit the locks, the reader
field the read locks, and it has no other bit than those and the phase.  So a
lock can be dropped by one exchange that expects exactly the phase and the
lock bit.
-/

open Sync (Lock ReadLock Closures Call Result UserOp SpinWait GuardsRely
  readerCount lockCount)
open LockWord (view view_inj)

section Bits

variable (v : U32)

@[simp] theorem hasNoReaders_iff :
    hasNoReaders v = true ↔ readerCount v = 0 :=
  Sync.hasNoReaders_iff v

@[simp] theorem isNotWriteLocked_iff :
    isNotWriteLocked v = true ↔ lockCount v = 0 :=
  (Sync.isNotWriteLocked_iff v).trans (Sync.lockCount_eq_zero_iff v).symm

@[simp] theorem hasReadersMax_iff :
    hasReadersMax v = true ↔ readerCount v = 2 ^ 21 - 1 := by
  have full : (0x100000#21 ||| 0xFFFFF#21) = BitVec.allOnes 21 := rfl
  rw [hasReadersMax, beq_iff_eq, ← view_inj, readerCount]
  simp only [LockWord.view_and, LockWord.view_or, LockWord.view_readerOverf,
    LockWord.view_readerBits, full, BitVec.and_allOnes]
  simp [← BitVec.toNat_inj]

@[simp] theorem isWriteLockable_iff :
    isWriteLockable v = true ↔ lockCount v = 0 ∧ readerCount v = 0 := by
  simp [isWriteLockable]

@[simp] theorem isReadLockable_iff :
    isReadLockable v = true ↔
      lockCount v = 0 ∧ hasReadersMax v = false := by
  simp [isReadLockable]

variable {v}

/-- One more reader fits as long as the field is not full. -/
theorem view_add_readerUnity (room : hasReadersMax v = false) :
    view (v + readerUnity) =
      { view v with readers := (view v).readers + 1 } := by
  have bound := Sync.readerCount_lt v
  rw [← Bool.not_eq_true, hasReadersMax_iff] at room
  apply LockWord.view_add_readerUnity
  change readerCount v + 1 < 2 ^ 21
  omega

theorem readerCount_add_readerUnity (room : hasReadersMax v = false) :
    readerCount (v + readerUnity) = readerCount v + 1 := by
  have bound := Sync.readerCount_lt v
  have shown := view_add_readerUnity room
  rw [← Bool.not_eq_true, hasReadersMax_iff] at room
  rw [readerCount, shown, BitVec.toNat_add]
  change (readerCount v + 1) % 2 ^ 21 = _
  omega

end Bits

/-- The locks owned by the code at a place. -/
def Pc.ownedLocks : Pc → List Lock
  | .dropLock lock => [lock]
  | .convert lock _ => [lock]
  | _ => []

/-- The read locks owned by the code at a place. -/
def Pc.ownedReadLocks : Pc → List ReadLock
  | .dropReadLock lock => [lock]
  | .cloneLoad guard => [guard]
  | .cloneCas guard _ => [guard]
  | _ => []

/-- The locks a thread owns, inside and outside the locker. -/
def Thread.aliveLocks (thread : Thread) : List Lock :=
  thread.pc.ownedLocks ++ thread.locks

/-- The read locks a thread owns, inside and outside the locker. -/
def Thread.aliveReadLocks (thread : Thread) : List ReadLock :=
  thread.pc.ownedReadLocks ++ thread.readLocks

/-- The locks that the code goes on with, or gives to its caller. -/
def Next.locks : Next → List Lock
  | .goto pc => pc.ownedLocks
  | .ret result => result.locks
  | .unreachable => []

/-- The read locks that the code goes on with, or gives to its caller. -/
def Next.readLocks : Next → List ReadLock
  | .goto pc => pc.ownedReadLocks
  | .ret result => result.readLocks
  | .unreachable => []

/-- What the code at each place takes for granted. -/
def Pc.Relies : Pc → Prop
  | .tryWrite _ cur => isWriteLockable cur = true
  | .tryRead _ cur => isReadLockable cur = true
  | .slowWrite _ cur => isWriteLockable cur = true
  | .slowRead _ _ cur => isReadLockable cur = true
  | .convert lock cur => cur = lock.initPhase
  | .cloneCas _ cur => hasReadersMax cur = false
  | _ => True

/-- The code may go on at its place and is not at the `unreachable!`. -/
def Next.Relies : Next → Prop
  | .goto pc => pc.Relies
  | .ret _ => True
  | .unreachable => False

/-- How an instruction changes the word and the guards of its thread. -/
inductive Effect (pc : Pc) (word : U32) : U32 → Next → Prop where
  | stays
      {next : Next}
      (locks : next.locks = pc.ownedLocks)
      (readLocks : next.readLocks = pc.ownedReadLocks)
      (relies : next.Relies) :
      Effect pc word word next
  | locks
      (owns : pc.ownedLocks = [])
      (ownsRead : pc.ownedReadLocks = [])
      (lockable : isWriteLockable word = true) :
      Effect pc word (word ||| lockedBit) (.retWrite (.new word))
  | reads
      (owns : pc.ownedLocks = [])
      (ownsRead : pc.ownedReadLocks = [])
      (lockable : isReadLockable word = true) :
      Effect pc word (word + readerUnity) (.retRead (.new word))
  | clones
      {guard : ReadLock}
      (owns : pc.ownedLocks = [])
      (ownsRead : pc.ownedReadLocks = [guard])
      (room : hasReadersMax word = false) :
      Effect pc word (word + readerUnity) (.ret (.cloned guard guard))
  | drops
      {lock : Lock}
      (owns : pc.ownedLocks = [lock])
      (ownsRead : pc.ownedReadLocks = [])
      (expected : word = lock.initPhase.bits ||| lockedBit) :
      Effect pc word lock.onUnlock.bits (.ret .dropped)
  | unreachable
      {lock : Lock}
      (owns : pc.ownedLocks = [lock])
      (unexpected : word ≠ lock.initPhase.bits ||| lockedBit) :
      Effect pc word word .unreachable
  | converts
      {lock : Lock}
      (owns : pc.ownedLocks = [lock])
      (ownsRead : pc.ownedReadLocks = []) :
      Effect pc word (word ^^^ convertMask lock lock.initPhase)
        (.ret (.converted ⟨lock.onUnlock⟩))
  | dropsRead
      {lock : ReadLock}
      (owns : pc.ownedLocks = [])
      (ownsRead : pc.ownedReadLocks = [lock]) :
      Effect pc word (word - readerUnity) (.ret .dropped)

section LocalCode

variable {how : Phase → LockNature} {pc : Pc} {word cur : U32}

/-- The local code ends without a guard at a place that may rely on its tests. -/
def Next.Plain (next : Next) : Prop :=
  next.locks = [] ∧ next.readLocks = [] ∧ next.Relies

theorem tryReadLoop_plain : (tryReadLoop how cur).Plain := by
  unfold tryReadLoop
  split
  case isTrue lockable => exact ⟨rfl, rfl, lockable⟩
  case isFalse => exact ⟨rfl, rfl, trivial⟩

theorem tryReadFailed_plain : (tryReadFailed how cur).Plain := by
  unfold tryReadFailed
  split
  case isTrue => exact tryReadLoop_plain
  case isFalse => exact ⟨rfl, rfl, trivial⟩

theorem trySecond_plain : (trySecond how cur).Plain := by
  unfold trySecond
  split
  case h_1 =>
    split
    case isTrue lockable => exact ⟨rfl, rfl, lockable⟩
    case isFalse => exact ⟨rfl, rfl, trivial⟩
  case h_2 => exact tryReadLoop_plain
  case h_3 => exact ⟨rfl, rfl, trivial⟩

theorem slowReadLoop_plain {spinWait : SpinWait} :
    (slowReadLoop how spinWait cur).Plain := by
  unfold slowReadLoop
  split
  case isTrue lockable => exact ⟨rfl, rfl, lockable⟩
  case isFalse => exact ⟨rfl, rfl, trivial⟩

theorem slowReadLoaded_plain {spinWait : SpinWait} :
    (slowReadLoaded how spinWait cur).Plain := by
  unfold slowReadLoaded
  split
  case isTrue => exact slowReadLoop_plain
  case isFalse => exact ⟨rfl, rfl, trivial⟩

theorem slowLoop_plain : (slowLoop how cur).Plain := by
  unfold slowLoop
  split
  case h_1 =>
    split
    case isTrue lockable => exact ⟨rfl, rfl, lockable⟩
    case isFalse => exact ⟨rfl, rfl, trivial⟩
  case h_2 => exact slowReadLoop_plain
  case h_3 => exact ⟨rfl, rfl, trivial⟩

theorem second_plain (call : Call) : (second call cur).Plain := by
  cases call with
  | lock closures hint => exact slowLoop_plain
  | tryLock how hint => exact trySecond_plain

theorem optimisticNone_plain (call : Call) :
    (optimisticNone call cur).Plain := by
  unfold optimisticNone
  split
  case isTrue => exact ⟨rfl, rfl, trivial⟩
  case isFalse => exact second_plain call

/-- Plain local code of a place that owns no guard changes nothing. -/
theorem Next.Plain.stays
    {next : Next}
    (plain : next.Plain)
    (owns : pc.ownedLocks = [])
    (ownsRead : pc.ownedReadLocks = []) :
    Effect pc word word next :=
  .stays (plain.1.trans owns.symm) (plain.2.1.trans ownsRead.symm) plain.2.2

end LocalCode

/-- A hint is a word without lock and readers. -/
theorem lockable_hint (hint : Phase) :
    isWriteLockable hint.bits = true ∧ isReadLockable hint.bits = true := by
  obtain ⟨readers, locked, -⟩ :=
    Sync.counts_of_view (LockWord.view_bits hint)
  have room : hasReadersMax hint.bits = false := by
    rw [← Bool.not_eq_true, hasReadersMax_iff, readers]
    exact show ¬ (0#21).toNat = 2 ^ 21 - 1 by decide
  rw [isWriteLockable_iff, isReadLockable_iff]
  exact ⟨⟨locked, readers⟩, locked, room⟩

/-- The instruction at each place has one of the effects. -/
theorem Pc.effect
    {pc : Pc}
    {word after : U32}
    {spurious : Bool}
    {next : Next}
    (relies : pc.Relies)
    (performs : pc.instr.perform word spurious = some (after, next)) :
    Effect pc word after next := by
  cases pc with
  | idle => cases performs
  | optimistic call =>
      have hint := lockable_hint call.hint
      change (Spinning.optimistic call).perform word spurious = _ at performs
      unfold Spinning.optimistic at performs
      split at performs
      case h_1 =>
        obtain ⟨rfl, rfl⟩ := Prod.mk.inj (Option.some.inj performs)
        exact (optimisticNone_plain call).stays rfl rfl
      case h_2 =>
        have performs := Option.some.inj performs
        split at performs
        case isTrue taken =>
          obtain ⟨rfl, rfl⟩ := Prod.mk.inj performs
          rw [← taken.1] at hint ⊢
          exact .locks rfl rfl hint.1
        case isFalse =>
          obtain ⟨rfl, rfl⟩ := Prod.mk.inj performs
          exact (second_plain call).stays rfl rfl
      case h_3 =>
        have performs := Option.some.inj performs
        split at performs
        case isTrue taken =>
          obtain ⟨rfl, rfl⟩ := Prod.mk.inj performs
          rw [← taken.1] at hint ⊢
          exact .reads rfl rfl hint.2
        case isFalse =>
          obtain ⟨rfl, rfl⟩ := Prod.mk.inj performs
          exact (second_plain call).stays rfl rfl
  | tryWrite how cur =>
      have performs := Option.some.inj performs
      split at performs
      case isTrue taken =>
        obtain ⟨rfl, rfl⟩ := Prod.mk.inj performs
        obtain rfl := taken.1
        exact .locks rfl rfl relies
      case isFalse =>
        obtain ⟨rfl, rfl⟩ := Prod.mk.inj performs
        exact .stays rfl rfl trivial
  | tryRead how cur =>
      have performs := Option.some.inj performs
      split at performs
      case isTrue taken =>
        obtain ⟨rfl, rfl⟩ := Prod.mk.inj performs
        obtain rfl := taken.1
        exact .reads rfl rfl relies
      case isFalse =>
        obtain ⟨rfl, rfl⟩ := Prod.mk.inj performs
        exact tryReadFailed_plain.stays rfl rfl
  | slowWrite how cur =>
      have performs := Option.some.inj performs
      split at performs
      case isTrue taken =>
        obtain ⟨rfl, rfl⟩ := Prod.mk.inj performs
        obtain rfl := taken.1
        exact .locks rfl rfl relies
      case isFalse =>
        obtain ⟨rfl, rfl⟩ := Prod.mk.inj performs
        exact slowLoop_plain.stays rfl rfl
  | slowRead how spinWait cur =>
      have performs := Option.some.inj performs
      split at performs
      case isTrue taken =>
        obtain ⟨rfl, rfl⟩ := Prod.mk.inj performs
        obtain rfl := taken.1
        exact .reads rfl rfl relies
      case isFalse =>
        obtain ⟨rfl, rfl⟩ := Prod.mk.inj performs
        exact .stays rfl rfl trivial
  | slowReadLoad how spinWait =>
      obtain ⟨rfl, rfl⟩ := Prod.mk.inj (Option.some.inj performs)
      exact slowReadLoaded_plain.stays rfl rfl
  | slowLoad how =>
      obtain ⟨rfl, rfl⟩ := Prod.mk.inj (Option.some.inj performs)
      exact slowLoop_plain.stays rfl rfl
  | dropLock lock =>
      have performs := Option.some.inj performs
      split at performs
      case isTrue taken =>
        obtain ⟨rfl, rfl⟩ := Prod.mk.inj performs
        exact .drops rfl rfl taken.1
      case isFalse notTaken =>
        obtain ⟨rfl, rfl⟩ := Prod.mk.inj performs
        exact .unreachable rfl fun same => notTaken ⟨same, rfl⟩
  | convert lock cur =>
      obtain ⟨rfl, rfl⟩ := Prod.mk.inj (Option.some.inj performs)
      obtain rfl := relies
      have shown : ReadLock.new lock.onUnlock.bits = ⟨lock.onUnlock⟩ := by
        rw [Sync.ReadLock.new, Phase.fromBitsTruncate_bits]
      rw [shown]
      exact .converts rfl rfl
  | dropReadLock lock =>
      obtain ⟨rfl, rfl⟩ := Prod.mk.inj (Option.some.inj performs)
      exact .dropsRead rfl rfl
  | cloneLoad guard =>
      obtain ⟨rfl, rfl⟩ := Prod.mk.inj (Option.some.inj performs)
      unfold cloneLoop
      split
      case isTrue room =>
        rw [Bool.not_eq_true'] at room
        exact .stays rfl rfl room
      case isFalse => exact .stays rfl rfl trivial
  | cloneCas guard cur =>
      have performs := Option.some.inj performs
      split at performs
      case isTrue taken =>
        obtain ⟨rfl, rfl⟩ := Prod.mk.inj performs
        obtain rfl := taken.1
        exact .clones rfl rfl relies
      case isFalse =>
        obtain ⟨rfl, rfl⟩ := Prod.mk.inj performs
        exact .stays rfl rfl trivial

theorem Thread.continue_alive
    {thread continued : Thread}
    {next : Next}
    (continues : thread.continue next = .ok continued) :
    continued.aliveLocks = next.locks ++ thread.locks ∧
      continued.aliveReadLocks = next.readLocks ++ thread.readLocks := by
  cases next with
  | goto pc =>
      obtain rfl := Except.ok.inj continues
      exact ⟨rfl, rfl⟩
  | ret result =>
      obtain rfl := Except.ok.inj continues
      exact ⟨rfl, rfl⟩
  | unreachable => cases continues

theorem Thread.continue_relies
    {thread continued : Thread}
    {next : Next}
    (continues : thread.continue next = .ok continued)
    (relies : next.Relies) :
    continued.pc.Relies := by
  cases next with
  | goto pc =>
      obtain rfl := Except.ok.inj continues
      exact relies
  | ret result =>
      obtain rfl := Except.ok.inj continues
      trivial
  | unreachable => cases continues

namespace State

variable {ι : Type} [DecidableEq ι] [Fintype ι]

/-- How many locks are alive. -/
def aliveLocks (state : State ι) : Nat :=
  tally (fun thread => thread.aliveLocks.length) state.thread

/-- How many read locks are alive. -/
def aliveReadLocks (state : State ι) : Nat :=
  tally (fun thread => thread.aliveReadLocks.length) state.thread

/-- How many locks the other threads own. -/
def otherLocks (state : State ι) (actor : ι) : Nat :=
  tallyOthers (fun thread => thread.aliveLocks.length) state.thread actor

/-- How many read locks the other threads own. -/
def otherReadLocks (state : State ι) (actor : ι) : Nat :=
  tallyOthers (fun thread => thread.aliveReadLocks.length) state.thread actor

/-- The word shows the guards that are alive. -/
structure Shows (word : U32) (locks readLocks : Nat) : Prop where
  locked : lockCount word = locks
  readers : readerCount word = readLocks
  alone : locks = 0 ∨ readLocks = 0
  noWaiters :
    (view word).readWaiter = false ∧ (view word).writeWaiter = false

/-- The invariant of the spinning locker. -/
structure Inv (state : State ι) : Prop where
  shows : Shows state.word state.aliveLocks state.aliveReadLocks
  guards :
    ∀ actor,
      GuardsRely state.word (state.thread actor).aliveLocks
        (state.thread actor).aliveReadLocks
  relies : ∀ actor, (state.thread actor).pc.Relies

theorem aliveLocks_eq (state : State ι) (actor : ι) :
    state.aliveLocks =
      (state.thread actor).aliveLocks.length + state.otherLocks actor :=
  tally_eq_add_others _ _ actor

theorem aliveReadLocks_eq (state : State ι) (actor : ι) :
    state.aliveReadLocks =
      (state.thread actor).aliveReadLocks.length +
        state.otherReadLocks actor :=
  tally_eq_add_others _ _ actor

theorem locks_le_others
    (state : State ι)
    {actor other : ι}
    (different : other ≠ actor) :
    (state.thread other).aliveLocks.length ≤ state.otherLocks actor := by
  have nonneg (thread : Thread) := Nat.zero_le thread.aliveLocks.length
  exact weight_le_tallyOthers nonneg state.thread different

theorem readLocks_le_others
    (state : State ι)
    {actor other : ι}
    (different : other ≠ actor) :
    (state.thread other).aliveReadLocks.length ≤
      state.otherReadLocks actor := by
  have nonneg (thread : Thread) := Nat.zero_le thread.aliveReadLocks.length
  exact weight_le_tallyOthers nonneg state.thread different

/-- A step of one thread next to guards of the others that stay as they are. -/
theorem Inv.update
    {state : State ι}
    {actor : ι}
    {word : U32}
    {thread : Thread}
    (inv : state.Inv)
    (shows :
      Shows word (thread.aliveLocks.length + state.otherLocks actor)
        (thread.aliveReadLocks.length + state.otherReadLocks actor))
    (phase :
      (view word).phase = (view state.word).phase ∨
        state.otherLocks actor = 0 ∧ state.otherReadLocks actor = 0)
    (guards : GuardsRely word thread.aliveLocks thread.aliveReadLocks)
    (relies : thread.pc.Relies) :
    (state.setThread word actor thread).Inv := by
  constructor
  · rw [aliveLocks, aliveReadLocks, setThread, tally_update, tally_update]
    exact shows
  · intro other
    by_cases same : other = actor
    · subst same
      simpa [setThread] using guards
    · simp only [setThread, Function.update_of_ne same]
      have locksLe :=
        locks_le_others state same
      have readLocksLe :=
        readLocks_le_others state same
      rcases phase with kept | ⟨noLocks, noReadLocks⟩
      · have before := inv.guards other
        rw [GuardsRely, kept]
        exact before
      · have locksNil := List.length_eq_zero_iff.mp
          (Nat.le_zero.mp (locksLe.trans_eq noLocks))
        have readLocksNil := List.length_eq_zero_iff.mp
          (Nat.le_zero.mp (readLocksLe.trans_eq noReadLocks))
        rw [locksNil, readLocksNil]
        exact Sync.guardsRely_nil word
  · intro other
    by_cases same : other = actor
    · subst same
      simpa [setThread] using relies
    · simp only [setThread, Function.update_of_ne same]
      exact inv.relies other

section Words

variable {word : U32} {writers readers : Nat}

/-- A write lock is taken. -/
theorem Shows.locks
    (shows : Shows word writers readers)
    (lockable : isWriteLockable word = true) :
    writers = 0 ∧ readers = 0 ∧ Shows (word ||| lockedBit) 1 0 := by
  rw [isWriteLockable_iff] at lockable
  refine ⟨shows.locked ▸ lockable.1, shows.readers ▸ lockable.2, ?_⟩
  obtain ⟨counted, locked, -⟩ :=
    Sync.counts_of_view (Sync.view_or_lockedBit word)
  constructor
  · exact locked
  · exact counted.trans lockable.2
  · exact .inr rfl
  · rw [Sync.view_or_lockedBit]
    exact shows.noWaiters

/-- A read lock is added. -/
theorem Shows.reads
    (shows : Shows word writers readers)
    (free : lockCount word = 0)
    (room : hasReadersMax word = false) :
    writers = 0 ∧ Shows (word + readerUnity) 0 (readers + 1) := by
  have shown := view_add_readerUnity room
  refine ⟨shows.locked ▸ free, ?_⟩
  constructor
  · rw [lockCount, shown]
    exact free
  · rw [readerCount_add_readerUnity room, shows.readers]
  · exact .inl rfl
  · rw [shown]
    exact shows.noWaiters

/-- Locked, the word has the phase and the lock bit only. -/
theorem Shows.eq_locked
    (shows : Shows word 1 readers) :
    word = (view word).phase.bits ||| lockedBit := by
  have none : readers = 0 := shows.alone.resolve_left Nat.one_ne_zero
  have counted := shows.readers.trans none
  have locked := (Sync.lockCount_eq_one_iff word).mp shows.locked
  have noReaders : (view word).readers = 0#21 := by
    rw [← BitVec.toNat_inj]
    exact counted
  rw [← view_inj, Sync.view_or_lockedBit, LockWord.view_bits]
  apply LockWord.ext
  · exact shows.noWaiters.2
  · exact shows.noWaiters.1
  · exact locked
  · exact noReaders
  · rfl

/-- A write lock is dropped. -/
theorem Shows.fresh (phase : Phase) : Shows phase.bits 0 0 := by
  obtain ⟨counted, locked, -⟩ :=
    Sync.counts_of_view (LockWord.view_bits phase)
  constructor
  · exact locked
  · exact counted
  · exact .inl rfl
  · rw [LockWord.view_bits]
    exact ⟨rfl, rfl⟩

/-- A write lock is converted: the word afterwards. -/
theorem convert_word (lock : Lock) :
    (lock.initPhase.bits ||| lockedBit) ^^^
        convertMask lock lock.initPhase =
      lock.onUnlock.bits + readerUnity := by
  have room : hasReadersMax lock.onUnlock.bits = false := by
    have lockable := (lockable_hint lock.onUnlock).2
    rw [isReadLockable_iff] at lockable
    exact lockable.2
  rw [← view_inj, view_add_readerUnity room]
  simp [convertMask]

/-- A read lock is dropped. -/
theorem Shows.dropsRead
    (shows : Shows word writers (readers + 1)) :
    Shows (word - readerUnity) writers readers := by
  have counted : (view word).readers.toNat = readers + 1 := shows.readers
  have shown :=
    @LockWord.view_sub_units word readerUnity 1 rfl (by omega)
  have bound := (view word).readers.isLt
  constructor
  · rw [lockCount, shown]
    exact shows.locked
  · rw [readerCount, shown]
    change (BitVec.ofNat 21 ((view word).readers.toNat - 1)).toNat = _
    rw [BitVec.toNat_ofNat]
    omega
  · exact .inl (shows.alone.resolve_right (Nat.succ_ne_zero _))
  · rw [shown]
    exact shows.noWaiters

end Words

/-- The word from the point of view of one thread. -/
theorem Inv.showsOf
    {state : State ι}
    (inv : state.Inv)
    (actor : ι) :
    Shows state.word
      ((state.thread actor).aliveLocks.length + state.otherLocks actor)
      ((state.thread actor).aliveReadLocks.length +
        state.otherReadLocks actor) := by
  rw [← state.aliveLocks_eq actor, ← state.aliveReadLocks_eq actor]
  exact inv.shows

/-- A thread that owns a lock at its place owns no other guard, and nobody else does. -/
theorem Inv.sole
    {state : State ι}
    {actor : ι}
    {lock : Lock}
    (inv : state.Inv)
    (owns : (state.thread actor).pc.ownedLocks = [lock]) :
    (state.thread actor).locks = [] ∧
      (state.thread actor).aliveReadLocks = [] ∧
      state.otherLocks actor = 0 ∧
      state.otherReadLocks actor = 0 := by
  have shows := inv.showsOf actor
  have one := Sync.lockCount_le_one state.word
  have locked := shows.locked
  have alone := shows.alone
  rw [Thread.aliveLocks, owns] at locked alone
  simp only [List.cons_append, List.nil_append, List.length_cons]
    at locked alone
  refine ⟨List.length_eq_zero_iff.mp ?_, List.length_eq_zero_iff.mp ?_, ?_, ?_⟩
  all_goals omega

/-- A thread about to drop or convert its lock finds the word it expects. -/
theorem Inv.expected
    {state : State ι}
    {actor : ι}
    {lock : Lock}
    (inv : state.Inv)
    (alive : lock ∈ (state.thread actor).aliveLocks) :
    state.word = lock.initPhase.bits ||| lockedBit := by
  have shows := inv.showsOf actor
  have some := List.length_pos_of_mem alive
  have one := Sync.lockCount_le_one state.word
  have locked := shows.locked
  have count :
      (state.thread actor).aliveLocks.length + state.otherLocks actor = 1 := by
    omega
  rw [count] at shows
  rw [(inv.guards actor).1 lock alive]
  exact shows.eq_locked

/-- The end of an instruction that fits the word. -/
theorem Inv.finish
    {state : State ι}
    {actor : ι}
    {word : U32}
    {next : Next}
    {thread : Thread}
    (inv : state.Inv)
    (continues : (state.thread actor).continue next = .ok thread)
    (shows :
      Shows word
        ((next.locks ++ (state.thread actor).locks).length +
          state.otherLocks actor)
        ((next.readLocks ++ (state.thread actor).readLocks).length +
          state.otherReadLocks actor))
    (phase :
      (view word).phase = (view state.word).phase ∨
        state.otherLocks actor = 0 ∧ state.otherReadLocks actor = 0)
    (given : GuardsRely word next.locks next.readLocks)
    (kept :
      GuardsRely word (state.thread actor).locks
        (state.thread actor).readLocks)
    (relies : next.Relies) :
    (state.setThread word actor thread).Inv := by
  obtain ⟨locks, readLocks⟩ := Thread.continue_alive continues
  apply inv.update _ phase _ (Thread.continue_relies continues relies)
  · rw [locks, readLocks]
    exact shows
  · rw [locks, readLocks]
    exact given.append kept

omit [DecidableEq ι] in
/-- What the guards of a thread outside its place show, when the phase stays. -/
theorem Inv.guards_kept
    {state : State ι}
    {word : U32}
    (inv : state.Inv)
    (actor : ι)
    (phase : (view word).phase = (view state.word).phase) :
    GuardsRely word (state.thread actor).locks
      (state.thread actor).readLocks := by
  have guards := inv.guards actor
  rw [GuardsRely, phase]
  exact ⟨fun lock member =>
      guards.1 lock (List.mem_append_right _ member),
    fun lock member =>
      guards.2 lock (List.mem_append_right _ member)⟩

/-- An instruction keeps the invariant. -/
theorem Inv.effect
    {state : State ι}
    {actor : ι}
    {word : U32}
    {next : Next}
    {thread : Thread}
    (inv : state.Inv)
    (effect : Effect (state.thread actor).pc state.word word next)
    (continues : (state.thread actor).continue next = .ok thread) :
    (state.setThread word actor thread).Inv := by
  have shows := inv.showsOf actor
  have guards := inv.guards actor
  rw [Thread.aliveLocks, Thread.aliveReadLocks] at shows guards
  cases effect with
  | stays sameLocks sameReadLocks relies =>
      rw [← sameLocks, ← sameReadLocks] at shows guards
      apply inv.finish continues shows (.inl rfl) _
        (inv.guards_kept actor rfl) relies
      exact ⟨fun lock member =>
          guards.1 lock (List.mem_append_left _ member),
        fun lock member =>
          guards.2 lock (List.mem_append_left _ member)⟩
  | locks owns ownsRead lockable =>
      rw [owns, ownsRead] at shows
      obtain ⟨noLocks, noReadLocks, shown⟩ := shows.locks lockable
      have phase :
          (view (state.word ||| lockedBit)).phase =
            (view state.word).phase := by
        rw [Sync.view_or_lockedBit]
      apply inv.finish continues _ (.inl phase)
        (Sync.guardsRely_write phase.symm) (inv.guards_kept actor phase)
        trivial
      simp only [Next.locks, Next.readLocks, Next.retWrite, Result.locks,
        Result.readLocks, List.length_append, List.length_cons,
        List.length_nil] at noLocks noReadLocks ⊢
      rw [show 0 + 1 + (state.thread actor).locks.length +
          state.otherLocks actor = 1 by omega, noReadLocks]
      exact shown
  | reads owns ownsRead lockable =>
      rw [isReadLockable_iff] at lockable
      rw [owns, ownsRead] at shows
      obtain ⟨noLocks, shown⟩ := shows.reads lockable.1 lockable.2
      have phase :
          (view (state.word + readerUnity)).phase =
            (view state.word).phase := by
        rw [view_add_readerUnity lockable.2]
      apply inv.finish continues _ (.inl phase)
        (Sync.guardsRely_read phase.symm) (inv.guards_kept actor phase)
        trivial
      simp only [Next.locks, Next.readLocks, Next.retRead, Result.locks,
        Result.readLocks, List.cons_append, List.nil_append,
        List.length_cons] at noLocks shown ⊢
      rw [noLocks, Nat.add_right_comm]
      exact shown
  | @clones guard owns ownsRead room =>
      rw [owns, ownsRead] at shows guards
      have free : lockCount state.word = 0 := by
        have alone := shows.alone.resolve_right
        rw [shows.locked]
        apply alone
        simp
      obtain ⟨noLocks, shown⟩ := shows.reads free room
      have phase :
          (view (state.word + readerUnity)).phase =
            (view state.word).phase := by
        rw [view_add_readerUnity room]
      have initial : guard.initPhase = (view (state.word + readerUnity)).phase := by
        rw [phase]
        exact guards.2 guard (by simp)
      apply inv.finish continues _ (.inl phase)
        (Sync.guardsRely_cloned initial initial)
        (inv.guards_kept actor phase) trivial
      simp only [Next.locks, Next.readLocks, Result.locks,
        Result.readLocks, List.cons_append, List.nil_append,
        List.length_cons] at noLocks shown ⊢
      rw [noLocks, Nat.add_right_comm]
      exact shown
  | drops owns ownsRead expected =>
      obtain ⟨noLocks, noReadLocks, noOther, noOtherRead⟩ := inv.sole owns
      rw [Thread.aliveReadLocks, ownsRead] at noReadLocks
      apply inv.finish continues _ (.inr ⟨noOther, noOtherRead⟩)
        (Sync.guardsRely_nil _) _ trivial
      · rw [noLocks, show (state.thread actor).readLocks = [] from noReadLocks,
          noOther, noOtherRead]
        exact .fresh _
      · rw [noLocks, show (state.thread actor).readLocks = [] from noReadLocks]
        exact Sync.guardsRely_nil _
  | unreachable owns unexpected => cases continues
  | @converts lock owns ownsRead =>
      obtain ⟨noLocks, noReadLocks, noOther, noOtherRead⟩ := inv.sole owns
      rw [Thread.aliveReadLocks, ownsRead] at noReadLocks
      have expected := inv.expected
        (show lock ∈ (state.thread actor).aliveLocks by
          rw [Thread.aliveLocks, owns]
          exact List.mem_cons_self)
      have lockable := (lockable_hint lock.onUnlock).2
      rw [isReadLockable_iff] at lockable
      have shown := ((Shows.fresh lock.onUnlock).reads lockable.1 lockable.2).2
      rw [expected, convert_word] at *
      apply inv.finish continues _ (.inr ⟨noOther, noOtherRead⟩) _ _ trivial
      · rw [noLocks, show (state.thread actor).readLocks = [] from noReadLocks,
          noOther, noOtherRead]
        exact shown
      · apply Sync.guardsRely_read
        rw [view_add_readerUnity lockable.2, LockWord.view_bits]
      · rw [noLocks, show (state.thread actor).readLocks = [] from noReadLocks]
        exact Sync.guardsRely_nil _
  | @dropsRead lock owns ownsRead =>
      rw [owns, ownsRead] at shows
      simp only [List.cons_append, List.nil_append, List.length_cons]
        at shows
      rw [Nat.add_right_comm] at shows
      have phase :
          (view (state.word - readerUnity)).phase =
            (view state.word).phase :=
        Sync.phase_sub_units rfl state.word
      exact inv.finish continues shows.dropsRead (.inl phase)
        (Sync.guardsRely_nil _) (inv.guards_kept actor phase) trivial

end State

/-- A guard found at a position, next to the others. -/
theorem cons_eraseIdx_perm
    {Guard : Type}
    {guards : List Guard}
    {index : Nat}
    {guard : Guard}
    (found : guards[index]? = some guard) :
    List.Perm (guard :: guards.eraseIdx index) guards := by
  obtain ⟨inside, rfl⟩ := List.getElem?_eq_some_iff.mp found
  exact List.getElem_cons_eraseIdx_perm inside

/-- Starting an operation moves a guard into the locker, at most. -/
theorem Thread.start_alive
    {thread started : Thread}
    {op : UserOp}
    (starts : thread.start op = some started) :
    started.pc.Relies ∧
      List.Perm (started.aliveLocks.map Lock.initPhase)
        (thread.aliveLocks.map Lock.initPhase) ∧
      List.Perm started.aliveReadLocks thread.aliveReadLocks := by
  unfold Thread.start at starts
  split at starts
  case h_1 idle =>
    rw [Thread.aliveLocks, Thread.aliveReadLocks, Thread.aliveLocks,
      Thread.aliveReadLocks, idle]
    cases op with
    | lock closures hint =>
        obtain rfl := Option.some.inj starts
        exact ⟨trivial, .refl _, .refl _⟩
    | tryLock how hint =>
        obtain rfl := Option.some.inj starts
        exact ⟨trivial, .refl _, .refl _⟩
    | dropLock index =>
        obtain ⟨lock, found, rfl⟩ := Option.map_eq_some_iff.mp starts
        exact ⟨trivial, (cons_eraseIdx_perm found).map _, .refl _⟩
    | dropReadLock index =>
        obtain ⟨lock, found, rfl⟩ := Option.map_eq_some_iff.mp starts
        exact ⟨trivial, .refl _, cons_eraseIdx_perm found⟩
    | clone index =>
        obtain ⟨lock, found, rfl⟩ := Option.map_eq_some_iff.mp starts
        exact ⟨trivial, .refl _, cons_eraseIdx_perm found⟩
    | convert index =>
        obtain ⟨lock, found, rfl⟩ := Option.map_eq_some_iff.mp starts
        exact ⟨rfl, (cons_eraseIdx_perm found).map _, .refl _⟩
    | setPhase index phase =>
        obtain ⟨lock, found, rfl⟩ := Option.map_eq_some_iff.mp starts
        obtain ⟨inside, rfl⟩ := List.getElem?_eq_some_iff.mp found
        simp only [idle]
        refine ⟨trivial, .of_eq ?_, .refl _⟩
        simp only [Pc.ownedLocks, List.nil_append, List.map_set]
        have bound : index < (thread.locks.map Lock.initPhase).length := by
          rwa [List.length_map]
        have initial :
            thread.locks[index].initPhase =
              (thread.locks.map Lock.initPhase)[index] :=
          (List.getElem_map _).symm
        rw [initial, List.set_getElem_self]
  case h_2 => cases starts

namespace State

variable {ι : Type} [DecidableEq ι] [Fintype ι]

/-- Starting an operation keeps the invariant. -/
theorem Inv.start
    {state : State ι}
    {actor : ι}
    {op : UserOp}
    {thread : Thread}
    (inv : state.Inv)
    (starts : (state.thread actor).start op = some thread) :
    (state.setThread state.word actor thread).Inv := by
  obtain ⟨relies, locks, readLocks⟩ := Thread.start_alive starts
  have guards := inv.guards actor
  have count := locks.length_eq
  rw [List.length_map, List.length_map] at count
  apply inv.update _ (.inl rfl) _ relies
  · rw [count, readLocks.length_eq]
    exact inv.showsOf actor
  · constructor
    · intro lock member
      have shown :=
        locks.mem_iff.mp (List.mem_map_of_mem member)
      obtain ⟨found, foundMember, same⟩ := List.mem_map.mp shown
      rw [← same]
      exact guards.1 found foundMember
    · exact fun lock member => guards.2 lock (readLocks.mem_iff.mp member)

/-- Every step keeps the invariant. -/
theorem Inv.step
    {state after : State ι}
    {action : Action ι}
    (inv : state.Inv)
    (step : State.Step state action after) :
    after.Inv := by
  cases actorStep step with
  | start starts => exact inv.start starts
  | @instruction actor spurious word next thread performs continues =>
      exact inv.effect (Pc.effect (inv.relies actor) performs) continues

/-- No step panics. -/
theorem Inv.no_panic
    {state : State ι}
    {action : Action ι}
    {panic : Panic}
    (inv : state.Inv) :
    state.exec action ≠ some (.error panic) := by
  intro panics
  cases action with
  | start actor op =>
      rw [State.exec, Option.map_eq_some_iff] at panics
      obtain ⟨thread, -, same⟩ := panics
      cases same
  | run actor spurious =>
      rw [State.exec, Option.map_eq_some_iff] at panics
      obtain ⟨⟨word, next⟩, performs, finishes⟩ := panics
      have effect := Pc.effect (inv.relies actor) performs
      cases next with
      | goto pc => cases finishes
      | ret result => cases finishes
      | unreachable =>
          cases effect with
          | stays locks readLocks relies => exact relies
          | @unreachable lock owns unexpected =>
              apply unexpected
              apply inv.expected
              rw [Thread.aliveLocks, owns]
              exact List.mem_cons_self

omit [DecidableEq ι] in
/-- A fresh locker. -/
theorem Inv.init (phase : Phase) : (State.init ι phase).Inv := by
  constructor
  · have noLocks : (State.init ι phase).aliveLocks = 0 :=
      Finset.sum_eq_zero fun _ _ => rfl
    have noReadLocks : (State.init ι phase).aliveReadLocks = 0 :=
      Finset.sum_eq_zero fun _ _ => rfl
    rw [noLocks, noReadLocks]
    exact .fresh phase
  · exact fun _ => Sync.guardsRely_nil _
  · exact fun _ => trivial

/-- The invariant holds in every reachable state. -/
theorem Reachable.inv
    {state : State ι}
    (reachable : State.Reachable state) :
    state.Inv := by
  obtain ⟨phase, actions, run⟩ := reachable
  exact run.invariant (Inv.init phase) fun _ inv step => inv.step step

/--
At most one lock is alive, and then no read lock; the word is then exactly the
phase that the lock found and the lock bit, so dropping a lock never panics;
and the word is the phase, the lock bit for each lock and one reader unit for
each read lock.
-/
theorem spinning_exclusion
    {state : State ι}
    (reachable : Reachable state) :
    state.aliveLocks ≤ 1 ∧
      (state.aliveLocks = 1 → state.aliveReadLocks = 0) ∧
      (∀ actor, ∀ lock ∈ (state.thread actor).aliveLocks,
        state.word = lock.initPhase.bits ||| lockedBit) ∧
      (∀ action panic, state.exec action ≠ some (.error panic)) ∧
      readerCount state.word = state.aliveReadLocks ∧
      lockCount state.word = state.aliveLocks := by
  have inv := reachable.inv
  have one := Sync.lockCount_le_one state.word
  have locked := inv.shows.locked
  have alone := inv.shows.alone
  exact ⟨by omega, by omega, fun _ _ alive => inv.expected alive,
    fun _ _ => inv.no_panic, inv.shows.readers, locked⟩

/-- Two threads: one reads twice while the other one waits to write. -/
theorem spinning_exclusion_reading :
    let actions : List (Action (Fin 2)) :=
      [.start 0 (.lock ⟨fun _ => .read, fun _ => .read⟩ .initialized),
        .run 0 false, .run 0 true, .run 0 false, .run 0 false,
        .start 1 (.lock ⟨fun _ => .write, fun _ => .write⟩ .empty),
        .run 1 false, .start 0 (.clone 0), .run 0 false, .run 0 false]
    ∃ state,
      Run Step (init (Fin 2) .empty) actions state ∧
        state.aliveReadLocks = 2 ∧ state.aliveLocks = 0 ∧
          readerCount state.word = 2 ∧ lockCount state.word = 0 := by
  intro actions
  obtain ⟨state, performed, reading, writing⟩ :
      ∃ state,
        runAll advance (init (Fin 2) .empty) actions = some state ∧
          state.aliveReadLocks = 2 ∧ state.aliveLocks = 0 :=
    ⟨_, rfl, rfl, rfl⟩
  have run := run_of_advances performed
  obtain ⟨-, -, -, -, readers, locked⟩ := spinning_exclusion ⟨_, _, run⟩
  exact ⟨state, run, reading, writing, readers.trans reading,
    locked.trans writing⟩

end State

end StaticInit.Spinning
