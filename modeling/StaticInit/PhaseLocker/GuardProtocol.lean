import StaticInit.PhaseLocker.Spinning.Exclusion
import StaticInit.PhaseLocker.Sync.Assertions
import StaticInit.PhaseLocker.Sync.Phases
import StaticInit.PhaseLocker.UnSync

namespace StaticInit.GuardProtocol

/-!
# The write guards from the lock to its release

A write guard remembers the phase to leave behind.  The guards of the two
synchronized lockers also cache the phase the word had when they were made,
and release or convert the lock with that cache.  Between two instructions of
the owner the other threads may change the waiter bits of the futex word; once
the lock is converted they may change everything but the phase.
-/

open LockWord (view pack)

section Purpose

/-- An operation on a write guard. -/
inductive Op where
  | setPhase (phase : Phase)
  | commitPhase
  /-- `transition`, whose function panics or returns. -/
  | transition (onSuccess onPanic : Phase) (panics : Bool)
  deriving Repr, DecidableEq

/-- How a write guard ends. -/
inductive Ending where
  | drop
  | convert
  deriving Repr, DecidableEq

/-- The phase set on a guard, and the phase the locker shows. -/
structure Phases where
  pending : Phase
  committed : Phase
  deriving Repr, DecidableEq

/-- What an operation is meant to do to them. -/
def Phases.track (phases : Phases) : Op → Phases
  | .setPhase phase => { phases with pending := phase }
  | .commitPhase => { phases with committed := phases.pending }
  | .transition onSuccess onPanic panics =>
      { phases with pending := if panics then onPanic else onSuccess }

/-- The phases after some operations on a guard obtained in a phase. -/
def Phases.after (phase : Phase) (ops : List Op) : Phases :=
  ops.foldl Phases.track ⟨phase, phase⟩

@[simp] theorem Phases.after_nil (phase : Phase) :
    Phases.after phase [] = ⟨phase, phase⟩ :=
  rfl

@[simp] theorem Phases.after_snoc
    (phase : Phase)
    (ops : List Op)
    (op : Op) :
    Phases.after phase (ops ++ [op]) = (Phases.after phase ops).track op :=
  List.foldl_concat ..

/-- How often `commit_phase` is called. -/
def commitCount (ops : List Op) : Nat :=
  ops.count .commitPhase

theorem commitCount_snoc (ops : List Op) (op : Op) :
    commitCount (ops ++ [op]) =
      commitCount ops + if op = .commitPhase then 1 else 0 := by
  simp [commitCount, List.count_singleton]

/-- What the end of a guard shows. -/
inductive Outcome where
  /-- The lock is released; the phase of the locker. -/
  | released (phase : Phase)
  /-- A read guard was made; the phases of the locker and of the guard. -/
  | converted (phase reported : Phase)
  | panicked
  deriving Repr, DecidableEq

def Ending.outcome (ending : Ending) (phase : Phase) : Outcome :=
  match ending with
  | .drop => .released phase
  | .convert => .converted phase phase

/-- What is seen of a guard from the lock to its end. -/
structure Observed where
  /-- The phases of the locker and of the guard after each `commit_phase`. -/
  commits : List (Phase × Phase)
  /-- The word before and after each instruction on the write lock. -/
  writes : List (U32 × U32)
  outcome : Outcome
  deriving Repr, DecidableEq

/-- The write gives the lock bit back. -/
def releases (write : U32 × U32) : Bool :=
  (view write.1).locked && !(view write.2).locked

/-- The guard did what is meant, when `phase` was set last. -/
structure Observed.Obeys
    (observed : Observed)
    (ending : Ending)
    (phase : Phase) : Prop where
  commits : ∀ commit ∈ observed.commits, commit.1 = commit.2
  once : observed.writes.countP releases = 1
  outcome : observed.outcome = ending.outcome phase

end Purpose

section Owner

/-- The word, and what the owner of the guard did to it. -/
structure Trace where
  word : U32
  writes : List (U32 × U32)

/-- What the other threads make of the word before an instruction. -/
abbrev Others := Nat → U32 → U32

/-- Nobody else changes the word. -/
def alone : Others :=
  fun _ word => word

/-- The old word of an atomic instruction, and the trace after it. -/
def Trace.fetch
    (trace : Trace)
    (others : Others)
    (update : U32 → U32) : U32 × Trace :=
  let prev := others trace.writes.length trace.word
  (prev, ⟨update prev, trace.writes ++ [(prev, update prev)]⟩)

/-- The methods of `PhaseGuard`. -/
structure PhaseGuard (Guard : Type) where
  setPhase : Guard → Phase → Guard
  commitPhase : Guard → Trace → Trace
  phase : Guard → Phase
  transition : Guard → Phase → Phase → Bool → Guard

/-- A guard in use. -/
structure Guarded (Guard : Type) where
  trace : Trace
  guard : Guard
  commits : List (Phase × Phase)

variable {Guard : Type}

def PhaseGuard.perform
    (methods : PhaseGuard Guard)
    (state : Guarded Guard) : Op → Guarded Guard
  | .setPhase phase =>
      { state with guard := methods.setPhase state.guard phase }
  | .commitPhase =>
      let trace := methods.commitPhase state.guard state.trace
      { state with
        trace := trace
        commits :=
          state.commits ++
            [(.fromBitsTruncate trace.word, methods.phase state.guard)] }
  | .transition onSuccess onPanic panics =>
      { state with
        guard := methods.transition state.guard onSuccess onPanic panics }

/-- Perform some operations on a new guard of a word. -/
def PhaseGuard.performAll
    (methods : PhaseGuard Guard)
    (new : U32 → Guard)
    (word : U32)
    (ops : List Op) : Guarded Guard :=
  ops.foldl methods.perform ⟨⟨word, []⟩, new word, []⟩

/-- What each operation keeps holds after all of them. -/
theorem PhaseGuard.performAll_induction
    {methods : PhaseGuard Guard}
    {new : U32 → Guard}
    {word : U32}
    (Keeps : List Op → Guarded Guard → Prop)
    (start : Keeps [] ⟨⟨word, []⟩, new word, []⟩)
    (step :
      ∀ ops state op, Keeps ops state →
        Keeps (ops ++ [op]) (methods.perform state op))
    (ops : List Op) :
    Keeps ops (methods.performAll new word ops) := by
  induction ops using List.reverseRecOn with
  | nil => exact start
  | append_singleton ops op inductionHypothesis =>
      rw [performAll, List.foldl_concat]
      exact step ops _ op inductionHypothesis

end Owner

section Synchronized

open Sync (Lock)

/-- `commit_phase`: load the word, then flip the phase bits that differ. -/
def commitPhase (others : Others) (lock : Lock) (trace : Trace) : Trace :=
  let (v, trace) := trace.fetch others id
  let cur := Phase.fromBitsTruncate v
  let toXor := lock.onUnlock ^^^ cur
  (trace.fetch others (fun word => word ^^^ toXor.bits)).2

/-- `PhaseGuard for SyncPhaseGuard`, the same code in both lockers. -/
def syncPhaseGuard (others : Others) : PhaseGuard Lock where
  setPhase lock phase := { lock with onUnlock := phase }
  commitPhase := commitPhase others
  phase lock := lock.onUnlock
  transition lock onSuccess onPanic panics :=
    let lock := { lock with onUnlock := onPanic }
    if panics then lock else { lock with onUnlock := onSuccess }

/-- The waiter bits that the other threads leave. -/
structure Waiters where
  write : Bool
  read : Bool
  deriving Repr, DecidableEq

def Waiters.set (waiters : Waiters) (word : U32) : U32 :=
  pack
    { view word with
      writeWaiter := waiters.write
      readWaiter := waiters.read }

/-- What the other threads do beside a guard of the futex locker. -/
structure Contention where
  /-- The waiter bits before each instruction on the write lock. -/
  waiters : Nat → Waiters
  /-- The word, up to its phase, before each instruction of `wake_readers`. -/
  reading : Nat → LockWord
  /-- How many readers the futex wakes. -/
  woken : Nat
  bounded : woken ≤ maxWakedReaders

def Contention.writers (contention : Contention) : Others :=
  fun time => (contention.waiters time).set

def Contention.readers (contention : Contention) : Others :=
  fun time word =>
    pack { contention.reading time with phase := (view word).phase }

/-- `Drop for Lock` of the futex locker, up to the call of `transfer_lock`. -/
def dropFutex
    (contention : Contention)
    (lock : Lock)
    (trace : Trace) : Trace × Outcome :=
  let expected := lock.initPhase.bits ||| lockedBit
  let (seen, trace) :=
    trace.fetch contention.writers fun word =>
      if word = expected then lock.onUnlock.bits else word
  if seen = expected then
    (trace, .released (.fromBitsTruncate trace.word))
  else
    let (prev, trace) :=
      trace.fetch contention.writers fun word => word ^^^ lock.releaseMask
    match lock.released .done prev with
    | .panic _ => (trace, .panicked)
    | _ => (trace, .released (.fromBitsTruncate trace.word))

/-- `wake_readers` for a conversion, from the word the conversion left. -/
def wakeReaders (contention : Contention) (word : U32) : Outcome :=
  let (v, trace) :=
    Trace.fetch ⟨word, []⟩ contention.readers fun word =>
      word ^^^ Sync.wakeMask 0 true
  match Sync.wakeMarked 0 (.converting .guard) v with
  | .panic _ => .panicked
  | _ =>
      let trace :=
        if contention.woken = maxWakedReaders then
          (trace.fetch contention.readers fun word => word ||| readWaiterBit).2
        else
          trace
      let (cur, trace) :=
        trace.fetch contention.readers fun word =>
          word - Sync.wakeUnits contention.woken
      .converted (.fromBitsTruncate trace.word) (Sync.ReadLock.new cur).initPhase

/-- `into_read_lock` of the futex locker, from `From<Lock>`. -/
def convertFutex
    (contention : Contention)
    (lock : Lock)
    (trace : Trace) : Trace × Outcome :=
  let (prev, trace) :=
    trace.fetch contention.writers fun word =>
      word ^^^ lock.convertMask lock.initPhase
  if prev &&& readWaiterBit != 0 then
    (trace, wakeReaders contention trace.word)
  else
    (trace, .converted (.fromBitsTruncate trace.word)
      (Sync.ReadLock.new lock.onUnlock.bits).initPhase)

/-- `Drop for Lock` of the spinning locker. -/
def dropSpinning (lock : Lock) (trace : Trace) : Trace × Outcome :=
  let expected := lock.initPhase.bits ||| lockedBit
  let (seen, trace) :=
    trace.fetch alone fun word =>
      if word = expected then lock.onUnlock.bits else word
  if seen = expected then
    (trace, .released (.fromBitsTruncate trace.word))
  else
    (trace, .panicked)

/-- `into_read_lock` of the spinning locker, from `From<Lock>`. -/
def convertSpinning (lock : Lock) (trace : Trace) : Trace × Outcome :=
  let (_, trace) :=
    trace.fetch alone fun word =>
      word ^^^ Spinning.convertMask lock lock.initPhase
  (trace, .converted (.fromBitsTruncate trace.word)
    (Sync.ReadLock.new lock.onUnlock.bits).initPhase)

end Synchronized

section SingleThread

open UnSync (WriteGuard)

/-- `Cell::set`. -/
def Trace.store (trace : Trace) (value : U32) : Trace :=
  (trace.fetch alone fun _ => value).2

/-- `PhaseGuard for UnSyncPhaseGuard`. -/
def unSyncPhaseGuard : PhaseGuard WriteGuard where
  setPhase _ phase := ⟨phase⟩
  commitPhase guard trace := trace.store (UnSync.commitPhase guard)
  phase guard := guard.phase
  transition _ onSuccess onPanic panics :=
    if panics then ⟨onPanic⟩ else ⟨onSuccess⟩

def dropUnSync (guard : WriteGuard) (trace : Trace) : Trace × Outcome :=
  let trace := trace.store (UnSync.dropWrite guard)
  (trace, .released (UnSync.phase trace.word))

def convertUnSync (guard : WriteGuard) (trace : Trace) : Trace × Outcome :=
  let trace := trace.store (UnSync.convert guard)
  (trace, .converted (UnSync.phase trace.word) (UnSync.phase trace.word))

end SingleThread

/-- The three lockers. -/
inductive Locker where
  | futex (contention : Contention)
  | spinning
  | unSync

/-- What is seen of a guard that ends as given. -/
def Guarded.finish
    {Guard : Type}
    (state : Guarded Guard)
    (end_ : Guard → Trace → Trace × Outcome) : Observed :=
  let (trace, outcome) := end_ state.guard state.trace
  ⟨state.commits, trace.writes, outcome⟩

/-- Lock in a phase, perform some operations on the write guard, and end it. -/
def Locker.use
    (locker : Locker)
    (phase : Phase)
    (ops : List Op)
    (ending : Ending) : Observed :=
  let word := phase.bits ||| lockedBit
  match locker with
  | .futex contention =>
      ((syncPhaseGuard contention.writers).performAll .new word ops).finish <|
        match ending with
        | .drop => dropFutex contention
        | .convert => convertFutex contention
  | .spinning =>
      ((syncPhaseGuard alone).performAll .new word ops).finish <|
        match ending with
        | .drop => dropSpinning
        | .convert => convertSpinning
  | .unSync =>
      (unSyncPhaseGuard.performAll .new word ops).finish <|
        match ending with
        | .drop => dropUnSync
        | .convert => convertUnSync

/-- Whether the cached phase and the other threads let the guard end as meant. -/
def Locker.Fits
    (locker : Locker)
    (phase : Phase)
    (ops : List Op)
    (ending : Ending) : Prop :=
  match locker with
  | .futex contention =>
      (Phases.after phase ops).committed = phase ∧
        (ending = .convert →
          (contention.waiters (2 * commitCount ops)).read = true →
            (contention.reading 0).locked = false)
  | .spinning => (Phases.after phase ops).committed = phase
  | .unSync => True

section Words

variable {Allowed : Bool → Bool → Prop} {others : Others} {word : U32}

/-- A write locked word in a phase, with allowed waiter bits. -/
def Held (Allowed : Bool → Bool → Prop) (phase : Phase) (word : U32) : Prop :=
  ∃ writes reads, Allowed writes reads ∧
    view word = ⟨writes, reads, true, 0, phase⟩

/-- The other threads change waiter bits only, and only as allowed. -/
def Others.Keeps (others : Others) (Allowed : Bool → Bool → Prop) : Prop :=
  ∀ time phase word, Held Allowed phase word →
    Held Allowed phase (others time word)

/-- No thread waits. -/
def NoWaiters (writes reads : Bool) : Prop :=
  writes = false ∧ reads = false

theorem alone_keeps : alone.Keeps Allowed :=
  fun _ _ _ held => held

@[simp] theorem Waiters.view_set (waiters : Waiters) (word : U32) :
    view (waiters.set word) =
      { view word with
        writeWaiter := waiters.write
        readWaiter := waiters.read } :=
  LockWord.view_pack _

theorem Contention.writers_keeps (contention : Contention) :
    contention.writers.Keeps fun _ _ => True := by
  rintro time phase word ⟨writes, reads, -, shown⟩
  refine ⟨(contention.waiters time).write, (contention.waiters time).read,
    trivial, ?_⟩
  rw [writers, Waiters.view_set, shown]

theorem held_start (phase : Phase) :
    Held NoWaiters phase (phase.bits ||| lockedBit) :=
  ⟨false, false, ⟨rfl, rfl⟩, by simp⟩

theorem Held.mono
    {More : Bool → Bool → Prop}
    {phase : Phase}
    (held : Held Allowed phase word)
    (weaker : ∀ writes reads, Allowed writes reads → More writes reads) :
    Held More phase word := by
  obtain ⟨writes, reads, allowed, shown⟩ := held
  exact ⟨writes, reads, weaker _ _ allowed, shown⟩

theorem Held.phase_eq {phase : Phase} (held : Held Allowed phase word) :
    Phase.fromBitsTruncate word = phase := by
  obtain ⟨writes, reads, -, shown⟩ := held
  exact congrArg LockWord.phase shown

theorem Held.locked {phase : Phase} (held : Held Allowed phase word) :
    (view word).locked = true := by
  obtain ⟨writes, reads, -, shown⟩ := held
  rw [shown]

/-- Flipping the phase bits that differ gives the other phase. -/
theorem Held.commit
    {phase : Phase}
    (held : Held Allowed phase word)
    (pending : Phase) :
    Held Allowed pending (word ^^^ (pending ^^^ phase).bits) := by
  obtain ⟨writes, reads, allowed, shown⟩ := held
  refine ⟨writes, reads, allowed, ?_⟩
  rw [LockWord.view_xor, shown, LockWord.view_bits, Phase.xor_comm pending]
  simp

/-- Without waiters the phase alone decides the word. -/
theorem Held.eq_iff
    {phase other : Phase}
    (held : Held NoWaiters phase word) :
    word = other.bits ||| lockedBit ↔ phase = other := by
  obtain ⟨writes, reads, ⟨rfl, rfl⟩, shown⟩ := held
  rw [← LockWord.view_inj, shown]
  simp

/-- The fields of a held word after the slow release of a lock. -/
theorem view_release
    {writes reads : Bool}
    {phase : Phase}
    (shown : view word = ⟨writes, reads, true, 0, phase⟩)
    (lock : Sync.Lock) :
    view (word ^^^ lock.releaseMask) =
      ⟨writes, reads, false, 0,
        phase ^^^ (lock.initPhase ^^^ lock.onUnlock)⟩ := by
  rw [Sync.Lock.releaseMask, LockWord.view_xor, shown]
  simp

/-- The fields of a held word after the conversion of a lock. -/
theorem view_convert
    {writes reads : Bool}
    {phase : Phase}
    (shown : view word = ⟨writes, reads, true, 0, phase⟩)
    (lock : Sync.Lock) :
    view (word ^^^ lock.convertMask lock.initPhase) =
      ⟨writes, reads, false, 1,
        phase ^^^ (lock.initPhase ^^^ lock.onUnlock)⟩ := by
  rw [Sync.Lock.convertMask, LockWord.view_xor, shown]
  simp

/-- The assertions at the entry of `transfer_lock` hold after a slow release. -/
theorem released_not_panic
    {phase : Phase}
    (held : Held Allowed phase word)
    (lock : Sync.Lock)
    (assertion : Sync.Assertion) :
    lock.released .done word ≠ .panic assertion := by
  obtain ⟨writes, reads, -, shown⟩ := held
  have after := view_release shown lock
  unfold Sync.Lock.released
  split
  case isTrue waiting =>
    have free :
        ((word ^^^ lock.releaseMask) &&&
          (lockedBit ||| readerBits ||| readerOverf) == 0) = true := by
      rw [Sync.free_iff, Sync.readerCount, after]
      exact ⟨rfl, rfl⟩
    have waiters : Sync.hasWaiters (word ^^^ lock.releaseMask) = true := by
      rw [Sync.hasWaiters_iff, shown] at waiting
      rw [Sync.hasWaiters_iff, after]
      exact waiting
    rw [Sync.hasWaiters] at waiters
    simp only [Sync.transferLock, Sync.Next.assert, free, waiters]
    exact Sync.Next.noConfusion
  case isFalse => exact Sync.Next.noConfusion

end Words

section Steps

variable {Allowed : Bool → Bool → Prop} {others : Others} {phase : Phase}

/-- What holds of the owner of a synchronized guard after some operations. -/
structure Performed
    (Allowed : Bool → Bool → Prop)
    (phase : Phase)
    (ops : List Op)
    (state : Guarded Sync.Lock) : Prop where
  guard : state.guard = ⟨phase, (Phases.after phase ops).pending⟩
  held : Held Allowed (Phases.after phase ops).committed state.trace.word
  kept : state.trace.writes.countP releases = 0
  length : state.trace.writes.length = 2 * commitCount ops
  commits : ∀ commit ∈ state.commits, commit.1 = commit.2

theorem not_releases_of_held
    {before after : U32}
    {last : Phase}
    (held : Held Allowed last after) :
    releases (before, after) = false := by
  simp [releases, held.locked]

theorem commitPhase_eq
    (lock : Sync.Lock)
    (word : U32)
    (writes : List (U32 × U32)) :
    let loaded := others writes.length word
    let flipped := others (writes.length + 1) loaded
    let shown :=
      flipped ^^^ (lock.onUnlock ^^^ Phase.fromBitsTruncate loaded).bits
    commitPhase others lock ⟨word, writes⟩ =
      ⟨shown, writes ++ [(loaded, loaded), (flipped, shown)]⟩ := by
  simp [commitPhase, Trace.fetch]

/-- `commit_phase` shows the phase set on the guard, and keeps the lock. -/
theorem Performed.commit
    {ops : List Op}
    {state : Guarded Sync.Lock}
    (performed : Performed Allowed phase ops state)
    (keeps : others.Keeps Allowed) :
    Performed Allowed phase (ops ++ [.commitPhase])
      ((syncPhaseGuard others).perform state .commitPhase) := by
  obtain ⟨guard, held, kept, length, commits⟩ := performed
  obtain ⟨⟨word, writes⟩, lock, earlier⟩ := state
  obtain rfl := guard
  have loaded := keeps writes.length _ _ held
  have flipped := keeps (writes.length + 1) _ _ loaded
  have committed := flipped.commit (Phases.after phase ops).pending
  rw [← loaded.phase_eq] at committed
  refine ⟨?_, ?_, ?_, ?_, ?_⟩
  · rw [Phases.after_snoc]
    rfl
  · rw [Phases.after_snoc]
    change Held Allowed _ (commitPhase _ _ ⟨word, writes⟩).word
    rw [commitPhase_eq]
    exact committed
  · change (commitPhase _ _ ⟨word, writes⟩).writes.countP releases = 0
    rw [commitPhase_eq, List.countP_append, kept]
    simp [not_releases_of_held loaded, not_releases_of_held committed]
  · change (commitPhase _ _ ⟨word, writes⟩).writes.length = _
    rw [commitPhase_eq, commitCount_snoc, List.length_append, length]
    simp
    omega
  · intro commit member
    rcases List.mem_append.mp member with old | new
    · exact commits commit old
    · obtain rfl := List.mem_singleton.mp new
      change Phase.fromBitsTruncate (commitPhase _ _ ⟨word, writes⟩).word = _
      rw [commitPhase_eq]
      exact committed.phase_eq

theorem Performed.perform
    {ops : List Op}
    {state : Guarded Sync.Lock}
    (performed : Performed Allowed phase ops state)
    (keeps : others.Keeps Allowed)
    (op : Op) :
    Performed Allowed phase (ops ++ [op])
      ((syncPhaseGuard others).perform state op) := by
  cases op with
  | commitPhase => exact performed.commit keeps
  | setPhase set =>
      obtain ⟨guard, held, kept, length, commits⟩ := performed
      refine ⟨?_, ?_, kept, ?_, commits⟩
      · simp [PhaseGuard.perform, syncPhaseGuard, Phases.track, guard]
      · rw [Phases.after_snoc]
        exact held
      · rw [commitCount_snoc]
        exact length
  | transition onSuccess onPanic panics =>
      obtain ⟨guard, held, kept, length, commits⟩ := performed
      refine ⟨?_, ?_, kept, ?_, commits⟩
      · cases panics <;>
          simp [PhaseGuard.perform, syncPhaseGuard, Phases.track, guard]
      · rw [Phases.after_snoc]
        exact held
      · rw [commitCount_snoc]
        exact length

/-- All operations on a synchronized guard keep the lock and the cache. -/
theorem performAll_performed
    (keeps : others.Keeps Allowed)
    (start : Allowed false false)
    (phase : Phase)
    (ops : List Op) :
    Performed Allowed phase ops
      ((syncPhaseGuard others).performAll .new (phase.bits ||| lockedBit)
        ops) := by
  have held : Held Allowed phase (phase.bits ||| lockedBit) :=
    (held_start phase).mono fun _ _ none => none.1 ▸ none.2 ▸ start
  apply PhaseGuard.performAll_induction (Performed Allowed phase)
  · refine ⟨?_, held, rfl, rfl, fun _ member => nomatch member⟩
    simp [Sync.Lock.new, held.phase_eq]
  · intro ops state op performed
    exact performed.perform keeps op

end Steps

section Endings

variable {Allowed : Bool → Bool → Prop} {word : U32} {phase : Phase}
  {trace : Trace}

/-- The phase that the end of a synchronized guard leaves. -/
def left (committed : Phase) (lock : Sync.Lock) : Phase :=
  committed ^^^ (lock.initPhase ^^^ lock.onUnlock)

/-- The first exchange of `Drop for Lock` succeeds on the cached phase only. -/
theorem phase_of_expected
    {other : Phase}
    (held : Held Allowed phase word)
    (same : word = other.bits ||| lockedBit) :
    phase = other := by
  have shown := held.phase_eq
  rw [same, Sync.fromBitsTruncate_or_lockedBit,
    Phase.fromBitsTruncate_bits] at shown
  exact shown.symm

theorem releases_of_unlocked
    {after : U32}
    (held : Held Allowed phase word)
    (unlocked : (view after).locked = false) :
    releases (word, after) = true := by
  simp [releases, held.locked, unlocked]

/-- The slow release of a held lock. -/
theorem release_word
    (held : Held Allowed phase word)
    (lock : Sync.Lock) :
    Phase.fromBitsTruncate (word ^^^ lock.releaseMask) = left phase lock ∧
      releases (word, word ^^^ lock.releaseMask) = true := by
  obtain ⟨writes, reads, -, shown⟩ := id held
  have changed := view_release shown lock
  exact ⟨congrArg LockWord.phase changed,
    releases_of_unlocked held (congrArg LockWord.locked changed)⟩

/-- The conversion of a held lock. -/
theorem convert_word
    (held : Held Allowed phase word)
    (lock : Sync.Lock) :
    Phase.fromBitsTruncate (word ^^^ lock.convertMask lock.initPhase) =
        left phase lock ∧
      releases (word, word ^^^ lock.convertMask lock.initPhase) = true := by
  obtain ⟨writes, reads, -, shown⟩ := id held
  have changed := view_convert shown lock
  exact ⟨congrArg LockWord.phase changed,
    releases_of_unlocked held (congrArg LockWord.locked changed)⟩

/-- Dropping the guard of the futex locker releases the lock once. -/
theorem dropFutex_eq
    (contention : Contention)
    (lock : Sync.Lock)
    (held : Held (fun _ _ => True) phase trace.word) :
    (dropFutex contention lock trace).2 = .released (left phase lock) ∧
      (dropFutex contention lock trace).1.writes.countP releases =
        trace.writes.countP releases + 1 := by
  have seen := contention.writers_keeps trace.writes.length _ _ held
  have again := contention.writers_keeps (trace.writes.length + 1) _ _ seen
  unfold dropFutex Trace.fetch
  by_cases same :
    contention.writers trace.writes.length trace.word =
      lock.initPhase.bits ||| lockedBit
  case pos =>
    obtain rfl := phase_of_expected seen same
    have releasing :
        releases (lock.initPhase.bits ||| lockedBit, lock.onUnlock.bits) =
          true :=
      releases_of_unlocked (same ▸ seen) (by simp)
    simp [same, left, List.countP_append, releasing]
  case neg =>
    obtain ⟨phases, releasing⟩ := release_word again lock
    have sound := released_not_panic again lock
    simp only [if_neg same, List.length_append, List.length_singleton]
    cases ends :
        lock.released .done
          (contention.writers (trace.writes.length + 1)
            (contention.writers trace.writes.length trace.word)) with
    | panic assertion => exact absurd ends (sound assertion)
    | _ =>
        simp [phases, List.countP_append, releasing,
          not_releases_of_held seen]

/-- The other threads keep the phase of a read locked word. -/
theorem Contention.readers_phase
    (contention : Contention)
    (time : Nat)
    (word : U32) :
    Phase.fromBitsTruncate (contention.readers time word) =
      Phase.fromBitsTruncate word :=
  congrArg LockWord.phase (LockWord.view_pack _)

/-- The first exchange of `wake_readers` passes on an unlocked word. -/
theorem wakeMarked_passes
    (unlocked : (view word).locked = false) :
    Sync.wakeMarked 0 (.converting .guard) word =
      .goto (.wakeFairness (.converting .guard)) := by
  have clear : ((word ^^^ 0) &&& lockedBit == 0) = true := by
    rw [Sync.lockedBit_eq_iff]
    simpa using unlocked
  have converting :
      ((Sync.Waker.converting .guard).isConverting ||
        word &&& readerUnity != readerUnity) = true :=
    rfl
  unfold Sync.wakeMarked Sync.Next.assert
  rw [if_pos (by simp), if_pos converting, if_pos clear]

/-- The end of `wake_readers` for a conversion: the phase is that of the word. -/
theorem wakeReaders_eq
    (contention : Contention)
    (word : U32) :
    wakeReaders contention word =
      if (contention.reading 0).locked then
        .panicked
      else
        .converted (Phase.fromBitsTruncate word)
          (Phase.fromBitsTruncate word) := by
  have first :
      (view (contention.readers 0 word)).locked =
        (contention.reading 0).locked := by
    rw [Contention.readers, LockWord.view_pack]
  have marked :
      Phase.fromBitsTruncate (Sync.wakeMask 0#32 true) = .empty :=
    rfl
  have left (value : U32) :
      Phase.fromBitsTruncate (value - Sync.wakeUnits contention.woken) =
        Phase.fromBitsTruncate value :=
    Sync.phase_sub_units
      (Sync.setWidth_wakeUnits (maxWakedReaders_eq ▸ contention.bounded)) value
  have asked (value : U32) :
      Phase.fromBitsTruncate (value ||| readWaiterBit) =
        Phase.fromBitsTruncate value :=
    congrArg LockWord.phase (Sync.view_or_readWaiterBit value)
  unfold wakeReaders Trace.fetch
  cases locked : (contention.reading 0).locked with
  | true =>
      simp only [List.length_nil,
        Sync.wakeMarked_panics .guard (first.trans locked)]
      rfl
  | false =>
      simp only [List.length_nil, wakeMarked_passes (first.trans locked)]
      split
      case isTrue =>
        simp [left, asked, marked, contention.readers_phase,
          Sync.ReadLock.new]
      case isFalse =>
        simp [left, marked, contention.readers_phase, Sync.ReadLock.new]

/-- Converting the guard of the futex locker releases the write lock once. -/
theorem convertFutex_eq
    (contention : Contention)
    (lock : Sync.Lock)
    (held : Held (fun _ _ => True) phase trace.word) :
    (convertFutex contention lock trace).2 =
        (if (contention.waiters trace.writes.length).read then
          if (contention.reading 0).locked then
            .panicked
          else
            .converted (left phase lock) (left phase lock)
        else
          .converted (left phase lock) lock.onUnlock) ∧
      (convertFutex contention lock trace).1.writes.countP releases =
        trace.writes.countP releases + 1 := by
  have seen := contention.writers_keeps trace.writes.length _ _ held
  obtain ⟨phases, releasing⟩ := convert_word seen lock
  unfold convertFutex Trace.fetch
  cases reads : (contention.waiters trace.writes.length).read with
  | true =>
      have waiting :
          (contention.writers trace.writes.length trace.word &&&
            readWaiterBit != 0) = true := by
        rw [Sync.readWaiterBit_ne_iff]
        simpa [Contention.writers] using reads
      simp only [if_pos waiting]
      simp [wakeReaders_eq, phases, List.countP_append, releasing]
  | false =>
      have waiting :
          ¬ (contention.writers trace.writes.length trace.word &&&
            readWaiterBit != 0) = true := by
        rw [Sync.readWaiterBit_ne_iff]
        simpa [Contention.writers] using reads
      simp only [if_neg waiting]
      simp [phases, List.countP_append, releasing, Sync.ReadLock.new]

/-- The guard of the spinning locker is dropped as long as its cache is right. -/
theorem dropSpinning_eq
    (lock : Sync.Lock)
    (held : Held NoWaiters phase trace.word) :
    dropSpinning lock trace =
      if phase = lock.initPhase then
        (⟨lock.onUnlock.bits,
          trace.writes ++ [(trace.word, lock.onUnlock.bits)]⟩,
            .released lock.onUnlock)
      else
        (⟨trace.word, trace.writes ++ [(trace.word, trace.word)]⟩,
          .panicked) := by
  unfold dropSpinning Trace.fetch alone
  simp only [held.eq_iff]
  split
  case isTrue => simp
  case isFalse => rfl

/-- Converting the guard of the spinning locker releases the write lock once. -/
theorem convertSpinning_eq
    (lock : Sync.Lock)
    (held : Held NoWaiters phase trace.word) :
    (convertSpinning lock trace).2 =
        .converted (left phase lock) lock.onUnlock ∧
      (convertSpinning lock trace).1.writes.countP releases =
        trace.writes.countP releases + 1 := by
  obtain ⟨phases, releasing⟩ := convert_word held lock
  unfold convertSpinning Trace.fetch alone
  change
    Phase.fromBitsTruncate
        (trace.word ^^^ Spinning.convertMask lock lock.initPhase) = _ at phases
  change
    releases (_, trace.word ^^^ Spinning.convertMask lock lock.initPhase) =
      true at releasing
  simp [phases, List.countP_append, releasing, Sync.ReadLock.new]

end Endings

section SingleThread

/-- What holds of the owner of a guard of the unsync locker. -/
structure Followed
    (phase : Phase)
    (ops : List Op)
    (state : Guarded UnSync.WriteGuard) : Prop where
  guard : state.guard = ⟨(Phases.after phase ops).pending⟩
  held :
    Held NoWaiters (Phases.after phase ops).committed state.trace.word
  kept : state.trace.writes.countP releases = 0
  commits : ∀ commit ∈ state.commits, commit.1 = commit.2

theorem Followed.perform
    {phase : Phase}
    {ops : List Op}
    {state : Guarded UnSync.WriteGuard}
    (followed : Followed phase ops state)
    (op : Op) :
    Followed phase (ops ++ [op]) (unSyncPhaseGuard.perform state op) := by
  obtain ⟨guard, held, kept, commits⟩ := followed
  cases op with
  | commitPhase =>
      have committed := held_start (Phases.after phase ops).pending
      obtain ⟨⟨word, writes⟩, _, earlier⟩ := state
      obtain rfl := guard
      refine ⟨?_, ?_, ?_, ?_⟩
      · rw [Phases.after_snoc]
        rfl
      · rw [Phases.after_snoc]
        exact committed
      · change (writes ++ [(word, _)]).countP releases = 0
        rw [List.countP_append, kept]
        simp [UnSync.commitPhase, not_releases_of_held committed]
      · intro commit member
        rcases List.mem_append.mp member with old | new
        · exact commits commit old
        · obtain rfl := List.mem_singleton.mp new
          exact committed.phase_eq
  | setPhase set =>
      refine ⟨?_, ?_, kept, commits⟩
      · simp [PhaseGuard.perform, unSyncPhaseGuard, Phases.track]
      · rw [Phases.after_snoc]
        exact held
  | transition onSuccess onPanic panics =>
      refine ⟨?_, ?_, kept, commits⟩
      · cases panics <;>
          simp [PhaseGuard.perform, unSyncPhaseGuard, Phases.track]
      · rw [Phases.after_snoc]
        exact held

theorem performAll_followed (phase : Phase) (ops : List Op) :
    Followed phase ops
      (unSyncPhaseGuard.performAll .new (phase.bits ||| lockedBit) ops) := by
  have held := held_start phase
  apply PhaseGuard.performAll_induction (Followed phase)
  · refine ⟨?_, held, rfl, fun _ member => nomatch member⟩
    simp [UnSync.WriteGuard.new, held.phase_eq]
  · intro ops state op followed
    exact followed.perform op

/-- A guard of the unsync locker always does what is meant. -/
theorem unSync_obeys
    (phase : Phase)
    (ops : List Op)
    (ending : Ending) :
    (Locker.unSync.use phase ops ending).Obeys ending
      (Phases.after phase ops).pending := by
  obtain ⟨guard, held, kept, commits⟩ := performAll_followed phase ops
  unfold Locker.use
  cases ending with
  | drop =>
      have releasing :=
        releases_of_unlocked held
          (show (view (Phases.after phase ops).pending.bits).locked = false by
            simp)
      refine ⟨commits, ?_, ?_⟩
      · simp [Guarded.finish, dropUnSync, Trace.store, Trace.fetch, alone,
          List.countP_append, kept, guard, UnSync.dropWrite, releasing]
      · simp [Guarded.finish, dropUnSync, Trace.store, Trace.fetch, guard,
          UnSync.dropWrite, UnSync.phase, Ending.outcome]
  | convert =>
      have changed :
          view ((Phases.after phase ops).pending.bits ||| readerUnity) =
            ⟨false, false, false, 1, (Phases.after phase ops).pending⟩ := by
        simp
      have releasing :=
        releases_of_unlocked held (congrArg LockWord.locked changed)
      have shown :
          UnSync.phase ((Phases.after phase ops).pending.bits ||| readerUnity) =
            (Phases.after phase ops).pending :=
        congrArg LockWord.phase changed
      refine ⟨commits, ?_, ?_⟩
      · simp [Guarded.finish, convertUnSync, Trace.store, Trace.fetch, alone,
          List.countP_append, kept, guard, UnSync.convert, releasing]
      · simp [Guarded.finish, convertUnSync, Trace.store, Trace.fetch, guard,
          UnSync.convert, shown, Ending.outcome]

end SingleThread

section Synchronized

variable {Allowed : Bool → Bool → Prop} {phase : Phase} {ops : List Op}
  {state : Guarded Sync.Lock}

/-- Only the end of the guard is left to be judged. -/
theorem Performed.obeys_iff
    (performed : Performed Allowed phase ops state)
    (end_ : Sync.Lock → Trace → Trace × Outcome)
    (ending : Ending)
    (set : Phase) :
    (state.finish end_).Obeys ending set ↔
      (end_ state.guard state.trace).1.writes.countP releases = 1 ∧
        (end_ state.guard state.trace).2 = ending.outcome set :=
  ⟨fun obeys => ⟨obeys.once, obeys.outcome⟩,
    fun ends => ⟨performed.commits, ends.1, ends.2⟩⟩

/-- The end leaves the phase set last exactly if the cache is right. -/
theorem Performed.left_eq_iff (performed : Performed Allowed phase ops state) :
    left (Phases.after phase ops).committed state.guard =
        (Phases.after phase ops).pending ↔
      (Phases.after phase ops).committed = phase := by
  rw [left, performed.guard]
  exact Phase.xor_xor_eq_iff

/-- A guard of the spinning locker does what is meant if its cache is right. -/
theorem spinning_obeys_iff
    (phase : Phase)
    (ops : List Op)
    (ending : Ending) :
    (Locker.spinning.use phase ops ending).Obeys ending
        (Phases.after phase ops).pending ↔
      Locker.spinning.Fits phase ops ending := by
  have performed : Performed NoWaiters phase ops _ :=
    performAll_performed alone_keeps ⟨rfl, rfl⟩ phase ops
  unfold Locker.use
  cases ending with
  | drop =>
      refine (performed.obeys_iff dropSpinning .drop _).trans ?_
      rw [dropSpinning_eq _ performed.held, performed.guard]
      by_cases same : (Phases.after phase ops).committed = phase
      case pos =>
        have releasing :=
          releases_of_unlocked performed.held
            (show (view (Phases.after phase ops).pending.bits).locked = false
              by simp)
        refine iff_of_true ?_ same
        rw [if_pos same]
        refine ⟨?_, rfl⟩
        simp [List.countP_append, performed.kept, releasing]
      case neg =>
        refine iff_of_false ?_ same
        rw [if_neg same]
        exact fun obeys => Outcome.noConfusion obeys.2
  | convert =>
      obtain ⟨outcome, once⟩ := convertSpinning_eq _ performed.held
      refine (performed.obeys_iff convertSpinning .convert _).trans ?_
      rw [outcome, once, performed.kept]
      have reported := congrArg Sync.Lock.onUnlock performed.guard
      simp only [Ending.outcome, Outcome.converted.injEq, reported,
        performed.left_eq_iff]
      exact ⟨fun obeys => obeys.2.1, fun same => ⟨trivial, same, trivial⟩⟩

/-- A guard of the futex locker, beside the other threads. -/
theorem futex_obeys_iff
    (contention : Contention)
    (phase : Phase)
    (ops : List Op)
    (ending : Ending) :
    ((Locker.futex contention).use phase ops ending).Obeys ending
        (Phases.after phase ops).pending ↔
      (Locker.futex contention).Fits phase ops ending := by
  have performed : Performed (fun _ _ => True) phase ops _ :=
    performAll_performed contention.writers_keeps trivial phase ops
  unfold Locker.use
  cases ending with
  | drop =>
      obtain ⟨outcome, once⟩ := dropFutex_eq contention _ performed.held
      refine (performed.obeys_iff (dropFutex contention) .drop _).trans ?_
      rw [outcome, once, performed.kept]
      simp only [Ending.outcome, Outcome.released.injEq,
        performed.left_eq_iff]
      exact ⟨fun obeys => ⟨obeys.2, Ending.noConfusion⟩,
        fun fits => ⟨trivial, fits.1⟩⟩
  | convert =>
      obtain ⟨outcome, once⟩ := convertFutex_eq contention _ performed.held
      refine (performed.obeys_iff (convertFutex contention) .convert _).trans ?_
      rw [outcome, once, performed.kept, performed.length]
      have reported := congrArg Sync.Lock.onUnlock performed.guard
      cases waits : (contention.waiters (2 * commitCount ops)).read with
      | false =>
          simp [Ending.outcome, reported, performed.left_eq_iff,
            Locker.Fits, waits]
      | true =>
          cases locked : (contention.reading 0).locked with
          | false =>
              simp [Ending.outcome, performed.left_eq_iff, Locker.Fits, waits,
                locked]
          | true =>
              simp [Ending.outcome, Locker.Fits, waits, locked]

end Synchronized

section Neighbours

variable {ι : Type} [DecidableEq ι] [Fintype ι]

omit [DecidableEq ι] in
/-- A write guard caches the phase of the futex word, up to its last instruction. -/
theorem cached_phase
    {state : Sync.State ι}
    {actor : ι}
    {lock : Sync.Lock}
    (inv : state.Inv)
    (alive : lock ∈ (state.thread actor).aliveLocks) :
    lock.initPhase = (view state.word).phase := by
  obtain ⟨relies, guards, -⟩ := inv.relies actor
  rcases List.mem_append.mp alive with inside | outside
  · cases place : (state.thread actor).pc with
    | dropLockCas owned after =>
        rw [place] at inside relies
        obtain rfl := List.mem_singleton.mp inside
        exact relies
    | dropLockXor owned after =>
        rw [place] at inside relies
        obtain rfl := List.mem_singleton.mp inside
        exact relies
    | convertXor owned cur converter =>
        rw [place] at inside relies
        obtain rfl := List.mem_singleton.mp inside
        exact relies.1
    | _ =>
        rw [place] at inside
        exact absurd inside List.not_mem_nil
  · exact guards lock outside

/-- What the owner of a futex write guard sees. -/
theorem held_of_alive
    {state : Sync.State ι}
    {actor : ι}
    {lock : Sync.Lock}
    (inv : state.Inv)
    (alive : lock ∈ (state.thread actor).aliveLocks) :
    Held (fun _ _ => True) lock.initPhase state.word := by
  have ledger := inv.ledger
  have owner : 1 ≤ state.total.owner := by
    have some := List.length_pos_of_mem alive
    have share := (state.thread actor).aliveLocks_le_owner
    rw [state.total_eq_add_rest actor, Sync.State.rest, ← add_assoc]
    change 1 ≤ ((state.thread actor).share + _).owner
    rw [Sync.Share.owner_add]
    omega
  have noReaders := ledger.alone.resolve_left (by omega)
  have locked := ledger.locked
  have bound := Sync.lockCount_le_one state.word
  refine ⟨(view state.word).writeWaiter, (view state.word).readWaiter, trivial,
    ?_⟩
  apply LockWord.ext
  · rfl
  · rfl
  · exact (Sync.lockCount_eq_one_iff state.word).mp (by omega)
  · rw [← BitVec.toNat_inj]
    exact ledger.readers.trans noReaders
  · exact (cached_phase inv alive).symm

/-- Beside a futex write guard the other threads change waiter bits only. -/
theorem futex_others
    {backend : Sync.Backend}
    {state after : Sync.State ι}
    {action : Sync.Action ι}
    {owner : ι}
    {lock : Sync.Lock}
    (inv : state.Inv)
    (alive : lock ∈ (state.thread owner).aliveLocks)
    (step : Sync.State.Step backend state action after)
    (other : owner ≠ action.actor) :
    ∃ waiters : Waiters, after.word = waiters.set state.word := by
  have kept :
      (after.thread owner).aliveLocks = (state.thread owner).aliveLocks := by
    rcases Sync.State.step_other step other with same | woken
    · rw [same]
    · exact Sync.aliveLocks_of_woken woken
  obtain ⟨_, _, -, before⟩ := held_of_alive inv alive
  obtain ⟨writes, reads, -, shown⟩ :=
    held_of_alive (inv.step step) (kept ▸ alive)
  refine ⟨⟨writes, reads⟩, ?_⟩
  rw [← LockWord.view_inj, Waiters.view_set, before, shown]

/-- Beside a conversion the other threads keep the phase. -/
theorem futex_phase_others
    {backend : Sync.Backend}
    {state after : Sync.State ι}
    {action : Sync.Action ι}
    {owner : ι}
    (inv : state.Inv)
    (converts : (state.thread owner).pc.isConverting = true)
    (step : Sync.State.Step backend state action after)
    (other : owner ≠ action.actor) :
    after.phase = state.phase := by
  have changes := inv.phase_step step
  cases released : state.released action with
  | none =>
      rw [released] at changes
      exact changes
  | some lock =>
      exfalso
      cases action with
      | run actor spurious =>
          have none :=
            inv.aliveLocks_of_converting (Ne.symm other) converts
          have owns : (state.thread actor).pc.ownedLocks = [] :=
            (List.append_eq_nil_iff.mp none).1
          change (state.thread actor).pc.released state.word = some lock
            at released
          cases place : (state.thread actor).pc with
          | dropLockCas owned next => rw [place] at owns; cases owns
          | dropLockXor owned next => rw [place] at owns; cases owns
          | convertXor owned cur converter => rw [place] at owns; cases owns
          | _ => rw [place] at released; cases released
      | _ => cases released

/-- Beside a spinning write guard the other threads change nothing. -/
theorem spinning_others
    {state after : Spinning.State ι}
    {action : Spinning.Action ι}
    {owner : ι}
    {lock : Sync.Lock}
    (inv : state.Inv)
    (owned : lock ∈ (state.thread owner).locks)
    (step : Spinning.State.Step state action after)
    (other : owner ≠ action.actor) :
    after.word = state.word := by
  have kept : after.thread owner = state.thread owner := by
    cases Spinning.State.actorStep step with
    | start => exact Spinning.State.setThread_other _ _ other
    | instruction => exact Spinning.State.setThread_other _ _ other
  rw [inv.expected (List.mem_append_right _ owned),
    (inv.step step).expected
      (List.mem_append_right _ (kept ▸ owned))]

end Neighbours

/--
After each `commit_phase` the locker shows the guard's phase, the end of the
guard leaves the phase set last and releases the lock once, and nothing
panics: this holds exactly if the phase committed last is the phase the guard
cached, and no other thread has locked before `wake_readers` begins.
-/
theorem guard_obeys_iff
    (locker : Locker)
    (phase : Phase)
    (ops : List Op)
    (ending : Ending) :
    (locker.use phase ops ending).Obeys ending
        (Phases.after phase ops).pending ↔
      locker.Fits phase ops ending := by
  cases locker with
  | futex contention => exact futex_obeys_iff contention phase ops ending
  | spinning => exact spinning_obeys_iff phase ops ending
  | unSync => exact iff_of_true (unSync_obeys phase ops ending) trivial

/-- After a commit the drop panics, or it undoes the commit. -/
theorem committed_phase_lost :
    ¬ (Locker.spinning.use .empty
          [.setPhase .initialized, .commitPhase] .drop).Obeys
        .drop .initialized ∧
      ¬ ((Locker.futex
            ⟨fun _ => ⟨false, false⟩, fun _ => view 0, 0, Nat.zero_le _⟩).use
          .empty [.setPhase .initialized, .commitPhase] .drop).Obeys
        .drop .initialized :=
  ⟨fun obeys => absurd obeys.outcome (by decide),
    fun obeys => absurd obeys.outcome (by decide)⟩

end StaticInit.GuardProtocol
