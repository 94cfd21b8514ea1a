import StaticInit.PhaseLocker.Spinning.Exclusion
import StaticInit.Traces

namespace StaticInit

/-!
# One thread alone on a locker

What the operations that never wait do when no other thread is there: the
specification that the three lockers have in common.  `Solo` is a lock word
with the guards that are alive, as their owners see them.  `SoloSystem` is a
synchronized locker used by one thread; its operations are sequences of atomic
instructions, in which a weak exchange may fail for no reason.
-/

open Sync (Lock ReadLock Result UserOp GuardsRely readerCount lockCount)
open LockWord (view)
open Spinning.State (Shows)

/-- An operation that never waits; guards are given by position. -/
inductive SoloOp where
  | tryLock (how : Phase → LockNature) (hint : Phase)
  | dropLock (index : Nat)
  | dropReadLock (index : Nat)
  | clone (index : Nat)
  | convert (index : Nat)
  /-- `set_phase`, and each of the two assignments of `transition`. -/
  | setPhase (index : Nat) (phase : Phase)

/-- The operation of a synchronized locker. -/
def SoloOp.userOp : SoloOp → UserOp
  | .tryLock how hint => .tryLock how hint
  | .dropLock index => .dropLock index
  | .dropReadLock index => .dropReadLock index
  | .clone index => .clone index
  | .convert index => .convert index
  | .setPhase index phase => .setPhase index phase

/-- Two operations that may differ in their hints. -/
inductive SoloOp.SameButHint : SoloOp → SoloOp → Prop where
  | tryLock (how : Phase → LockNature) (hint other : Phase) :
      SameButHint (.tryLock how hint) (.tryLock how other)
  | same (op : SoloOp) : SameButHint op op

theorem SoloOp.SameButHint.symm
    {op other : SoloOp}
    (same : op.SameButHint other) :
    other.SameButHint op := by
  cases same with
  | tryLock how hint other => exact .tryLock how other hint
  | same => exact .same op

/-- What an operation tells its caller. -/
inductive SoloOutcome where
  /-- `None`: the lock could not be obtained. -/
  | refused
  | read
  | write
  | none (phase : Phase)
  /-- The end of an operation that is not a `try_lock`. -/
  | done
  | panicked
  deriving Repr, DecidableEq

def Sync.Result.outcome : Result → SoloOutcome
  | .locked .none => .refused
  | .locked (some (.read _)) => .read
  | .locked (some (.write _)) => .write
  | .locked (some (.none phase)) => .none phase
  | _ => .done

/-- What can be seen after an operation. -/
structure Observation where
  outcome : SoloOutcome
  word : U32
  phase : Phase
  writePhases : List Phase
  readPhases : List Phase
  deriving DecidableEq

/-- A lock word and the guards that are alive. -/
structure Solo where
  word : U32
  locks : List Lock
  readLocks : List ReadLock

namespace Solo

/-- A fresh locker. -/
def new (phase : Phase) : Solo :=
  ⟨phase.bits, [], []⟩

/-- The outcome of `try_lock` and the state after it. -/
def tryLock (solo : Solo) (how : Phase → LockNature) : SoloOutcome × Solo :=
  match how (.fromBitsTruncate solo.word) with
  | .write =>
      if lockCount solo.word = 0 ∧ readerCount solo.word = 0 then
        (.write,
          { solo with
            word := solo.word ||| lockedBit
            locks := .new solo.word :: solo.locks })
      else
        (.refused, solo)
  | .read =>
      if lockCount solo.word = 0 then
        (.read,
          { solo with
            word := solo.word + readerUnity
            readLocks := .new solo.word :: solo.readLocks })
      else
        (.refused, solo)
  | .none => (.none (.fromBitsTruncate solo.word), solo)

/-- The outcome of an operation and the state after it, if its guard exists. -/
def perform (solo : Solo) : SoloOp → Option (SoloOutcome × Solo)
  | .tryLock how _ => some (solo.tryLock how)
  | .dropLock index =>
      solo.locks[index]?.map fun lock =>
        (.done,
          { solo with
            word := lock.onUnlock.bits
            locks := solo.locks.eraseIdx index })
  | .dropReadLock index =>
      solo.readLocks[index]?.map fun _ =>
        (.done,
          { solo with
            word := solo.word - readerUnity
            readLocks := solo.readLocks.eraseIdx index })
  | .clone index =>
      solo.readLocks[index]?.map fun guard =>
        (.done,
          { solo with
            word := solo.word + readerUnity
            readLocks := guard :: guard :: solo.readLocks.eraseIdx index })
  | .convert index =>
      solo.locks[index]?.map fun lock =>
        (.done,
          { word := lock.onUnlock.bits + readerUnity
            locks := solo.locks.eraseIdx index
            readLocks := ⟨lock.onUnlock⟩ :: solo.readLocks })
  | .setPhase index phase =>
      solo.locks[index]?.map fun lock =>
        (.done,
          { solo with
            locks := solo.locks.set index { lock with onUnlock := phase } })

def observe (outcome : SoloOutcome) (solo : Solo) : Observation where
  outcome := outcome
  word := solo.word
  phase := .fromBitsTruncate solo.word
  writePhases := solo.locks.map Lock.onUnlock
  readPhases := solo.readLocks.map ReadLock.initPhase

/-- Fewer than `2^20 - 1` read guards are alive. -/
def Few (solo : Solo) : Prop :=
  solo.readLocks.length < 2 ^ 20 - 1

/-- One operation while few read guards are alive. -/
def Performs
    (solo : Solo)
    (op : SoloOp)
    (outcome : SoloOutcome)
    (after : Solo) : Prop :=
  solo.Few ∧ solo.perform op = some (outcome, after)

/-- The word shows the guards, and the guards show the phase. -/
structure Sound (solo : Solo) : Prop where
  shows : Shows solo.word solo.locks.length solo.readLocks.length
  guards : GuardsRely solo.word solo.locks solo.readLocks

namespace Sound

variable {solo : Solo} {index : Nat}

theorem new (phase : Phase) : (Solo.new phase).Sound :=
  ⟨.fresh phase, Sync.guardsRely_nil _⟩

/-- A write guard is alone. -/
theorem only
    {lock : Lock}
    (sound : solo.Sound)
    (found : solo.locks[index]? = some lock) :
    index = 0 ∧ solo.locks = [lock] ∧ solo.readLocks = [] := by
  obtain ⟨inside, rfl⟩ := List.getElem?_eq_some_iff.mp found
  have one := Sync.lockCount_le_one solo.word
  have locked := sound.shows.locked
  have alone := sound.shows.alone
  have single : solo.locks.length = 1 := by omega
  have first : index = 0 := by omega
  subst first
  refine ⟨rfl, ?_, List.length_eq_zero_iff.mp (by omega)⟩
  obtain ⟨lock, same⟩ := List.length_eq_one_iff.mp single
  simp [same]

/-- A write guard finds the phase and the lock bit in the word. -/
theorem word_eq
    {lock : Lock}
    (sound : solo.Sound)
    (found : solo.locks[index]? = some lock) :
    solo.word = lock.initPhase.bits ||| lockedBit := by
  obtain ⟨-, same, -⟩ := sound.only found
  have shows := sound.shows
  rw [same] at shows
  rw [sound.guards.1 lock (List.mem_of_getElem? found)]
  exact shows.eq_locked

/-- While a read guard is alive the word is not locked. -/
theorem unlocked
    {guard : ReadLock}
    (sound : solo.Sound)
    (found : solo.readLocks[index]? = some guard) :
    solo.locks = [] := by
  have some := List.length_pos_of_mem (List.mem_of_getElem? found)
  have alone := sound.shows.alone
  exact List.length_eq_zero_iff.mp (by omega)

theorem room
    (sound : solo.Sound)
    (few : solo.Few) :
    Spinning.hasReadersMax solo.word = false := by
  have counted := sound.shows.readers
  rw [Few] at few
  rw [← Bool.not_eq_true, Spinning.hasReadersMax_iff]
  omega

theorem phase_add_readerUnity
    (sound : solo.Sound)
    (few : solo.Few) :
    (view (solo.word + readerUnity)).phase = (view solo.word).phase := by
  rw [Spinning.view_add_readerUnity (sound.room few)]

theorem readLocks_eraseIdx
    {guard : ReadLock}
    (found : solo.readLocks[index]? = some guard) :
    solo.readLocks.length = (solo.readLocks.eraseIdx index).length + 1 := by
  obtain ⟨inside, -⟩ := List.getElem?_eq_some_iff.mp found
  rw [List.length_eraseIdx_of_lt inside]
  omega

/-- A read guard is added to the others. -/
theorem reads
    {guards : List ReadLock}
    {added : ReadLock}
    (sound : solo.Sound)
    (few : solo.Few)
    (unlocked : solo.locks = [])
    (length : guards.length = solo.readLocks.length)
    (shown : added.initPhase = (view solo.word).phase)
    (rely : ∀ guard ∈ guards, guard.initPhase = (view solo.word).phase) :
    Sound
      { word := solo.word + readerUnity
        locks := solo.locks
        readLocks := added :: guards } := by
  have shows := sound.shows
  rw [unlocked] at shows
  have free : lockCount solo.word = 0 := shows.locked
  have phase := sound.phase_add_readerUnity few
  constructor
  · have shown := (shows.reads free (sound.room few)).2
    rw [unlocked, List.length_cons, length]
    exact shown
  · rw [unlocked, GuardsRely, phase]
    refine ⟨fun lock member => absurd member List.not_mem_nil, ?_⟩
    intro guard member
    rcases List.mem_cons.mp member with rfl | old
    · exact shown
    · exact rely guard old

theorem tryLock
    (sound : solo.Sound)
    (few : solo.Few)
    (how : Phase → LockNature) :
    (solo.tryLock how).2.Sound := by
  unfold Solo.tryLock
  split
  case h_1 =>
    split
    case isTrue free =>
      have lockable : Spinning.isWriteLockable solo.word = true :=
        (Spinning.isWriteLockable_iff _).mpr free
      obtain ⟨noLocks, noReads, shown⟩ := sound.shows.locks lockable
      rw [List.length_eq_zero_iff] at noLocks noReads
      constructor
      · rw [noLocks, noReads]
        exact shown
      · rw [noLocks, noReads]
        apply Sync.guardsRely_write
        rw [Sync.view_or_lockedBit]
        rfl
    case isFalse => exact sound
  case h_2 =>
    split
    case isTrue free =>
      have unlocked := List.length_eq_zero_iff.mp
        (sound.shows.locked.symm.trans free)
      exact sound.reads few unlocked rfl rfl sound.guards.2
    case isFalse => exact sound
  case h_3 => exact sound

/-- Every operation keeps the guards and the word in step. -/
theorem perform
    {op : SoloOp}
    {outcome : SoloOutcome}
    {after : Solo}
    (sound : solo.Sound)
    (few : solo.Few)
    (performs : solo.perform op = some (outcome, after)) :
    after.Sound := by
  cases op with
  | tryLock how hint =>
      obtain rfl : after = (solo.tryLock how).2 := by
        rw [Option.some.inj performs]
      exact sound.tryLock few how
  | dropLock index =>
      obtain ⟨lock, found, same⟩ := Option.map_eq_some_iff.mp performs
      obtain ⟨-, rfl⟩ := Prod.mk.inj same
      obtain ⟨rfl, locks, readLocks⟩ := sound.only found
      constructor
      · rw [locks, readLocks]
        exact .fresh _
      · rw [locks, readLocks]
        exact Sync.guardsRely_nil _
  | dropReadLock index =>
      obtain ⟨guard, found, same⟩ := Option.map_eq_some_iff.mp performs
      obtain ⟨-, rfl⟩ := Prod.mk.inj same
      have shows := sound.shows
      rw [readLocks_eraseIdx found] at shows
      refine ⟨shows.dropsRead, ?_⟩
      have phase :
          (view (solo.word - readerUnity)).phase = (view solo.word).phase :=
        Sync.phase_sub_units rfl solo.word
      rw [GuardsRely, phase]
      exact sound.guards.eraseReadLock index
  | clone index =>
      obtain ⟨guard, found, same⟩ := Option.map_eq_some_iff.mp performs
      obtain ⟨-, rfl⟩ := Prod.mk.inj same
      have shown := sound.guards.2 guard (List.mem_of_getElem? found)
      apply sound.reads few (sound.unlocked found) _ shown
      · intro other member
        rcases List.mem_cons.mp member with rfl | old
        · exact shown
        · exact sound.guards.2 other (List.mem_of_mem_eraseIdx old)
      · rw [List.length_cons, ← readLocks_eraseIdx found]
  | convert index =>
      obtain ⟨lock, found, same⟩ := Option.map_eq_some_iff.mp performs
      obtain ⟨-, rfl⟩ := Prod.mk.inj same
      obtain ⟨rfl, locks, readLocks⟩ := sound.only found
      rw [locks, readLocks]
      apply (new lock.onUnlock).reads _ rfl rfl
      · rw [Solo.new, LockWord.view_bits]
      · exact fun guard member => absurd member List.not_mem_nil
      · exact show 0 < 2 ^ 20 - 1 by decide
  | setPhase index phase =>
      obtain ⟨lock, found, same⟩ := Option.map_eq_some_iff.mp performs
      obtain ⟨-, rfl⟩ := Prod.mk.inj same
      constructor
      · rw [List.length_set]
        exact sound.shows
      · refine ⟨?_, sound.guards.2⟩
        intro changed member
        rcases List.mem_or_eq_of_mem_set member with kept | rfl
        · exact sound.guards.1 changed kept
        · exact sound.guards.1 lock (List.mem_of_getElem? found)

end Sound

end Solo

/-- A synchronized locker that one thread uses. -/
structure SoloSystem (State Action Panic : Type) where
  exec : State → Action → Option (Except Panic State)
  start : UserOp → Action
  isStart : Action → Bool
  /-- What an instruction that ends an operation tells the caller. -/
  returned : State → Action → Option SoloOutcome
  /-- The thread is outside the locker. -/
  idle : State → Prop
  word : State → U32
  locks : State → List Lock
  readLocks : State → List ReadLock

namespace SoloSystem

variable {State Action Panic : Type}
  (system : SoloSystem State Action Panic)

/-- One action; an action that panics leaves the locker as it is. -/
def Step (state : State) (action : Action) (after : State) : Prop :=
  system.exec state action = some (.ok after) ∨
    ∃ panic, system.exec state action = some (.error panic) ∧ after = state

/-- One atomic instruction of an operation under way. -/
def Instruction (state : State) (action : Action) (after : State) : Prop :=
  system.isStart action = false ∧ system.Step state action after

/-- A whole operation, from outside the locker to outside the locker. -/
inductive Operates (state : State) (op : SoloOp) : SoloOutcome → State → Prop where
  | atOnce
      {after : State}
      (start : system.Step state (system.start op.userOp) after)
      (idle : system.idle after) :
      Operates state op .done after
  | calls
      {started after : State}
      {outcome : SoloOutcome}
      (start : system.Step state (system.start op.userOp) started)
      (busy : ¬ system.idle started)
      (completes :
        Completes system.Instruction system.returned started outcome after) :
      Operates state op outcome after

/-- An operation while few read guards are alive. -/
def Performs
    (state : State)
    (op : SoloOp)
    (outcome : SoloOutcome)
    (after : State) : Prop :=
  (system.readLocks state).length < 2 ^ 20 - 1 ∧
    system.Operates state op outcome after

def observe (outcome : SoloOutcome) (state : State) : Observation where
  outcome := outcome
  word := system.word state
  phase := .fromBitsTruncate (system.word state)
  writePhases := (system.locks state).map Lock.onUnlock
  readPhases := (system.readLocks state).map ReadLock.initPhase

/-- A state outside the locker, with the word and the guards of a `Solo`. -/
structure Holds (solo : Solo) (state : State) : Prop where
  idle : system.idle state
  word : system.word state = solo.word
  locks : system.locks state = solo.locks
  readLocks : system.readLocks state = solo.readLocks

variable {system}

theorem Holds.observe_eq
    {solo : Solo}
    {state : State}
    (holds : system.Holds solo state)
    (outcome : SoloOutcome) :
    system.observe outcome state = Solo.observe outcome solo := by
  rw [SoloSystem.observe, Solo.observe, holds.word, holds.locks,
    holds.readLocks]

/-- Every operation does what the specification says, and can be performed. -/
structure Refines (system : SoloSystem State Action Panic) : Prop where
  sound :
    ∀ {solo : Solo} {state after : State} {op : SoloOp} {outcome : SoloOutcome},
      solo.Sound → solo.Few → system.Holds solo state →
        system.Operates state op outcome after →
          ∃ next,
            solo.perform op = some (outcome, next) ∧ system.Holds next after
  total :
    ∀ {solo next : Solo} {state : State} {op : SoloOp} {outcome : SoloOutcome},
      solo.Sound → solo.Few → system.Holds solo state →
        solo.perform op = some (outcome, next) →
          ∃ answer after, system.Operates state op answer after

/-- A locker that refines the specification has exactly its traces. -/
theorem Refines.traced_iff
    (refines : system.Refines)
    {solo : Solo}
    {state : State}
    (sound : solo.Sound)
    (holds : system.Holds solo state)
    (ops : List SoloOp)
    (trace : List Observation) :
    Traced system.Performs system.observe state ops trace ↔
      Traced Solo.Performs Solo.observe solo ops trace := by
  constructor
  · apply Traced.answered
      (fun state solo => solo.Sound ∧ system.Holds solo state) _
      ⟨sound, holds⟩
    rintro state after solo op outcome ⟨sound, holds⟩ ⟨few, operates⟩
    rw [holds.readLocks] at few
    obtain ⟨next, performs, holdsNext⟩ :=
      refines.sound sound few holds operates
    exact ⟨next, ⟨few, performs⟩, ⟨sound.perform few performs, holdsNext⟩,
      (holdsNext.observe_eq outcome).symm⟩
  · apply Traced.answered
      (fun solo state => solo.Sound ∧ system.Holds solo state) _
      ⟨sound, holds⟩
    rintro solo next state op outcome ⟨sound, holds⟩ ⟨few, performs⟩
    obtain ⟨answer, after, operates⟩ :=
      refines.total sound few holds performs
    obtain ⟨found, same, holdsNext⟩ :=
      refines.sound sound few holds operates
    obtain ⟨rfl, rfl⟩ := Prod.mk.inj
      (Option.some.inj (performs.symm.trans same))
    have fewGuards : (system.readLocks state).length < 2 ^ 20 - 1 := by
      rw [holds.readLocks]
      exact few
    exact ⟨after, ⟨fewGuards, operates⟩,
      ⟨sound.perform few performs, holdsNext⟩, holdsNext.observe_eq outcome⟩

end SoloSystem

end StaticInit
