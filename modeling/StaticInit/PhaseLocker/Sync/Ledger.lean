import StaticInit.PhaseLocker.Sync.Bits
import Mathlib.Algebra.Order.Monoid.Defs

namespace StaticInit.Sync

/-!
# The ledger of a lock word

What the word of the futex locker stands for, independently of the code.  The
threads hold shares of the word: counted readers, the write lock, the right to
hand over a released lock, and so on.  `Ledger word total` says that the word
shows exactly the shares held in total.  Each rule below is one way in which a
thread may exchange its share while the word changes; `rest` is what the other
threads hold, and `Frame` is what they may rely on.
-/

/-- What a thread holds of the locker. -/
@[ext] structure Share where
  /-- Readers counted in the word, with the placeholder of a wake. -/
  units : Nat := 0
  /-- Write locks: the lock bit is set and no reader is counted. -/
  owner : Nat := 0
  /-- A released lock with waiters, to be handed over: nobody else may lock. -/
  passing : Nat := 0
  /-- The lock bit is set while readers remain. -/
  pending : Nat := 0
  /-- Between a conversion or a release and the end of the wake of readers. -/
  waker : Nat := 0
  /-- Counted in `writer_count`, which is not in the word. -/
  counted : Nat := 0
  deriving DecidableEq

namespace Share

/-- Whether the lock is held in some way, or being handed over. -/
def held (share : Share) : Nat :=
  share.units + share.owner + share.passing + share.pending

instance : Zero Share := ⟨{}⟩

instance : Add Share where
  add first second :=
    { units := first.units + second.units
      owner := first.owner + second.owner
      passing := first.passing + second.passing
      pending := first.pending + second.pending
      waker := first.waker + second.waker
      counted := first.counted + second.counted }

@[simp] theorem units_add (first second : Share) :
    (first + second).units = first.units + second.units :=
  rfl

@[simp] theorem owner_add (first second : Share) :
    (first + second).owner = first.owner + second.owner :=
  rfl

@[simp] theorem passing_add (first second : Share) :
    (first + second).passing = first.passing + second.passing :=
  rfl

@[simp] theorem pending_add (first second : Share) :
    (first + second).pending = first.pending + second.pending :=
  rfl

@[simp] theorem waker_add (first second : Share) :
    (first + second).waker = first.waker + second.waker :=
  rfl

@[simp] theorem counted_add (first second : Share) :
    (first + second).counted = first.counted + second.counted :=
  rfl

instance : AddCommMonoid Share where
  nsmul := nsmulRec
  add_assoc _ _ _ := by apply Share.ext <;> apply Nat.add_assoc
  zero_add _ := by apply Share.ext <;> apply Nat.zero_add
  add_zero _ := by apply Share.ext <;> apply Nat.add_zero
  add_comm _ _ := by apply Share.ext <;> apply Nat.add_comm

/-- A share is at most another when it is so in each part. -/
instance : LE Share where
  le first second :=
    first.units ≤ second.units ∧ first.owner ≤ second.owner ∧
      first.passing ≤ second.passing ∧
      first.pending ≤ second.pending ∧ first.waker ≤ second.waker ∧
      first.counted ≤ second.counted

theorem le_iff (first second : Share) :
    first ≤ second ↔
      first.units ≤ second.units ∧ first.owner ≤ second.owner ∧
        first.passing ≤ second.passing ∧
        first.pending ≤ second.pending ∧ first.waker ≤ second.waker ∧
        first.counted ≤ second.counted :=
  Iff.rfl

instance : PartialOrder Share where
  le_refl share := by simp [le_iff]
  le_trans first second third lower upper := by
    rw [le_iff] at *
    omega
  le_antisymm first second lower upper := by
    rw [le_iff] at *
    apply Share.ext <;> omega

instance : IsOrderedAddMonoid Share where
  add_le_add_left first second lower third := by
    rw [le_iff] at *
    simp only [units_add, owner_add, passing_add, pending_add, waker_add,
      counted_add]
    omega

theorem nonneg (share : Share) : 0 ≤ share :=
  ⟨Nat.zero_le _, Nat.zero_le _, Nat.zero_le _, Nat.zero_le _,
    Nat.zero_le _, Nat.zero_le _⟩

/-- The write locks of a share. -/
def ownerHom : Share →+ Nat where
  toFun := owner
  map_zero' := rfl
  map_add' := owner_add

/-- The counted readers of a share. -/
def unitsHom : Share →+ Nat where
  toFun := units
  map_zero' := rfl
  map_add' := units_add

/-- The lock bits of a share that are set while readers remain. -/
def pendingHom : Share →+ Nat where
  toFun := pending
  map_zero' := rfl
  map_add' := pending_add

/-- Whether a share holds the lock in some way. -/
def heldHom : Share →+ Nat where
  toFun := held
  map_zero' := rfl
  map_add' first second := by
    simp only [held, units_add, owner_add, passing_add, pending_add]
    omega

/-- The part of a share that `writer_count` counts. -/
def countedHom : Share →+ Nat where
  toFun := counted
  map_zero' := rfl
  map_add' := counted_add

end Share

open LockWord (view)

/-- The lock bit, as a number. -/
def lockCount (word : U32) : Nat :=
  (view word).locked.toNat

/-- The write waiter bit, as a number. -/
def writeWaiterCount (word : U32) : Nat :=
  (view word).writeWaiter.toNat

/-- The read waiter bit, as a number. -/
def readWaiterCount (word : U32) : Nat :=
  (view word).readWaiter.toNat

/-- The word shows the shares that the threads hold in total. -/
structure Ledger (word : U32) (total : Share) : Prop where
  readers : readerCount word = total.units
  locked : lockCount word = total.owner + total.pending
  sole : total.owner + total.passing ≤ 1
  alone : total.owner + total.passing = 0 ∨ total.units = 0
  passing :
    total.passing = 0 ∨
      lockCount word = 0 ∧
        0 < readWaiterCount word + writeWaiterCount word
  waker : total.waker ≤ 1
  wakerCounted : total.waker ≤ total.units

/-- What the holders of `rest` keep when the word changes. -/
structure Frame (before after : U32) (rest : Share) : Prop where
  phase :
    (view after).phase = (view before).phase ∨
      rest.units = 0 ∧ rest.owner = 0
  writeWaiter :
    writeWaiterCount before ≤ writeWaiterCount after ∨
      rest.owner + rest.passing = 0
  readWaiter :
    readWaiterCount before ≤ readWaiterCount after ∨
      rest.owner + rest.passing + rest.waker = 0
  fewReaders :
    readerCount after < 2 ^ 20 ∨ 2 ^ 20 ≤ readerCount before ∨
      rest.waker = 0

/-- A change of the word for which a thread trades its share, next to `rest`. -/
structure Moved
    (before after : U32)
    (share traded rest : Share) : Prop where
  ledger : Ledger after (traded + rest)
  frame : Frame before after rest
  quiet :
    0 < (traded + rest).held ∨ (share + rest).held = 0 ∨
      readWaiterCount after + writeWaiterCount after = 0
  counted : traded.counted = share.counted

/-- The numbers read from a word whose fields are known. -/
theorem counts_of_view
    {word : U32}
    {fields : LockWord}
    (shown : view word = fields) :
    readerCount word = fields.readers.toNat ∧
      lockCount word = fields.locked.toNat ∧
      writeWaiterCount word = fields.writeWaiter.toNat ∧
      readWaiterCount word = fields.readWaiter.toNat ∧
      (view word).phase = fields.phase := by
  subst shown
  exact ⟨rfl, rfl, rfl, rfl, rfl⟩

theorem lockCount_le_one (word : U32) :
    lockCount word ≤ 1 :=
  Bool.toNat_le _

theorem writeWaiterCount_le_one (word : U32) :
    writeWaiterCount word ≤ 1 :=
  Bool.toNat_le _

theorem readWaiterCount_le_one (word : U32) :
    readWaiterCount word ≤ 1 :=
  Bool.toNat_le _

theorem lockCount_eq_zero_iff (word : U32) :
    lockCount word = 0 ↔ (view word).locked = false := by
  cases locked : (view word).locked <;> simp [lockCount, locked]

theorem lockCount_eq_one_iff (word : U32) :
    lockCount word = 1 ↔ (view word).locked = true := by
  cases locked : (view word).locked <;> simp [lockCount, locked]

theorem waiterCount_eq_zero_iff (word : U32) :
    readWaiterCount word + writeWaiterCount word = 0 ↔
      (view word).readWaiter = false ∧ (view word).writeWaiter = false := by
  simp only [readWaiterCount, writeWaiterCount]
  cases (view word).readWaiter <;> cases (view word).writeWaiter <;> simp

theorem waiterCount_pos_iff (word : U32) :
    0 < readWaiterCount word + writeWaiterCount word ↔
      (view word).readWaiter = true ∨ (view word).writeWaiter = true := by
  simp only [readWaiterCount, writeWaiterCount]
  cases (view word).readWaiter <;> cases (view word).writeWaiter <;> simp

theorem isNotWriteLocked_iff_count (word : U32) :
    isNotWriteLocked word = true ↔ lockCount word = 0 := by
  rw [isNotWriteLocked_iff, lockCount_eq_zero_iff]

theorem hasWaiters_iff_count (word : U32) :
    hasWaiters word = true ↔
      0 < readWaiterCount word + writeWaiterCount word := by
  rw [hasWaiters_iff, waiterCount_pos_iff]

theorem hasNoWaiters_iff_count (word : U32) :
    hasNoWaiters word = true ↔
      readWaiterCount word + writeWaiterCount word = 0 := by
  rw [hasNoWaiters_iff, waiterCount_eq_zero_iff]

theorem isWriteLockable_iff_count (word : U32) :
    isWriteLockable word = true ↔
      lockCount word = 0 ∧
        (readerCount word ≠ 0 ∨
          readWaiterCount word + writeWaiterCount word = 0) := by
  rw [isWriteLockable_iff, lockCount_eq_zero_iff, waiterCount_eq_zero_iff]

theorem isReadLockable_iff_count (word : U32) :
    isReadLockable word = true ↔
      (readerCount word ≠ 0 ∨
          readWaiterCount word + writeWaiterCount word = 0 ∧
            lockCount word = 0) ∧
        readerCount word % 2 ^ 20 ≠ 2 ^ 20 - 1 := by
  rw [isReadLockable_iff, lockCount_eq_zero_iff, waiterCount_eq_zero_iff]

/-- Subtracting from a reader field as a number. -/
theorem toNat_ofNat_sub
    (readers : BitVec 21)
    (count : Nat) :
    (BitVec.ofNat 21 (readers.toNat - count)).toNat =
      readers.toNat - count := by
  have bound := readers.isLt
  rw [BitVec.toNat_ofNat]
  exact Nat.mod_eq_of_lt (by omega)

/-- Setting the overflow bit of a reader field as a number. -/
theorem toNat_xor_overf
    {readers : BitVec 21}
    (few : readers.toNat < 2 ^ 20) :
    (readers ^^^ 0x100000#21).toNat = readers.toNat + 2 ^ 20 := by
  have sum := Nat.two_pow_add_eq_or_of_lt few 1
  rw [Nat.mul_one] at sum
  rw [BitVec.toNat_xor, Nat.add_comm, sum]
  apply Nat.eq_of_testBit_eq
  intro index
  change (readers.toNat ^^^ 2 ^ 20).testBit index = _
  rw [Nat.testBit_xor, Nat.testBit_or, Nat.testBit_two_pow]
  by_cases top : 20 = index
  · subst top
    simp [Nat.testBit_lt_two_pow few]
  · simp [top]

/-- The numbers of a sum of shares. -/
theorem Share.numbers_add (first second : Share) :
    (first + second).units = first.units + second.units ∧
      (first + second).owner = first.owner + second.owner ∧
      (first + second).passing = first.passing + second.passing ∧
      (first + second).pending = first.pending + second.pending ∧
      (first + second).waker = first.waker + second.waker ∧
      (first + second).held =
        (first + second).units + (first + second).owner +
          (first + second).passing + (first + second).pending :=
  ⟨rfl, rfl, rfl, rfl, rfl, rfl⟩

namespace Ledger

variable {before after : U32} {share rest : Share}

/-- The holder of a write lock sees the lock bit. -/
theorem locked_of_owner
    (ledger : Ledger before ({ owner := 1 } + rest)) :
    (view before).locked = true := by
  have total := ledger.locked
  have bound := lockCount_le_one before
  simp only [Share.owner_add, Share.pending_add] at total
  rw [← lockCount_eq_one_iff]
  omega

/-- A lock being handed over is not locked. -/
theorem unlocked_of_passing
    (ledger : Ledger before ({ passing := 1 } + rest)) :
    (view before).locked = false := by
  have passing := ledger.passing
  simp only [Share.passing_add] at passing
  rw [← lockCount_eq_zero_iff]
  omega

/-- No reader is counted next to a write lock or a lock being handed over. -/
theorem readers_of_alone
    (ledger : Ledger before (share + rest))
    (alone : 0 < share.owner + share.passing) :
    (view before).readers = 0#21 := by
  have readers := ledger.readers
  have apart := ledger.alone
  simp only [Share.units_add, Share.owner_add, Share.passing_add,
    readerCount] at readers apart
  apply BitVec.eq_of_toNat_eq
  simp only [BitVec.toNat_ofNat]
  omega

/-- Nothing changes. -/
theorem refl
    (ledger : Ledger before (share + rest)) :
    Moved before before share share rest where
  ledger := ledger
  frame :=
    { phase := .inl rfl
      writeWaiter := .inl (Nat.le_refl _)
      readWaiter := .inl (Nat.le_refl _)
      fewReaders := by omega }
  quiet := by omega
  counted := rfl

/-- The word does not show `writer_count`. -/
theorem recount
    {traded : Share}
    (same : { traded with counted := 0 } = { share with counted := 0 })
    (ledger : Ledger before (share + rest)) :
    Ledger before (traded + rest) := by
  obtain ⟨readers, locked, sole, alone, passing, waker, wakerCounted⟩ :=
    ledger
  have held := Share.numbers_add share rest
  have numbers := Share.numbers_add traded rest
  rw [Share.mk.injEq] at same
  refine ⟨?_, ?_, ?_, ?_, ?_, ?_, ?_⟩
  all_goals omega

/-- A free lock without waiters is taken for writing. -/
theorem acquire
    (ledger : Ledger before ({} + rest))
    (lockable : isWriteLockable before = true)
    (noReaders : hasNoReaders before = true)
    (changed : view after = { view before with locked := true }) :
    Moved before after {} { owner := 1 } rest := by
  obtain ⟨readers, locked, sole, alone, passing, waker, wakerCounted⟩ :=
    ledger
  have held := Share.numbers_add {} rest
  have traded := Share.numbers_add { owner := 1 } rest
  rw [isWriteLockable_iff_count] at lockable
  rw [hasNoReaders_iff] at noReaders
  obtain ⟨readersAfter, lockAfter, writeAfter, readAfter, phaseAfter⟩ :=
    counts_of_view changed
  change _ = readerCount before at readersAfter
  change _ = 1 at lockAfter
  change _ = writeWaiterCount before at writeAfter
  change _ = readWaiterCount before at readAfter
  dsimp only at held traded
  refine ⟨⟨?_, ?_, ?_, ?_, ?_, ?_, ?_⟩,
    ⟨.inl phaseAfter, ?_, ?_, ?_⟩, ?_, rfl⟩
  all_goals omega

/-- An unlocked word with readers gets the lock bit. -/
theorem pend
    (ledger : Ledger before ({} + rest))
    (lockable : isWriteLockable before = true)
    (hasReaders : hasReaders before = true)
    (changed : view after = { view before with locked := true }) :
    Moved before after {} { pending := 1 } rest := by
  obtain ⟨readers, locked, sole, alone, passing, waker, wakerCounted⟩ :=
    ledger
  have held := Share.numbers_add {} rest
  have traded := Share.numbers_add { pending := 1 } rest
  rw [isWriteLockable_iff_count] at lockable
  rw [hasReaders_iff] at hasReaders
  obtain ⟨readersAfter, lockAfter, writeAfter, readAfter, phaseAfter⟩ :=
    counts_of_view changed
  change _ = readerCount before at readersAfter
  change _ = 1 at lockAfter
  change _ = writeWaiterCount before at writeAfter
  change _ = readWaiterCount before at readAfter
  dsimp only at held traded
  refine ⟨⟨?_, ?_, ?_, ?_, ?_, ?_, ?_⟩,
    ⟨.inl phaseAfter, ?_, ?_, ?_⟩, ?_, rfl⟩
  all_goals omega

/-- Once the readers are gone, the lock bit is a write lock. -/
theorem promote
    (ledger : Ledger before ({ pending := 1 } + rest))
    (noReaders : hasNoReaders before = true) :
    Moved before before { pending := 1 } { owner := 1 } rest := by
  obtain ⟨readers, locked, sole, alone, passing, waker, wakerCounted⟩ :=
    ledger
  have held := Share.numbers_add { pending := 1 } rest
  have traded := Share.numbers_add { owner := 1 } rest
  have lockBound := lockCount_le_one before
  rw [hasNoReaders_iff] at noReaders
  dsimp only at held traded
  refine ⟨⟨?_, ?_, ?_, ?_, ?_, ?_, ?_⟩, ⟨.inl rfl, ?_, ?_, ?_⟩, ?_, rfl⟩
  all_goals omega

/-- The lock bit is given back while readers remain. -/
theorem unpend
    (ledger : Ledger before ({ pending := 1 } + rest))
    (remaining : hasReaders before = true)
    (changed :
      view after = { view before with writeWaiter := true, locked := false }) :
    Moved before after { pending := 1 } {} rest := by
  obtain ⟨readers, locked, sole, alone, passing, waker, wakerCounted⟩ :=
    ledger
  have held := Share.numbers_add { pending := 1 } rest
  have traded := Share.numbers_add {} rest
  rw [hasReaders_iff] at remaining
  have lockBound := lockCount_le_one before
  have writeBound := writeWaiterCount_le_one before
  obtain ⟨readersAfter, lockAfter, writeAfter, readAfter, phaseAfter⟩ :=
    counts_of_view changed
  change _ = readerCount before at readersAfter
  change _ = 0 at lockAfter
  change _ = 1 at writeAfter
  change _ = readWaiterCount before at readAfter
  dsimp only at held traded
  refine ⟨⟨?_, ?_, ?_, ?_, ?_, ?_, ?_⟩,
    ⟨.inl phaseAfter, ?_, ?_, ?_⟩, ?_, rfl⟩
  all_goals omega

/-- Waiter bits are set. -/
theorem mark
    (ledger : Ledger before (share + rest))
    (write read : Bool)
    (changed :
      view after =
        { view before with
          writeWaiter := (view before).writeWaiter || write
          readWaiter := (view before).readWaiter || read }) :
    Moved before after share share rest := by
  obtain ⟨readers, locked, sole, alone, passing, waker, wakerCounted⟩ :=
    ledger
  obtain ⟨readersAfter, lockAfter, writeAfter, readAfter, phaseAfter⟩ :=
    counts_of_view changed
  change _ = readerCount before at readersAfter
  change _ = lockCount before at lockAfter
  have moreWrite : writeWaiterCount before ≤ writeWaiterCount after := by
    rw [writeAfter]
    cases write <;> simp [writeWaiterCount]
    exact Bool.toNat_le _
  have moreRead : readWaiterCount before ≤ readWaiterCount after := by
    rw [readAfter]
    cases read <;> simp [readWaiterCount]
    exact Bool.toNat_le _
  refine ⟨⟨?_, ?_, ?_, ?_, ?_, ?_, ?_⟩, ⟨.inl phaseAfter, ?_, ?_, ?_⟩, ?_, rfl⟩
  all_goals omega

/-- A write lock is released and nobody waits for it. -/
theorem release
    (ledger : Ledger before ({ owner := 1 } + rest))
    (phase : Phase)
    (noWaiters : hasNoWaiters before = true)
    (changed :
      view after = { view before with locked := false, phase := phase }) :
    Moved before after { owner := 1 } {} rest := by
  obtain ⟨readers, locked, sole, alone, passing, waker, wakerCounted⟩ :=
    ledger
  rw [hasNoWaiters_iff_count] at noWaiters
  have lockBound := lockCount_le_one before
  have held := Share.numbers_add { owner := 1 } rest
  have traded := Share.numbers_add {} rest
  obtain ⟨readersAfter, lockAfter, writeAfter, readAfter, phaseAfter⟩ :=
    counts_of_view changed
  change _ = readerCount before at readersAfter
  change _ = 0 at lockAfter
  change _ = writeWaiterCount before at writeAfter
  change _ = readWaiterCount before at readAfter
  dsimp only at held traded
  refine ⟨⟨?_, ?_, ?_, ?_, ?_, ?_, ?_⟩,
    ⟨.inr (by omega), ?_, ?_, ?_⟩, ?_, rfl⟩
  all_goals omega

/-- A write lock is released to be handed over to the waiters. -/
theorem hand
    (ledger : Ledger before ({ owner := 1 } + rest))
    (phase : Phase)
    (waiters : hasWaiters before = true)
    (changed :
      view after = { view before with locked := false, phase := phase }) :
    Moved before after { owner := 1 } { passing := 1 } rest := by
  obtain ⟨readers, locked, sole, alone, passing, waker, wakerCounted⟩ :=
    ledger
  have lockBound := lockCount_le_one before
  have held := Share.numbers_add { owner := 1 } rest
  have traded := Share.numbers_add { passing := 1 } rest
  rw [hasWaiters_iff_count] at waiters
  obtain ⟨readersAfter, lockAfter, writeAfter, readAfter, phaseAfter⟩ :=
    counts_of_view changed
  change _ = readerCount before at readersAfter
  change _ = 0 at lockAfter
  change _ = writeWaiterCount before at writeAfter
  change _ = readWaiterCount before at readAfter
  dsimp only at held traded
  refine ⟨⟨?_, ?_, ?_, ?_, ?_, ?_, ?_⟩,
    ⟨.inr (by omega), ?_, ?_, ?_⟩, ?_, rfl⟩
  all_goals omega

/-- A write lock becomes a read lock. -/
theorem convert
    (ledger : Ledger before ({ owner := 1 } + rest))
    (phase : Phase)
    (changed :
      view after =
        { view before with locked := false, readers := 1, phase := phase }) :
    Moved before after { owner := 1 } { units := 1 } rest := by
  obtain ⟨readers, locked, sole, alone, passing, waker, wakerCounted⟩ :=
    ledger
  have lockBound := lockCount_le_one before
  have held := Share.numbers_add { owner := 1 } rest
  have traded := Share.numbers_add { units := 1 } rest
  obtain ⟨readersAfter, lockAfter, writeAfter, readAfter, phaseAfter⟩ :=
    counts_of_view changed
  change _ = 1 at readersAfter
  change _ = 0 at lockAfter
  change _ = writeWaiterCount before at writeAfter
  change _ = readWaiterCount before at readAfter
  dsimp only at held traded
  refine ⟨⟨?_, ?_, ?_, ?_, ?_, ?_, ?_⟩,
    ⟨.inr (by omega), ?_, ?_, ?_⟩, ?_, rfl⟩
  all_goals omega

/-- A write lock becomes a read lock that will wake readers. -/
theorem convertWaking
    (ledger : Ledger before ({ owner := 1 } + rest))
    (phase : Phase)
    (changed :
      view after =
        { view before with locked := false, readers := 1, phase := phase }) :
    Moved before after { owner := 1 } { units := 1, waker := 1 } rest := by
  obtain ⟨readers, locked, sole, alone, passing, waker, wakerCounted⟩ :=
    ledger
  have lockBound := lockCount_le_one before
  have held := Share.numbers_add { owner := 1 } rest
  have traded := Share.numbers_add { units := 1, waker := 1 } rest
  obtain ⟨readersAfter, lockAfter, writeAfter, readAfter, phaseAfter⟩ :=
    counts_of_view changed
  change _ = 1 at readersAfter
  change _ = 0 at lockAfter
  change _ = writeWaiterCount before at writeAfter
  change _ = readWaiterCount before at readAfter
  dsimp only at held traded
  refine ⟨⟨?_, ?_, ?_, ?_, ?_, ?_, ?_⟩,
    ⟨.inr (by omega), ?_, ?_, ?_⟩, ?_, rfl⟩
  all_goals omega

/-- A thread that finds a lockable word, or holds a reader, counts itself. -/
theorem join
    (ledger : Ledger before (share + rest))
    (joinable :
      0 < share.units ∧ hasReadersMax before = false ∨
        isReadLockable before = true)
    (changed :
      view after =
        { view before with readers := (view before).readers + 1 }) :
    Moved before after share { share with units := share.units + 1 }
      rest := by
  obtain ⟨readers, locked, sole, alone, passing, waker, wakerCounted⟩ :=
    ledger
  have held := Share.numbers_add share rest
  have traded := Share.numbers_add { share with units := share.units + 1 } rest
  have bound := readerCount_lt before
  rw [isReadLockable_iff_count, ← Bool.not_eq_true, hasReadersMax_iff]
    at joinable
  have added : ((view before).readers + 1).toNat = readerCount before + 1 := by
    rw [BitVec.toNat_add]
    exact Nat.mod_eq_of_lt (by simp only [readerCount] at *; simp; omega)
  obtain ⟨readersAfter, lockAfter, writeAfter, readAfter, phaseAfter⟩ :=
    counts_of_view changed
  change _ = ((view before).readers + 1).toNat at readersAfter
  change _ = lockCount before at lockAfter
  change _ = writeWaiterCount before at writeAfter
  change _ = readWaiterCount before at readAfter
  dsimp only at traded
  refine ⟨⟨?_, ?_, ?_, ?_, ?_, ?_, ?_⟩, ⟨.inl phaseAfter, ?_, ?_, ?_⟩, ?_, rfl⟩
  all_goals omega

/-- A reader leaves and the lock needs not be handed over. -/
theorem leave
    (ledger : Ledger before ({ units := 1 } + rest))
    (others : rest.waker ≤ rest.units)
    (stays :
      ¬ (hasOneReader before = true ∧ isNotWriteLocked before = true ∧
        hasWaiters before = true))
    (changed :
      view after =
        { view before with
          readers := BitVec.ofNat 21 ((view before).readers.toNat - 1) }) :
    Moved before after { units := 1 } {} rest := by
  obtain ⟨readers, locked, sole, alone, passing, waker, wakerCounted⟩ :=
    ledger
  have held := Share.numbers_add { units := 1 } rest
  have traded := Share.numbers_add {} rest
  dsimp only at held traded
  rw [hasOneReader_iff, isNotWriteLocked_iff_count,
    hasWaiters_iff_count] at stays
  have counted : 1 ≤ readerCount before := by omega
  have removed :
      (BitVec.ofNat 21 ((view before).readers.toNat - 1)).toNat =
        readerCount before - 1 :=
    toNat_ofNat_sub _ _
  obtain ⟨readersAfter, lockAfter, writeAfter, readAfter, phaseAfter⟩ :=
    counts_of_view changed
  rw [removed] at readersAfter
  change _ = lockCount before at lockAfter
  change _ = writeWaiterCount before at writeAfter
  change _ = readWaiterCount before at readAfter
  refine ⟨⟨?_, ?_, ?_, ?_, ?_, ?_, ?_⟩,
    ⟨.inl phaseAfter, ?_, ?_, ?_⟩, ?_, rfl⟩
  all_goals omega

/-- The last reader leaves and will hand the lock over. -/
theorem leaveLast
    (ledger : Ledger before ({ units := 1 } + rest))
    (others : rest.waker ≤ rest.units)
    (last : hasOneReader before = true)
    (unlocked : isNotWriteLocked before = true)
    (waiters : hasWaiters before = true)
    (changed :
      view after =
        { view before with
          readers := BitVec.ofNat 21 ((view before).readers.toNat - 1) }) :
    Moved before after { units := 1 } { passing := 1 } rest := by
  obtain ⟨readers, locked, sole, alone, passing, waker, wakerCounted⟩ :=
    ledger
  have held := Share.numbers_add { units := 1 } rest
  have traded := Share.numbers_add { passing := 1 } rest
  dsimp only at held traded
  rw [hasOneReader_iff] at last
  rw [isNotWriteLocked_iff_count] at unlocked
  rw [hasWaiters_iff_count] at waiters
  have counted : 1 ≤ readerCount before := by omega
  have removed :
      (BitVec.ofNat 21 ((view before).readers.toNat - 1)).toNat =
        readerCount before - 1 :=
    toNat_ofNat_sub _ _
  obtain ⟨readersAfter, lockAfter, writeAfter, readAfter, phaseAfter⟩ :=
    counts_of_view changed
  rw [removed] at readersAfter
  change _ = lockCount before at lockAfter
  change _ = writeWaiterCount before at writeAfter
  change _ = readWaiterCount before at readAfter
  refine ⟨⟨?_, ?_, ?_, ?_, ?_, ?_, ?_⟩,
    ⟨.inl phaseAfter, ?_, ?_, ?_⟩, ?_, rfl⟩
  all_goals omega

/-- The lock bit is taken back to be given to a woken writer. -/
theorem lockTransfer
    (ledger : Ledger before ({ passing := 1 } + rest))
    (changed :
      view after =
        { view before with writeWaiter := false, locked := true }) :
    Moved before after { passing := 1 } { owner := 1 } rest := by
  obtain ⟨readers, locked, sole, alone, passing, waker, wakerCounted⟩ :=
    ledger
  have lockBound := lockCount_le_one before
  have held := Share.numbers_add { passing := 1 } rest
  have traded := Share.numbers_add { owner := 1 } rest
  obtain ⟨readersAfter, lockAfter, writeAfter, readAfter, phaseAfter⟩ :=
    counts_of_view changed
  change _ = readerCount before at readersAfter
  change _ = 1 at lockAfter
  change _ = 0 at writeAfter
  change _ = readWaiterCount before at readAfter
  dsimp only at held traded
  refine ⟨⟨?_, ?_, ?_, ?_, ?_, ?_, ?_⟩,
    ⟨.inl phaseAfter, ?_, ?_, ?_⟩, ?_, rfl⟩
  all_goals omega

/-- A released lock becomes a read lock with the placeholder of a wake. -/
theorem wakeMark
    (ledger : Ledger before ({ passing := 1 } + rest))
    (changed :
      view after =
        { view before with
          readWaiter := false
          locked := false
          readers := 0x100001#21 }) :
    Moved before after { passing := 1 } { units := 1 + 2 ^ 20, waker := 1 } rest := by
  obtain ⟨readers, locked, sole, alone, passing, waker, wakerCounted⟩ :=
    ledger
  have held := Share.numbers_add { passing := 1 } rest
  have traded := Share.numbers_add { units := 1 + 2 ^ 20, waker := 1 } rest
  obtain ⟨readersAfter, lockAfter, writeAfter, readAfter, phaseAfter⟩ :=
    counts_of_view changed
  change _ = 2 ^ 20 + 1 at readersAfter
  change _ = 0 at lockAfter
  change _ = writeWaiterCount before at writeAfter
  change _ = 0 at readAfter
  dsimp only at held traded
  refine ⟨⟨?_, ?_, ?_, ?_, ?_, ?_, ?_⟩,
    ⟨.inl phaseAfter, ?_, ?_, ?_⟩, ?_, rfl⟩
  all_goals omega

/-- A write lock becomes a read lock with the placeholder of a wake. -/
theorem wakeMarkLocked
    (ledger : Ledger before ({ owner := 1 } + rest))
    (changed :
      view after =
        { view before with
          readWaiter := false
          locked := false
          readers := 0x100001#21 }) :
    Moved before after { owner := 1 } { units := 1 + 2 ^ 20, waker := 1 } rest := by
  obtain ⟨readers, locked, sole, alone, passing, waker, wakerCounted⟩ :=
    ledger
  have lockBound := lockCount_le_one before
  have held := Share.numbers_add { owner := 1 } rest
  have traded := Share.numbers_add { units := 1 + 2 ^ 20, waker := 1 } rest
  obtain ⟨readersAfter, lockAfter, writeAfter, readAfter, phaseAfter⟩ :=
    counts_of_view changed
  change _ = 2 ^ 20 + 1 at readersAfter
  change _ = 0 at lockAfter
  change _ = writeWaiterCount before at writeAfter
  change _ = 0 at readAfter
  dsimp only at held traded
  refine ⟨⟨?_, ?_, ?_, ?_, ?_, ?_, ?_⟩,
    ⟨.inl phaseAfter, ?_, ?_, ?_⟩, ?_, rfl⟩
  all_goals omega

/-- A converted lock gets the placeholder of a wake. -/
theorem wakeMarkConvert
    (ledger : Ledger before ({ units := 1, waker := 1 } + rest))
    (changed :
      view after =
        { view before with
          readWaiter := false
          readers := (view before).readers ^^^ 0x100000#21 })
    (few : readerCount before < 2 ^ 20) :
    Moved before after { units := 1, waker := 1 } { units := 1 + 2 ^ 20, waker := 1 } rest := by
  obtain ⟨readers, locked, sole, alone, passing, waker, wakerCounted⟩ :=
    ledger
  have held := Share.numbers_add { units := 1, waker := 1 } rest
  have traded := Share.numbers_add { units := 1 + 2 ^ 20, waker := 1 } rest
  have placed :
      ((view before).readers ^^^ 0x100000#21).toNat =
        readerCount before + 2 ^ 20 :=
    toNat_xor_overf few
  obtain ⟨readersAfter, lockAfter, writeAfter, readAfter, phaseAfter⟩ :=
    counts_of_view changed
  change _ = ((view before).readers ^^^ 0x100000#21).toNat at readersAfter
  change _ = lockCount before at lockAfter
  change _ = writeWaiterCount before at writeAfter
  change _ = 0 at readAfter
  dsimp only at held traded
  refine ⟨⟨?_, ?_, ?_, ?_, ?_, ?_, ?_⟩,
    ⟨.inl phaseAfter, ?_, ?_, ?_⟩, ?_, rfl⟩
  all_goals omega

/-- A wake gives back what is left of its placeholder. -/
theorem settle
    {remaining : Nat}
    (ledger :
      Ledger before ({ units := 1 + remaining, waker := 1 } + rest))
    (others : rest.waker ≤ rest.units)
    (changed :
      view after =
        { view before with
          readers := BitVec.ofNat 21 ((view before).readers.toNat - remaining) }) :
    Moved before after { units := 1 + remaining, waker := 1 } { units := 1 } rest := by
  obtain ⟨readers, locked, sole, alone, passing, waker, wakerCounted⟩ :=
    ledger
  have held := Share.numbers_add { units := 1 + remaining, waker := 1 } rest
  have traded := Share.numbers_add { units := 1 } rest
  dsimp only at held traded
  have counted : remaining ≤ readerCount before := by omega
  have removed :
      (BitVec.ofNat 21 ((view before).readers.toNat - remaining)).toNat =
        readerCount before - remaining :=
    toNat_ofNat_sub _ _
  obtain ⟨readersAfter, lockAfter, writeAfter, readAfter, phaseAfter⟩ :=
    counts_of_view changed
  rw [removed] at readersAfter
  change _ = lockCount before at lockAfter
  change _ = writeWaiterCount before at writeAfter
  change _ = readWaiterCount before at readAfter
  refine ⟨⟨?_, ?_, ?_, ?_, ?_, ?_, ?_⟩,
    ⟨.inl phaseAfter, ?_, ?_, ?_⟩, ?_, rfl⟩
  all_goals omega

end Ledger

end StaticInit.Sync
