import StaticInit.PhaseLocker.Word

namespace StaticInit.Sync

/-!
# Tests on the word of the futex locker

The predicates of the futex based `SyncPhaseLocker`, each followed by what it
says about the fields of the word.
-/

def hasNoReaders (v : U32) : Bool :=
  v &&& (readerOverf ||| readerBits) == 0

def hasReaders (v : U32) : Bool :=
  v &&& (readerOverf ||| readerBits) != 0

def hasOneReader (v : U32) : Bool :=
  v &&& (readerOverf ||| readerBits) == readerUnity

/-- The low 20 bits of the reader field are full, whatever `READER_OVERF`. -/
def hasReadersMax (v : U32) : Bool :=
  v &&& readerBits == readerBits

def isNotWriteLocked (v : U32) : Bool :=
  v &&& lockedBit == 0

def hasWaiters (v : U32) : Bool :=
  v &&& (readWaiterBit ||| writeWaiterBit) != 0

def hasNoWaiters (v : U32) : Bool :=
  v &&& (readWaiterBit ||| writeWaiterBit) == 0

def isWriteLockable (v : U32) : Bool :=
  isNotWriteLocked v && (hasReaders v || hasNoWaiters v)

def isReadLockable (v : U32) : Bool :=
  (hasReaders v || (hasNoWaiters v && isNotWriteLocked v)) &&
    !hasReadersMax v

open LockWord (view view_inj)

/-- The reader field, as a number. -/
def readerCount (v : U32) : Nat :=
  (view v).readers.toNat

theorem readerCount_lt (v : U32) :
    readerCount v < 2 ^ 21 :=
  (view v).readers.isLt

private theorem view_and_readers (v : U32) :
    view (v &&& (readerOverf ||| readerBits)) =
      ⟨false, false, false, (view v).readers, Phase.empty⟩ := by
  have full :
      (0x100000#21 ||| 0xFFFFF#21) = BitVec.allOnes 21 :=
    rfl
  simp only [LockWord.view_and, LockWord.view_or,
    LockWord.view_readerOverf, LockWord.view_readerBits, full,
    BitVec.and_allOnes]
  simp

@[simp] theorem hasNoReaders_iff (v : U32) :
    hasNoReaders v = true ↔ readerCount v = 0 := by
  rw [hasNoReaders, beq_iff_eq, ← view_inj, view_and_readers,
    readerCount]
  simp [← BitVec.toNat_inj]

@[simp] theorem hasReaders_iff (v : U32) :
    hasReaders v = true ↔ readerCount v ≠ 0 := by
  rw [Ne, ← hasNoReaders_iff]
  simp [hasReaders, hasNoReaders]

@[simp] theorem hasOneReader_iff (v : U32) :
    hasOneReader v = true ↔ readerCount v = 1 := by
  rw [hasOneReader, beq_iff_eq, ← view_inj, view_and_readers,
    readerCount]
  simp [← BitVec.toNat_inj]

@[simp] theorem hasReadersMax_iff (v : U32) :
    hasReadersMax v = true ↔
      readerCount v % 2 ^ 20 = 2 ^ 20 - 1 := by
  rw [hasReadersMax, beq_iff_eq, ← view_inj, readerCount,
    ← Nat.and_two_pow_sub_one_eq_mod]
  simp [← BitVec.toNat_inj]

@[simp] theorem isNotWriteLocked_iff (v : U32) :
    isNotWriteLocked v = true ↔ (view v).locked = false := by
  rw [isNotWriteLocked, beq_iff_eq, ← view_inj]
  simp

@[simp] theorem hasNoWaiters_iff (v : U32) :
    hasNoWaiters v = true ↔
      (view v).readWaiter = false ∧ (view v).writeWaiter = false := by
  rw [hasNoWaiters, beq_iff_eq, ← view_inj]
  simp [and_comm]

@[simp] theorem hasWaiters_iff (v : U32) :
    hasWaiters v = true ↔
      (view v).readWaiter = true ∨ (view v).writeWaiter = true := by
  have opposite : hasWaiters v = !hasNoWaiters v := rfl
  rw [opposite, Bool.not_eq_true', ← Bool.not_eq_true, hasNoWaiters_iff]
  cases (view v).readWaiter <;> simp

@[simp] theorem isWriteLockable_iff (v : U32) :
    isWriteLockable v = true ↔
      (view v).locked = false ∧
        (readerCount v ≠ 0 ∨
          (view v).readWaiter = false ∧ (view v).writeWaiter = false) := by
  simp [isWriteLockable]

@[simp] theorem isReadLockable_iff (v : U32) :
    isReadLockable v = true ↔
      (readerCount v ≠ 0 ∨
          ((view v).readWaiter = false ∧ (view v).writeWaiter = false) ∧
            (view v).locked = false) ∧
        readerCount v % 2 ^ 20 ≠ 2 ^ 20 - 1 := by
  simp [isReadLockable, ← Bool.not_eq_true]

theorem writeWaiterBit_eq_iff (v : U32) :
    (v &&& writeWaiterBit == 0) = true ↔ (view v).writeWaiter = false := by
  rw [beq_iff_eq, ← view_inj]
  simp

theorem readWaiterBit_eq_iff (v : U32) :
    (v &&& readWaiterBit == 0) = true ↔ (view v).readWaiter = false := by
  rw [beq_iff_eq, ← view_inj]
  simp

theorem lockedBit_eq_iff (v : U32) :
    (v &&& lockedBit == 0) = true ↔ (view v).locked = false :=
  isNotWriteLocked_iff v

theorem writeWaiterBit_ne_iff (v : U32) :
    (v &&& writeWaiterBit != 0) = true ↔ (view v).writeWaiter = true := by
  rw [bne, Bool.not_eq_true', ← Bool.not_eq_true, writeWaiterBit_eq_iff,
    Bool.not_eq_false]

theorem readWaiterBit_ne_iff (v : U32) :
    (v &&& readWaiterBit != 0) = true ↔ (view v).readWaiter = true := by
  rw [bne, Bool.not_eq_true', ← Bool.not_eq_true, readWaiterBit_eq_iff,
    Bool.not_eq_false]

theorem lockedBit_ne_iff (v : U32) :
    (v &&& lockedBit != 0) = true ↔ (view v).locked = true := by
  rw [bne, Bool.not_eq_true', ← Bool.not_eq_true, lockedBit_eq_iff,
    Bool.not_eq_false]

/-- The reader bits in the order `wait_as_reader_then_wake_with_lock` has them. -/
theorem readers_ne_iff (v : U32) :
    (v &&& (readerBits ||| readerOverf) != 0) = true ↔
      readerCount v ≠ 0 := by
  rw [BitVec.or_comm]
  exact hasReaders_iff v

/-- No lock and no reader, as `transfer_lock` tests it. -/
theorem free_iff (v : U32) :
    (v &&& (lockedBit ||| readerBits ||| readerOverf) == 0) = true ↔
      (view v).locked = false ∧ readerCount v = 0 := by
  rw [← isNotWriteLocked_iff, ← hasNoReaders_iff]
  simp only [isNotWriteLocked, hasNoReaders, beq_iff_eq]
  rw [BitVec.or_assoc, BitVec.and_or_distrib_left,
    BitVec.or_comm readerOverf]
  exact BitVec.or_eq_zero_iff

end StaticInit.Sync
