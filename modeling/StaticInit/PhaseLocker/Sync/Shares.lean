import StaticInit.PhaseLocker.Sync.Ledger
import StaticInit.PhaseLocker.Sync.Program

namespace StaticInit.Sync

/-!
# The share of each place of the code

`Pc.share` says what a thread at a place of the code holds of the locker, and
`Pc.Relies` what that code takes for granted about the word.  `Pc.sound` says
that each atomic instruction of the locker follows a rule of the ledger: it
trades the share of its place for the share of the place it continues at.
-/

open LockWord (view)

/-- What the guards an operation returns hold of the locker. -/
def guardShare (locks : List Lock) (readLocks : List ReadLock) : Share :=
  { units := readLocks.length, owner := locks.length }

def Result.share (result : Result) : Share :=
  guardShare result.locks result.readLocks

/-- The share of `wake_readers` before it marks the word. -/
def Waker.share (waker : Waker) (toUnactivate : U32) : Share :=
  match waker with
  | .converting _ => { units := 1, waker := 1 }
  | .releasing _ =>
      if toUnactivate = 0 then { passing := 1 } else { owner := 1 }

/-- What a thread holds at each place of the code. -/
def Pc.share : Pc → Share
  | .waitReadersLoad .. => { pending := 1 }
  | .waitReadersCas .. => { pending := 1 }
  | .writerWait .. => { counted := 1 }
  | .parkedWriter _ => { counted := 1 }
  | .writerCountSub _ true => { owner := 1, counted := 1 }
  | .writerCountSub _ false => { counted := 1 }
  | .writerOr _ => { owner := 1 }
  | .writerLoad _ => { owner := 1 }
  | .readerLoad _ => { units := 1 }
  | .dropLockCas .. => { owner := 1 }
  | .dropLockXor .. => { owner := 1 }
  | .convertXor .. => { owner := 1 }
  | .dropReadSub .. => { units := 1 }
  | .transferPrefer .. => { passing := 1 }
  | .transferXor .. => { passing := 1 }
  | .transferFairness .. => { owner := 1 }
  | .transferWake .. => { owner := 1 }
  | .transferAnd .. => { owner := 1 }
  | .wakeXor toUnactivate waker => waker.share toUnactivate
  | .wakeFairness _ => { units := 1 + 2 ^ 20, waker := 1 }
  | .wakeCall _ => { units := 1 + 2 ^ 20, waker := 1 }
  | .wakeOr count _ => { units := 1 + (2 ^ 20 - count), waker := 1 }
  | .wakeSub count _ => { units := 1 + (2 ^ 20 - count), waker := 1 }
  | .cloneLoad .. => { units := 1 }
  | .cloneCas .. => { units := 1 }
  | .cloneReadLoad .. => { units := 1 }
  | .cloneSetWaiter .. => { units := 1 }
  | .cloneWait .. => { units := 1 }
  | .parkedClone _ => { units := 1 }
  | .cloneWoken _ => { units := 2 }
  | _ => {}

/-- The guards show the phase of the word. -/
def GuardsRely
    (word : U32)
    (locks : List Lock)
    (readLocks : List ReadLock) : Prop :=
  (∀ lock ∈ locks, lock.initPhase = (view word).phase) ∧
    ∀ lock ∈ readLocks, lock.initPhase = (view word).phase

/-- What the code at each place takes for granted. -/
def Pc.Relies (word : U32) : Pc → Prop
  | .secondWrite _ cur =>
      isWriteLockable cur = true ∧ hasNoReaders cur = true
  | .secondRead _ cur => isReadLockable cur = true
  | .slowWrite _ _ cur =>
      isWriteLockable cur = true ∧ hasNoReaders cur = true
  | .slowWhileReaders _ _ cur =>
      isWriteLockable cur = true ∧ hasReaders cur = true
  | .slowRead _ _ cur => isReadLockable cur = true
  | .waitReadersCas _ _ cur => hasReaders cur = true
  | .writerCountAdd _ cur => (view cur).writeWaiter = true
  | .writerWait _ cur => (view cur).writeWaiter = true
  | .readerWait _ cur => (view cur).readWaiter = true
  | .dropLockCas lock _ => lock.initPhase = (view word).phase
  | .dropLockXor lock _ => lock.initPhase = (view word).phase
  | .convertXor lock cur _ =>
      lock.initPhase = (view word).phase ∧ cur = (view word).phase
  | .dropReadSub lock _ => lock.initPhase = (view word).phase
  | .transferPrefer cur _ =>
      hasWaiters cur = true ∧
        ((view cur).writeWaiter = true → (view word).writeWaiter = true) ∧
        ((view cur).readWaiter = true → (view word).readWaiter = true)
  | .transferXor _ cur _ =>
      (view word).writeWaiter = true ∧
        ((view cur).readWaiter = true → (view word).readWaiter = true)
  | .transferFairness _ cur _ =>
      (view cur).readWaiter = true → (view word).readWaiter = true
  | .transferWake _ cur _ =>
      (view cur).readWaiter = true → (view word).readWaiter = true
  | .wakeXor toUnactivate waker =>
      (view word).readWaiter = true ∧
        match waker with
        | .converting _ => toUnactivate = 0 ∧ readerCount word < 2 ^ 20
        | .releasing _ => toUnactivate = 0 ∨ toUnactivate = lockedBit
  | .wakeOr count _ => count ≤ 2 ^ 20
  | .wakeSub count _ => count ≤ 2 ^ 20
  | .cloneLoad guard _ => guard.initPhase = (view word).phase
  | .cloneCas guard _ cur =>
      guard.initPhase = (view word).phase ∧ hasReadersMax cur = false
  | .cloneReadLoad guard _ => guard.initPhase = (view word).phase
  | .cloneSetWaiter guard _ _ => guard.initPhase = (view word).phase
  | .cloneWait guard _ => guard.initPhase = (view word).phase
  | .parkedClone guard => guard.initPhase = (view word).phase
  | .cloneWoken guard => guard.initPhase = (view word).phase
  | _ => True

/-- The two places where an assertion of the locker may fail. -/
def Pc.Flawed (word : U32) (writerCount : BitVec 32) : Pc → Prop
  | .wakeXor _ (.converting _) => (view word).locked = true
  | .writerCountAdd _ _ => writerCount = BitVec.allOnes 32
  | _ => False

/-- The end of local code fits a change of the word traded for `share`. -/
def Next.Fits
    (before after : U32)
    (share rest : Share)
    (flawed : Prop) : Next → Prop
  | .goto pc => Moved before after share pc.share rest ∧ pc.Relies after
  | .ret result =>
      Moved before after share result.share rest ∧
        GuardsRely after result.locks result.readLocks
  | .panic _ => flawed

namespace Next.Fits

variable {before after : U32} {share rest : Share} {flawed : Prop}

/-- An assertion that holds. -/
theorem assert
    {condition : Bool}
    {assertion : Assertion}
    {next : Next}
    (holds : condition = true)
    (fits : next.Fits before after share rest flawed) :
    (Next.assert condition assertion next).Fits
      before after share rest flawed := by
  rw [Next.assert, if_pos holds]
  exact fits

end Next.Fits

section Views

variable (word : U32)

@[simp] theorem view_or_lockedBit :
    view (word ||| lockedBit) = { view word with locked := true } := by
  simp

@[simp] theorem view_or_writeWaiterBit :
    view (word ||| writeWaiterBit) =
      { view word with writeWaiter := true } := by
  simp

@[simp] theorem view_or_readWaiterBit :
    view (word ||| readWaiterBit) =
      { view word with readWaiter := true } := by
  simp

theorem view_and_not_lockedBit :
    view (word &&& ~~~lockedBit) = { view word with locked := false } := by
  have phase :
      (view word).phase &&& ⟨BitVec.allOnes 8⟩ = (view word).phase := by
    apply Phase.ext
    exact BitVec.and_allOnes
  rw [LockWord.view_and, LockWord.view_not_lockedBit]
  simp only [BitVec.and_allOnes, phase, Bool.and_true, Bool.and_false]

theorem view_releaseMask (lock : Lock)
    (initial : lock.initPhase = (view word).phase) :
    view (word ^^^ lock.releaseMask) =
      { view word with
        locked := !(view word).locked
        phase := lock.onUnlock } := by
  simp [Lock.releaseMask, initial]

end Views

end StaticInit.Sync
