import StaticInit.PhaseLocker.Sync.Shares

namespace StaticInit.Sync

/-!
# Every instruction of the locker follows the ledger

First the local code: each function between two atomic accesses ends at a
place, or with a result, that fits the word it was given.  Then the
instructions, one case for each place of the code.
-/

open LockWord (view)

section LocalCode

variable {before after : U32} {share rest : Share} {flawed : Prop}

theorem guardsRely_nil (word : U32) :
    GuardsRely word [] [] := by
  constructor <;> simp

theorem guardsRely_write
    {word : U32}
    {lock : Lock}
    (shown : lock.initPhase = (view word).phase) :
    GuardsRely word [lock] [] := by
  constructor <;> simp [shown]

theorem guardsRely_read
    {word : U32}
    {lock : ReadLock}
    (shown : lock.initPhase = (view word).phase) :
    GuardsRely word [] [lock] := by
  constructor <;> simp [shown]

theorem guardsRely_cloned
    {word : U32}
    {original clone : ReadLock}
    (shown : original.initPhase = (view word).phase)
    (cloned : clone.initPhase = (view word).phase) :
    GuardsRely word [] [original, clone] := by
  constructor
  · simp
  · intro lock member
    rcases List.mem_pair.mp member with rfl | rfl
    · exact shown
    · exact cloned

theorem Next.retNone_fits
    (phase : Phase)
    (moved : Moved before after share {} rest) :
    (Next.retNone phase).Fits before after share rest flawed :=
  ⟨moved, guardsRely_nil after⟩

theorem Next.retWrite_fits
    {lock : Lock}
    (moved : Moved before after share { owner := 1 } rest)
    (shown : lock.initPhase = (view after).phase) :
    (Next.retWrite lock).Fits before after share rest flawed :=
  ⟨moved, guardsRely_write shown⟩

theorem Next.retRead_fits
    {lock : ReadLock}
    (moved : Moved before after share { units := 1 } rest)
    (shown : lock.initPhase = (view after).phase) :
    (Next.retRead lock).Fits before after share rest flawed :=
  ⟨moved, guardsRely_read shown⟩

theorem After.resume_fits
    (next : After)
    (moved : Moved before after share {} rest) :
    next.resume.Fits before after share rest flawed := by
  cases next with
  | done => exact ⟨moved, guardsRely_nil after⟩
  | retNone phase => exact Next.retNone_fits phase moved
  | relock closures => exact ⟨moved, trivial⟩

theorem Call.secondFailed_fits
    (call : Call)
    (moved : Moved before after share {} rest) :
    call.secondFailed.Fits before after share rest flawed := by
  cases call with
  | lock closures hint => exact ⟨moved, trivial⟩
  | tryLock how hint => exact ⟨moved, guardsRely_nil after⟩

theorem Call.second_fits
    (call : Call)
    (cur : U32)
    (moved : Moved before after share {} rest) :
    (call.second cur).Fits before after share rest flawed := by
  unfold Call.second
  cases call.how (.fromBitsTruncate cur) with
  | write =>
      dsimp only
      split
      case isTrue lockable =>
        rw [Bool.and_eq_true] at lockable
        exact ⟨moved, lockable⟩
      case isFalse => exact call.secondFailed_fits moved
  | read =>
      dsimp only
      split
      case isTrue lockable => exact ⟨moved, lockable⟩
      case isFalse => exact call.secondFailed_fits moved
  | none => exact Next.retNone_fits _ moved

theorem Call.optimisticNone_fits
    (call : Call)
    (cur : U32)
    (moved : Moved before after share {} rest) :
    (call.optimisticNone cur).Fits before after share rest flawed := by
  unfold Call.optimisticNone
  split
  case isTrue => exact Next.retNone_fits _ moved
  case isFalse => exact call.second_fits cur moved

theorem Call.secondReadFailed_fits
    (call : Call)
    (cur : U32)
    (moved : Moved before after share {} rest) :
    (call.secondReadFailed cur).Fits before after share rest flawed := by
  cases call with
  | lock closures hint => exact ⟨moved, trivial⟩
  | tryLock how hint =>
      dsimp only [Call.secondReadFailed]
      split
      case isTrue continues => exact ⟨moved, continues.2⟩
      case isFalse => exact Call.secondFailed_fits _ moved

theorem waitAsWriter_fits
    (closures : Closures)
    {cur : U32}
    (waits : (view cur).writeWaiter = true)
    (moved : Moved before after share {} rest) :
    (waitAsWriter closures cur).Fits before after share rest flawed :=
  .assert ((writeWaiterBit_ne_iff cur).mpr waits) ⟨moved, waits⟩

theorem waitAsReader_fits
    (closures : Closures)
    {cur : U32}
    (waits : (view cur).readWaiter = true)
    (moved : Moved before after share {} rest) :
    (waitAsReader closures cur).Fits before after share rest flawed :=
  .assert ((readWaiterBit_ne_iff cur).mpr waits) ⟨moved, waits⟩

theorem slowWaiting_fits
    (closures : Closures)
    (spinWait : SpinWait)
    (cur : U32)
    (moved : Moved before after share {} rest) :
    (slowWaiting closures spinWait cur).Fits
      before after share rest flawed := by
  unfold slowWaiting
  cases closures.onWaitingHow (.fromBitsTruncate cur) with
  | none => exact Next.retNone_fits _ moved
  | write =>
      dsimp only
      split
      case isTrue => exact ⟨moved, trivial⟩
      case isFalse marked =>
        rw [writeWaiterBit_eq_iff, Bool.not_eq_false] at marked
        exact waitAsWriter_fits closures marked moved
  | read =>
      dsimp only
      split
      case isTrue => exact ⟨moved, trivial⟩
      case isFalse marked =>
        rw [readWaiterBit_eq_iff, Bool.not_eq_false] at marked
        exact waitAsReader_fits closures marked moved

theorem slowSpin_fits
    (closures : Closures)
    (spinWait : SpinWait)
    (cur : U32)
    (condition : Bool)
    (moved : Moved before after share {} rest) :
    (slowSpin closures spinWait cur condition).Fits
      before after share rest flawed := by
  unfold slowSpin
  split
  case isTrue =>
    rcases spinWait.spin with ⟨more, advanced⟩
    cases more with
    | true => exact ⟨moved, trivial⟩
    | false => exact slowWaiting_fits closures advanced cur moved
  case isFalse => exact slowWaiting_fits closures spinWait cur moved

theorem slowLoop_fits
    (closures : Closures)
    (spinWait : SpinWait)
    (cur : U32)
    (moved : Moved before after share {} rest) :
    (slowLoop closures spinWait cur).Fits
      before after share rest flawed := by
  unfold slowLoop
  cases closures.how (.fromBitsTruncate cur) with
  | none => exact Next.retNone_fits _ moved
  | write =>
      dsimp only
      split
      case isTrue lockable =>
        split
        case isTrue noReaders => exact ⟨moved, lockable, noReaders⟩
        case isFalse readers =>
          refine ⟨moved, lockable, ?_⟩
          rw [hasNoReaders_iff] at readers
          exact (hasReaders_iff cur).mpr readers
      case isFalse => exact slowSpin_fits closures spinWait cur _ moved
  | read =>
      dsimp only
      split
      case isTrue lockable => exact ⟨moved, lockable⟩
      case isFalse => exact slowSpin_fits closures spinWait cur _ moved

theorem waitForReaders_fits
    (closures : Closures)
    (spinWait inner : SpinWait)
    {cur : U32}
    (readers : hasReaders cur = true)
    (moved : Moved before after share { pending := 1 } rest) :
    (waitForReaders closures spinWait inner cur).Fits
      before after share rest flawed := by
  unfold waitForReaders
  rcases inner.spin with ⟨more, advanced⟩
  cases more with
  | true => exact ⟨moved, trivial⟩
  | false => exact ⟨moved, readers⟩

theorem cloneFull_fits
    {guard : ReadLock}
    (spinWait : SpinWait)
    (cur : U32)
    (shown : guard.initPhase = (view after).phase)
    (moved : Moved before after share { units := 1 } rest) :
    (cloneFull guard spinWait cur).Fits
      before after share rest flawed := by
  unfold cloneFull
  split
  case isTrue =>
    rcases spinWait.spin with ⟨more, advanced⟩
    cases more with
    | true => exact ⟨moved, shown⟩
    | false => exact ⟨moved, shown⟩
  case isFalse => exact ⟨moved, shown⟩

theorem cloneLoop_fits
    {guard : ReadLock}
    (spinWait : SpinWait)
    (cur : U32)
    (shown : guard.initPhase = (view after).phase)
    (moved : Moved before after share { units := 1 } rest) :
    (cloneLoop guard spinWait cur).Fits
      before after share rest flawed := by
  unfold cloneLoop
  split
  case isTrue room =>
    rw [Bool.not_eq_true'] at room
    exact ⟨moved, shown, room⟩
  case isFalse => exact cloneFull_fits spinWait cur shown moved

end LocalCode

section Handover

variable {before word : U32} {share rest : Share} {flawed : Prop}

/-- A woken writer owns the lock. -/
theorem writerWoken_fits
    (closures : Closures)
    (moved : Moved before word share { owner := 1 } rest) :
    (writerWoken closures word).Fits before word share rest flawed := by
  unfold writerWoken
  apply Next.Fits.assert
  · exact (lockedBit_ne_iff word).mpr moved.ledger.locked_of_owner
  cases closures.how (.fromBitsTruncate word) with
  | write => exact Next.retWrite_fits moved rfl
  | read => exact ⟨moved, rfl, rfl⟩
  | none => exact ⟨moved, rfl⟩

/-- A woken reader is counted. -/
theorem readerWoken_fits
    (closures : Closures)
    (moved : Moved before word share { units := 1 } rest) :
    (readerWoken closures word).Fits before word share rest flawed := by
  unfold readerWoken
  apply Next.Fits.assert
  · rw [readers_ne_iff]
    have total := moved.ledger.readers
    simp only [Share.units_add] at total
    omega
  cases closures.how (.fromBitsTruncate word) with
  | write => exact ⟨moved, rfl⟩
  | read => exact Next.retRead_fits moved rfl
  | none => exact ⟨moved, rfl⟩

/-- A thread that hands over the lock enters `transfer_lock`. -/
theorem transferLock_fits
    (next : After)
    (waiters : hasWaiters word = true)
    (moved : Moved before word share { passing := 1 } rest) :
    (transferLock word next).Fits before word share rest flawed := by
  obtain ⟨readers, locked, sole, alone, passing, -, -⟩ := moved.ledger
  simp only [Share.units_add, Share.owner_add, Share.passing_add,
    Share.pending_add] at readers locked sole alone passing
  unfold transferLock
  apply Next.Fits.assert
  · rw [free_iff, ← lockCount_eq_zero_iff]
    omega
  apply Next.Fits.assert
  · exact waiters
  exact ⟨moved, waiters, id, id⟩

/-- The loop of `transfer_lock`, from a word with waiters. -/
theorem transferLoop_fits
    (preference : Preference)
    {cur : U32}
    (next : After)
    (relies : (Pc.transferPrefer cur next).Relies word)
    (moved : Moved before word share { passing := 1 } rest) :
    (transferLoop preference cur next).Fits
      before word share rest flawed := by
  obtain ⟨waiters, writing, reading⟩ := relies
  rw [hasWaiters_iff] at waiters
  cases preference with
  | writer =>
      dsimp only [transferLoop]
      split
      case isTrue marked =>
        rw [writeWaiterBit_ne_iff] at marked
        exact ⟨moved, writing marked, reading⟩
      case isFalse unmarked =>
        rw [writeWaiterBit_ne_iff] at unmarked
        have marked := waiters.resolve_right unmarked
        rw [if_pos ((readWaiterBit_ne_iff cur).mpr marked)]
        exact ⟨moved, reading marked, .inl rfl⟩
  | readers =>
      dsimp only [transferLoop]
      split
      case isTrue marked =>
        rw [readWaiterBit_ne_iff] at marked
        exact ⟨moved, reading marked, .inl rfl⟩
      case isFalse unmarked =>
        rw [readWaiterBit_ne_iff] at unmarked
        have marked := waiters.resolve_left unmarked
        exact .assert ((writeWaiterBit_ne_iff cur).mpr marked)
          ⟨moved, writing marked, reading⟩

/-- No writer was parked: `transfer_lock` keeps the write lock it took. -/
theorem transferWoken_fits
    (preference : Preference)
    {cur : U32}
    (next : After)
    (relies : (Pc.transferWake preference cur next).Relies word)
    (moved : Moved before word share { owner := 1 } rest) :
    (transferWoken preference cur next false).Fits
      before word share rest flawed := by
  unfold transferWoken
  rw [if_neg Bool.false_ne_true]
  cases preference with
  | writer =>
      dsimp only
      split
      case isTrue marked =>
        rw [readWaiterBit_ne_iff] at marked
        have reading : (view cur).readWaiter = true := by
          simpa using marked
        exact ⟨moved, relies reading, .inr rfl⟩
      case isFalse => exact ⟨moved, trivial⟩
  | readers => exact ⟨moved, trivial⟩

end Handover

section Instructions

variable {word : U32} {rest : Share} {flawed : Prop}

/-- `transfer_lock` gives the write lock back it could not hand over. -/
theorem transferReleased_fits
    (preference : Preference)
    (next : After)
    (ledger : Ledger word ({ owner := 1 } + rest)) :
    (transferReleased preference next word).Fits
      word (word &&& ~~~lockedBit) { owner := 1 } rest flawed := by
  have changed := view_and_not_lockedBit word
  unfold transferReleased
  apply Next.Fits.assert
  · exact (lockedBit_ne_iff word).mpr ledger.locked_of_owner
  split
  case isTrue noWaiters =>
    exact next.resume_fits (ledger.release _ noWaiters changed)
  case isFalse waiters =>
    have waiters : hasWaiters word = true := by
      simpa [hasNoWaiters, hasWaiters] using waiters
    have kept : hasWaiters (word &&& ~~~lockedBit) = true := by
      rw [hasWaiters_iff] at waiters ⊢
      rw [changed]
      exact waiters
    exact transferLoop_fits preference next ⟨kept, id, id⟩
      (ledger.hand _ waiters changed)

/-- The slow release of a write lock. -/
theorem Lock.released_fits
    (lock : Lock)
    (next : After)
    (shown : lock.initPhase = (view word).phase)
    (ledger : Ledger word ({ owner := 1 } + rest)) :
    (lock.released next word).Fits
      word (word ^^^ lock.releaseMask) { owner := 1 } rest flawed := by
  have changed := view_releaseMask word lock shown
  rw [ledger.locked_of_owner] at changed
  unfold Lock.released
  split
  case isTrue waiters =>
    have kept : hasWaiters (word ^^^ lock.releaseMask) = true := by
      rw [hasWaiters_iff] at waiters ⊢
      rw [changed]
      exact waiters
    exact transferLock_fits next kept (ledger.hand _ waiters changed)
  case isFalse noWaiters =>
    have noWaiters : hasNoWaiters word = true := by
      simpa [hasNoWaiters, hasWaiters] using noWaiters
    exact next.resume_fits (ledger.release _ noWaiters changed)

/-- The drop of a read lock. -/
theorem readDropped_fits
    (next : After)
    (others : rest.waker ≤ rest.units)
    (ledger : Ledger word ({ units := 1 } + rest)) :
    (readDropped next word).Fits
      word (word - readerUnity) { units := 1 } rest flawed := by
  have counted : 1 ≤ (view word).readers.toNat := by
    have total := ledger.readers
    simp only [Share.units_add, readerCount] at total
    omega
  have changed :=
    LockWord.view_sub_units (show readerUnity.toNat = 1 * 2 ^ 8 from rfl)
      counted
  unfold readDropped
  split
  case isTrue handing =>
    simp only [Bool.and_eq_true] at handing
    obtain ⟨⟨last, unlocked⟩, waiters⟩ := handing
    have kept : hasWaiters (word - readerUnity) = true := by
      rw [hasWaiters_iff] at waiters ⊢
      rw [changed]
      exact waiters
    exact transferLock_fits next kept
      (ledger.leaveLast others last unlocked waiters changed)
  case isFalse stays =>
    simp only [Bool.and_eq_true] at stays
    exact next.resume_fits
      (ledger.leave others
        (fun handing => stays ⟨⟨handing.1, handing.2.1⟩, handing.2.2⟩)
        changed)

theorem Converter.result_fits
    {before after : U32}
    {share : Share}
    (converter : Converter)
    {guard : ReadLock}
    (shown : guard.initPhase = (view after).phase)
    (moved : Moved before after share { units := 1 } rest) :
    (Next.ret (converter.result guard)).Fits
      before after share rest flawed := by
  cases converter with
  | guard => exact ⟨moved, guardsRely_read shown⟩
  | woken => exact ⟨moved, guardsRely_read shown⟩

/-- The exchange of `into_read_lock`. -/
theorem Lock.converted_fits
    (lock : Lock)
    {cur : Phase}
    (converter : Converter)
    (shown : cur = (view word).phase)
    (ledger : Ledger word ({ owner := 1 } + rest)) :
    (lock.converted converter word).Fits
      word (word ^^^ lock.convertMask cur) { owner := 1 } rest flawed := by
  have noReaders := ledger.readers_of_alone Nat.one_pos
  have changed :
      view (word ^^^ lock.convertMask cur) =
        { view word with
          locked := false
          readers := 1
          phase := lock.onUnlock } := by
    simp [Lock.convertMask, shown, noReaders, ledger.locked_of_owner]
  unfold Lock.converted
  split
  case isTrue waiting =>
    rw [readWaiterBit_ne_iff] at waiting
    refine ⟨ledger.convertWaking _ changed, ?_, rfl, ?_⟩
    · rw [changed]
      exact waiting
    · rw [readerCount, changed]
      change (1#21).toNat < 2 ^ 20
      decide
  case isFalse =>
    apply converter.result_fits _ (ledger.convert _ changed)
    rw [changed]
    exact Phase.fromBitsTruncate_bits lock.onUnlock

/-- `wake_readers` marks a word without readers whose lock bit it clears. -/
theorem wakeMarked_releasing_fits
    {share : Share}
    {toUnactivate : U32}
    (next : After)
    (unactivated : word &&& toUnactivate = toUnactivate)
    (noReaders : (view word).readers = 0#21)
    (unlocked : (view (word ^^^ toUnactivate)).locked = false)
    (moved :
      Moved word (word ^^^ wakeMask toUnactivate false) share
        { units := 1 + 2 ^ 20, waker := 1 } rest) :
    (wakeMarked toUnactivate (.releasing next) word).Fits
      word (word ^^^ wakeMask toUnactivate false) share rest flawed := by
  unfold wakeMarked
  apply Next.Fits.assert
  · rw [unactivated]
    exact beq_self_eq_true toUnactivate
  apply Next.Fits.assert
  · rw [Waker.isConverting, Bool.false_or, bne_iff_ne, Ne,
      ← LockWord.view_inj]
    simp [noReaders]
  apply Next.Fits.assert
  · exact (lockedBit_eq_iff _).mpr unlocked
  exact ⟨moved, trivial⟩

/-- `wake_readers` marks a converted lock; its last assertion may fail. -/
theorem wakeMarked_converting_fits
    (converter : Converter)
    (relies : (Pc.wakeXor 0 (.converting converter)).Relies word)
    (ledger : Ledger word ({ units := 1, waker := 1 } + rest)) :
    (wakeMarked 0 (.converting converter) word).Fits
      word (word ^^^ wakeMask 0 true) { units := 1, waker := 1 } rest
      ((view word).locked = true) := by
  obtain ⟨waiting, -, few⟩ := relies
  have changed :
      view (word ^^^ wakeMask 0 true) =
        { view word with
          readWaiter := false
          readers := (view word).readers ^^^ 0x100000#21 } := by
    simp [wakeMask, waiting]
  unfold wakeMarked
  apply Next.Fits.assert
  · simp
  apply Next.Fits.assert
  · rfl
  unfold Next.assert
  split
  case isTrue => exact ⟨ledger.wakeMarkConvert changed few, trivial⟩
  case isFalse locked =>
    rw [lockedBit_eq_iff, Bool.not_eq_false] at locked
    have locked : (view word).locked = true := by
      simpa using locked
    exact locked

/-- The first exchange of `wake_readers`. -/
theorem wakeMarked_fits
    {toUnactivate : U32}
    {writerCount : BitVec 32}
    (waker : Waker)
    (relies : (Pc.wakeXor toUnactivate waker).Relies word)
    (ledger : Ledger word (waker.share toUnactivate + rest)) :
    (wakeMarked toUnactivate waker word).Fits
      word (word ^^^ wakeMask toUnactivate waker.isConverting)
      (waker.share toUnactivate) rest
      ((Pc.wakeXor toUnactivate waker).Flawed word writerCount) := by
  cases waker with
  | converting converter =>
      obtain rfl := relies.2.1
      exact wakeMarked_converting_fits converter relies ledger
  | releasing next =>
      obtain ⟨waiting, rfl | rfl⟩ := relies
      · have ledger : Ledger word ({ passing := 1 } + rest) := ledger
        have unlocked := ledger.unlocked_of_passing
        have noReaders := ledger.readers_of_alone Nat.one_pos
        apply wakeMarked_releasing_fits next _ noReaders
        · simpa using unlocked
        · apply ledger.wakeMark
          simp [wakeMask, waiting, noReaders, unlocked]
        · simp
      · have ledger : Ledger word ({ owner := 1 } + rest) := ledger
        have locked := ledger.locked_of_owner
        have noReaders := ledger.readers_of_alone Nat.one_pos
        apply wakeMarked_releasing_fits next _ noReaders
        · simp [locked]
        · apply ledger.wakeMarkLocked
          simp [wakeMask, waiting, noReaders, locked]
        · rw [← LockWord.view_inj]
          simp [locked]

/-- What is left of a placeholder, in the word. -/
theorem toNat_wakeUnits
    {count : Nat}
    (bounded : count ≤ 2 ^ 20) :
    (wakeUnits count).toNat = (2 ^ 20 - count) * 2 ^ 8 := by
  have product :
      (readerUnity * BitVec.ofNat 32 count).toNat = 2 ^ 8 * count := by
    rw [BitVec.toNat_mul, BitVec.toNat_ofNat]
    change 2 ^ 8 * (count % 2 ^ 32) % 2 ^ 32 = 2 ^ 8 * count
    omega
  have overflow : readerOverf.toNat = 2 ^ 28 := rfl
  have lower : readerUnity * BitVec.ofNat 32 count ≤ readerOverf := by
    rw [BitVec.le_def]
    omega
  rw [wakeUnits, BitVec.toNat_sub_of_le lower]
  omega

/-- The last subtraction of `wake_readers`. -/
theorem Waker.woken_fits
    (waker : Waker)
    {count : Nat}
    (bounded : count ≤ 2 ^ 20)
    (others : rest.waker ≤ rest.units)
    (ledger :
      Ledger word ({ units := 1 + (2 ^ 20 - count), waker := 1 } + rest)) :
    (waker.woken word).Fits word (word - wakeUnits count)
      { units := 1 + (2 ^ 20 - count), waker := 1 } rest flawed := by
  have counted : 2 ^ 20 - count ≤ (view word).readers.toNat := by
    have total := ledger.readers
    simp only [Share.units_add, readerCount] at total
    omega
  have changed := LockWord.view_sub_units (toNat_wakeUnits bounded) counted
  have moved := ledger.settle others changed
  have shown : (ReadLock.new word).initPhase =
      (view (word - wakeUnits count)).phase := by
    rw [changed]
    rfl
  cases waker with
  | converting converter => exact converter.result_fits shown moved
  | releasing next => exact ⟨moved, shown⟩

end Instructions

/-- The end of local code gives a part of its share away; the word stays. -/
def Next.Gives (word : U32) (share gift : Share) : Next → Prop
  | .goto pc => pc.share + gift = share ∧ pc.Relies word
  | .ret result =>
      result.share + gift = share ∧
        GuardsRely word result.locks result.readLocks
  | .panic _ => False

/-- The end of local code fits a change of `writer_count`; the word stays. -/
def Next.Counts
    (word : U32)
    (before after : Nat)
    (share : Share)
    (flawed : Prop) : Next → Prop
  | .goto pc =>
      after + share.counted = before + pc.share.counted ∧
        { pc.share with counted := 0 } = { share with counted := 0 } ∧
        pc.Relies word
  | .ret _ => False
  | .panic _ => flawed

/-- An instruction fits the ledger at a given word and writer count. -/
def Instr.Fits
    (word : U32)
    (writerCount : BitVec 32)
    (share rest : Share)
    (flawed : Prop) : Instr → Prop
  | .fetch update next =>
      (next word).Fits word (update word) share rest flawed
  | .exchange _ cur new ok err =>
      (word = cur → ok.Fits word new share rest flawed) ∧
        (err word).Fits word word share rest flawed
  | .fetchWriterCount update next =>
      (next writerCount).Counts word
        writerCount.toNat (update writerCount).toNat share flawed
  | .fetchFairness _ next =>
      ∀ fairness, (next fairness).Fits word word share rest flawed
  | .wait value parked failed =>
      (word = value →
          (Next.goto parked).Fits word word share rest flawed) ∧
        failed.Fits word word share rest flawed
  | .wakeOneWriter next =>
      (next true).Gives word share { owner := 1 } ∧
        (next false).Fits word word share rest flawed
  | .wakeReaders next =>
      ∀ count ≤ maxWakedReaders,
        (next count).Gives word share { units := count }
  | .rest => True

section Places

variable
  {backend : Backend} {word : U32} {writerCount : BitVec 32} {rest : Share}

/-- A lock is tried on a word that equals the phase it hopes for. -/
theorem Call.optimistic_fits
    {flawed : Prop}
    (call : Call)
    (ledger : Ledger word ({} + rest)) :
    call.optimistic.Fits word writerCount {} rest flawed := by
  unfold Call.optimistic
  cases call.how call.hint with
  | none => exact call.optimisticNone_fits word ledger.refl
  | write =>
      refine ⟨?_, call.second_fits word ledger.refl⟩
      rintro rfl
      apply Next.retWrite_fits
      · apply ledger.acquire
        · simp [readerCount]
        · simp [readerCount]
        · exact view_or_lockedBit _
      · simp [Lock.new]
  | read =>
      refine ⟨?_, call.second_fits word ledger.refl⟩
      rintro rfl
      have changed :
          view (call.hint.bits + readerUnity) =
            { view call.hint.bits with
              readers := (view call.hint.bits).readers + 1 } := by
        apply LockWord.view_add_readerUnity
        simp
      apply Next.retRead_fits
      · apply ledger.join (.inr _) changed
        simp [readerCount]
      · rw [changed]
        simp [ReadLock.new]

/-- A write lock is taken from a lockable word without readers. -/
theorem acquire_fits
    {flawed : Prop}
    (lockable : isWriteLockable word = true ∧ hasNoReaders word = true)
    (ledger : Ledger word ({} + rest)) :
    (Next.retWrite (.new word)).Fits
      word (word ||| lockedBit) {} rest flawed := by
  have changed := view_or_lockedBit word
  apply Next.retWrite_fits (ledger.acquire lockable.1 lockable.2 changed)
  rw [changed]
  rfl

/-- A lockable word has room for one more reader. -/
theorem view_add_of_room
    (room : hasReadersMax word = false) :
    view (word + readerUnity) =
      { view word with readers := (view word).readers + 1 } := by
  have bound := readerCount_lt word
  rw [← Bool.not_eq_true, hasReadersMax_iff] at room
  apply LockWord.view_add_readerUnity
  change readerCount word + 1 < 2 ^ 21
  omega

theorem room_of_lockable
    (lockable : isReadLockable cur = true) :
    hasReadersMax cur = false := by
  rw [isReadLockable, Bool.and_eq_true, Bool.not_eq_true'] at lockable
  exact lockable.2

/-- A read lock is taken from a lockable word. -/
theorem join_fits
    {flawed : Prop}
    (lockable : isReadLockable word = true)
    (ledger : Ledger word ({} + rest)) :
    (Next.retRead (.new word)).Fits
      word (word + readerUnity) {} rest flawed := by
  have changed := view_add_of_room (room_of_lockable lockable)
  apply Next.retRead_fits (ledger.join (.inr lockable) changed)
  rw [changed]
  rfl

/-- The second attempt of `lock` and of `try_lock` to lock for writing. -/
theorem Call.secondWrite_fits
    {flawed : Prop}
    (call : Call)
    {cur : U32}
    (relies : (Pc.secondWrite call cur).Relies word)
    (ledger : Ledger word ({} + rest)) :
    (call.secondWrite cur).Fits word writerCount {} rest flawed := by
  cases call with
  | lock closures hint =>
      refine ⟨?_, Call.secondFailed_fits _ ledger.refl⟩
      rintro rfl
      exact acquire_fits relies ledger
  | tryLock how hint =>
      refine ⟨?_, Call.secondFailed_fits _ ledger.refl⟩
      rintro rfl
      exact acquire_fits relies ledger

/-- The lock bit is set while readers remain. -/
theorem slowWhileReaders_fits
    {flawed : Prop}
    (closures : Closures)
    (spinWait : SpinWait)
    (lockable : isWriteLockable word = true ∧ hasReaders word = true)
    (ledger : Ledger word ({} + rest)) :
    (waitForReaders closures spinWait .new (word ||| lockedBit)).Fits
      word (word ||| lockedBit) {} rest flawed := by
  have changed := view_or_lockedBit word
  have readers : hasReaders (word ||| lockedBit) = true := by
    have before := (hasReaders_iff word).mp lockable.2
    rw [hasReaders_iff, readerCount, changed]
    exact before
  exact waitForReaders_fits closures spinWait .new readers
    (ledger.pend lockable.1 lockable.2 changed)

/-- `wait_for_readers` looks at a word. -/
theorem waitReaders_fits
    {flawed : Prop}
    {next : Next}
    (ledger : Ledger word ({ pending := 1 } + rest))
    (goes :
      hasReaders word = true →
        next.Fits word word { pending := 1 } rest flawed) :
    (if hasNoReaders word then Next.retWrite (.new word) else next).Fits
      word word { pending := 1 } rest flawed := by
  split
  case isTrue noReaders =>
    exact Next.retWrite_fits (ledger.promote noReaders) rfl
  case isFalse readers =>
    rw [hasNoReaders_iff] at readers
    exact goes ((hasReaders_iff word).mpr readers)

/-- `wait_for_readers` gives the lock bit back. -/
theorem giveBack_fits
    {flawed : Prop}
    (closures : Closures)
    (spinWait : SpinWait)
    (readers : hasReaders word = true)
    (ledger : Ledger word ({ pending := 1 } + rest)) :
    (slowWriteSpin closures spinWait
        ((word ||| writeWaiterBit) &&& ~~~lockedBit)).Fits
      word ((word ||| writeWaiterBit) &&& ~~~lockedBit)
      { pending := 1 } rest flawed := by
  apply slowSpin_fits
  apply ledger.unpend readers
  rw [view_and_not_lockedBit, view_or_writeWaiterBit]

/-- Setting the write waiter bit keeps every share. -/
theorem markWriter_moved
    {share : Share}
    (ledger : Ledger word (share + rest)) :
    Moved word (word ||| writeWaiterBit) share share rest := by
  apply ledger.mark true false
  rw [view_or_writeWaiterBit]
  simp

/-- Setting the read waiter bit keeps every share. -/
theorem markReader_moved
    {share : Share}
    (ledger : Ledger word (share + rest)) :
    Moved word (word ||| readWaiterBit) share share rest := by
  apply ledger.mark false true
  rw [view_or_readWaiterBit]
  simp

/-- Subtracting one from a positive counter does not wrap. -/
theorem toNat_sub_one
    {width : Nat}
    {count : BitVec width}
    (positive : 1 ≤ count.toNat) :
    (count - 1).toNat + 1 = count.toNat := by
  have bound := count.isLt
  have wide : 1 < 2 ^ width := by omega
  have one : (1 : BitVec width).toNat = 1 := by
    rw [BitVec.ofNat_eq_ofNat, BitVec.toNat_ofNat]
    exact Nat.mod_eq_of_lt wide
  have lower : (1 : BitVec width) ≤ count := by
    rw [BitVec.le_def]
    omega
  rw [BitVec.toNat_sub_of_le lower]
  omega

/-- Adding one to a counter that is not full does not wrap. -/
theorem toNat_add_one
    {width : Nat}
    {count : BitVec width}
    (room : count ≠ BitVec.allOnes width) :
    (count + 1).toNat = count.toNat + 1 := by
  have bound := count.isLt
  have below : count.toNat ≠ 2 ^ width - 1 := by
    intro full
    apply room
    apply BitVec.eq_of_toNat_eq
    rw [full, BitVec.toNat_allOnes]
  have wide : 1 < 2 ^ width := by omega
  have one : (1 : BitVec width).toNat = 1 := by
    rw [BitVec.ofNat_eq_ofNat, BitVec.toNat_ofNat]
    exact Nat.mod_eq_of_lt wide
  rw [BitVec.toNat_add, one]
  exact Nat.mod_eq_of_lt (by omega)

/-- The addition that starts `compare_and_wait_as_writer`. -/
theorem writerCountAdd_fits
    (closures : Closures)
    {cur : U32}
    (waits : (view cur).writeWaiter = true) :
    ((Pc.writerCountAdd closures cur).instr backend).Fits word writerCount
      {} rest ((Pc.writerCountAdd closures cur).Flawed word writerCount) := by
  dsimp only [Pc.instr, Instr.Fits, Next.assert]
  split
  case isTrue room =>
    rw [bne_iff_ne] at room
    exact ⟨toNat_add_one room, rfl, waits⟩
  case isFalse full =>
    rw [bne_iff_ne, not_not] at full
    exact full

/-- The subtraction that ends `compare_and_wait_as_writer`. -/
theorem writerCountSub_fits
    {flawed : Prop}
    (closures : Closures)
    (res : Bool)
    (counted : 1 ≤ writerCount.toNat) :
    ((Pc.writerCountSub closures res).instr backend).Fits word writerCount
      (Pc.writerCountSub closures res).share rest flawed := by
  have less := toNat_sub_one counted
  have nonzero : (writerCount != 0) = true := by
    rw [bne_iff_ne]
    rintro rfl
    exact absurd counted (by decide)
  dsimp only [Pc.instr, Instr.Fits, Next.assert]
  rw [if_pos nonzero]
  cases res with
  | true =>
      split
      case isTrue => exact ⟨less, rfl, trivial⟩
      case isFalse => exact ⟨less, rfl, trivial⟩
  | false => exact ⟨less, rfl, trivial⟩

/-- The fast release of a write lock without waiters. -/
theorem dropLockCas_fits
    {flawed : Prop}
    (lock : Lock)
    (next : After)
    (shows : word = lock.initPhase.bits ||| lockedBit)
    (ledger : Ledger word ({ owner := 1 } + rest)) :
    next.resume.Fits word lock.onUnlock.bits { owner := 1 } rest flawed := by
  apply next.resume_fits
  apply ledger.release lock.onUnlock
  · simp [shows]
  · simp [shows]

/-- `transfer_lock` takes the lock bit to give it to a writer. -/
theorem transferXor_fits
    {flawed : Prop}
    (preference : Preference)
    {cur : U32}
    (next : After)
    (relies : (Pc.transferXor preference cur next).Relies word)
    (ledger : Ledger word ({ passing := 1 } + rest)) :
    ((Pc.transferXor preference cur next).instr backend).Fits
      word writerCount { passing := 1 } rest flawed := by
  have unlocked := ledger.unlocked_of_passing
  have noReaders : readerCount word = 0 := by
    rw [readerCount, ledger.readers_of_alone Nat.one_pos]
    rfl
  have changed :
      view (word ^^^ (writeWaiterBit ||| lockedBit)) =
        { view word with writeWaiter := false, locked := true } := by
    simp [unlocked, relies.1]
  apply Next.Fits.assert
  · exact (writeWaiterBit_ne_iff word).mpr relies.1
  apply Next.Fits.assert
  · exact (free_iff word).mpr ⟨unlocked, noReaders⟩
  refine ⟨ledger.lockTransfer changed, ?_⟩
  intro reading
  rw [changed]
  exact relies.2 reading

/-- One more reader next to the guard that is cloned. -/
theorem cloneCas_fits
    {flawed : Prop}
    {guard : ReadLock}
    (shown : guard.initPhase = (view word).phase)
    (room : hasReadersMax word = false)
    (ledger : Ledger word ({ units := 1 } + rest)) :
    (Next.ret (.cloned guard (.new word))).Fits
      word (word + readerUnity) { units := 1 } rest flawed := by
  have changed := view_add_of_room room
  refine ⟨ledger.join (.inl ⟨Nat.one_pos, room⟩) changed, ?_⟩
  apply guardsRely_cloned
  · rw [changed]
    exact shown
  · rw [changed]
    rfl

/-- A writer was woken: the write lock is its own now. -/
theorem After.resume_gives (next : After) :
    next.resume.Gives word { owner := 1 } { owner := 1 } := by
  cases next with
  | done => exact ⟨rfl, guardsRely_nil word⟩
  | retNone phase => exact ⟨rfl, guardsRely_nil word⟩
  | relock closures => exact ⟨rfl, trivial⟩

/-- Woken readers each get a unit of the placeholder. -/
theorem wakeCounted_gives
    (waker : Waker)
    (count : Nat)
    (bounded : count ≤ maxWakedReaders) :
    (wakeCounted waker count).Gives word
      { units := 1 + 2 ^ 20, waker := 1 } { units := count } := by
  rw [maxWakedReaders_eq] at bounded
  have split :
      ({ units := 1 + (2 ^ 20 - count), waker := 1 } : Share) +
          { units := count } =
        { units := 1 + 2 ^ 20, waker := 1 } := by
    apply Share.ext <;> simp
    omega
  unfold wakeCounted
  split
  case isTrue => exact ⟨split, bounded⟩
  case isFalse => exact ⟨split, bounded⟩

/-- A clone that was woken is counted next to its original. -/
theorem cloneWoken_fits
    {flawed : Prop}
    {guard : ReadLock}
    (shown : guard.initPhase = (view word).phase)
    (ledger : Ledger word ({ units := 2 } + rest)) :
    ((Pc.cloneWoken guard).instr backend).Fits
      word writerCount { units := 2 } rest flawed := by
  apply Next.Fits.assert
  · rw [readers_ne_iff]
    have total := ledger.readers
    simp only [Share.units_add] at total
    omega
  exact ⟨ledger.refl, guardsRely_cloned shown rfl⟩

/-- Every instruction of the locker follows the ledger. -/
theorem Pc.fits
    (pc : Pc)
    (ledger : Ledger word (pc.share + rest))
    (counted : writerCount.toNat = (pc.share + rest).counted)
    (others : rest.waker ≤ rest.units)
    (relies : pc.Relies word) :
    (pc.instr backend).Fits word writerCount pc.share rest
      (pc.Flawed word writerCount) := by
  cases pc with
  | idle => trivial
  | optimistic call => exact call.optimistic_fits ledger
  | secondWrite call cur => exact call.secondWrite_fits relies ledger
  | secondRead call cur =>
      refine ⟨?_, call.secondReadFailed_fits word ledger.refl⟩
      rintro rfl
      exact join_fits relies ledger
  | secondReadLoad closures hint =>
      change Next.Fits word word _ _ _ (ite _ _ _)
      split
      case isTrue continues =>
        rw [Closures.shallContinue, Bool.and_eq_true] at continues
        exact ⟨ledger.refl, continues.2⟩
      case isFalse => exact ⟨ledger.refl, trivial⟩
  | slowLoad closures spinWait =>
      exact slowLoop_fits closures spinWait word ledger.refl
  | slowWrite closures spinWait cur =>
      refine ⟨?_, slowLoop_fits closures spinWait word ledger.refl⟩
      rintro rfl
      exact acquire_fits relies ledger
  | slowWhileReaders closures spinWait cur =>
      refine ⟨?_, slowLoop_fits closures spinWait word ledger.refl⟩
      rintro rfl
      exact slowWhileReaders_fits closures spinWait relies ledger
  | slowRead closures spinWait cur =>
      refine ⟨?_, ledger.refl, trivial⟩
      rintro rfl
      exact join_fits relies ledger
  | slowReadLoad closures spinWait =>
      change Next.Fits word word _ _ _ (ite _ _ _)
      split
      case isTrue continues =>
        rw [Closures.shallContinue, Bool.and_eq_true] at continues
        exact ⟨ledger.refl, continues.2⟩
      case isFalse => exact slowSpin_fits closures spinWait word _ ledger.refl
  | setWriteWaiter closures spinWait cur =>
      refine ⟨?_, slowLoop_fits closures spinWait word ledger.refl⟩
      rintro rfl
      apply waitAsWriter_fits closures _ (markWriter_moved ledger)
      rw [view_or_writeWaiterBit]
  | setReadWaiter closures spinWait cur =>
      refine ⟨?_, slowLoop_fits closures spinWait word ledger.refl⟩
      rintro rfl
      apply waitAsReader_fits closures _ (markReader_moved ledger)
      rw [view_or_readWaiterBit]
  | waitReadersLoad closures spinWait inner =>
      exact waitReaders_fits ledger fun readers =>
        waitForReaders_fits closures spinWait inner readers ledger.refl
  | waitReadersCas closures spinWait cur =>
      refine ⟨?_, waitReaders_fits ledger fun readers =>
        ⟨ledger.refl, readers⟩⟩
      rintro rfl
      exact giveBack_fits closures spinWait relies ledger
  | writerCountAdd closures cur => exact writerCountAdd_fits closures relies
  | writerWait closures cur =>
      exact ⟨fun _ => ⟨ledger.refl, trivial⟩, ledger.refl, trivial⟩
  | parkedWriter closures => trivial
  | writerCountSub closures res =>
      apply writerCountSub_fits
      rw [counted, Share.counted_add]
      cases res with
      | true => exact Nat.le_add_right 1 rest.counted
      | false => exact Nat.le_add_right 1 rest.counted
  | writerOr closures => exact ⟨markWriter_moved ledger, trivial⟩
  | writerLoad closures => exact writerWoken_fits closures ledger.refl
  | readerWait closures cur =>
      exact ⟨fun _ => ⟨ledger.refl, trivial⟩, ledger.refl, trivial⟩
  | parkedReader closures => trivial
  | readerLoad closures => exact readerWoken_fits closures ledger.refl
  | dropLockCas lock next =>
      exact ⟨fun shows => dropLockCas_fits lock next shows ledger,
        ledger.refl, relies⟩
  | dropLockXor lock next => exact lock.released_fits next relies ledger
  | convertXor lock cur converter =>
      exact lock.converted_fits converter relies.2 ledger
  | dropReadSub lock next => exact readDropped_fits next others ledger
  | transferPrefer cur next =>
      intro fairness
      dsimp only
      split
      case isTrue => exact transferLoop_fits .writer next relies ledger.refl
      case isFalse => exact transferLoop_fits .readers next relies ledger.refl
  | transferXor preference cur next =>
      exact transferXor_fits preference next relies ledger
  | transferFairness preference cur next =>
      exact fun _ => ⟨ledger.refl, relies⟩
  | transferWake preference cur next =>
      refine ⟨?_, transferWoken_fits preference next relies ledger.refl⟩
      exact next.resume_gives
  | transferAnd preference next =>
      exact transferReleased_fits preference next ledger
  | wakeXor toUnactivate waker => exact wakeMarked_fits waker relies ledger
  | wakeFairness waker => exact fun _ => ⟨ledger.refl, trivial⟩
  | wakeCall waker => exact wakeCounted_gives waker
  | wakeOr count waker => exact ⟨markReader_moved ledger, relies⟩
  | wakeSub count waker => exact waker.woken_fits relies others ledger
  | cloneLoad guard spinWait =>
      exact cloneLoop_fits spinWait word relies ledger.refl
  | cloneCas guard spinWait cur =>
      refine ⟨?_, ledger.refl, relies.1⟩
      rintro rfl
      exact cloneCas_fits relies.1 relies.2 ledger
  | cloneReadLoad guard spinWait =>
      change Next.Fits word word _ _ _ (ite _ _ _)
      split
      case isTrue room =>
        rw [Bool.not_eq_true'] at room
        exact ⟨ledger.refl, relies, room⟩
      case isFalse => exact cloneFull_fits spinWait word relies ledger.refl
  | cloneSetWaiter guard spinWait cur =>
      refine ⟨?_, cloneLoop_fits spinWait word relies ledger.refl⟩
      rintro rfl
      refine ⟨markReader_moved ledger, ?_⟩
      rw [Pc.Relies, view_or_readWaiterBit]
      exact relies
  | cloneWait guard cur =>
      exact ⟨fun _ => ⟨ledger.refl, relies⟩, ledger.refl, relies⟩
  | parkedClone guard => trivial
  | cloneWoken guard => exact cloneWoken_fits relies ledger

end Places

end StaticInit.Sync
