import StaticInit.PhaseLocker.Sync.Waiters

namespace StaticInit.Sync

/-!
# What an operation still has to do

Each operation of the futex locker goes through stages: it asks for a lock,
waits, is woken, settles for what it got, and gives back what it does not
keep.  `Pc.weight` goes down from one stage to the next, and within a stage
`Pc.left` bounds the instructions that are left while no other thread moves.
A thread that starts to ask again, at the load of `raw_lock_slow`, is at rest.
-/

open LockWord (view)

/-- The waiter bits that are set. -/
def waiterCount (word : U32) : Nat :=
  readWaiterCount word + writeWaiterCount word

def Waker.weight : Waker → Nat
  | .converting _ => 3
  | .releasing _ => 1

/-- The stage of an operation. -/
def Pc.weight : Pc → Nat
  | .idle => 0
  | .slowLoad .. => 0
  | .dropLockCas .. => 1
  | .dropLockXor .. => 1
  | .dropReadSub .. => 1
  | .transferPrefer .. => 1
  | .transferXor .. => 1
  | .transferFairness .. => 1
  | .transferWake .. => 1
  | .transferAnd .. => 1
  | .wakeXor _ waker => waker.weight
  | .wakeFairness waker => waker.weight
  | .wakeCall waker => waker.weight
  | .wakeOr _ waker => waker.weight
  | .wakeSub _ waker => waker.weight
  | .writerCountSub _ true => 3
  | .writerOr _ => 3
  | .writerLoad _ => 3
  | .readerLoad _ => 3
  | .cloneWoken _ => 3
  | .convertXor .. => 3
  | .parkedWriter _ => 4
  | .parkedReader _ => 4
  | .parkedClone _ => 4
  | _ => 5

/-- A bound on the instructions left in a stage if no other thread moves. -/
def Pc.left (word : U32) : Pc → Nat
  | .optimistic _ => 4
  | .secondWrite .. => 1
  | .secondRead _ cur => if cur = word then 1 else 3
  | .secondReadLoad .. => 2
  | .slowWrite _ _ cur => if cur = word then 1 else 18
  | .slowWhileReaders _ _ cur => if cur = word then 17 else 18
  | .slowRead _ _ cur => if cur = word then 1 else 6
  | .slowReadLoad .. => 5
  | .setWriteWaiter _ _ cur => if cur = word then 4 else 18
  | .setReadWaiter _ _ cur => if cur = word then 4 else 18
  | .waitReadersLoad _ _ inner => 7 + (10 - inner.counter)
  | .waitReadersCas _ _ cur => if cur = word then 5 else 6
  | .writerCountAdd .. => 3
  | .writerWait .. => 2
  | .writerCountSub _ res => if res then 43 else 1
  | .writerOr _ => 42
  | .writerLoad _ => 41
  | .readerWait .. => 1
  | .readerLoad _ => 1
  | .convertXor .. => 40
  -- a round of `transfer_lock` takes a waiter bit away
  | .dropLockCas .. => 12 * waiterCount word + 19
  | .dropLockXor .. => 12 * waiterCount word + 18
  | .dropReadSub .. => 12 * waiterCount word + 18
  | .transferPrefer .. => 12 * waiterCount word + 17
  | .transferXor .. => 12 * waiterCount word + 8
  | .transferFairness .. => 12 * waiterCount word + 18
  | .transferWake .. => 12 * waiterCount word + 17
  | .transferAnd .. => 12 * waiterCount word + 16
  | .wakeXor .. => 12 * waiterCount word + 15
  | .wakeFairness _ => 12 * waiterCount word + 21
  | .wakeCall _ => 12 * waiterCount word + 20
  | .wakeOr .. => 50
  | .wakeSub .. => 12 * waiterCount word + 19
  | _ => 0

attribute [local simp] Pc.weight Pc.left

/-- Two for each guard, and the stage of the place. -/
def Next.weight : Next → Nat
  | .goto pc => pc.weight
  | .ret result => 2 * (result.locks.length + result.readLocks.length)
  | .panic _ => 0

/-- Local code ends in a later stage, or nearer to the end of its stage. -/
def Next.Lowers (weight bound : Nat) (word : U32) (next : Next) : Prop :=
  next.weight < weight ∨
    ∃ pc, next = .goto pc ∧ pc.weight = weight ∧ pc.left word < bound

/-- An instruction of a thread that is alone at work lowers what is left. -/
def Instr.Lowers (weight bound : Nat) (word : U32) : Instr → Prop
  | .fetch update next => (next word).Lowers weight bound (update word)
  | .exchange _ cur new ok err =>
      (word = cur → ok.Lowers weight bound new) ∧
        (word ≠ cur → (err word).Lowers weight bound word)
  | .fetchWriterCount _ next =>
      ∀ count, (next count).Lowers weight bound word
  | .fetchFairness _ next =>
      ∀ fairness, (next fairness).Lowers weight bound word
  | .wait value parked failed =>
      (word = value → (Next.goto parked).Lowers weight bound word) ∧
        (word ≠ value → failed.Lowers weight bound word)
  -- a wake that finds somebody makes that thread lighter
  | .wakeOneWriter next =>
      (next true).weight ≤ weight ∧ (next false).Lowers weight bound word
  | .wakeReaders next =>
      (∀ count, (next count).weight ≤ weight) ∧
        (next 0).Lowers weight bound word
  | .rest => False

section LocalCode

variable {word cur : U32} {weight bound : Nat} {closures : Closures}
  {spinWait : SpinWait}

theorem Next.lowers_of_lt
    {next : Next}
    (lighter : next.weight < weight) :
    next.Lowers weight bound word :=
  .inl lighter

theorem Next.goto_lowers
    {pc : Pc}
    (same : pc.weight = weight)
    (nearer : pc.left word < bound) :
    (Next.goto pc).Lowers weight bound word :=
  .inr ⟨pc, rfl, same, nearer⟩

theorem Next.assert_lowers
    {condition : Bool}
    {assertion : Assertion}
    {next : Next}
    (busy : 0 < weight)
    (lowers : condition = true → next.Lowers weight bound word) :
    (Next.assert condition assertion next).Lowers weight bound word := by
  unfold Next.assert
  split
  case isTrue holds => exact lowers holds
  case isFalse => exact .inl busy

@[simp] theorem Next.retNone_weight (phase : Phase) :
    (Next.retNone phase).weight = 0 :=
  rfl

@[simp] theorem Next.retWrite_weight (lock : Lock) :
    (Next.retWrite lock).weight = 2 :=
  rfl

@[simp] theorem Next.retRead_weight (lock : ReadLock) :
    (Next.retRead lock).weight = 2 :=
  rfl

theorem After.resume_weight (next : After) : next.resume.weight = 0 := by
  cases next with
  | _ => rfl

theorem After.resume_lowers
    (next : After)
    (busy : 0 < weight) :
    next.resume.Lowers weight bound word :=
  .inl (next.resume_weight.trans_lt busy)

theorem Call.secondFailed_lowers (call : Call) :
    call.secondFailed.Lowers 5 bound word := by
  left
  cases call with
  | _ => exact Nat.succ_pos 4

/-- The second attempt is made on the word as it is. -/
theorem Call.second_lowers
    (call : Call)
    (near : 1 < bound) :
    (call.second word).Lowers 5 bound word := by
  unfold Call.second
  split
  case h_1 =>
    split
    case isTrue => exact Next.goto_lowers rfl near
    case isFalse => exact call.secondFailed_lowers
  case h_2 =>
    split
    case isTrue => exact Next.goto_lowers rfl (by simpa using near)
    case isFalse => exact call.secondFailed_lowers
  case h_3 => exact .inl (Nat.succ_pos 4)

theorem Call.optimisticNone_lowers
    (call : Call)
    (near : 1 < bound) :
    (call.optimisticNone word).Lowers 5 bound word := by
  unfold Call.optimisticNone
  split
  case isTrue => exact .inl (Nat.succ_pos 4)
  case isFalse => exact call.second_lowers near

theorem Call.optimistic_lowers (call : Call) :
    call.optimistic.Lowers 5 4 word := by
  unfold Call.optimistic
  split
  case h_1 => exact call.optimisticNone_lowers (by omega)
  case h_2 =>
    refine ⟨fun _ => ?_, fun _ => call.second_lowers (by omega)⟩
    exact Next.lowers_of_lt (by simp)
  case h_3 =>
    refine ⟨fun _ => ?_, fun _ => call.second_lowers (by omega)⟩
    exact Next.lowers_of_lt (by simp)

theorem Call.secondReadFailed_lowers
    (call : Call)
    (near : 2 < bound) :
    (call.secondReadFailed word).Lowers 5 bound word := by
  cases call with
  | lock closures hint => exact Next.goto_lowers rfl near
  | tryLock how hint =>
      simp only [secondReadFailed]
      split
      case isTrue =>
        exact Next.goto_lowers rfl (by simp; omega)
      case isFalse => exact Call.secondFailed_lowers _

theorem waitAsWriter_lowers (near : 3 < bound) :
    (waitAsWriter closures cur).Lowers 5 bound word :=
  Next.assert_lowers (by omega) fun _ => Next.goto_lowers rfl near

theorem waitAsReader_lowers (near : 1 < bound) :
    (waitAsReader closures cur).Lowers 5 bound word :=
  Next.assert_lowers (by omega) fun _ => Next.goto_lowers rfl near

theorem slowWaiting_lowers (near : 4 < bound) :
    (slowWaiting closures spinWait word).Lowers 5 bound word := by
  unfold slowWaiting
  split
  case h_1 => exact Next.lowers_of_lt (by simp)
  case h_2 =>
    split
    case isTrue => exact Next.goto_lowers rfl (by simpa using near)
    case isFalse => exact waitAsWriter_lowers (by omega)
  case h_3 =>
    split
    case isTrue => exact Next.goto_lowers rfl (by simpa using near)
    case isFalse => exact waitAsReader_lowers (by omega)

/-- A thread that spins once more rests at the load. -/
theorem slowSpin_lowers
    (condition : Bool)
    (near : 4 < bound) :
    (slowSpin closures spinWait word condition).Lowers 5 bound word := by
  unfold slowSpin
  split
  case isTrue =>
    split
    case h_1 => exact Next.lowers_of_lt (Nat.succ_pos 4)
    case h_2 => exact slowWaiting_lowers near
  case isFalse => exact slowWaiting_lowers near

theorem slowLoop_lowers (near : 17 < bound) :
    (slowLoop closures spinWait word).Lowers 5 bound word := by
  unfold slowLoop
  split
  case h_1 => exact Next.lowers_of_lt (by simp)
  case h_2 =>
    split
    case isTrue =>
      split
      case isTrue =>
        exact Next.goto_lowers rfl (by simp; omega)
      case isFalse =>
        exact Next.goto_lowers rfl (by simpa using near)
    case isFalse => exact slowSpin_lowers _ (by omega)
  case h_3 =>
    split
    case isTrue => exact Next.goto_lowers rfl (by simp; omega)
    case isFalse => exact slowSpin_lowers _ (by omega)

/-- The spinning for readers comes to an end. -/
theorem waitForReaders_lowers
    (inner : SpinWait)
    (near : 7 + (10 - inner.counter) ≤ bound) :
    (waitForReaders closures spinWait inner word).Lowers 5 bound word := by
  unfold waitForReaders SpinWait.spin
  by_cases full : inner.counter ≥ 10
  · rw [if_pos full]
    exact Next.goto_lowers rfl (by simp; omega)
  · rw [if_neg full]
    exact Next.goto_lowers rfl (by simp only [Pc.left]; omega)

theorem writerWoken_lowers : (writerWoken closures cur).Lowers 3 41 word := by
  apply Next.assert_lowers (by omega)
  intro locked
  split
  case h_1 => exact Next.lowers_of_lt (by simp)
  case h_2 => exact Next.goto_lowers rfl (by simp)
  case h_3 => exact Next.lowers_of_lt (by simp [Next.weight])

theorem readerWoken_lowers : (readerWoken closures cur).Lowers 3 1 word := by
  apply Next.assert_lowers (by omega)
  intro counted
  split
  case h_1 => exact Next.lowers_of_lt (by simp)
  case h_2 => exact Next.lowers_of_lt (by simp [Next.weight])
  case h_3 => exact Next.lowers_of_lt (by simp [Next.weight])

theorem transferLock_lowers
    (next : After)
    (near : 12 * waiterCount word + 17 < bound) :
    (transferLock cur next).Lowers 1 bound word :=
  Next.assert_lowers (by omega) fun _ =>
    Next.assert_lowers (by omega) fun _ => Next.goto_lowers rfl near

/-- Each preference goes on to one of three places. -/
theorem transferLoop_lowers
    (preference : Preference)
    (next : After)
    (waits : hasWaiters cur = true)
    (near : 12 * waiterCount word + 15 < bound) :
    (transferLoop preference cur next).Lowers 1 bound word := by
  have marks :
      ∀ pc : Pc, pc.weight = 1 → pc.left word ≤ 12 * waiterCount word + 15 →
        (Next.goto pc).Lowers 1 bound word :=
    fun pc same close => Next.goto_lowers same (by omega)
  rw [hasWaiters_iff] at waits
  unfold transferLoop
  split
  case h_1 =>
    split
    case isTrue => exact marks _ rfl (by simp only [Pc.left]; omega)
    case isFalse noWriter =>
      split
      case isTrue => exact marks _ rfl (by simp)
      case isFalse noReader =>
        rw [writeWaiterBit_ne_iff] at noWriter
        rw [readWaiterBit_ne_iff] at noReader
        exact absurd waits (not_or.mpr ⟨noReader, noWriter⟩)
  case h_2 =>
    split
    case isTrue => exact marks _ rfl (by simp)
    case isFalse =>
      apply Next.assert_lowers (by omega)
      intro writer
      exact marks _ rfl (by simp only [Pc.left]; omega)

theorem transferWoken_lowers
    (preference : Preference)
    (next : After) :
    (transferWoken preference cur next false).Lowers 1
      (12 * waiterCount word + 17) word := by
  unfold transferWoken
  rw [if_neg Bool.false_ne_true]
  cases preference with
  | writer =>
      dsimp only
      split
      case isTrue => exact Next.goto_lowers rfl (by simp)
      case isFalse => exact Next.goto_lowers rfl (by simp)
  | readers => exact Next.goto_lowers rfl (by simp)

theorem transferReleased_lowers
    (preference : Preference)
    (next : After) :
    (transferReleased preference next cur).Lowers 1
      (12 * waiterCount word + 16) word := by
  apply Next.assert_lowers (by omega)
  intro locked
  split
  case isTrue => exact next.resume_lowers (by omega)
  case isFalse waits =>
    apply transferLoop_lowers preference next _ (by omega)
    rw [hasWaiters_iff, view_and_not_lockedBit]
    rw [hasNoWaiters_iff, not_and_or] at waits
    simpa using waits

theorem readDropped_lowers
    (next : After)
    (near : 12 * waiterCount word + 17 < bound) :
    (readDropped next cur).Lowers 1 bound word := by
  unfold readDropped
  split
  case isTrue => exact transferLock_lowers next near
  case isFalse => exact next.resume_lowers (by omega)

theorem Lock.released_lowers
    (lock : Lock)
    (next : After)
    (near : 12 * waiterCount word + 17 < bound) :
    (lock.released next cur).Lowers 1 bound word := by
  unfold released
  split
  case isTrue => exact transferLock_lowers next near
  case isFalse => exact next.resume_lowers (by omega)

theorem Converter.result_weight
    (converter : Converter)
    (guard : ReadLock) :
    (Next.ret (converter.result guard)).weight = 2 := by
  cases converter with
  | _ => rfl

theorem waiterCount_le_two (word : U32) : waiterCount word ≤ 2 :=
  Nat.add_le_add (readWaiterCount_le_one word) (writeWaiterCount_le_one word)

theorem Lock.converted_lowers
    (lock : Lock)
    (converter : Converter) :
    (lock.converted converter cur).Lowers 3 40 word := by
  have few := waiterCount_le_two word
  unfold converted
  split
  case isTrue => exact Next.goto_lowers rfl (by simp only [Pc.left]; omega)
  case isFalse =>
    exact Next.lowers_of_lt
      ((converter.result_weight _).trans_lt (Nat.lt_succ_self 2))

theorem Waker.woken_lowers
    (waker : Waker)
    (near : 12 * waiterCount word + 18 < bound) :
    (waker.woken cur).Lowers waker.weight bound word := by
  cases waker with
  | converting converter =>
      exact Next.lowers_of_lt
        ((converter.result_weight _).trans_lt (Nat.lt_succ_self 2))
  | releasing next => exact Next.goto_lowers rfl near

theorem Waker.weight_pos (waker : Waker) : 0 < waker.weight := by
  cases waker with
  | converting converter => exact Nat.succ_pos 2
  | releasing next => exact Nat.one_pos

theorem wakeMarked_lowers
    {toUnactivate : U32}
    (waker : Waker)
    (near : 12 * waiterCount word + 21 < bound) :
    (wakeMarked toUnactivate waker cur).Lowers waker.weight bound word :=
  Next.assert_lowers waker.weight_pos fun _ =>
    Next.assert_lowers waker.weight_pos fun _ =>
      Next.assert_lowers waker.weight_pos fun _ => Next.goto_lowers rfl near

/-- The waiter bits of two words are the same, so they are as many. -/
theorem SameWaiters.count
    {before after : U32}
    (same : SameWaiters before after) :
    waiterCount after = waiterCount before := by
  rw [waiterCount, waiterCount, readWaiterCount, readWaiterCount,
    writeWaiterCount, writeWaiterCount, same.1, same.2]

/-- `transfer_lock` takes the bit of the waiting writers away. -/
theorem waiterCount_transferXor
    (writer : (view word).writeWaiter = true) :
    waiterCount (word ^^^ (writeWaiterBit ||| lockedBit)) + 1 =
      waiterCount word := by
  simp [waiterCount, readWaiterCount, writeWaiterCount, writer]

/-- `wake_readers` takes the bit of the waiting readers away. -/
theorem waiterCount_wakeXor
    {toUnactivate : U32}
    {waker : Waker}
    (relies : (Pc.wakeXor toUnactivate waker).Relies word) :
    waiterCount (word ^^^ wakeMask toUnactivate waker.isConverting) + 1 =
      waiterCount word := by
  obtain ⟨reader, allowed⟩ := relies
  have flips : toUnactivate = 0 ∨ toUnactivate = lockedBit := by
    cases waker with
    | converting converter => exact .inl allowed.1
    | releasing next => exact allowed
  rcases flips with rfl | rfl
  · cases waker with
    | _ =>
        simp [waiterCount, readWaiterCount, writeWaiterCount, wakeMask,
          Waker.isConverting, reader]
        omega
  · cases waker with
    | _ =>
        simp [waiterCount, readWaiterCount, writeWaiterCount, wakeMask,
          Waker.isConverting, reader]
        omega

end LocalCode

/-- A fetch that keeps the waiter bits. -/
theorem fetch_lowers
    {word : U32}
    {weight bound : Nat}
    {update : U32 → U32}
    {next : U32 → Next}
    (keeps : (Instr.fetch update next).KeepsWaiters word)
    (lowers :
      ∀ after, waiterCount after = waiterCount word →
        (next word).Lowers weight bound after) :
    (Instr.fetch update next).Lowers weight bound word :=
  lowers (update word) (SameWaiters.count keeps)

/-- Each instruction of a thread that is not at rest lowers what is left. -/
theorem Pc.lowers
    {backend : Backend}
    {tolerance : GeneratorTolerance}
    {word : U32}
    {pc : Pc}
    (relies : pc.Relies word)
    (counted : pc.share.units ≤ readerCount word)
    (calm : pc.Calm tolerance word)
    (busy : 0 < pc.weight)
    (awake : pc.weight ≠ 4) :
    (pc.instr backend).Lowers pc.weight (pc.left word) word := by
  have few := waiterCount_le_two word
  cases pc with
  | idle => cases busy
  | slowLoad closures spinWait => cases busy
  | parkedWriter closures => exact absurd rfl awake
  | parkedReader closures => exact absurd rfl awake
  | optimistic call => exact call.optimistic_lowers
  | secondWrite call cur =>
      cases call with
      | _ =>
          exact ⟨fun _ => Next.lowers_of_lt (by simp),
            fun _ => Call.secondFailed_lowers _⟩
  | secondRead call cur =>
      refine ⟨fun _ => Next.lowers_of_lt (by simp), ?_⟩
      intro different
      rw [Pc.left, if_neg (Ne.symm different)]
      exact call.secondReadFailed_lowers (by omega)
  | secondReadLoad closures hint =>
      change Next.Lowers _ _ _ (ite _ _ _)
      split
      case isTrue => exact Next.goto_lowers rfl (by simp)
      case isFalse => exact Next.lowers_of_lt (Nat.succ_pos 4)
  | slowWrite closures spinWait cur =>
      refine ⟨fun _ => Next.lowers_of_lt (by simp), ?_⟩
      intro different
      rw [Pc.left, if_neg (Ne.symm different)]
      exact slowLoop_lowers (by omega)
  | slowWhileReaders closures spinWait cur =>
      constructor
      · rintro rfl
        rw [Pc.left, if_pos rfl]
        exact waitForReaders_lowers .new Nat.le.refl
      · intro different
        rw [Pc.left, if_neg (Ne.symm different)]
        exact slowLoop_lowers (by omega)
  | slowRead closures spinWait cur =>
      refine ⟨fun _ => Next.lowers_of_lt (by simp), ?_⟩
      intro different
      rw [Pc.left, if_neg (Ne.symm different)]
      exact Next.goto_lowers rfl (by simp)
  | slowReadLoad closures spinWait =>
      change Next.Lowers _ _ _ (ite _ _ _)
      split
      case isTrue => exact Next.goto_lowers rfl (by simp)
      case isFalse => exact slowSpin_lowers _ (by simp)
  | setWriteWaiter closures spinWait cur =>
      constructor
      · rintro rfl
        rw [Pc.left, if_pos rfl]
        exact waitAsWriter_lowers (by omega)
      · intro different
        rw [Pc.left, if_neg (Ne.symm different)]
        exact slowLoop_lowers (by omega)
  | setReadWaiter closures spinWait cur =>
      constructor
      · rintro rfl
        rw [Pc.left, if_pos rfl]
        exact waitAsReader_lowers (by omega)
      · intro different
        rw [Pc.left, if_neg (Ne.symm different)]
        exact slowLoop_lowers (by omega)
  | waitReadersLoad closures spinWait inner =>
      change Next.Lowers _ _ _ (ite _ _ _)
      split
      case isTrue => exact Next.lowers_of_lt (by simp)
      case isFalse => exact waitForReaders_lowers inner Nat.le.refl
  | waitReadersCas closures spinWait cur =>
      constructor
      · rintro rfl
        rw [Pc.left, if_pos rfl]
        exact slowSpin_lowers _ (by omega)
      · intro different
        rw [Pc.left, if_neg (Ne.symm different)]
        change Next.Lowers _ _ _ (ite _ _ _)
        split
        case isTrue => exact Next.lowers_of_lt (by simp)
        case isFalse => exact Next.goto_lowers rfl (by simp)
  | writerCountAdd closures cur =>
      exact fun _ =>
        Next.assert_lowers busy fun _ =>
          Next.goto_lowers rfl (by simp)
  | writerWait closures cur =>
      exact ⟨fun _ => Next.lowers_of_lt (Nat.lt_succ_self 4),
        fun _ => Next.goto_lowers rfl (by simp)⟩
  | writerCountSub closures res =>
      intro count
      apply Next.assert_lowers busy
      intro counted
      cases res with
      | true =>
          split
          case isTrue => exact Next.goto_lowers rfl (by simp)
          case isFalse => exact Next.goto_lowers rfl (by simp)
      | false => exact Next.lowers_of_lt (Nat.succ_pos 4)
  | writerOr closures => exact Next.goto_lowers rfl (by simp)
  | writerLoad closures => exact writerWoken_lowers
  | readerWait closures cur =>
      exact ⟨fun _ => Next.lowers_of_lt (Nat.lt_succ_self 4),
        fun _ => Next.lowers_of_lt (Nat.succ_pos 4)⟩
  | readerLoad closures => exact readerWoken_lowers
  | dropLockCas lock next =>
      exact ⟨fun _ => next.resume_lowers busy,
        fun _ => Next.goto_lowers rfl (Nat.lt_succ_self _)⟩
  | dropLockXor lock next =>
      have keeps : ((Pc.dropLockXor lock next).instr backend).KeepsWaiters word :=
        Pc.keepsWaiters rfl relies counted
      apply fetch_lowers keeps
      intro after same
      exact lock.released_lowers next (by rw [same]; exact Nat.lt_succ_self _)
  | convertXor lock cur converter => exact lock.converted_lowers converter
  | dropReadSub lock next =>
      have keeps : ((Pc.dropReadSub lock next).instr backend).KeepsWaiters word :=
        Pc.keepsWaiters rfl relies counted
      apply fetch_lowers keeps
      intro after same
      exact readDropped_lowers next (by rw [same]; exact Nat.lt_succ_self _)
  | transferPrefer cur next =>
      intro fairness
      have near : 12 * waiterCount word + 15 < 12 * waiterCount word + 17 := by
        omega
      dsimp only
      split
      case isTrue => exact transferLoop_lowers .writer next relies.1 near
      case isFalse => exact transferLoop_lowers .readers next relies.1 near
  | transferXor preference cur next =>
      have taken := waiterCount_transferXor relies.1
      apply Next.assert_lowers busy
      intro writer
      apply Next.assert_lowers busy
      intro unlocked
      exact Next.goto_lowers rfl (by simp only [Pc.left]; omega)
  | transferFairness preference cur next =>
      exact fun _ => Next.goto_lowers rfl (Nat.lt_succ_self _)
  | transferWake preference cur next =>
      refine ⟨?_, transferWoken_lowers preference next⟩
      exact next.resume_weight.trans_le (Nat.zero_le 1)
  | transferAnd preference next =>
      have keeps : ((Pc.transferAnd preference next).instr backend).KeepsWaiters word :=
        Pc.keepsWaiters rfl relies counted
      apply fetch_lowers keeps
      intro after same
      simp only [Pc.left, ← same]
      exact transferReleased_lowers preference next
  | wakeXor toUnactivate waker =>
      have taken := waiterCount_wakeXor relies
      exact wakeMarked_lowers waker (by simp only [Pc.left]; omega)
  | wakeFairness waker =>
      exact fun _ => Next.goto_lowers rfl (Nat.lt_succ_self _)
  | wakeCall waker =>
      constructor
      · intro count
        unfold wakeCounted
        split
        case isTrue => exact Nat.le_refl _
        case isFalse => exact Nat.le_refl _
      · exact Next.goto_lowers rfl (Nat.lt_succ_self _)
  | wakeOr count waker =>
      have few := waiterCount_le_two (word ||| readWaiterBit)
      exact Next.goto_lowers rfl (by simp only [Pc.left]; omega)
  | wakeSub count waker =>
      have keeps : ((Pc.wakeSub count waker).instr backend).KeepsWaiters word :=
        Pc.keepsWaiters rfl relies counted
      apply fetch_lowers keeps
      intro after same
      exact waker.woken_lowers (by rw [same]; exact Nat.lt_succ_self _)
  | _ => exact calm.elim

end StaticInit.Sync
