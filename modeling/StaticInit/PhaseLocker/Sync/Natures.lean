import StaticInit.PhaseLocker.Natures
import StaticInit.PhaseLocker.Sync.Endings
import StaticInit.PhaseLocker.Sync.Phases

namespace StaticInit.Sync

/-!
# The futex locker honours the natures that the closures ask for

A thread decides on the nature of its lock when it reads the word.  It gets
the lock later: by an exchange that expects that word, after the remaining
readers left, or when another thread wakes it.  `Pc.Honours` says what each
place keeps of the decision until the return.
-/

open LockWord (view)

section Honours

variable (call : Option Call) (shown : Phase → Prop)

/-- The thread is in a call of `lock` with these closures. -/
def Opened (closures : Closures) : Prop :=
  ∃ hint, call = some (.lock closures hint)

/-- The closures ask for a nature at a phase. -/
def Asks (nature : LockNature) (phase : Phase) : Prop :=
  ∃ opened, call = some opened ∧ opened.how phase = nature

def After.Honours : After → Prop
  | .done => True
  | .retNone phase =>
      ∃ opened, call = some opened ∧ shown phase ∧ opened.MayReturnNone phase
  | .relock closures => Opened call closures

def Converter.Honours (phase : Phase) : Converter → Prop
  | .guard => True
  | .woken => Asks call .read phase

def Waker.Honours (phase : Phase) : Waker → Prop
  | .converting converter => converter.Honours call phase
  | .releasing next => next.Honours call shown

/-- What the code at each place keeps of the words it has read. -/
def Pc.Honours (word : U32) : Pc → Prop
  | .optimistic opened => call = some opened
  | .secondWrite opened cur =>
      call = some opened ∧ opened.how (.fromBitsTruncate cur) = .write
  | .secondRead opened cur =>
      call = some opened ∧ opened.how (.fromBitsTruncate cur) = .read
  | .secondReadLoad closures hint => call = some (.lock closures hint)
  | .slowLoad closures _ => Opened call closures
  | .slowWrite closures _ cur =>
      Opened call closures ∧ closures.how (.fromBitsTruncate cur) = .write
  | .slowWhileReaders closures _ cur =>
      Opened call closures ∧ closures.how (.fromBitsTruncate cur) = .write
  | .slowRead closures _ cur =>
      Opened call closures ∧ closures.how (.fromBitsTruncate cur) = .read
  | .slowReadLoad closures _ => Opened call closures
  | .setWriteWaiter closures _ _ => Opened call closures
  | .setReadWaiter closures _ _ => Opened call closures
  | .waitReadersLoad closures _ _ =>
      Opened call closures ∧ closures.how (.fromBitsTruncate word) = .write
  | .waitReadersCas closures _ _ =>
      Opened call closures ∧ closures.how (.fromBitsTruncate word) = .write
  | .writerCountAdd closures _ => Opened call closures
  | .writerWait closures _ => Opened call closures
  | .parkedWriter closures => Opened call closures
  | .writerCountSub closures _ => Opened call closures
  | .writerOr closures => Opened call closures
  | .writerLoad closures => Opened call closures
  | .readerWait closures _ => Opened call closures
  | .parkedReader closures => Opened call closures
  | .readerLoad closures => Opened call closures
  | .dropLockCas _ next => next.Honours call shown
  | .dropLockXor _ next => next.Honours call shown
  | .convertXor lock _ converter => converter.Honours call lock.onUnlock
  | .dropReadSub _ next => next.Honours call shown
  | .transferPrefer _ next => next.Honours call shown
  | .transferXor _ _ next => next.Honours call shown
  | .transferFairness _ _ next => next.Honours call shown
  | .transferWake _ _ next => next.Honours call shown
  | .transferAnd _ next => next.Honours call shown
  | .wakeXor _ waker => waker.Honours call shown (.fromBitsTruncate word)
  | .wakeFairness waker => waker.Honours call shown (.fromBitsTruncate word)
  | .wakeCall waker => waker.Honours call shown (.fromBitsTruncate word)
  | .wakeOr _ waker => waker.Honours call shown (.fromBitsTruncate word)
  | .wakeSub _ waker => waker.Honours call shown (.fromBitsTruncate word)
  | _ => True

/-- The result of `lock` or `try_lock` agrees with the closures of the call. -/
def Result.Honours (word : U32) : Result → Prop
  | .locked (some result) =>
      ∃ opened,
        call = some opened ∧
          opened.Agrees (.fromBitsTruncate word) shown result
  | _ => True

/-- The place or the result that local code ends with, at the word it leaves. -/
def Next.Honours (word : U32) : Next → Prop
  | .goto pc => pc.Honours call shown word
  | .ret result => result.Honours call shown word
  | .panic _ => True

end Honours

section LocalCode

variable {call : Option Call} {shown : Phase → Prop} {word cur : U32}
  {closures : Closures}

theorem Opened.asks
    {nature : LockNature}
    {phase : Phase}
    (opened : Opened call closures)
    (how : closures.how phase = nature) :
    Asks call nature phase := by
  obtain ⟨hint, same⟩ := opened
  exact ⟨_, same, how⟩

theorem Next.assert_honours
    {condition : Bool}
    {assertion : Assertion}
    {next : Next}
    (honours : next.Honours call shown word) :
    (Next.assert condition assertion next).Honours call shown word := by
  unfold Next.assert
  split
  case isTrue => exact honours
  case isFalse => trivial

theorem Next.retNone_honours
    {phase : Phase}
    {opened : Call}
    (same : call = some opened)
    (now : shown phase)
    (may : opened.MayReturnNone phase) :
    (Next.retNone phase).Honours call shown word :=
  ⟨opened, same, now, may⟩

theorem Next.retWrite_honours
    {lock : Lock}
    (asks : Asks call .write (.fromBitsTruncate word)) :
    (Next.retWrite lock).Honours call shown word :=
  asks

theorem Next.retRead_honours
    {lock : ReadLock}
    (asks : Asks call .read (.fromBitsTruncate word)) :
    (Next.retRead lock).Honours call shown word :=
  asks

theorem After.resume_honours
    {next : After}
    (honours : next.Honours call shown) :
    next.resume.Honours call shown word := by
  cases next with
  | done => trivial
  | retNone phase =>
      obtain ⟨opened, same, now, may⟩ := honours
      exact Next.retNone_honours same now may
  | relock closures => exact honours

theorem Call.secondFailed_honours
    {opened : Call}
    (same : call = some opened) :
    opened.secondFailed.Honours call shown word := by
  cases opened with
  | lock closures hint => exact ⟨hint, same⟩
  | tryLock how hint => trivial

theorem Call.second_honours
    {opened : Call}
    (same : call = some opened)
    (now : shown (.fromBitsTruncate cur)) :
    (opened.second cur).Honours call shown word := by
  unfold Call.second
  split
  case h_1 write =>
    split
    case isTrue => exact ⟨same, write⟩
    case isFalse => exact Call.secondFailed_honours same
  case h_2 read =>
    split
    case isTrue => exact ⟨same, read⟩
    case isFalse => exact Call.secondFailed_honours same
  case h_3 none =>
    exact Next.retNone_honours same now (Call.mayReturnNone_of_how none)

theorem Call.optimisticNone_honours
    {opened : Call}
    (same : call = some opened)
    (now : shown (.fromBitsTruncate cur)) :
    (opened.optimisticNone cur).Honours call shown word := by
  unfold Call.optimisticNone
  split
  case isTrue none =>
    exact Next.retNone_honours same now (Call.mayReturnNone_of_how none)
  case isFalse => exact Call.second_honours same now

theorem Call.secondReadFailed_honours
    {opened : Call}
    (same : call = some opened) :
    (opened.secondReadFailed cur).Honours call shown word := by
  cases opened with
  | lock closures hint => exact same
  | tryLock how hint =>
      unfold Call.secondReadFailed
      dsimp only
      split
      case isTrue reads => exact ⟨same, reads.1⟩
      case isFalse => exact Call.secondFailed_honours same

theorem slowWaiting_honours
    {spinWait : SpinWait}
    (opened : Opened call closures)
    (now : shown (.fromBitsTruncate cur)) :
    (slowWaiting closures spinWait cur).Honours call shown word := by
  unfold slowWaiting
  split
  case h_1 none =>
    obtain ⟨hint, same⟩ := opened
    exact Next.retNone_honours same now (.inr none)
  case h_2 =>
    split
    case isTrue => exact opened
    case isFalse => exact Next.assert_honours opened
  case h_3 =>
    split
    case isTrue => exact opened
    case isFalse => exact Next.assert_honours opened

theorem slowSpin_honours
    {spinWait : SpinWait}
    {condition : Bool}
    (opened : Opened call closures)
    (now : shown (.fromBitsTruncate cur)) :
    (slowSpin closures spinWait cur condition).Honours call shown word := by
  unfold slowSpin
  split
  case isTrue =>
    split
    case h_1 => exact opened
    case h_2 => exact slowWaiting_honours opened now
  case isFalse => exact slowWaiting_honours opened now

theorem slowLoop_honours
    {spinWait : SpinWait}
    (opened : Opened call closures)
    (now : shown (.fromBitsTruncate cur)) :
    (slowLoop closures spinWait cur).Honours call shown word := by
  unfold slowLoop
  split
  case h_1 none =>
    obtain ⟨hint, same⟩ := opened
    exact Next.retNone_honours same now (.inl none)
  case h_2 write =>
    split
    case isTrue =>
      split
      case isTrue => exact ⟨opened, write⟩
      case isFalse => exact ⟨opened, write⟩
    case isFalse => exact slowSpin_honours opened now
  case h_3 read =>
    split
    case isTrue => exact ⟨opened, read⟩
    case isFalse => exact slowSpin_honours opened now

/-- The loads in the read loops of `lock`. -/
theorem shallContinue_how
    (continues : closures.shallContinue cur = true) :
    closures.how (.fromBitsTruncate cur) = .read := by
  rw [Closures.shallContinue, Bool.and_eq_true, beq_iff_eq] at continues
  exact continues.1

theorem waitForReaders_honours
    {spinWait inner : SpinWait}
    (opened : Opened call closures)
    (write : closures.how (.fromBitsTruncate word) = .write) :
    (waitForReaders closures spinWait inner cur).Honours
      call shown word := by
  unfold waitForReaders
  split
  case h_1 => exact ⟨opened, write⟩
  case h_2 => exact ⟨opened, write⟩

theorem writerWoken_honours
    (opened : Opened call closures)
    (now : shown (.fromBitsTruncate word)) :
    (writerWoken closures word).Honours call shown word := by
  apply Next.assert_honours
  split
  case h_1 write => exact Next.retWrite_honours (opened.asks write)
  case h_2 read => exact opened.asks read
  case h_3 none =>
    obtain ⟨hint, same⟩ := opened
    exact ⟨_, same, now, .inl none⟩

theorem writerWaited_honours
    {res : Bool}
    (opened : Opened call closures) :
    (writerWaited closures res).Honours call shown word := by
  unfold writerWaited
  split
  case isTrue => exact opened
  case isFalse => exact opened

theorem readerWoken_honours
    (opened : Opened call closures)
    (now : shown (.fromBitsTruncate word)) :
    (readerWoken closures word).Honours call shown word := by
  apply Next.assert_honours
  split
  case h_1 read => exact Next.retRead_honours (opened.asks read)
  case h_2 none =>
    obtain ⟨hint, same⟩ := opened
    exact ⟨_, same, now, .inl none⟩
  case h_3 => exact opened

theorem transferLock_honours
    {next : After}
    (honours : next.Honours call shown) :
    (transferLock cur next).Honours call shown word :=
  Next.assert_honours (Next.assert_honours honours)

theorem transferLoop_honours
    {preference : Preference}
    {next : After}
    (honours : next.Honours call shown) :
    (transferLoop preference cur next).Honours call shown word := by
  cases preference with
  | writer =>
      unfold transferLoop
      dsimp only
      split
      case isTrue => exact honours
      case isFalse =>
        split
        case isTrue => exact honours
        case isFalse => exact honours
  | readers =>
      unfold transferLoop
      dsimp only
      split
      case isTrue => exact honours
      case isFalse => exact Next.assert_honours honours

theorem transferWoken_honours
    {preference : Preference}
    {next : After}
    {woken : Bool}
    (honours : next.Honours call shown) :
    (transferWoken preference cur next woken).Honours call shown word := by
  unfold transferWoken
  split
  case isTrue => exact After.resume_honours honours
  case isFalse =>
    cases preference with
    | writer =>
        dsimp only
        split
        case isTrue => exact honours
        case isFalse => exact honours
    | readers => exact honours

theorem transferReleased_honours
    {preference : Preference}
    {next : After}
    (honours : next.Honours call shown) :
    (transferReleased preference next cur).Honours call shown word := by
  apply Next.assert_honours
  split
  case isTrue => exact After.resume_honours honours
  case isFalse => exact transferLoop_honours honours

theorem Converter.result_honours
    {converter : Converter}
    {guard : ReadLock}
    (honours : converter.Honours call (.fromBitsTruncate word)) :
    (converter.result guard).Honours call shown word := by
  cases converter with
  | guard => trivial
  | woken => exact honours

theorem Waker.woken_honours
    {waker : Waker}
    (honours : waker.Honours call shown (.fromBitsTruncate word)) :
    (waker.woken cur).Honours call shown word := by
  cases waker with
  | converting converter => exact Converter.result_honours honours
  | releasing next => exact honours

theorem readDropped_honours
    {next : After}
    (honours : next.Honours call shown) :
    (readDropped next cur).Honours call shown word := by
  unfold readDropped
  split
  case isTrue => exact transferLock_honours honours
  case isFalse => exact After.resume_honours honours

theorem Lock.released_honours
    {lock : Lock}
    {next : After}
    (honours : next.Honours call shown) :
    (lock.released next cur).Honours call shown word := by
  unfold Lock.released
  split
  case isTrue => exact transferLock_honours honours
  case isFalse => exact After.resume_honours honours

theorem Lock.converted_honours
    {lock : Lock}
    {converter : Converter}
    (honours : converter.Honours call (.fromBitsTruncate word)) :
    (lock.converted converter cur).Honours call shown word := by
  unfold Lock.converted
  split
  case isTrue => exact honours
  case isFalse => exact Converter.result_honours honours

theorem cloneLoop_honours
    {guard : ReadLock}
    {spinWait : SpinWait} :
    (cloneLoop guard spinWait cur).Honours call shown word := by
  unfold cloneLoop
  split
  case isTrue => trivial
  case isFalse =>
    unfold cloneFull
    split
    case isTrue =>
      split
      case h_1 => trivial
      case h_2 => trivial
    case isFalse => trivial

theorem Call.optimistic_honours
    {opened : Call}
    (same : call = some opened)
    (now : shown (.fromBitsTruncate word)) :
    opened.optimistic.Ends word
      fun after next => next.Honours call shown after := by
  unfold Call.optimistic
  split
  case h_1 => exact Call.optimisticNone_honours same now
  case h_2 write =>
    refine ⟨fun _ => Next.retWrite_honours ⟨opened, same, ?_⟩,
      Call.second_honours same now⟩
    rw [fromBitsTruncate_or_lockedBit, Phase.fromBitsTruncate_bits]
    exact write
  case h_3 read =>
    refine ⟨fun _ => Next.retRead_honours ⟨opened, same, ?_⟩,
      Call.second_honours same now⟩
    rw [fromBitsTruncate_add_readerUnity, Phase.fromBitsTruncate_bits]
    exact read

theorem Call.secondWrite_honours
    {opened : Call}
    (same : call = some opened)
    (write : opened.how (.fromBitsTruncate cur) = .write) :
    (opened.secondWrite cur).Ends word
      fun after next => next.Honours call shown after := by
  have asks : Asks call .write (.fromBitsTruncate (cur ||| lockedBit)) := by
    rw [fromBitsTruncate_or_lockedBit]
    exact ⟨opened, same, write⟩
  cases opened with
  | lock closures hint =>
      exact ⟨fun _ => Next.retWrite_honours asks,
        Call.secondFailed_honours same⟩
  | tryLock how hint =>
      exact ⟨fun _ => Next.retWrite_honours asks,
        Call.secondFailed_honours same⟩

/-- What a waker keeps while the word changes without its phase. -/
theorem waker_honours_kept
    {waker : Waker}
    {after : U32}
    (kept : (view after).phase = (view word).phase)
    (honours : waker.Honours call shown (.fromBitsTruncate word)) :
    waker.Honours call shown (.fromBitsTruncate after) := by
  change waker.Honours call shown (view after).phase
  rw [kept]
  exact honours

/-- Every end of an instruction honours the closures if its place does. -/
theorem Pc.instr_honours
    {backend : Backend}
    {pc : Pc}
    (relies : pc.Relies word)
    (now : shown (.fromBitsTruncate word))
    (honours : pc.Honours call shown word) :
    (pc.instr backend).Ends word
      fun after next => next.Honours call shown after := by
  cases pc with
  | idle => trivial
  | optimistic opened => exact Call.optimistic_honours honours now
  | secondWrite opened cur =>
      exact Call.secondWrite_honours honours.1 honours.2
  | secondRead opened cur =>
      refine ⟨fun _ => Next.retRead_honours ⟨opened, honours.1, ?_⟩,
        Call.secondReadFailed_honours honours.1⟩
      rw [fromBitsTruncate_add_readerUnity]
      exact honours.2
  | secondReadLoad closures hint =>
      change Next.Honours call shown word (if _ then _ else _)
      split
      case isTrue continues =>
        exact ⟨honours, shallContinue_how continues⟩
      case isFalse => exact ⟨hint, honours⟩
  | slowLoad closures spinWait => exact slowLoop_honours honours now
  | slowWrite closures spinWait cur =>
      refine ⟨fun _ => Next.retWrite_honours (honours.1.asks ?_),
        slowLoop_honours honours.1 now⟩
      rw [fromBitsTruncate_or_lockedBit]
      exact honours.2
  | slowWhileReaders closures spinWait cur =>
      refine ⟨fun _ => waitForReaders_honours honours.1 ?_,
        slowLoop_honours honours.1 now⟩
      rw [fromBitsTruncate_or_lockedBit]
      exact honours.2
  | slowRead closures spinWait cur =>
      refine ⟨fun _ => Next.retRead_honours (honours.1.asks ?_), honours.1⟩
      rw [fromBitsTruncate_add_readerUnity]
      exact honours.2
  | slowReadLoad closures spinWait =>
      change Next.Honours call shown word (if _ then _ else _)
      split
      case isTrue continues =>
        exact ⟨honours, shallContinue_how continues⟩
      case isFalse => exact slowSpin_honours honours now
  | setWriteWaiter closures spinWait cur =>
      exact ⟨fun _ => Next.assert_honours honours,
        slowLoop_honours honours now⟩
  | setReadWaiter closures spinWait cur =>
      exact ⟨fun _ => Next.assert_honours honours,
        slowLoop_honours honours now⟩
  | waitReadersLoad closures spinWait inner =>
      change Next.Honours call shown word (if _ then _ else _)
      split
      case isTrue =>
        exact Next.retWrite_honours (honours.1.asks honours.2)
      case isFalse => exact waitForReaders_honours honours.1 honours.2
  | waitReadersCas closures spinWait cur =>
      constructor
      · rintro rfl
        apply slowSpin_honours honours.1
        have kept :
            Phase.fromBitsTruncate
                ((word ||| writeWaiterBit) &&& ~~~lockedBit) =
              Phase.fromBitsTruncate word := by
          change (view ((word ||| writeWaiterBit) &&& ~~~lockedBit)).phase = _
          rw [view_and_not_lockedBit, view_or_writeWaiterBit]
          rfl
        rw [kept]
        exact now
      · dsimp only
        split
        case isTrue =>
          exact Next.retWrite_honours (honours.1.asks honours.2)
        case isFalse => exact honours
  | writerCountAdd closures cur =>
      exact fun _ => Next.assert_honours honours
  | writerWait closures cur => exact ⟨honours, honours⟩
  | parkedWriter closures => trivial
  | writerCountSub closures res =>
      intro count
      apply Next.assert_honours
      split
      case isTrue => exact honours
      case isFalse => exact writerWaited_honours honours
  | writerOr closures =>
      change Next.Honours call shown (word ||| writeWaiterBit)
        (writerWaited closures true)
      exact writerWaited_honours honours
  | writerLoad closures => exact writerWoken_honours honours now
  | readerWait closures cur => exact ⟨honours, honours⟩
  | parkedReader closures => trivial
  | readerLoad closures => exact readerWoken_honours honours now
  | dropLockCas lock next =>
      exact ⟨fun _ => After.resume_honours honours, honours⟩
  | dropLockXor lock next => exact Lock.released_honours honours
  | convertXor lock cur converter =>
      apply Lock.converted_honours
      have after :
          Phase.fromBitsTruncate (word ^^^ lock.convertMask cur) =
            lock.onUnlock := by
        change (view (word ^^^ lock.convertMask cur)).phase = _
        simp [Lock.convertMask, relies.2]
      rw [after]
      exact honours
  | dropReadSub lock next => exact readDropped_honours honours
  | transferPrefer cur next =>
      intro fairness
      dsimp only
      split
      case isTrue => exact transferLoop_honours honours
      case isFalse => exact transferLoop_honours honours
  | transferXor preference cur next =>
      exact Next.assert_honours (Next.assert_honours honours)
  | transferFairness preference cur next => exact fun _ => honours
  | transferWake preference cur next =>
      exact fun _ => transferWoken_honours honours
  | transferAnd preference next => exact transferReleased_honours honours
  | wakeXor toUnactivate waker =>
      have kept :
          ((Pc.wakeXor toUnactivate waker).instr backend).KeepsPhase word :=
        Pc.keepsPhase relies rfl
      apply Next.assert_honours
      apply Next.assert_honours
      apply Next.assert_honours
      exact waker_honours_kept kept honours
  | wakeFairness waker => exact fun _ => honours
  | wakeCall waker =>
      intro count
      unfold wakeCounted
      split
      case isTrue => exact honours
      case isFalse => exact honours
  | wakeOr count waker =>
      have kept : ((Pc.wakeOr count waker).instr backend).KeepsPhase word :=
        Pc.keepsPhase relies rfl
      exact waker_honours_kept kept honours
  | wakeSub count waker =>
      have kept : ((Pc.wakeSub count waker).instr backend).KeepsPhase word :=
        Pc.keepsPhase relies rfl
      exact Waker.woken_honours (waker_honours_kept kept honours)
  | cloneLoad guard spinWait => exact cloneLoop_honours
  | cloneCas guard spinWait cur => exact ⟨fun _ => trivial, trivial⟩
  | cloneReadLoad guard spinWait => exact cloneLoop_honours
  | cloneSetWaiter guard spinWait cur =>
      exact ⟨fun _ => trivial, cloneLoop_honours⟩
  | cloneWait guard cur => exact ⟨trivial, trivial⟩
  | parkedClone guard => trivial
  | cloneWoken guard => exact Next.assert_honours trivial

end LocalCode

/-- The call that an operation starts. -/
def UserOp.call : UserOp → Option Call
  | .lock closures hint => some (.lock closures hint)
  | .tryLock how hint => some (.tryLock how hint)
  | _ => none

section Threads

variable {call : Option Call} {shown more : Phase → Prop} {word : U32}

theorem After.Honours.mono
    {next : After}
    (honours : next.Honours call shown)
    (wider : ∀ found, shown found → more found) :
    next.Honours call more := by
  cases next with
  | done => trivial
  | retNone phase =>
      obtain ⟨opened, same, now, may⟩ := honours
      exact ⟨opened, same, wider phase now, may⟩
  | relock closures => exact honours

theorem Waker.Honours.mono
    {waker : Waker}
    {phase : Phase}
    (honours : waker.Honours call shown phase)
    (wider : ∀ found, shown found → more found) :
    waker.Honours call more phase := by
  cases waker with
  | converting converter => exact honours
  | releasing next => exact After.Honours.mono honours wider

/-- A place also honours the closures when more phases have been shown. -/
theorem Pc.Honours.mono
    {pc : Pc}
    (honours : pc.Honours call shown word)
    (wider : ∀ found, shown found → more found) :
    pc.Honours call more word := by
  cases pc with
  | dropLockCas lock next => exact After.Honours.mono honours wider
  | dropLockXor lock next => exact After.Honours.mono honours wider
  | dropReadSub lock next => exact After.Honours.mono honours wider
  | transferPrefer cur next => exact After.Honours.mono honours wider
  | transferXor preference cur next => exact After.Honours.mono honours wider
  | transferFairness preference cur next =>
      exact After.Honours.mono honours wider
  | transferWake preference cur next => exact After.Honours.mono honours wider
  | transferAnd preference next => exact After.Honours.mono honours wider
  | wakeXor toUnactivate waker => exact Waker.Honours.mono honours wider
  | wakeFairness waker => exact Waker.Honours.mono honours wider
  | wakeCall waker => exact Waker.Honours.mono honours wider
  | wakeOr count waker => exact Waker.Honours.mono honours wider
  | wakeSub count waker => exact Waker.Honours.mono honours wider
  | _ => exact honours

/-- The places whose decision speaks of the word hold the lock in some way. -/
theorem Pc.Honours.kept
    {pc : Pc}
    {after : U32}
    (honours : pc.Honours call shown word)
    (phase : 0 < pc.share.held → (view after).phase = (view word).phase) :
    pc.Honours call shown after := by
  cases pc with
  | waitReadersLoad closures spinWait inner =>
      refine ⟨honours.1, ?_⟩
      change closures.how (view after).phase = .write
      rw [phase Nat.one_pos]
      exact honours.2
  | waitReadersCas closures spinWait cur =>
      refine ⟨honours.1, ?_⟩
      change closures.how (view after).phase = .write
      rw [phase Nat.one_pos]
      exact honours.2
  | wakeXor toUnactivate waker =>
      apply waker_honours_kept (phase _) honours
      cases waker with
      | converting converter => exact Nat.one_pos
      | releasing next =>
          change 0 < (if _ then _ else _ : Share).held
          split
          case isTrue => exact Nat.one_pos
          case isFalse => exact Nat.one_pos
  | wakeFairness waker =>
      exact waker_honours_kept (phase (by simp [Pc.share, Share.held])) honours
  | wakeCall waker =>
      exact waker_honours_kept (phase (by simp [Pc.share, Share.held])) honours
  | wakeOr count waker =>
      exact waker_honours_kept (phase (by simp [Pc.share, Share.held])) honours
  | wakeSub count waker =>
      exact waker_honours_kept (phase (by simp [Pc.share, Share.held])) honours
  | _ => exact honours

theorem Pc.Honours.interrupted
    {pc after : Pc}
    (honours : pc.Honours call shown word)
    (interrupts : pc.interrupted = some after) :
    after.Honours call shown word := by
  cases pc with
  | parkedWriter closures =>
      obtain rfl := Option.some.inj interrupts
      exact honours
  | parkedReader closures =>
      obtain rfl := Option.some.inj interrupts
      exact honours
  | parkedClone guard =>
      obtain rfl := Option.some.inj interrupts
      trivial
  | _ => cases interrupts

theorem Pc.Honours.woken
    {pc after : Pc}
    (honours : pc.Honours call shown word)
    (wakes : pc.wokenWriter = some after ∨ pc.wokenReader = some after) :
    after.Honours call shown word := by
  cases pc with
  | parkedWriter closures =>
      obtain rfl := Option.some.inj (wakes.resolve_right nofun)
      exact honours
  | parkedReader closures =>
      obtain rfl := Option.some.inj (wakes.resolve_left nofun)
      exact honours
  | parkedClone guard =>
      obtain rfl := Option.some.inj (wakes.resolve_left nofun)
      trivial
  | _ => exact wakes.elim nofun nofun

/-- Started operations: a call has read nothing, the others keep nothing. -/
theorem Thread.start_honours
    {thread started : Thread}
    {op : UserOp}
    (starts : thread.start op = some started)
    (calls : ∀ opened, op.call = some opened → call = some opened) :
    started.pc.Honours call shown word := by
  unfold Thread.start at starts
  split at starts
  case h_1 idle =>
    cases op with
    | lock closures hint =>
        obtain rfl := Option.some.inj starts
        exact calls _ rfl
    | tryLock how hint =>
        obtain rfl := Option.some.inj starts
        exact calls _ rfl
    | dropLock index =>
        obtain ⟨lock, found, rfl⟩ := Option.map_eq_some_iff.mp starts
        trivial
    | dropReadLock index =>
        obtain ⟨lock, found, rfl⟩ := Option.map_eq_some_iff.mp starts
        trivial
    | clone index =>
        obtain ⟨lock, found, rfl⟩ := Option.map_eq_some_iff.mp starts
        trivial
    | convert index =>
        obtain ⟨lock, found, rfl⟩ := Option.map_eq_some_iff.mp starts
        trivial
    | setPhase index phase =>
        obtain ⟨lock, found, rfl⟩ := Option.map_eq_some_iff.mp starts
        rw [idle]
        trivial
  case h_2 => cases starts

theorem Thread.continue_honours
    {thread continued : Thread}
    {next : Next}
    (continues : thread.continue next = .ok continued)
    (honours : next.Honours call shown word) :
    continued.pc.Honours call shown word := by
  cases next with
  | goto pc =>
      obtain rfl := Except.ok.inj continues
      exact honours
  | ret result =>
      obtain rfl := Except.ok.inj continues
      trivial
  | panic assertion => cases continues

end Threads

namespace State

variable {ι : Type} [DecidableEq ι]

/-- The call that an action starts in a thread. -/
def called (actor : ι) : Action ι → Option Call
  | .start starter op => if starter = actor then op.call else none
  | _ => none

/-- The result of `lock` or `try_lock` that an action returns. -/
def returned
    (backend : Backend)
    (state : State ι)
    (action : Action ι) : Option (ι × LockResult ReadLock Lock) :=
  match state.ending backend action with
  | some (.ret (.locked (some result))) => some (action.actor, result)
  | _ => none

variable [Fintype ι]

/-- The futex locker, as its callers see it. -/
def system (ι : Type) [DecidableEq ι] [Fintype ι] (backend : Backend) :
    LockerSystem ι (State ι) (Action ι) where
  step := State.Step backend
  called := State.called
  returned := State.returned backend
  phase := State.phase

/-- Nobody changes the phase while a thread holds the lock in some way. -/
theorem Inv.phase_kept
    {backend : Backend}
    {state after : State ι}
    {action : Action ι}
    {other : ι}
    (inv : state.Inv)
    (step : State.Step backend state action after)
    (different : other ≠ action.actor)
    (holds : 0 < (state.thread other).pc.share.held) :
    after.phase = state.phase := by
  have change := inv.phase_step step
  cases released : state.released action with
  | none =>
      rw [released] at change
      exact change
  | some lock =>
      exfalso
      have owner : 1 ≤ (state.thread action.actor).pc.share.owner := by
        cases action with
        | start actor op => cases released
        | wake actor picked => cases released
        | interrupt actor => cases released
        | run actor spurious =>
            change (state.thread actor).pc.released state.word = _ at released
            change 1 ≤ (state.thread actor).pc.share.owner
            cases place : (state.thread actor).pc with
            | dropLockCas lock next => exact Nat.le_refl 1
            | dropLockXor lock next => exact Nat.le_refl 1
            | convertXor lock cur converter => exact Nat.le_refl 1
            | _ =>
                rw [place] at released
                cases released
      have ledger := inv.ledgerOf action.actor
      have one := lockCount_le_one state.word
      have locked := ledger.locked
      have sole := ledger.sole
      have alone := ledger.alone
      have lower := state.share_le_rest different
      simp only [Share.units_add, Share.owner_add, Share.passing_add,
        Share.pending_add] at locked sole alone
      rw [Share.le_iff, Thread.share] at lower
      simp only [Share.units_add, Share.owner_add, Share.passing_add,
        Share.pending_add] at lower
      rw [Share.held] at holds
      omega

/-- A thread that starts a call has read nothing yet. -/
theorem opens_honours
    {backend : Backend}
    {state after : State ι}
    {action : Action ι}
    {actor : ι}
    {call : Call}
    (shown : Phase → Prop)
    (step : State.Step backend state action after)
    (called : State.called actor action = some call) :
    (after.thread actor).pc.Honours (some call) shown after.word := by
  cases actorStep step with
  | @start starter op thread starts result =>
      rw [State.called] at called
      split at called
      case isTrue same =>
        subst same result
        rw [setThread_self]
        apply Thread.start_honours starts
        intro opened calls
        rw [← called, calls]
      case isFalse => cases called
  | interrupt interrupts result => cases called
  | @instruction action next ending continues ends =>
      cases action with
      | start starter op => cases ending
      | run starter spurious => cases called
      | wake starter picked => cases called
      | interrupt starter => cases called

omit [DecidableEq ι] in
/-- The instruction of a thread honours the closures of its call. -/
theorem Inv.ends_honours
    {backend : Backend}
    {state : State ι}
    {actor : ι}
    {after : U32}
    {next : Next}
    {call : Option Call}
    {shown : Phase → Prop}
    (inv : state.Inv)
    (ends :
      ∀ property : U32 → Next → Prop,
        ((state.thread actor).pc.instr backend).Ends state.word property →
          property after next)
    (now : shown state.phase)
    (honours : (state.thread actor).pc.Honours call shown state.word) :
    next.Honours call shown after :=
  ends (fun after next => next.Honours call shown after)
    (Pc.instr_honours (inv.relies actor).1 now honours)

/-- Every step keeps what the places of the other calls have decided. -/
theorem Inv.kept_honours
    {backend : Backend}
    {state after : State ι}
    {action : Action ι}
    {actor : ι}
    {call : Option Call}
    {shown : Phase → Prop}
    (inv : state.Inv)
    (step : State.Step backend state action after)
    (called : State.called actor action = none)
    (now : shown state.phase)
    (honours : (state.thread actor).pc.Honours call shown state.word) :
    (after.thread actor).pc.Honours call shown after.word := by
  by_cases moves : actor = action.actor
  · subst moves
    cases actorStep step with
    | @start starter op thread starts result =>
        subst result
        have called : op.call = none := (if_pos rfl).symm.trans called
        change ((state.setThread starter thread).thread starter).pc.Honours
          call shown state.word
        rw [setThread_self]
        apply Thread.start_honours starts
        intro opened calls
        rw [calls] at called
        cases called
    | @interrupt interrupted pc interrupts result =>
        subst result
        change ((state.setThread interrupted _).thread interrupted).pc.Honours
          call shown state.word
        rw [setThread_self]
        exact honours.interrupted interrupts
    | instruction ending continues ends =>
        exact Thread.continue_honours continues
          (inv.ends_honours ends now honours)
  · have kept :
        (state.thread actor).pc.Honours call shown after.word :=
      honours.kept fun holds => inv.phase_kept step moves holds
    rcases step_other step moves with same | ⟨pc, wakes, woken⟩
    · rw [same]
      exact kept
    · rw [woken]
      exact kept.woken wakes

/-- A returned result agrees with the closures of the call. -/
theorem Inv.returns_honours
    {backend : Backend}
    {state after : State ι}
    {action : Action ι}
    {actor : ι}
    {call : Option Call}
    {shown : Phase → Prop}
    {result : LockResult ReadLock Lock}
    (inv : state.Inv)
    (step : State.Step backend state action after)
    (returned : state.returned backend action = some (actor, result))
    (now : shown state.phase)
    (honours : (state.thread actor).pc.Honours call shown state.word) :
    ∃ opened,
      call = some opened ∧ opened.Agrees after.phase shown result := by
  unfold State.returned at returned
  split at returned
  case h_1 found ending =>
    obtain ⟨rfl, rfl⟩ := Prod.mk.inj (Option.some.inj returned)
    cases actorStep step with
    | start starts result => cases ending
    | interrupt interrupts result => cases ending
    | instruction reached continues ends =>
        obtain rfl := Option.some.inj (reached.symm.trans ending)
        exact inv.ends_honours ends now honours
  case h_2 => cases returned

/-- Each place of the futex locker keeps what the closures said. -/
theorem keepsPlaces
    (backend : Backend)
    (phase : Phase) :
    (system ι backend).KeepsPlaces (State.init ι phase)
      (fun call shown state actor =>
        (state.thread actor).pc.Honours call shown state.word) where
  mono wider honours := honours.mono wider
  fresh _ _ := trivial
  opens := opens_honours
  kept run step called now honours :=
    (Reachable.inv ⟨phase, _, run⟩).kept_honours step called now honours
  returns run step returned now honours :=
    (Reachable.inv ⟨phase, _, run⟩).returns_honours step returned now honours

end State

end StaticInit.Sync
