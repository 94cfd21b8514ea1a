import StaticInit.PhaseLocker.Sync.Usage

namespace StaticInit.Sync

/-!
# Nobody waits on a free word

A thread sets a waiter bit only in a word that it saw locked, counted or
waited for.  This rests on the closures of the crate: a thread that asks to
read and fails asks to read still, so the word it saw last was not lockable.
`Pc.Calm` is what each place of the code knows of this.
-/

open LockWord (view)

/-- Somebody holds the word or waits for it. -/
def Busy (word : U32) : Prop :=
  0 < lockCount word + readerCount word +
    (readWaiterCount word + writeWaiterCount word)

theorem busy_of_not_writeLockable
    {word : U32}
    (notLockable : ¬ isWriteLockable word = true) :
    Busy word := by
  rw [isWriteLockable_iff_count] at notLockable
  unfold Busy
  omega

theorem busy_of_not_readLockable
    {word : U32}
    (notLockable : ¬ isReadLockable word = true) :
    Busy word := by
  rw [isReadLockable_iff_count] at notLockable
  unfold Busy
  omega

theorem busy_of_writeWaiter
    {word : U32}
    (waits : (view word).writeWaiter = true) :
    Busy word := by
  have waiting := (waiterCount_pos_iff word).mpr (.inr waits)
  unfold Busy
  omega

section Calm

variable (tolerance : GeneratorTolerance)

def After.Calm : After → Prop
  | .relock closures => CrateClosures tolerance closures
  | _ => True

def Waker.Calm : Waker → Prop
  | .converting _ => True
  | .releasing next => next.Calm tolerance

def Call.Calm : Call → Prop
  | .lock closures _ => CrateClosures tolerance closures
  | .tryLock _ _ => True

/-- The phase a write guard will leave advances the one it found. -/
def Lock.Calm (lock : Lock) : Prop :=
  Advances tolerance lock.initPhase lock.onUnlock

/-- What the code at each place knows of the closures and the words it saw. -/
def Pc.Calm (word : U32) : Pc → Prop
  | .idle => True
  | .optimistic call => call.Calm tolerance
  | .secondWrite call _ => call.Calm tolerance
  | .secondRead call _ => call.Calm tolerance
  | .secondReadLoad closures _ => CrateClosures tolerance closures
  | .slowLoad closures _ => CrateClosures tolerance closures
  | .slowWrite closures _ _ => CrateClosures tolerance closures
  | .slowWhileReaders closures _ _ => CrateClosures tolerance closures
  | .slowRead closures _ _ =>
      CrateClosures tolerance closures ∧
        closures.how (.fromBitsTruncate word) = .read
  | .slowReadLoad closures _ =>
      CrateClosures tolerance closures ∧
        closures.how (.fromBitsTruncate word) = .read
  | .setWriteWaiter closures _ cur =>
      CrateClosures tolerance closures ∧ Busy cur
  | .setReadWaiter closures _ cur =>
      CrateClosures tolerance closures ∧ Busy cur
  | .waitReadersLoad closures _ _ => CrateClosures tolerance closures
  | .waitReadersCas closures _ _ => CrateClosures tolerance closures
  | .writerCountAdd closures _ => CrateClosures tolerance closures
  | .writerWait closures _ => CrateClosures tolerance closures
  | .parkedWriter closures => CrateClosures tolerance closures
  | .writerCountSub closures _ => CrateClosures tolerance closures
  | .writerOr closures => CrateClosures tolerance closures
  | .writerLoad closures => CrateClosures tolerance closures
  | .readerWait closures _ => CrateClosures tolerance closures
  | .parkedReader closures => CrateClosures tolerance closures
  | .readerLoad closures => CrateClosures tolerance closures
  | .dropLockCas lock next => lock.Calm tolerance ∧ next.Calm tolerance
  | .dropLockXor lock next => lock.Calm tolerance ∧ next.Calm tolerance
  | .convertXor lock _ _ => lock.Calm tolerance
  | .dropReadSub _ next => next.Calm tolerance
  | .transferPrefer _ next => next.Calm tolerance
  | .transferXor _ _ next => next.Calm tolerance
  | .transferFairness _ _ next => next.Calm tolerance
  | .transferWake _ _ next => next.Calm tolerance
  | .transferAnd _ next => next.Calm tolerance
  | .wakeXor _ waker => waker.Calm tolerance
  | .wakeFairness waker => waker.Calm tolerance
  | .wakeCall waker => waker.Calm tolerance
  | .wakeOr _ waker => waker.Calm tolerance
  | .wakeSub _ waker => waker.Calm tolerance
  | _ => False

/-- The place or the guards that local code ends with are calm. -/
def Next.Calm (word : U32) : Next → Prop
  | .goto pc => pc.Calm tolerance word
  | .ret result => ∀ lock ∈ result.locks, lock.Calm tolerance
  | .panic _ => True

/-- Every end of an instruction is calm. -/
def Instr.Calm (word : U32) : Instr → Prop
  | .fetch update next => (next word).Calm tolerance (update word)
  | .exchange _ cur new ok err =>
      (word = cur → ok.Calm tolerance new) ∧ (err word).Calm tolerance word
  | .fetchWriterCount _ next =>
      ∀ count, (next count).Calm tolerance word
  | .fetchFairness _ next =>
      ∀ fairness, (next fairness).Calm tolerance word
  | .wait _ parked failed =>
      (Next.goto parked).Calm tolerance word ∧ failed.Calm tolerance word
  | .wakeOneWriter next => ∀ woken, (next woken).Calm tolerance word
  | .wakeReaders next => ∀ count, (next count).Calm tolerance word
  | .rest => True

end Calm

section LocalCode

variable {tolerance : GeneratorTolerance} {word cur : U32}
  {closures : Closures}

theorem Next.assert_calm
    {condition : Bool}
    {assertion : Assertion}
    {next : Next}
    (calm : next.Calm tolerance word) :
    (Next.assert condition assertion next).Calm tolerance word := by
  unfold Next.assert
  split
  case isTrue => exact calm
  case isFalse => trivial

theorem Next.retNone_calm (phase : Phase) :
    (Next.retNone phase).Calm tolerance word :=
  fun _ member => absurd member List.not_mem_nil

theorem Next.retWrite_calm (cur : U32) :
    (Next.retWrite (.new cur)).Calm tolerance word := by
  intro lock member
  obtain rfl := List.mem_singleton.mp member
  exact Advances.refl tolerance _

theorem Next.retRead_calm (lock : ReadLock) :
    (Next.retRead lock).Calm tolerance word :=
  fun _ member => absurd member List.not_mem_nil

theorem Converter.result_calm
    (converter : Converter)
    (guard : ReadLock) :
    (Next.ret (converter.result guard)).Calm tolerance word := by
  intro lock member
  cases converter <;> exact absurd member List.not_mem_nil

theorem After.resume_calm
    {next : After}
    (calm : next.Calm tolerance) :
    next.resume.Calm tolerance word := by
  cases next with
  | done => exact fun _ member => absurd member List.not_mem_nil
  | retNone phase => exact Next.retNone_calm phase
  | relock closures => exact calm

theorem Call.secondFailed_calm
    {call : Call}
    (calm : call.Calm tolerance) :
    call.secondFailed.Calm tolerance word := by
  cases call with
  | lock closures hint => exact calm
  | tryLock how hint => exact fun _ member => absurd member List.not_mem_nil

theorem Call.second_calm
    {call : Call}
    (cur : U32)
    (calm : call.Calm tolerance) :
    (call.second cur).Calm tolerance word := by
  unfold Call.second
  cases call.how (.fromBitsTruncate cur) with
  | write =>
      dsimp only
      split
      case isTrue => exact calm
      case isFalse => exact Call.secondFailed_calm calm
  | read =>
      dsimp only
      split
      case isTrue => exact calm
      case isFalse => exact Call.secondFailed_calm calm
  | none => exact Next.retNone_calm _

theorem Call.secondReadFailed_calm
    {call : Call}
    (cur : U32)
    (calm : call.Calm tolerance) :
    (call.secondReadFailed cur).Calm tolerance word := by
  cases call with
  | lock closures hint => exact calm
  | tryLock how hint =>
      dsimp only [Call.secondReadFailed]
      split
      case isTrue => exact calm
      case isFalse => exact fun _ member => absurd member List.not_mem_nil

theorem slowWaiting_calm
    (spinWait : SpinWait)
    (crate : CrateClosures tolerance closures)
    (busy : Busy cur) :
    (slowWaiting closures spinWait cur).Calm tolerance word := by
  unfold slowWaiting
  cases closures.onWaitingHow (.fromBitsTruncate cur) with
  | none => exact Next.retNone_calm _
  | write =>
      dsimp only
      split
      case isTrue => exact ⟨crate, busy⟩
      case isFalse => exact Next.assert_calm crate
  | read =>
      dsimp only
      split
      case isTrue => exact ⟨crate, busy⟩
      case isFalse => exact Next.assert_calm crate

theorem slowSpin_calm
    (spinWait : SpinWait)
    (condition : Bool)
    (crate : CrateClosures tolerance closures)
    (busy : Busy cur) :
    (slowSpin closures spinWait cur condition).Calm tolerance word := by
  unfold slowSpin
  split
  case isTrue =>
    rcases spinWait.spin with ⟨more, advanced⟩
    cases more with
    | true => exact crate
    | false => exact slowWaiting_calm advanced crate busy
  case isFalse => exact slowWaiting_calm spinWait crate busy

theorem slowLoop_calm
    (spinWait : SpinWait)
    (crate : CrateClosures tolerance closures) :
    (slowLoop closures spinWait word).Calm tolerance word := by
  unfold slowLoop
  cases asks : closures.how (.fromBitsTruncate word) with
  | none => exact Next.retNone_calm _
  | write =>
      dsimp only
      split
      case isTrue =>
        split
        case isTrue => exact crate
        case isFalse => exact crate
      case isFalse notLockable =>
        exact slowSpin_calm spinWait _ crate
          (busy_of_not_writeLockable notLockable)
  | read =>
      dsimp only
      split
      case isTrue => exact ⟨crate, asks⟩
      case isFalse notLockable =>
        exact slowSpin_calm spinWait _ crate
          (busy_of_not_readLockable notLockable)

theorem waitForReaders_calm
    (spinWait inner : SpinWait)
    (cur : U32)
    (crate : CrateClosures tolerance closures) :
    (waitForReaders closures spinWait inner cur).Calm tolerance word := by
  unfold waitForReaders
  rcases inner.spin with ⟨more, advanced⟩
  cases more with
  | true => exact crate
  | false => exact crate

theorem writerWoken_calm
    (closures : Closures)
    (cur : U32) :
    (writerWoken closures cur).Calm tolerance word := by
  apply Next.assert_calm
  cases closures.how (.fromBitsTruncate cur) with
  | write => exact Next.retWrite_calm cur
  | read => exact Advances.refl tolerance _
  | none => exact ⟨Advances.refl tolerance _, trivial⟩

theorem writerWaited_calm
    (res : Bool)
    (crate : CrateClosures tolerance closures) :
    (writerWaited closures res).Calm tolerance word := by
  cases res <;> exact crate

theorem readerWoken_calm
    (cur : U32)
    (crate : CrateClosures tolerance closures) :
    (readerWoken closures cur).Calm tolerance word := by
  apply Next.assert_calm
  cases closures.how (.fromBitsTruncate cur) with
  | write => exact crate
  | read => exact Next.retRead_calm _
  | none => trivial

theorem transferLock_calm
    {next : After}
    (cur : U32)
    (calm : next.Calm tolerance) :
    (transferLock cur next).Calm tolerance word :=
  Next.assert_calm (Next.assert_calm calm)

theorem transferLoop_calm
    {next : After}
    (preference : Preference)
    (cur : U32)
    (calm : next.Calm tolerance) :
    (transferLoop preference cur next).Calm tolerance word := by
  cases preference with
  | writer =>
      dsimp only [transferLoop]
      split
      case isTrue => exact calm
      case isFalse =>
        split
        case isTrue => exact calm
        case isFalse => exact calm
  | readers =>
      dsimp only [transferLoop]
      split
      case isTrue => exact calm
      case isFalse => exact Next.assert_calm calm

theorem transferWoken_calm
    {next : After}
    (preference : Preference)
    (cur : U32)
    (woken : Bool)
    (calm : next.Calm tolerance) :
    (transferWoken preference cur next woken).Calm tolerance word := by
  unfold transferWoken
  split
  case isTrue => exact After.resume_calm calm
  case isFalse =>
    cases preference with
    | writer =>
        dsimp only
        split
        case isTrue => exact calm
        case isFalse => exact calm
    | readers => exact calm

theorem transferReleased_calm
    {next : After}
    (preference : Preference)
    (cur : U32)
    (calm : next.Calm tolerance) :
    (transferReleased preference next cur).Calm tolerance word := by
  apply Next.assert_calm
  split
  case isTrue => exact After.resume_calm calm
  case isFalse => exact transferLoop_calm preference _ calm

theorem Waker.woken_calm
    {waker : Waker}
    (cur : U32)
    (calm : waker.Calm tolerance) :
    (waker.woken cur).Calm tolerance word := by
  cases waker with
  | converting converter => exact converter.result_calm _
  | releasing next => exact calm

theorem readDropped_calm
    {next : After}
    (prev : U32)
    (calm : next.Calm tolerance) :
    (readDropped next prev).Calm tolerance word := by
  unfold readDropped
  split
  case isTrue => exact transferLock_calm _ calm
  case isFalse => exact After.resume_calm calm

theorem Lock.released_calm
    {next : After}
    (lock : Lock)
    (prev : U32)
    (calm : next.Calm tolerance) :
    (lock.released next prev).Calm tolerance word := by
  unfold Lock.released
  split
  case isTrue => exact transferLock_calm _ calm
  case isFalse => exact After.resume_calm calm

theorem Lock.converted_calm
    (lock : Lock)
    (converter : Converter)
    (prev : U32) :
    (lock.converted converter prev).Calm tolerance word := by
  unfold Lock.converted
  split
  case isTrue => trivial
  case isFalse => exact converter.result_calm _

theorem Call.optimistic_calm
    {call : Call}
    (calm : call.Calm tolerance) :
    call.optimistic.Calm tolerance word := by
  unfold Call.optimistic
  cases call.how call.hint with
  | none =>
      change (call.optimisticNone word).Calm tolerance word
      unfold Call.optimisticNone
      split
      case isTrue => exact Next.retNone_calm _
      case isFalse => exact Call.second_calm word calm
  | write =>
      exact ⟨fun _ => Next.retWrite_calm _, Call.second_calm word calm⟩
  | read =>
      exact ⟨fun _ => Next.retRead_calm _, Call.second_calm word calm⟩

end LocalCode

/-- Each instruction of a calm place ends calm. -/
theorem Pc.instr_calm
    {tolerance : GeneratorTolerance}
    {backend : Backend}
    {word : U32}
    {pc : Pc}
    (calm : pc.Calm tolerance word) :
    (pc.instr backend).Calm tolerance word := by
  cases pc with
  | idle => trivial
  | optimistic call => exact Call.optimistic_calm calm
  | secondWrite call cur =>
      cases call with
      | lock closures hint => exact ⟨fun _ => Next.retWrite_calm _, calm⟩
      | tryLock how hint =>
          exact ⟨fun _ => Next.retWrite_calm _,
            Call.secondFailed_calm calm⟩
  | secondRead call cur =>
      exact ⟨fun _ => Next.retRead_calm _,
        Call.secondReadFailed_calm word calm⟩
  | secondReadLoad closures hint =>
      change Next.Calm tolerance word (ite _ _ _)
      split
      case isTrue => exact calm
      case isFalse => exact calm
  | slowLoad closures spinWait => exact slowLoop_calm spinWait calm
  | slowWrite closures spinWait cur =>
      exact ⟨fun _ => Next.retWrite_calm _, slowLoop_calm spinWait calm⟩
  | slowWhileReaders closures spinWait cur =>
      exact ⟨fun _ => waitForReaders_calm spinWait _ _ calm,
        slowLoop_calm spinWait calm⟩
  | slowRead closures spinWait cur =>
      exact ⟨fun _ => Next.retRead_calm _, calm⟩
  | slowReadLoad closures spinWait =>
      change Next.Calm tolerance word (ite _ _ _)
      split
      case isTrue => exact calm
      case isFalse stops =>
        have notLockable : ¬ isReadLockable word = true := by
          intro lockable
          apply stops
          rw [Closures.shallContinue, calm.2, lockable]
          rfl
        exact slowSpin_calm spinWait _ calm.1
          (busy_of_not_readLockable notLockable)
  | setWriteWaiter closures spinWait cur =>
      exact ⟨fun _ => Next.assert_calm calm.1,
        slowLoop_calm spinWait calm.1⟩
  | setReadWaiter closures spinWait cur =>
      exact ⟨fun _ => Next.assert_calm calm.1,
        slowLoop_calm spinWait calm.1⟩
  | waitReadersLoad closures spinWait inner =>
      change Next.Calm tolerance word (ite _ _ _)
      split
      case isTrue => exact Next.retWrite_calm word
      case isFalse => exact waitForReaders_calm spinWait inner word calm
  | waitReadersCas closures spinWait cur =>
      constructor
      · intro _
        apply slowSpin_calm spinWait _ calm
        apply busy_of_writeWaiter
        rw [view_and_not_lockedBit, view_or_writeWaiterBit]
      · change Next.Calm tolerance word (ite _ _ _)
        split
        case isTrue => exact Next.retWrite_calm word
        case isFalse => exact calm
  | writerCountAdd closures cur => exact fun _ => Next.assert_calm calm
  | writerWait closures cur => exact ⟨calm, calm⟩
  | parkedWriter closures => trivial
  | writerCountSub closures res =>
      intro count
      apply Next.assert_calm
      split
      case isTrue => exact calm
      case isFalse => exact writerWaited_calm res calm
  | writerOr closures => exact calm
  | writerLoad closures => exact writerWoken_calm closures word
  | readerWait closures cur => exact ⟨calm, calm⟩
  | parkedReader closures => trivial
  | readerLoad closures => exact readerWoken_calm word calm
  | dropLockCas lock next =>
      exact ⟨fun _ => After.resume_calm calm.2, calm⟩
  | dropLockXor lock next => exact lock.released_calm word calm.2
  | convertXor lock cur converter => exact lock.converted_calm converter word
  | dropReadSub lock next => exact readDropped_calm word calm
  | transferPrefer cur next =>
      intro fairness
      dsimp only
      split
      case isTrue => exact transferLoop_calm .writer cur calm
      case isFalse => exact transferLoop_calm .readers cur calm
  | transferXor preference cur next =>
      exact Next.assert_calm (Next.assert_calm calm)
  | transferFairness preference cur next => exact fun _ => calm
  | transferWake preference cur next =>
      exact fun woken => transferWoken_calm preference cur woken calm
  | transferAnd preference next =>
      exact transferReleased_calm preference word calm
  | wakeXor toUnactivate waker =>
      exact Next.assert_calm (Next.assert_calm (Next.assert_calm calm))
  | wakeFairness waker => exact fun _ => calm
  | wakeCall waker =>
      intro count
      unfold wakeCounted
      split
      case isTrue => exact calm
      case isFalse => exact calm
  | wakeOr count waker => exact calm
  | wakeSub count waker => exact Waker.woken_calm word calm
  | _ => exact calm.elim

/-- What a thread knows. -/
structure Thread.Calm
    (tolerance : GeneratorTolerance)
    (word : U32)
    (thread : Thread) : Prop where
  pc : thread.pc.Calm tolerance word
  locks : ∀ lock ∈ thread.locks, lock.Calm tolerance

theorem Thread.continue_calm
    {tolerance : GeneratorTolerance}
    {word : U32}
    {thread continued : Thread}
    {next : Next}
    (continues : thread.continue next = .ok continued)
    (calm : next.Calm tolerance word)
    (locks : ∀ lock ∈ thread.locks, lock.Calm tolerance) :
    continued.Calm tolerance word := by
  cases next with
  | goto pc =>
      obtain rfl := Except.ok.inj continues
      exact ⟨calm, locks⟩
  | ret result =>
      obtain rfl := Except.ok.inj continues
      refine ⟨trivial, ?_⟩
      intro lock member
      rcases List.mem_append.mp member with given | kept
      · exact calm lock given
      · exact locks lock kept
  | panic assertion => cases continues

/-- What a place knows is kept while the phase advances. -/
theorem Pc.Calm.kept
    {tolerance : GeneratorTolerance}
    {before after : U32}
    {pc : Pc}
    (calm : pc.Calm tolerance before)
    (advances :
      Advances tolerance
        (.fromBitsTruncate before) (.fromBitsTruncate after)) :
    pc.Calm tolerance after := by
  cases pc with
  | slowRead closures spinWait cur =>
      exact ⟨calm.1, calm.1.read_stays advances calm.2⟩
  | slowReadLoad closures spinWait =>
      exact ⟨calm.1, calm.1.read_stays advances calm.2⟩
  | _ => exact calm

theorem Pc.Calm.wokenWriter
    {tolerance : GeneratorTolerance}
    {word : U32}
    {pc woken : Pc}
    (calm : pc.Calm tolerance word)
    (wakes : pc.wokenWriter = some woken) :
    woken.Calm tolerance word := by
  cases pc with
  | parkedWriter closures =>
      obtain rfl := Option.some.inj wakes
      exact calm
  | _ => cases wakes

theorem Pc.Calm.wokenReader
    {tolerance : GeneratorTolerance}
    {word : U32}
    {pc woken : Pc}
    (calm : pc.Calm tolerance word)
    (wakes : pc.wokenReader = some woken) :
    woken.Calm tolerance word := by
  cases pc with
  | parkedReader closures =>
      obtain rfl := Option.some.inj wakes
      exact calm
  | parkedClone guard => exact calm.elim
  | _ => cases wakes

theorem Pc.Calm.interrupted
    {tolerance : GeneratorTolerance}
    {word : U32}
    {pc after : Pc}
    (calm : pc.Calm tolerance word)
    (interrupts : pc.interrupted = some after) :
    after.Calm tolerance word := by
  cases pc with
  | parkedWriter closures =>
      obtain rfl := Option.some.inj interrupts
      exact calm
  | parkedReader closures =>
      obtain rfl := Option.some.inj interrupts
      exact calm
  | parkedClone guard => exact calm.elim
  | _ => cases interrupts

/-- The guard a calm place releases advances the phase. -/
theorem Pc.Calm.released
    {tolerance : GeneratorTolerance}
    {word : U32}
    {pc : Pc}
    {lock : Lock}
    (calm : pc.Calm tolerance word)
    (releases : pc.released word = some lock) :
    lock.Calm tolerance := by
  cases pc with
  | dropLockCas owned next =>
      rw [Pc.released] at releases
      split at releases
      case isTrue =>
        obtain rfl := Option.some.inj releases
        exact calm.1
      case isFalse => cases releases
  | dropLockXor owned next =>
      obtain rfl := Option.some.inj releases
      exact calm.1
  | convertXor owned cur converter =>
      obtain rfl := Option.some.inj releases
      exact calm
  | _ => cases releases

/-- A crate operation starts calm. -/
theorem Thread.Calm.start
    {tolerance : GeneratorTolerance}
    {word : U32}
    {thread started : Thread}
    {op : UserOp}
    (calm : thread.Calm tolerance word)
    (crate : CrateOp tolerance thread op)
    (starts : thread.start op = some started) :
    started.Calm tolerance word := by
  unfold Thread.start at starts
  split at starts
  case h_1 idle =>
    cases crate with
    | lock hint crate =>
        obtain rfl := Option.some.inj starts
        exact ⟨crate, calm.locks⟩
    | tryLock how hint =>
        obtain rfl := Option.some.inj starts
        exact ⟨trivial, calm.locks⟩
    | dropLock index =>
        obtain ⟨lock, found, rfl⟩ := Option.map_eq_some_iff.mp starts
        refine ⟨⟨calm.locks lock (List.mem_of_getElem? found), trivial⟩, ?_⟩
        exact fun other member =>
          calm.locks other (List.mem_of_mem_eraseIdx member)
    | dropReadLock index =>
        obtain ⟨lock, found, rfl⟩ := Option.map_eq_some_iff.mp starts
        exact ⟨trivial, calm.locks⟩
    | convert index =>
        obtain ⟨lock, found, rfl⟩ := Option.map_eq_some_iff.mp starts
        refine ⟨calm.locks lock (List.mem_of_getElem? found), ?_⟩
        exact fun other member =>
          calm.locks other (List.mem_of_mem_eraseIdx member)
    | @setPhase index lock phase found sets =>
        dsimp only at starts
        rw [found] at starts
        obtain rfl := Option.some.inj starts
        refine ⟨calm.pc, ?_⟩
        intro other member
        rcases List.mem_or_eq_of_mem_set member with kept | rfl
        · exact calm.locks other kept
        · exact sets.advances
  case h_2 => cases starts

namespace State

variable {ι : Type} [DecidableEq ι] [Fintype ι]

/-- One step of a locker that is used as the crate uses it. -/
def CrateStep
    (backend : Backend)
    (tolerance : GeneratorTolerance)
    (state : State ι)
    (action : Action ι)
    (after : State ι) : Prop :=
  State.Step backend state action after ∧
    ∀ actor op,
      action = .start actor op →
        CrateOp tolerance (state.thread actor) op

omit [DecidableEq ι] [Fintype ι] in
/-- A calm instruction has calm outcomes. -/
theorem Outcome.calm
    {tolerance : GeneratorTolerance}
    {state : State ι}
    {instr : Instr}
    {word : U32}
    {writerCount : BitVec 32}
    {fairness : BitVec 16}
    {next : Next}
    (outcome : state.Outcome instr word writerCount fairness next)
    (calm : instr.Calm tolerance state.word) :
    next.Calm tolerance word := by
  cases outcome with
  | fetch update next => exact calm
  | exchanged same => exact calm.1 same
  | notExchanged failed => exact calm.2
  | counted update next => exact calm state.writerCount
  | fairness update next => exact calm state.fairness
  | waited same => exact calm.1
  | notWaited => exact calm.2

/-- A crate step leaves its own thread calm. -/
theorem calm_actor
    {backend : Backend}
    {tolerance : GeneratorTolerance}
    {state after : State ι}
    {action : Action ι}
    (calm : ∀ actor, (state.thread actor).Calm tolerance state.word)
    (step : state.CrateStep backend tolerance action after) :
    (after.thread action.actor).Calm tolerance after.word := by
  obtain ⟨step, crate⟩ := step
  unfold State.Step at step
  cases action with
  | start actor op =>
      rw [State.exec, Option.map_eq_some_iff] at step
      obtain ⟨thread, starts, same⟩ := step
      obtain rfl := Except.ok.inj same
      have started :=
        (calm actor).start (crate actor op rfl) starts
      simpa [Action.actor, setThread] using started
  | run actor spurious =>
      obtain ⟨word, writerCount, fairness, next, outcome, finishes⟩ :=
        runInstr_outcome step
      obtain ⟨thread, continues, rfl⟩ := finish_ok finishes.symm
      have ends := outcome.calm (Pc.instr_calm (calm actor).pc)
      have continued :=
        Thread.continue_calm continues ends (calm actor).locks
      simpa [Action.actor, setThread] using continued
  | wake actor picked =>
      have ends :
          ((state.thread actor).pc.instr backend).Calm tolerance
            state.word :=
        Pc.instr_calm (calm actor).pc
      have locks := (calm actor).locks
      rcases wakeInstr_outcome step with
        ⟨next, instr, canWake, finishes⟩ | ⟨next, instr, canWake, finishes⟩
      · rw [instr] at ends
        obtain ⟨thread, continues, rfl⟩ := finish_ok finishes.symm
        rw [wakePicked_self canWake (wokenWriter_none_of_wake instr)]
          at continues
        have continued := Thread.continue_calm continues (ends _) locks
        simpa [Action.actor, setThread, wakePicked] using continued
      · rw [instr] at ends
        obtain ⟨thread, continues, rfl⟩ := finish_ok finishes.symm
        rw [wakePicked_self canWake (wokenReader_none_of_wake instr)]
          at continues
        have continued := Thread.continue_calm continues (ends _) locks
        simpa [Action.actor, setThread, wakePicked] using continued
  | interrupt actor =>
      rw [State.exec, Option.map_eq_some_iff] at step
      obtain ⟨pc, interrupts, same⟩ := step
      obtain rfl := Except.ok.inj same
      have resumed :
          Thread.Calm tolerance state.word
            { state.thread actor with pc := pc } :=
        ⟨(calm actor).pc.interrupted interrupts, (calm actor).locks⟩
      simpa [Action.actor, setThread] using resumed

/-- A released guard advances the phase. -/
theorem phase_advances
    {backend : Backend}
    {tolerance : GeneratorTolerance}
    {state after : State ι}
    {action : Action ι}
    (inv : state.Inv)
    (calm : ∀ actor, (state.thread actor).Calm tolerance state.word)
    (step : State.Step backend state action after) :
    Advances tolerance state.phase after.phase := by
  have change := inv.phase_step step
  cases released : state.released action with
  | none =>
      rw [released] at change
      rw [show after.phase = state.phase from change]
      exact Advances.refl tolerance _
  | some lock =>
      rw [released] at change
      rw [change.1, change.2]
      cases action with
      | run actor spurious => exact (calm actor).pc.released released
      | start actor op => cases released
      | wake actor picked => cases released
      | interrupt actor => cases released

/-- Every step of the crate keeps the threads calm. -/
theorem calm_step
    {backend : Backend}
    {tolerance : GeneratorTolerance}
    {state after : State ι}
    {action : Action ι}
    (inv : state.Inv)
    (calm : ∀ actor, (state.thread actor).Calm tolerance state.word)
    (step : state.CrateStep backend tolerance action after) :
    ∀ actor, (after.thread actor).Calm tolerance after.word := by
  have advances := phase_advances inv calm step.1
  intro other
  by_cases moves : other = action.actor
  · subst moves
    exact calm_actor calm step
  · have kept := (calm other).pc.kept advances
    have locks := (calm other).locks
    rcases step_other step.1 moves with same | ⟨pc, wakes, woken⟩
    · rw [same]
      exact ⟨kept, locks⟩
    · rw [woken]
      exact ⟨wakes.elim kept.wokenWriter kept.wokenReader, locks⟩

end State

end StaticInit.Sync
