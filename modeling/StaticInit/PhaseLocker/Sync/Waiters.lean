import StaticInit.PhaseLocker.Sync.Calm

namespace StaticInit.Sync

/-!
# What the code does to the waiter bits

A waiter bit that an instruction takes away turns into a wake that the same
thread is going to make, and such a wake finds a parked thread, sets the bit
again, or nobody is parked.  Only a futex wait parks a thread.
-/

open LockWord (view)

/-- A wake of a writer is due, or a woken writer will ask for the next one. -/
def Pc.signalsWriter : Pc → Bool
  | .transferFairness .. => true
  | .transferWake .. => true
  | .writerCountSub _ true => true
  | .writerOr _ => true
  | _ => false

/-- A wake of readers is due, or the read waiter bit will be set again. -/
def Pc.signalsReaders : Pc → Bool
  | .wakeFairness _ => true
  | .wakeCall _ => true
  | .wakeOr _ _ => true
  | _ => false

def Pc.parkedAsWriter : Pc → Bool
  | .parkedWriter _ => true
  | _ => false

def Pc.parkedAsReader : Pc → Bool
  | .parkedReader _ => true
  | .parkedClone _ => true
  | _ => false

def Pc.parked (pc : Pc) : Bool :=
  pc.parkedAsWriter || pc.parkedAsReader

/-- The places from which waiters are woken for a lock that is passed on. -/
def Pc.transfers : Pc → Bool
  | .transferPrefer .. => true
  | .transferXor .. => true
  | .transferFairness .. => true
  | .transferWake .. => true
  | .transferAnd .. => true
  | .wakeXor .. => true
  | .wakeFairness _ => true
  | _ => false

/-- The places whose instruction may change a waiter bit. -/
def Pc.touchesWaiters : Pc → Bool
  | .setWriteWaiter .. => true
  | .setReadWaiter .. => true
  | .waitReadersCas .. => true
  | .writerOr _ => true
  | .transferXor .. => true
  | .wakeXor .. => true
  | .wakeOr .. => true
  | .cloneSetWaiter .. => true
  | _ => false

/-- The waiter bits of two words are the same. -/
def SameWaiters (before after : U32) : Prop :=
  (view after).writeWaiter = (view before).writeWaiter ∧
    (view after).readWaiter = (view before).readWaiter

/-- An instruction leaves the waiter bits as they are. -/
def Instr.KeepsWaiters (word : U32) : Instr → Prop
  | .fetch update _ => SameWaiters word (update word)
  | .exchange _ cur new _ _ => SameWaiters cur new
  | _ => True

theorem State.Outcome.same_waiters
    {ι : Type}
    {state : State ι}
    {instr : Instr}
    {word : U32}
    {writerCount : BitVec 32}
    {fairness : BitVec 16}
    {next : Next}
    (outcome : state.Outcome instr word writerCount fairness next)
    (keeps : instr.KeepsWaiters state.word) :
    SameWaiters state.word word := by
  cases outcome with
  | fetch update next => exact keeps
  | exchanged same =>
      rw [same]
      exact keeps
  | notExchanged failed => exact ⟨rfl, rfl⟩
  | counted update next => exact ⟨rfl, rfl⟩
  | fairness update next => exact ⟨rfl, rfl⟩
  | waited same => exact ⟨rfl, rfl⟩
  | notWaited => exact ⟨rfl, rfl⟩

section Keeps

variable {backend : Backend} {word cur : U32}

theorem sameWaiters_locked : SameWaiters cur (cur ||| lockedBit) := by
  constructor
  · rw [view_or_lockedBit]
  · rw [view_or_lockedBit]

theorem sameWaiters_joined
    (room : hasReadersMax cur = false) :
    SameWaiters cur (cur + readerUnity) := by
  constructor
  · rw [view_add_of_room room]
  · rw [view_add_of_room room]

theorem sameWaiters_left
    {units : U32}
    {count : Nat}
    (weight : units.toNat = count * 2 ^ 8)
    (counted : count ≤ readerCount word) :
    SameWaiters word (word - units) := by
  have changed := LockWord.view_sub_units weight counted
  constructor
  · rw [changed]
  · rw [changed]

theorem Call.optimistic_keepsWaiters (call : Call) :
    call.optimistic.KeepsWaiters word := by
  unfold Call.optimistic
  cases call.how call.hint with
  | none => exact ⟨rfl, rfl⟩
  | write => exact sameWaiters_locked
  | read =>
      apply sameWaiters_joined
      rw [← Bool.not_eq_true, hasReadersMax_iff]
      simp [readerCount]

/-- All but a few places leave the waiter bits as they are. -/
theorem Pc.keepsWaiters
    {pc : Pc}
    (quiet : pc.touchesWaiters = false)
    (relies : pc.Relies word)
    (counted : pc.share.units ≤ readerCount word) :
    (pc.instr backend).KeepsWaiters word := by
  cases pc with
  | optimistic call => exact call.optimistic_keepsWaiters
  | secondWrite call cur => cases call <;> exact sameWaiters_locked
  | secondRead call cur => exact sameWaiters_joined (room_of_lockable relies)
  | slowWrite closures spinWait cur => exact sameWaiters_locked
  | slowWhileReaders closures spinWait cur => exact sameWaiters_locked
  | slowRead closures spinWait cur =>
      exact sameWaiters_joined (room_of_lockable relies)
  | dropLockCas lock next =>
      simp [Pc.instr, Instr.KeepsWaiters, SameWaiters]
  | dropLockXor lock next =>
      have changed := view_releaseMask word lock relies
      constructor
      · rw [changed]
      · rw [changed]
  | convertXor lock cur converter =>
      simp [Pc.instr, Instr.fetchXor, Instr.KeepsWaiters, SameWaiters,
        Lock.convertMask]
  | dropReadSub lock next =>
      exact sameWaiters_left
        (show readerUnity.toNat = 1 * 2 ^ 8 from rfl) counted
  | transferAnd preference next =>
      constructor
      · rw [view_and_not_lockedBit]
      · rw [view_and_not_lockedBit]
  | wakeSub count waker =>
      have counted : 1 + (2 ^ 20 - count) ≤ readerCount word := counted
      exact sameWaiters_left (toNat_wakeUnits relies) (by omega)
  | cloneCas guard spinWait cur => exact sameWaiters_joined relies.2
  | secondReadLoad closures hint => exact ⟨rfl, rfl⟩
  | slowLoad closures spinWait => exact ⟨rfl, rfl⟩
  | slowReadLoad closures spinWait => exact ⟨rfl, rfl⟩
  | waitReadersLoad closures spinWait inner => exact ⟨rfl, rfl⟩
  | writerLoad closures => exact ⟨rfl, rfl⟩
  | readerLoad closures => exact ⟨rfl, rfl⟩
  | cloneLoad guard spinWait => exact ⟨rfl, rfl⟩
  | cloneReadLoad guard spinWait => exact ⟨rfl, rfl⟩
  | cloneWoken guard => exact ⟨rfl, rfl⟩
  | setWriteWaiter closures spinWait cur => cases quiet
  | setReadWaiter closures spinWait cur => cases quiet
  | waitReadersCas closures spinWait cur => cases quiet
  | writerOr closures => cases quiet
  | transferXor preference cur next => cases quiet
  | wakeXor toUnactivate waker => cases quiet
  | wakeOr count waker => cases quiet
  | cloneSetWaiter guard spinWait cur => cases quiet
  | _ => trivial

end Keeps

/-- Local code ends at a place with a property; a failed assertion does not return. -/
def Next.At (place : Pc → Bool) : Next → Prop
  | .goto pc => place pc = true
  | .ret _ => False
  | .panic _ => True

theorem Next.assert_at
    {place : Pc → Bool}
    {condition : Bool}
    {assertion : Assertion}
    {next : Next}
    (ends : next.At place) :
    (Next.assert condition assertion next).At place := by
  unfold Next.assert
  split
  case isTrue => exact ends
  case isFalse => trivial

/-- A waiter bit that is taken away becomes a signal. -/
structure WaitersMove (before after : U32) (next : Next) : Prop where
  writeWaiter :
    (view before).writeWaiter = true →
      (view after).writeWaiter = true ∨ next.At Pc.signalsWriter
  readWaiter :
    (view before).readWaiter = true →
      (view after).readWaiter = true ∨ next.At Pc.signalsReaders

namespace WaitersMove

variable {before after : U32} {next : Next}

theorem of_same (same : SameWaiters before after) :
    WaitersMove before after next := by
  constructor
  · intro set
    rw [same.1]
    exact .inl set
  · intro set
    rw [same.2]
    exact .inl set

theorem of_or (mask : U32) :
    WaitersMove before (before ||| mask) next := by
  constructor
  · intro set
    rw [LockWord.view_or]
    simp [set]
  · intro set
    rw [LockWord.view_or]
    simp [set]

end WaitersMove

section Moves

variable
  {ι : Type} {state : State ι} {backend : Backend} {pc : Pc}
  {word : U32} {writerCount : BitVec 32} {fairness : BitVec 16}
  {next : Next}

/-- An exchange that only adds bits. -/
theorem waitersMove_exchange
    {weak : Bool}
    {cur mask : U32}
    {ok : Next}
    {err : U32 → Next}
    (outcome :
      state.Outcome (.exchange weak cur (cur ||| mask) ok err) word
        writerCount fairness next) :
    WaitersMove state.word word next := by
  cases outcome with
  | exchanged same =>
      rw [same]
      exact .of_or mask
  | notExchanged failed => exact .of_same ⟨rfl, rfl⟩

/-- Every instruction moves the waiter bits it takes away. -/
theorem Pc.waitersMove
    (relies : pc.Relies state.word)
    (counted : pc.share.units ≤ readerCount state.word)
    (outcome :
      state.Outcome (pc.instr backend) word writerCount fairness next) :
    WaitersMove state.word word next := by
  cases touches : pc.touchesWaiters with
  | false =>
      exact .of_same
        (outcome.same_waiters (Pc.keepsWaiters touches relies counted))
  | true =>
      cases pc with
      | setWriteWaiter closures spinWait cur =>
          exact waitersMove_exchange outcome
      | setReadWaiter closures spinWait cur =>
          exact waitersMove_exchange outcome
      | cloneSetWaiter guard spinWait cur =>
          exact waitersMove_exchange outcome
      | waitReadersCas closures spinWait cur =>
          cases outcome with
          | exchanged same =>
              rw [same]
              constructor
              · intro set
                rw [view_and_not_lockedBit, view_or_writeWaiterBit]
                exact .inl rfl
              · intro set
                rw [view_and_not_lockedBit, view_or_writeWaiterBit]
                exact .inl set
          | notExchanged failed => exact .of_same ⟨rfl, rfl⟩
      | writerOr closures =>
          cases outcome with
          | fetch => exact .of_or writeWaiterBit
      | wakeOr count waker =>
          cases outcome with
          | fetch => exact .of_or readWaiterBit
      | transferXor preference cur after =>
          cases outcome with
          | fetch =>
              constructor
              · intro set
                right
                exact Next.assert_at (Next.assert_at rfl)
              · intro set
                simp [set]
      | wakeXor toUnactivate waker =>
          cases outcome with
          | fetch =>
              constructor
              · intro set
                left
                obtain ⟨-, allowed⟩ := relies
                cases waker with
                | converting converter =>
                    obtain ⟨rfl, -⟩ := allowed
                    simp [wakeMask, Waker.isConverting, set]
                | releasing after =>
                    rcases allowed with rfl | rfl
                    · simp [wakeMask, Waker.isConverting, set]
                    · simp [wakeMask, Waker.isConverting, set]
              · intro set
                right
                exact Next.assert_at (Next.assert_at (Next.assert_at rfl))
      | _ => cases touches

/-- Who signals a writer goes on to do so, unless no other writer is counted. -/
theorem Pc.signalsWriter_run
    (signals : pc.signalsWriter = true)
    (outcome :
      state.Outcome (pc.instr backend) word writerCount fairness next) :
    (view word).writeWaiter = true ∨ next.At Pc.signalsWriter ∨
      pc.share.counted = 1 ∧ state.writerCount ≤ 1 := by
  cases pc with
  | transferFairness preference cur after =>
      cases outcome with
      | fairness => exact .inr (.inl rfl)
  | transferWake preference cur after => cases outcome
  | writerCountSub closures res =>
      cases res with
      | true =>
          cases outcome with
          | counted =>
              by_cases others : state.writerCount > 1
              · right
                left
                apply Next.assert_at
                simp only [Bool.true_and, decide_eq_true others, if_true]
                rfl
              · exact .inr (.inr ⟨rfl, BitVec.not_lt.mp others⟩)
      | false => cases signals
  | writerOr closures =>
      cases outcome with
      | fetch =>
          left
          rw [view_or_writeWaiterBit]
  | _ => cases signals

/-- Who signals readers goes on to do so. -/
theorem Pc.signalsReaders_run
    (signals : pc.signalsReaders = true)
    (outcome :
      state.Outcome (pc.instr backend) word writerCount fairness next) :
    (view word).readWaiter = true ∨ next.At Pc.signalsReaders := by
  cases pc with
  | wakeFairness waker =>
      cases outcome with
      | fairness => exact .inr rfl
  | wakeCall waker => cases outcome
  | wakeOr count waker =>
      cases outcome with
      | fetch =>
          left
          rw [view_or_readWaiterBit]
  | _ => cases signals

end Moves

/-- Local code does not end in a wait. -/
def Next.Awake : Next → Prop
  | .goto pc => pc.parked = false
  | _ => True

/-- Local code ends neither in a wait nor in a transfer. -/
def Next.Ordinary : Next → Prop
  | .goto pc => pc.parked = false ∧ pc.transfers = false
  | _ => True

/-- Every end of an instruction has a property, but for a successful wait. -/
def Instr.EndsBy (property : Next → Prop) : Instr → Prop
  | .fetch _ next => ∀ word, property (next word)
  | .exchange _ _ _ ok err => property ok ∧ ∀ word, property (err word)
  | .fetchWriterCount _ next => ∀ count, property (next count)
  | .fetchFairness _ next => ∀ fairness, property (next fairness)
  | .wait _ _ failed => property failed
  | .wakeOneWriter next => ∀ woken, property (next woken)
  | .wakeReaders next => ∀ count, property (next count)
  | .rest => True

/-- Only a futex wait ends in a wait. -/
def Instr.ParksByWait : Instr → Prop :=
  Instr.EndsBy Next.Awake

theorem Instr.EndsBy.mono
    {instr : Instr}
    {property wider : Next → Prop}
    (ends : instr.EndsBy property)
    (allowed : ∀ next, property next → wider next) :
    instr.EndsBy wider := by
  cases instr with
  | fetch update next => exact fun word => allowed _ (ends word)
  | exchange weak cur new ok err =>
      exact ⟨allowed _ ends.1, fun word => allowed _ (ends.2 word)⟩
  | fetchWriterCount update next => exact fun count => allowed _ (ends count)
  | fetchFairness update next =>
      exact fun fairness => allowed _ (ends fairness)
  | wait value parked failed => exact allowed _ ends
  | wakeOneWriter next => exact fun woken => allowed _ (ends woken)
  | wakeReaders next => exact fun count => allowed _ (ends count)
  | rest => trivial

section Ends

theorem Next.ite_awake
    {condition : Prop}
    [Decidable condition]
    {first second : Next}
    (firstAwake : first.Awake)
    (secondAwake : second.Awake) :
    (if condition then first else second).Awake := by
  split
  case isTrue => exact firstAwake
  case isFalse => exact secondAwake

theorem Next.assert_awake
    {condition : Bool}
    {assertion : Assertion}
    {next : Next}
    (awake : next.Awake) :
    (Next.assert condition assertion next).Awake :=
  Next.ite_awake awake trivial

theorem Next.ite_ordinary
    {condition : Prop}
    [Decidable condition]
    {first second : Next}
    (firstOrdinary : first.Ordinary)
    (secondOrdinary : second.Ordinary) :
    (if condition then first else second).Ordinary := by
  split
  case isTrue => exact firstOrdinary
  case isFalse => exact secondOrdinary

theorem Next.assert_ordinary
    {condition : Bool}
    {assertion : Assertion}
    {next : Next}
    (ordinary : next.Ordinary) :
    (Next.assert condition assertion next).Ordinary :=
  Next.ite_ordinary ordinary trivial

theorem Next.Ordinary.awake
    {next : Next}
    (ordinary : next.Ordinary) :
    next.Awake := by
  cases next with
  | goto pc => exact ordinary.1
  | ret result => trivial
  | panic assertion => trivial

theorem After.resume_ordinary (next : After) : next.resume.Ordinary := by
  cases next with
  | done => trivial
  | retNone phase => trivial
  | relock closures => exact ⟨rfl, rfl⟩

theorem Call.secondFailed_ordinary (call : Call) : call.secondFailed.Ordinary := by
  cases call with
  | lock closures hint => exact ⟨rfl, rfl⟩
  | tryLock how hint => trivial

theorem Call.second_ordinary
    (call : Call)
    (cur : U32) :
    (call.second cur).Ordinary := by
  unfold Call.second
  cases call.how (.fromBitsTruncate cur) with
  | write => exact Next.ite_ordinary ⟨rfl, rfl⟩ call.secondFailed_ordinary
  | read => exact Next.ite_ordinary ⟨rfl, rfl⟩ call.secondFailed_ordinary
  | none => trivial

theorem Call.secondReadFailed_ordinary
    (call : Call)
    (cur : U32) :
    (call.secondReadFailed cur).Ordinary := by
  cases call with
  | lock closures hint => exact ⟨rfl, rfl⟩
  | tryLock how hint =>
      exact Next.ite_ordinary ⟨rfl, rfl⟩ (Call.secondFailed_ordinary _)

variable (closures : Closures) (spinWait : SpinWait) (cur : U32)

theorem slowWaiting_ordinary : (slowWaiting closures spinWait cur).Ordinary := by
  unfold slowWaiting
  cases closures.onWaitingHow (.fromBitsTruncate cur) with
  | none => trivial
  | write => exact Next.ite_ordinary ⟨rfl, rfl⟩ (Next.assert_ordinary ⟨rfl, rfl⟩)
  | read => exact Next.ite_ordinary ⟨rfl, rfl⟩ (Next.assert_ordinary ⟨rfl, rfl⟩)

theorem slowSpin_ordinary (condition : Bool) :
    (slowSpin closures spinWait cur condition).Ordinary := by
  apply Next.ite_ordinary
  · rcases spinWait.spin with ⟨more, advanced⟩
    cases more with
    | true => exact ⟨rfl, rfl⟩
    | false => exact slowWaiting_ordinary closures advanced cur
  · exact slowWaiting_ordinary closures spinWait cur

theorem slowLoop_ordinary : (slowLoop closures spinWait cur).Ordinary := by
  unfold slowLoop
  cases closures.how (.fromBitsTruncate cur) with
  | none => trivial
  | write =>
      exact Next.ite_ordinary (Next.ite_ordinary ⟨rfl, rfl⟩ ⟨rfl, rfl⟩)
        (slowSpin_ordinary closures spinWait cur _)
  | read =>
      exact Next.ite_ordinary ⟨rfl, rfl⟩ (slowSpin_ordinary closures spinWait cur _)

theorem waitForReaders_ordinary (inner : SpinWait) :
    (waitForReaders closures spinWait inner cur).Ordinary := by
  unfold waitForReaders
  rcases inner.spin with ⟨more, advanced⟩
  cases more with
  | true => exact ⟨rfl, rfl⟩
  | false => exact ⟨rfl, rfl⟩

theorem writerWoken_ordinary : (writerWoken closures cur).Ordinary := by
  apply Next.assert_ordinary
  cases closures.how (.fromBitsTruncate cur) with
  | write => trivial
  | read => exact ⟨rfl, rfl⟩
  | none => exact ⟨rfl, rfl⟩

theorem writerWaited_ordinary (res : Bool) : (writerWaited closures res).Ordinary :=
  Next.ite_ordinary ⟨rfl, rfl⟩ ⟨rfl, rfl⟩

theorem readerWoken_ordinary : (readerWoken closures cur).Ordinary := by
  apply Next.assert_ordinary
  cases closures.how (.fromBitsTruncate cur) with
  | write => exact ⟨rfl, rfl⟩
  | read => trivial
  | none => exact ⟨rfl, rfl⟩

theorem transferLock_awake (next : After) : (transferLock cur next).Awake :=
  Next.assert_awake (Next.assert_awake rfl)

theorem transferLoop_awake
    (preference : Preference)
    (next : After) :
    (transferLoop preference cur next).Awake := by
  cases preference with
  | writer => exact Next.ite_awake rfl (Next.ite_awake rfl rfl)
  | readers => exact Next.ite_awake rfl (Next.assert_awake rfl)

theorem transferWoken_awake
    (preference : Preference)
    (next : After)
    (woken : Bool) :
    (transferWoken preference cur next woken).Awake := by
  apply Next.ite_awake next.resume_ordinary.awake
  cases preference with
  | writer => exact Next.ite_awake rfl rfl
  | readers => rfl

theorem Waker.woken_ordinary (waker : Waker) : (waker.woken cur).Ordinary := by
  cases waker with
  | converting converter => trivial
  | releasing next => exact ⟨rfl, rfl⟩

theorem cloneFull_ordinary (guard : ReadLock) :
    (cloneFull guard spinWait cur).Ordinary := by
  apply Next.ite_ordinary
  · rcases spinWait.spin with ⟨more, advanced⟩
    cases more with
    | true => exact ⟨rfl, rfl⟩
    | false => exact ⟨rfl, rfl⟩
  · exact ⟨rfl, rfl⟩

theorem cloneLoop_ordinary (guard : ReadLock) :
    (cloneLoop guard spinWait cur).Ordinary :=
  Next.ite_ordinary ⟨rfl, rfl⟩ (cloneFull_ordinary spinWait cur guard)

end Ends

theorem Call.optimistic_endsOrdinary (call : Call) :
    call.optimistic.EndsBy Next.Ordinary := by
  unfold Call.optimistic
  cases call.how call.hint with
  | none =>
      exact fun cur => Next.ite_ordinary trivial (call.second_ordinary cur)
  | write => exact ⟨trivial, call.second_ordinary⟩
  | read => exact ⟨trivial, call.second_ordinary⟩

/-- The places whose instruction may end in a transfer. -/
def Pc.mayTransfer : Pc → Bool
  | .dropLockXor .. => true
  | .convertXor .. => true
  | .dropReadSub .. => true
  | .transferPrefer .. => true
  | .transferXor .. => true
  | .transferFairness .. => true
  | .transferWake .. => true
  | .transferAnd .. => true
  | .wakeXor .. => true
  | _ => false

/-- All but a few places end neither in a wait nor in a transfer. -/
theorem Pc.endsOrdinary
    {backend : Backend}
    {pc : Pc}
    (quiet : pc.mayTransfer = false) :
    (pc.instr backend).EndsBy Next.Ordinary := by
  cases pc with
  | idle => trivial
  | optimistic call => exact call.optimistic_endsOrdinary
  | secondWrite call cur =>
      cases call with
      | lock closures hint => exact ⟨trivial, fun _ => ⟨rfl, rfl⟩⟩
      | tryLock how hint => exact ⟨trivial, fun _ => trivial⟩
  | secondRead call cur => exact ⟨trivial, call.secondReadFailed_ordinary⟩
  | secondReadLoad closures hint =>
      exact fun _ => Next.ite_ordinary ⟨rfl, rfl⟩ ⟨rfl, rfl⟩
  | slowLoad closures spinWait => exact slowLoop_ordinary closures spinWait
  | slowWrite closures spinWait cur =>
      exact ⟨trivial, slowLoop_ordinary closures spinWait⟩
  | slowWhileReaders closures spinWait cur =>
      exact ⟨waitForReaders_ordinary closures spinWait _ _,
        slowLoop_ordinary closures spinWait⟩
  | slowRead closures spinWait cur => exact ⟨trivial, fun _ => ⟨rfl, rfl⟩⟩
  | slowReadLoad closures spinWait =>
      exact fun cur =>
        Next.ite_ordinary ⟨rfl, rfl⟩
          (slowSpin_ordinary closures spinWait cur _)
  | setWriteWaiter closures spinWait cur =>
      exact ⟨Next.assert_ordinary ⟨rfl, rfl⟩,
        slowLoop_ordinary closures spinWait⟩
  | setReadWaiter closures spinWait cur =>
      exact ⟨Next.assert_ordinary ⟨rfl, rfl⟩,
        slowLoop_ordinary closures spinWait⟩
  | waitReadersLoad closures spinWait inner =>
      exact fun cur =>
        Next.ite_ordinary trivial
          (waitForReaders_ordinary closures spinWait cur _)
  | waitReadersCas closures spinWait cur =>
      exact ⟨slowSpin_ordinary closures spinWait _ _,
        fun _ => Next.ite_ordinary trivial ⟨rfl, rfl⟩⟩
  | writerCountAdd closures cur =>
      exact fun _ => Next.assert_ordinary ⟨rfl, rfl⟩
  | writerWait closures cur => exact ⟨rfl, rfl⟩
  | parkedWriter closures => trivial
  | writerCountSub closures res =>
      exact fun _ =>
        Next.assert_ordinary
          (Next.ite_ordinary ⟨rfl, rfl⟩ (writerWaited_ordinary closures res))
  | writerOr closures => exact fun _ => writerWaited_ordinary closures true
  | writerLoad closures => exact writerWoken_ordinary closures
  | readerWait closures cur => exact ⟨rfl, rfl⟩
  | parkedReader closures => trivial
  | readerLoad closures => exact readerWoken_ordinary closures
  | dropLockCas lock next =>
      exact ⟨next.resume_ordinary, fun _ => ⟨rfl, rfl⟩⟩
  | wakeFairness waker => exact fun _ => ⟨rfl, rfl⟩
  | wakeCall waker =>
      exact fun _ => Next.ite_ordinary ⟨rfl, rfl⟩ ⟨rfl, rfl⟩
  | wakeOr count waker => exact fun _ => ⟨rfl, rfl⟩
  | wakeSub count waker => exact fun cur => waker.woken_ordinary cur
  | cloneLoad guard spinWait =>
      exact fun cur => cloneLoop_ordinary spinWait cur guard
  | cloneCas guard spinWait cur => exact ⟨trivial, fun _ => ⟨rfl, rfl⟩⟩
  | cloneReadLoad guard spinWait =>
      exact fun cur =>
        Next.ite_ordinary ⟨rfl, rfl⟩ (cloneFull_ordinary spinWait cur guard)
  | cloneSetWaiter guard spinWait cur =>
      exact ⟨⟨rfl, rfl⟩, fun cur => cloneLoop_ordinary spinWait cur guard⟩
  | cloneWait guard cur => exact ⟨rfl, rfl⟩
  | parkedClone guard => trivial
  | cloneWoken guard => exact fun _ => Next.assert_ordinary trivial
  | _ => cases quiet

/-- Only a futex wait parks a thread. -/
theorem Pc.parksByWait
    {backend : Backend}
    (pc : Pc) :
    (pc.instr backend).ParksByWait := by
  cases moves : pc.mayTransfer with
  | false =>
      exact (Pc.endsOrdinary moves).mono fun _ => Next.Ordinary.awake
  | true =>
      cases pc with
      | dropLockXor lock next =>
          exact fun _ =>
            Next.ite_awake (transferLock_awake _ next)
              next.resume_ordinary.awake
      | convertXor lock cur converter =>
          exact fun _ => Next.ite_awake rfl trivial
      | dropReadSub lock next =>
          exact fun _ =>
            Next.ite_awake (transferLock_awake _ next)
              next.resume_ordinary.awake
      | transferPrefer cur next =>
          exact fun _ =>
            Next.ite_awake (transferLoop_awake cur .writer next)
              (transferLoop_awake cur .readers next)
      | transferXor preference cur next =>
          exact fun _ => Next.assert_awake (Next.assert_awake rfl)
      | transferFairness preference cur next => exact fun _ => rfl
      | transferWake preference cur next =>
          exact transferWoken_awake cur preference next
      | transferAnd preference next =>
          exact fun _ =>
            Next.assert_awake
              (Next.ite_awake next.resume_ordinary.awake
                (transferLoop_awake _ preference next))
      | wakeXor toUnactivate waker =>
          exact fun _ =>
            Next.assert_awake (Next.assert_awake (Next.assert_awake rfl))
      | _ => cases moves

/-- A place that waits for the word to change. -/
theorem Pc.waits_cases
    {backend : Backend}
    {pc parked : Pc}
    {value : U32}
    {failed : Next}
    (waits : pc.instr backend = .wait value parked failed) :
    (∃ closures,
        pc = .writerWait closures value ∧ parked = .parkedWriter closures) ∨
      (∃ closures,
        pc = .readerWait closures value ∧ parked = .parkedReader closures) ∨
      ∃ guard, pc = .cloneWait guard value ∧ parked = .parkedClone guard := by
  cases pc with
  | optimistic call =>
      rw [Pc.instr, Call.optimistic] at waits
      split at waits <;> cases waits
  | secondWrite call cur => cases call <;> cases waits
  | writerWait closures cur =>
      cases waits
      exact .inl ⟨closures, rfl, rfl⟩
  | readerWait closures cur =>
      cases waits
      exact .inr (.inl ⟨closures, rfl, rfl⟩)
  | cloneWait guard cur =>
      cases waits
      exact .inr (.inr ⟨guard, rfl, rfl⟩)
  | _ => cases waits

/-- A thread that parks saw its waiter bit in the word, unless it clones. -/
theorem Pc.parks_cases
    {ι : Type}
    {state : State ι}
    {backend : Backend}
    {pc : Pc}
    {word : U32}
    {writerCount : BitVec 32}
    {fairness : BitVec 16}
    {next : Next}
    (relies : pc.Relies state.word)
    (outcome :
      state.Outcome (pc.instr backend) word writerCount fairness next) :
    next.Awake ∨
      (next.At Pc.parkedAsWriter ∧ (view word).writeWaiter = true) ∨
      next.At Pc.parkedAsReader ∧
        ((view word).readWaiter = true ∨
          ∃ guard value, pc = .cloneWait guard value) := by
  have parksByWait : (pc.instr backend).ParksByWait := pc.parksByWait
  generalize instr : pc.instr backend = performed at outcome parksByWait
  cases outcome with
  | fetch update next => exact .inl (parksByWait _)
  | exchanged same => exact .inl parksByWait.1
  | notExchanged failed => exact .inl (parksByWait.2 _)
  | counted update next => exact .inl (parksByWait _)
  | fairness update next => exact .inl (parksByWait _)
  | waited same =>
      right
      rw [same]
      rcases Pc.waits_cases instr with
        ⟨closures, rfl, rfl⟩ | ⟨closures, rfl, rfl⟩ | ⟨guard, rfl, rfl⟩
      · exact .inl ⟨rfl, relies⟩
      · exact .inr ⟨rfl, .inl relies⟩
      · exact .inr ⟨rfl, .inr ⟨guard, _, rfl⟩⟩
  | notWaited => exact .inl parksByWait

/-- A thread that parks saw its waiter bit in the word. -/
theorem Pc.parks
    {ι : Type}
    {state : State ι}
    {backend : Backend}
    {tolerance : GeneratorTolerance}
    {pc : Pc}
    {word : U32}
    {writerCount : BitVec 32}
    {fairness : BitVec 16}
    {next : Next}
    (relies : pc.Relies state.word)
    (calm : pc.Calm tolerance state.word)
    (outcome :
      state.Outcome (pc.instr backend) word writerCount fairness next) :
    next.Awake ∨
      (next.At Pc.parkedAsWriter ∧ (view word).writeWaiter = true) ∨
      next.At Pc.parkedAsReader ∧ (view word).readWaiter = true := by
  rcases Pc.parks_cases relies outcome with
    awake | writer | ⟨reader, set | ⟨guard, value, rfl⟩⟩
  · exact .inl awake
  · exact .inr (.inl writer)
  · exact .inr (.inr ⟨reader, set⟩)
  · exact calm.elim

end StaticInit.Sync
