import StaticInit.PhaseLocker.Atomic
import StaticInit.PhaseLocker.Sync.Natures

namespace StaticInit.Sync

/-!
# The futex locker refines the atomic locker

Each operation of the futex locker takes effect in one of its instructions: a
call of `lock` or `try_lock` where it gets its guard or reads the phase for
which it returns none, and the end of a guard where it changes the word.
`Pc.Stands` says which stage of the atomic locker a place of the code is at;
every instruction keeps the stage or commits it.
-/

open LockWord (view)
open Atomic (Stage Commit)

section Stages

variable (word : U32) (stage : Stage)

/-- A guard was released, by its owner or inside a call. -/
def After.Stands : After → Prop
  | .done => stage = .answered .dropped
  | .retNone phase => stage = .answered (.locked (some (.none phase)))
  | .relock closures =>
      ∃ call, stage = .asked call ∧ Opened (some call) closures

/-- A lock is to be released, by its owner or inside a call. -/
def After.Releases (lock : Lock) : After → Prop
  | .done => stage = .droppingLock lock
  | next => lock.onUnlock = lock.initPhase ∧ next.Stands stage

/-- A lock was converted, by its owner or inside a call. -/
def Converter.Stands (phase : Phase) : Converter → Prop
  | .guard => stage = .answered (.converted ⟨phase⟩)
  | .woken => ∃ call, stage = .asked call ∧ call.how phase = .read

/-- A lock is to be converted, by its owner or inside a call. -/
def Converter.Converts (lock : Lock) : Converter → Prop
  | .guard => stage = .convertingLock lock
  | .woken =>
      lock.onUnlock = lock.initPhase ∧
        ∃ call, stage = .asked call ∧ call.how lock.onUnlock = .read

def Waker.Stands (phase : Phase) : Waker → Prop
  | .converting converter => converter.Stands stage phase
  | .releasing next => next.Stands stage

/-- The stage at which a thread is at each place of the code. -/
def Pc.Stands : Pc → Prop
  | .idle => stage = .idle
  | .dropLockCas lock next => next.Releases stage lock
  | .dropLockXor lock next => next.Releases stage lock
  | .convertXor lock _ converter => converter.Converts stage lock
  | .dropReadSub lock next =>
      next.Stands stage ∨ next = .done ∧ stage = .droppingReadLock lock
  | .transferPrefer _ next => next.Stands stage
  | .transferXor _ _ next => next.Stands stage
  | .transferFairness _ _ next => next.Stands stage
  | .transferWake _ _ next => next.Stands stage
  | .transferAnd _ next => next.Stands stage
  | .wakeXor _ waker => waker.Stands stage (.fromBitsTruncate word)
  | .wakeFairness waker => waker.Stands stage (.fromBitsTruncate word)
  | .wakeCall waker => waker.Stands stage (.fromBitsTruncate word)
  | .wakeOr _ waker => waker.Stands stage (.fromBitsTruncate word)
  | .wakeSub _ waker => waker.Stands stage (.fromBitsTruncate word)
  | .cloneLoad guard _ => stage = .cloning guard
  | .cloneCas guard _ _ => stage = .cloning guard
  | .cloneReadLoad guard _ => stage = .cloning guard
  | .cloneSetWaiter guard _ _ => stage = .cloning guard
  | .cloneWait guard _ => stage = .cloning guard
  | .parkedClone guard => stage = .cloning guard
  | .cloneWoken guard => stage = .cloning guard
  | pc =>
      ∃ call, stage = .asked call ∧ pc.Honours (some call) (fun _ => False) word

/-- The place or the result that local code ends with is at a stage. -/
def Next.Stands : Next → Prop
  | .goto pc => pc.Stands word stage
  | .ret result => stage = .answered result
  | .panic _ => True

end Stages

/-- Local code that ends at a word keeps or commits the stage of its thread. -/
def Next.Settles
    (before : Phase)
    (stage : Stage)
    (after : U32)
    (next : Next) : Prop :=
  (∃ assertion, next = .panic assertion) ∨
    ∃ settled,
      Atomic.Settles before stage (.fromBitsTruncate after) settled ∧
        next.Stands after settled

/-- The code once a guard inside a call was dropped, but not that of an owner. -/
def After.Calls : After → Prop
  | .done => False
  | _ => True

/-- The places of a call that has not taken effect and holds no guard yet. -/
def Pc.Decides : Pc → Prop
  | .optimistic .. => True
  | .secondWrite .. => True
  | .secondRead .. => True
  | .secondReadLoad .. => True
  | .slowLoad .. => True
  | .slowWrite .. => True
  | .slowWhileReaders .. => True
  | .slowRead .. => True
  | .slowReadLoad .. => True
  | .setWriteWaiter .. => True
  | .setReadWaiter .. => True
  | .waitReadersLoad .. => True
  | .waitReadersCas .. => True
  | .writerCountAdd .. => True
  | .writerWait .. => True
  | .parkedWriter .. => True
  | .writerCountSub .. => True
  | .writerOr .. => True
  | .writerLoad .. => True
  | .readerWait .. => True
  | .parkedReader .. => True
  | .readerLoad .. => True
  | _ => False

/-- The places at which a call goes on, some of them with a guard to give back. -/
def Pc.Calls : Pc → Prop
  | .dropLockCas lock next => lock.onUnlock = lock.initPhase ∧ next.Calls
  | .convertXor lock _ .woken => lock.onUnlock = lock.initPhase
  | .dropReadSub _ next => next.Calls
  | pc => pc.Decides

/-- How local code of a call may end: its guards show the phase. -/
def Next.Calls (call : Call) (phase : Phase) : Next → Prop
  | .goto pc => pc.Calls
  | .ret (.locked none) => ∃ how hint, call = .tryLock how hint
  | .ret (.locked (some (.write lock))) => lock = ⟨phase, phase⟩
  | .ret (.locked (some (.read lock))) => lock = ⟨phase⟩
  | .ret (.locked (some (.none _))) => True
  | .ret _ => False
  | .panic _ => True

section LocalCode

variable {call : Call} {phase : Phase} {word cur : U32}
  {closures : Closures} {spinWait inner : SpinWait}

theorem Next.assert_calls
    {condition : Bool}
    {assertion : Assertion}
    {next : Next}
    (calls : next.Calls call phase) :
    (Next.assert condition assertion next).Calls call phase := by
  unfold Next.assert
  split
  case isTrue => exact calls
  case isFalse => trivial

theorem Call.secondFailed_calls : call.secondFailed.Calls call phase := by
  cases call with
  | lock closures hint => trivial
  | tryLock how hint => exact ⟨how, hint, rfl⟩

theorem Call.second_calls : (call.second cur).Calls call phase := by
  unfold Call.second
  split
  case h_1 =>
    split
    case isTrue => trivial
    case isFalse => exact Call.secondFailed_calls
  case h_2 =>
    split
    case isTrue => trivial
    case isFalse => exact Call.secondFailed_calls
  case h_3 => trivial

theorem Call.optimisticNone_calls :
    (call.optimisticNone cur).Calls call phase := by
  unfold Call.optimisticNone
  split
  case isTrue => trivial
  case isFalse => exact Call.second_calls

theorem Call.secondReadFailed_calls :
    (call.secondReadFailed cur).Calls call phase := by
  cases call with
  | lock closures hint => trivial
  | tryLock how hint =>
      unfold Call.secondReadFailed
      dsimp only
      split
      case isTrue => trivial
      case isFalse => exact Call.secondFailed_calls

theorem slowWaiting_calls :
    (slowWaiting closures spinWait cur).Calls call phase := by
  unfold slowWaiting
  split
  case h_1 => trivial
  case h_2 =>
    split
    case isTrue => trivial
    case isFalse => exact Next.assert_calls trivial
  case h_3 =>
    split
    case isTrue => trivial
    case isFalse => exact Next.assert_calls trivial

theorem slowSpin_calls
    {condition : Bool} :
    (slowSpin closures spinWait cur condition).Calls call phase := by
  unfold slowSpin
  split
  case isTrue =>
    split
    case h_1 => trivial
    case h_2 => exact slowWaiting_calls
  case isFalse => exact slowWaiting_calls

theorem slowLoop_calls :
    (slowLoop closures spinWait cur).Calls call phase := by
  unfold slowLoop
  split
  case h_1 => trivial
  case h_2 =>
    split
    case isTrue =>
      split
      case isTrue => trivial
      case isFalse => trivial
    case isFalse => exact slowSpin_calls
  case h_3 =>
    split
    case isTrue => trivial
    case isFalse => exact slowSpin_calls

theorem waitForReaders_calls :
    (waitForReaders closures spinWait inner cur).Calls call phase := by
  unfold waitForReaders
  split
  case h_1 => trivial
  case h_2 => trivial

theorem writerWaited_calls
    {res : Bool} :
    (writerWaited closures res).Calls call phase := by
  unfold writerWaited
  split
  case isTrue => trivial
  case isFalse => trivial

/-- A guard that is made of a word shows its phase. -/
theorem writerWoken_calls :
    (writerWoken closures word).Calls call (.fromBitsTruncate word) := by
  apply Next.assert_calls
  split
  case h_1 => exact rfl
  case h_2 => exact rfl
  case h_3 => exact ⟨rfl, trivial⟩

theorem readerWoken_calls :
    (readerWoken closures word).Calls call (.fromBitsTruncate word) := by
  apply Next.assert_calls
  split
  case h_1 => exact rfl
  case h_2 => trivial
  case h_3 => trivial

/-- A write lock that an exchange gives shows the phase of the new word. -/
theorem retWrite_calls :
    (Next.retWrite (.new cur)).Calls call
      (.fromBitsTruncate (cur ||| lockedBit)) := by
  rw [fromBitsTruncate_or_lockedBit]
  exact rfl

/-- A read lock that an exchange gives shows the phase of the new word. -/
theorem retRead_calls :
    (Next.retRead (.new cur)).Calls call
      (.fromBitsTruncate (cur + readerUnity)) := by
  rw [fromBitsTruncate_add_readerUnity]
  exact rfl

/-- The ends of the instructions of a call. -/
def CallEnds (call : Call) (word : U32) (instr : Instr) : Prop :=
  instr.Ends word fun after next =>
    next.Calls call (.fromBitsTruncate after)

theorem Call.optimistic_calls : CallEnds call word call.optimistic := by
  unfold CallEnds Call.optimistic
  split
  case h_1 => exact Call.optimisticNone_calls
  case h_2 => exact ⟨fun _ => retWrite_calls, Call.second_calls⟩
  case h_3 => exact ⟨fun _ => retRead_calls, Call.second_calls⟩

theorem Call.secondWrite_calls :
    CallEnds call word (call.secondWrite cur) := by
  cases call with
  | lock closures hint =>
      exact ⟨fun _ => retWrite_calls, Call.secondFailed_calls⟩
  | tryLock how hint =>
      exact ⟨fun _ => retWrite_calls, Call.secondFailed_calls⟩

/-- A call goes on to a place of the call, or its result shows the phase. -/
theorem Pc.instr_calls
    {backend : Backend}
    {pc : Pc}
    {shown : Phase → Prop}
    (decides : pc.Decides)
    (honours : pc.Honours (some call) shown word) :
    CallEnds call word (pc.instr backend) := by
  cases pc with
  | optimistic opened =>
      obtain rfl := Option.some.inj honours
      exact Call.optimistic_calls
  | secondWrite opened cur =>
      obtain rfl := Option.some.inj honours.1
      exact Call.secondWrite_calls
  | secondRead opened cur =>
      obtain rfl := Option.some.inj honours.1
      exact ⟨fun _ => retRead_calls, Call.secondReadFailed_calls⟩
  | secondReadLoad closures hint =>
      change Next.Calls call _ (if _ then _ else _)
      split
      case isTrue => trivial
      case isFalse => trivial
  | slowLoad closures spinWait => exact slowLoop_calls
  | slowWrite closures spinWait cur =>
      exact ⟨fun _ => retWrite_calls, slowLoop_calls⟩
  | slowWhileReaders closures spinWait cur =>
      exact ⟨fun _ => waitForReaders_calls, slowLoop_calls⟩
  | slowRead closures spinWait cur => exact ⟨fun _ => retRead_calls, trivial⟩
  | slowReadLoad closures spinWait =>
      change Next.Calls call _ (if _ then _ else _)
      split
      case isTrue => trivial
      case isFalse => exact slowSpin_calls
  | setWriteWaiter closures spinWait cur =>
      exact ⟨fun _ => Next.assert_calls trivial, slowLoop_calls⟩
  | setReadWaiter closures spinWait cur =>
      exact ⟨fun _ => Next.assert_calls trivial, slowLoop_calls⟩
  | waitReadersLoad closures spinWait inner =>
      change Next.Calls call _ (if _ then _ else _)
      split
      case isTrue => exact rfl
      case isFalse => exact waitForReaders_calls
  | waitReadersCas closures spinWait cur =>
      refine ⟨fun _ => slowSpin_calls, ?_⟩
      dsimp only
      split
      case isTrue => exact rfl
      case isFalse => trivial
  | writerCountAdd closures cur => exact fun _ => Next.assert_calls trivial
  | writerWait closures cur => exact ⟨trivial, trivial⟩
  | parkedWriter closures => trivial
  | writerCountSub closures res =>
      intro count
      apply Next.assert_calls
      split
      case isTrue => trivial
      case isFalse => exact writerWaited_calls
  | writerOr closures =>
      change (writerWaited closures true).Calls call
        (.fromBitsTruncate (word ||| writeWaiterBit))
      exact writerWaited_calls
  | writerLoad closures => exact writerWoken_calls
  | readerWait closures cur => exact ⟨trivial, trivial⟩
  | parkedReader closures => trivial
  | readerLoad closures => exact readerWoken_calls
  | _ => exact decides.elim

/-- Local code of a call keeps asking, or it takes effect. -/
theorem Next.settles_of_calls
    {before : Phase}
    {next : Next}
    (honours : next.Honours (some call) (fun found => found = before) word)
    (calls : next.Calls call (.fromBitsTruncate word))
    (kept : Phase.fromBitsTruncate word = before) :
    next.Settles before (.asked call) word := by
  have asks {pc : Pc} (stands : pc.Stands word (.asked call)) :
      Next.Settles before (.asked call) word (.goto pc) :=
    .inr ⟨.asked call, .inl ⟨rfl, kept⟩, stands⟩
  have returnsNone {found : Phase} {pc : Pc}
      (decided :
        ∃ opened,
          some call = some opened ∧ found = before ∧
            opened.MayReturnNone found)
      (stands :
        pc.Stands word (.answered (.locked (some (.none found))))) :
      Next.Settles before (.asked call) word (.goto pc) := by
    obtain ⟨opened, same, rfl, may⟩ := decided
    obtain rfl := Option.some.inj same
    rw [← kept] at may stands ⊢
    exact .inr ⟨_, .inr (.none may), stands⟩
  cases next with
  | panic assertion => exact .inl ⟨assertion, rfl⟩
  | goto pc =>
      cases pc with
      | dropLockCas lock next =>
          cases next with
          | done => exact calls.2.elim
          | retNone found => exact returnsNone honours ⟨calls.1, rfl⟩
          | relock closures => exact asks ⟨calls.1, call, rfl, honours⟩
      | convertXor lock cur converter =>
          cases converter with
          | guard => exact calls.elim
          | woken =>
              obtain ⟨opened, same, reads⟩ := honours
              obtain rfl := Option.some.inj same
              exact asks ⟨calls, call, rfl, reads⟩
      | dropReadSub lock next =>
          cases next with
          | done => exact calls.elim
          | retNone found => exact returnsNone honours (.inl rfl)
          | relock closures => exact asks (.inl ⟨call, rfl, honours⟩)
      | idle => exact calls.elim
      | dropLockXor => exact calls.elim
      | transferPrefer => exact calls.elim
      | transferXor => exact calls.elim
      | transferFairness => exact calls.elim
      | transferWake => exact calls.elim
      | transferAnd => exact calls.elim
      | wakeXor => exact calls.elim
      | wakeFairness => exact calls.elim
      | wakeCall => exact calls.elim
      | wakeOr => exact calls.elim
      | wakeSub => exact calls.elim
      | cloneLoad => exact calls.elim
      | cloneCas => exact calls.elim
      | cloneReadLoad => exact calls.elim
      | cloneSetWaiter => exact calls.elim
      | cloneWait => exact calls.elim
      | parkedClone => exact calls.elim
      | cloneWoken => exact calls.elim
      | _ => exact asks ⟨call, rfl, honours⟩
  | ret result =>
      cases result with
      | locked found =>
          cases found with
          | none =>
              obtain ⟨how, hint, rfl⟩ := calls
              rw [← kept]
              exact .inr ⟨_, .inr .failed, rfl⟩
          | some found =>
              obtain ⟨opened, same, agrees⟩ := honours
              obtain rfl := Option.some.inj same
              cases found with
              | write lock =>
                  obtain rfl := calls
                  rw [← kept]
                  exact .inr ⟨_, .inr (.write agrees), rfl⟩
              | read lock =>
                  obtain rfl := calls
                  rw [← kept]
                  exact .inr ⟨_, .inr (.read agrees), rfl⟩
              | none phase =>
                  obtain ⟨rfl, may⟩ := agrees
                  rw [← kept] at may ⊢
                  exact .inr ⟨_, .inr (.none may), rfl⟩
      | cloned original clone => exact calls.elim
      | converted guard => exact calls.elim
      | dropped => exact calls.elim

end LocalCode

section Ends

variable {word : U32} {stage : Stage}

/-- Two properties of the ends of an instruction give a third one. -/
theorem Instr.Ends.imp
    {first second third : U32 → Next → Prop}
    {instr : Instr}
    (one : instr.Ends word first)
    (other : instr.Ends word second)
    (both : ∀ after next, first after next → second after next → third after next) :
    instr.Ends word third := by
  cases instr with
  | fetch update next => exact both _ _ one other
  | exchange weak cur new ok err =>
      exact ⟨fun same => both _ _ (one.1 same) (other.1 same),
        both _ _ one.2 other.2⟩
  | fetchWriterCount update next =>
      exact fun count => both _ _ (one count) (other count)
  | fetchFairness update next =>
      exact fun fairness => both _ _ (one fairness) (other fairness)
  | wait value parked failed =>
      exact ⟨both _ _ one.1 other.1, both _ _ one.2 other.2⟩
  | wakeOneWriter next => exact fun woken => both _ _ (one woken) (other woken)
  | wakeReaders next => exact fun count => both _ _ (one count) (other count)
  | rest => trivial

/-- The phase after an instruction that does not touch it. -/
theorem Instr.KeepsPhase.ends
    {instr : Instr}
    (keeps : instr.KeepsPhase word) :
    instr.Ends word fun after _ =>
      Phase.fromBitsTruncate after = Phase.fromBitsTruncate word := by
  cases instr with
  | fetch update next => exact keeps
  | exchange weak cur new ok err =>
      refine ⟨?_, rfl⟩
      rintro rfl
      exact keeps
  | fetchWriterCount update next => exact fun _ => rfl
  | fetchFairness update next => exact fun _ => rfl
  | wait value parked failed => exact ⟨rfl, rfl⟩
  | wakeOneWriter next => exact fun _ => rfl
  | wakeReaders next => exact fun _ => rfl
  | rest => trivial

/-- Local code that keeps the stage where the phase stays. -/
theorem Next.settles_of_stands
    {before : Phase}
    {next : Next}
    (stands : next.Stands word stage)
    (kept : Phase.fromBitsTruncate word = before) :
    next.Settles before stage word :=
  .inr ⟨stage, .inl ⟨rfl, kept⟩, stands⟩

theorem Next.assert_stands
    {condition : Bool}
    {assertion : Assertion}
    {next : Next}
    (stands : next.Stands word stage) :
    (Next.assert condition assertion next).Stands word stage := by
  unfold Next.assert
  split
  case isTrue => exact stands
  case isFalse => trivial

variable {next : After} {cur : U32}

theorem After.resume_stands (stands : next.Stands stage) :
    next.resume.Stands word stage := by
  cases next with
  | done => exact stands
  | retNone phase => exact stands
  | relock closures => exact stands

theorem transferLock_stands (stands : next.Stands stage) :
    (transferLock cur next).Stands word stage :=
  Next.assert_stands (Next.assert_stands stands)

theorem transferLoop_stands
    {preference : Preference}
    (stands : next.Stands stage) :
    (transferLoop preference cur next).Stands word stage := by
  cases preference with
  | writer =>
      unfold transferLoop
      dsimp only
      split
      case isTrue => exact stands
      case isFalse =>
        split
        case isTrue => exact stands
        case isFalse => exact stands
  | readers =>
      unfold transferLoop
      dsimp only
      split
      case isTrue => exact stands
      case isFalse => exact Next.assert_stands stands

theorem transferWoken_stands
    {preference : Preference}
    {woken : Bool}
    (stands : next.Stands stage) :
    (transferWoken preference cur next woken).Stands word stage := by
  unfold transferWoken
  split
  case isTrue => exact After.resume_stands stands
  case isFalse =>
    cases preference with
    | writer =>
        dsimp only
        split
        case isTrue => exact stands
        case isFalse => exact stands
    | readers => exact stands

theorem transferReleased_stands
    {preference : Preference}
    (stands : next.Stands stage) :
    (transferReleased preference next cur).Stands word stage := by
  apply Next.assert_stands
  split
  case isTrue => exact After.resume_stands stands
  case isFalse => exact transferLoop_stands stands

theorem readDropped_stands (stands : next.Stands stage) :
    (readDropped next cur).Stands word stage := by
  unfold readDropped
  split
  case isTrue => exact transferLock_stands stands
  case isFalse => exact After.resume_stands stands

theorem Lock.released_stands
    {lock : Lock}
    (stands : next.Stands stage) :
    (lock.released next cur).Stands word stage := by
  unfold Lock.released
  split
  case isTrue => exact transferLock_stands stands
  case isFalse => exact After.resume_stands stands

theorem cloneLoop_stands
    {guard : ReadLock}
    {spinWait : SpinWait}
    (stands : stage = .cloning guard) :
    (cloneLoop guard spinWait cur).Stands word stage := by
  unfold cloneLoop
  split
  case isTrue => exact stands
  case isFalse =>
    unfold cloneFull
    split
    case isTrue =>
      split
      case h_1 => exact stands
      case h_2 => exact stands
    case isFalse => exact stands

/-- The release of a lock by its owner commits; inside a call it keeps the phase. -/
theorem After.Releases.settles
    {lock : Lock}
    (releases : next.Releases stage lock) :
    ∃ settled,
      Atomic.Settles lock.initPhase stage lock.onUnlock settled ∧
        next.Stands settled := by
  cases next with
  | done =>
      obtain rfl := releases
      exact ⟨_, .inr (.dropLock rfl), rfl⟩
  | retNone phase => exact ⟨stage, .inl ⟨rfl, releases.1⟩, releases.2⟩
  | relock closures => exact ⟨stage, .inl ⟨rfl, releases.1⟩, releases.2⟩

/-- The conversion of a lock by its owner commits; inside a call it may give the result. -/
theorem Lock.converted_settles
    {converter : Converter}
    {lock : Lock}
    (converts : converter.Converts stage lock)
    (shown : Phase.fromBitsTruncate word = lock.onUnlock) :
    (lock.converted converter cur).Settles lock.initPhase stage word := by
  have given : ReadLock.new lock.onUnlock.bits = ⟨lock.onUnlock⟩ := by
    rw [ReadLock.new, Phase.fromBitsTruncate_bits]
  unfold Lock.converted Next.Settles
  rw [shown, given]
  cases converter with
  | guard =>
      obtain rfl := converts
      refine .inr ⟨_, .inr (.convertLock rfl), ?_⟩
      split
      case isTrue =>
        change Stage.answered (.converted ⟨lock.onUnlock⟩) =
          .answered (.converted ⟨.fromBitsTruncate word⟩)
        rw [shown]
      case isFalse => exact rfl
  | woken =>
      obtain ⟨same, call, rfl, reads⟩ := converts
      rw [← same]
      split
      case isTrue =>
        exact .inr ⟨_, .inl ⟨rfl, rfl⟩, call, rfl, shown.symm ▸ reads⟩
      case isFalse => exact .inr ⟨_, .inr (.read reads), rfl⟩

/-- The end of `wake_readers` gives the converted lock or drops it. -/
theorem Waker.woken_settles
    {waker : Waker}
    (stands : waker.Stands stage (.fromBitsTruncate cur))
    (kept : Phase.fromBitsTruncate word = Phase.fromBitsTruncate cur) :
    (waker.woken cur).Settles (.fromBitsTruncate cur) stage word := by
  cases waker with
  | releasing next => exact Next.settles_of_stands (.inl stands) kept
  | converting converter =>
      cases converter with
      | guard => exact Next.settles_of_stands stands kept
      | woken =>
          obtain ⟨call, rfl, reads⟩ := stands
          refine .inr ⟨_, .inr ?_, rfl⟩
          rw [kept]
          exact .read reads

/-- A clone is counted: it shows the phase of the cloned guard. -/
theorem cloned_settles
    {guard : ReadLock}
    (initial : guard.initPhase = .fromBitsTruncate cur)
    (kept : Phase.fromBitsTruncate word = Phase.fromBitsTruncate cur) :
    (Next.ret (.cloned guard (.new cur))).Settles (.fromBitsTruncate cur)
      (.cloning guard) word := by
  unfold Next.Settles
  rw [kept, ReadLock.new, ← initial]
  exact .inr ⟨_, .inr (.clone rfl), rfl⟩

/-- The places that keep their stage, whatever their instruction does. -/
def Pc.Remains : Pc → Prop
  | .transferPrefer .. => True
  | .transferXor .. => True
  | .transferFairness .. => True
  | .transferWake .. => True
  | .transferAnd .. => True
  | .wakeXor .. => True
  | .wakeFairness .. => True
  | .wakeCall .. => True
  | .wakeOr .. => True
  | .cloneLoad .. => True
  | .cloneReadLoad .. => True
  | .cloneSetWaiter .. => True
  | .cloneWait .. => True
  | _ => False

/-- What `wake_readers` stands for does not depend on the rest of the word. -/
theorem Waker.Stands.kept
    {waker : Waker}
    {before after : U32}
    (stands : waker.Stands stage (.fromBitsTruncate before))
    (same : (view after).phase = (view before).phase) :
    waker.Stands stage (.fromBitsTruncate after) := by
  change waker.Stands stage (view after).phase
  rw [same]
  exact stands

/-- A transfer, a wake or a waiting clone keeps its stage. -/
theorem Pc.instr_stands
    {backend : Backend}
    {pc : Pc}
    (remains : pc.Remains)
    (relies : pc.Relies word)
    (stands : pc.Stands word stage) :
    (pc.instr backend).Ends word fun after next => next.Stands after stage := by
  cases pc with
  | transferPrefer cur next =>
      intro fairness
      dsimp only
      split
      case isTrue => exact transferLoop_stands stands
      case isFalse => exact transferLoop_stands stands
  | transferXor preference cur next =>
      exact Next.assert_stands (Next.assert_stands stands)
  | transferFairness preference cur next => exact fun _ => stands
  | transferWake preference cur next => exact fun _ => transferWoken_stands stands
  | transferAnd preference next => exact transferReleased_stands stands
  | wakeXor toUnactivate waker =>
      have kept :
          ((Pc.wakeXor toUnactivate waker).instr backend).KeepsPhase word :=
        Pc.keepsPhase relies rfl
      apply Next.assert_stands
      apply Next.assert_stands
      apply Next.assert_stands
      exact Waker.Stands.kept stands kept
  | wakeFairness waker => exact fun _ => stands
  | wakeCall waker =>
      intro count
      unfold wakeCounted
      split
      case isTrue => exact stands
      case isFalse => exact stands
  | wakeOr count waker =>
      have kept : ((Pc.wakeOr count waker).instr backend).KeepsPhase word :=
        Pc.keepsPhase relies rfl
      exact Waker.Stands.kept stands kept
  | cloneLoad guard spinWait => exact cloneLoop_stands stands
  | cloneReadLoad guard spinWait => exact cloneLoop_stands stands
  | cloneSetWaiter guard spinWait cur =>
      exact ⟨fun _ => stands, cloneLoop_stands stands⟩
  | cloneWait guard cur => exact ⟨stands, stands⟩
  | _ => exact remains.elim

/-- The places that are left: they have the guards of their operation. -/
theorem Pc.settles_of_remains
    {backend : Backend}
    {pc : Pc}
    (remains : pc.Remains)
    (relies : pc.Relies word)
    (stands : pc.Stands word stage) :
    (pc.instr backend).Ends word fun after next =>
      next.Settles (.fromBitsTruncate word) stage after := by
  have owns : pc.ownedLocks = [] := by
    cases pc with
    | dropLockCas lock next => exact remains.elim
    | dropLockXor lock next => exact remains.elim
    | convertXor lock cur converter => exact remains.elim
    | _ => rfl
  apply (Pc.instr_stands remains relies stands).imp
    (Pc.keepsPhase relies owns).ends
  intro after next stands kept
  exact Next.settles_of_stands stands kept

/-- A call that has not taken effect goes on, or takes effect. -/
theorem Pc.settles_of_decides
    {backend : Backend}
    {pc : Pc}
    (decides : pc.Decides)
    (relies : pc.Relies word)
    (stands : pc.Stands word stage) :
    (pc.instr backend).Ends word fun after next =>
      next.Settles (.fromBitsTruncate word) stage after := by
  obtain ⟨call, rfl, honours⟩ :
      ∃ call,
        stage = .asked call ∧
          pc.Honours (some call)
            (fun found => found = .fromBitsTruncate word) word := by
    cases pc with
    | _ => first | exact decides.elim | exact stands
  have owns : pc.ownedLocks = [] := by
    cases pc with
    | _ => first | exact decides.elim | rfl
  have both :
      (pc.instr backend).Ends word fun after next =>
        next.Honours (some call)
            (fun found => found = .fromBitsTruncate word) after ∧
          next.Calls call (.fromBitsTruncate after) :=
    (Pc.instr_honours relies (by rfl) honours).imp
      (Pc.instr_calls decides honours) fun _ _ => And.intro
  apply both.imp (Pc.keepsPhase relies owns).ends
  intro after next ends kept
  exact Next.settles_of_calls ends.1 ends.2 kept

/-- Every instruction keeps the stage of its thread, or commits it. -/
theorem Pc.instr_settles
    {backend : Backend}
    {pc : Pc}
    (relies : pc.Relies word)
    (stands : pc.Stands word stage) :
    (pc.instr backend).Ends word fun after next =>
      next.Settles (.fromBitsTruncate word) stage after := by
  cases pc with
  | idle => trivial
  | dropLockCas lock next =>
      have initial : lock.initPhase = Phase.fromBitsTruncate word := relies
      obtain ⟨settled, settles, released⟩ := After.Releases.settles stands
      rw [initial] at settles
      constructor
      · intro _
        refine .inr ⟨settled, ?_, After.resume_stands released⟩
        rw [Phase.fromBitsTruncate_bits]
        exact settles
      · exact Next.settles_of_stands stands rfl
  | dropLockXor lock next =>
      have initial : lock.initPhase = Phase.fromBitsTruncate word := relies
      have shown :
          Phase.fromBitsTruncate (word ^^^ lock.releaseMask) =
            lock.onUnlock :=
        congrArg LockWord.phase (view_releaseMask word lock relies)
      obtain ⟨settled, settles, released⟩ := After.Releases.settles stands
      rw [initial, ← shown] at settles
      exact .inr ⟨settled, settles, Lock.released_stands released⟩
  | convertXor lock cur converter =>
      have initial : lock.initPhase = Phase.fromBitsTruncate word := relies.1
      have shown :
          Phase.fromBitsTruncate (word ^^^ lock.convertMask cur) =
            lock.onUnlock := by
        change (view (word ^^^ lock.convertMask cur)).phase = _
        simp [Lock.convertMask, relies.2]
      rw [← initial]
      exact Lock.converted_settles stands shown
  | dropReadSub lock next =>
      have initial : lock.initPhase = Phase.fromBitsTruncate word := relies
      have kept :
          Phase.fromBitsTruncate (word - readerUnity) =
            Phase.fromBitsTruncate word :=
        phase_sub_units rfl word
      rcases stands with stands | ⟨rfl, rfl⟩
      · exact Next.settles_of_stands (readDropped_stands stands) kept
      · refine .inr ⟨.answered .dropped, .inr ?_, readDropped_stands rfl⟩
        rw [kept]
        exact .dropReadLock initial
  | wakeSub count waker =>
      have kept :
          Phase.fromBitsTruncate (word - wakeUnits count) =
            Phase.fromBitsTruncate word :=
        phase_sub_units (setWidth_wakeUnits relies) word
      exact Waker.woken_settles stands kept
  | cloneCas guard spinWait cur =>
      have initial : guard.initPhase = Phase.fromBitsTruncate word := relies.1
      obtain rfl := stands
      refine ⟨?_, Next.settles_of_stands rfl rfl⟩
      rintro rfl
      exact cloned_settles initial (fromBitsTruncate_add_readerUnity word)
  | parkedClone guard => trivial
  | cloneWoken guard =>
      have initial : guard.initPhase = Phase.fromBitsTruncate word := relies
      obtain rfl := stands
      change Next.Settles _ _ _ (Next.assert _ _ _)
      unfold Next.assert
      split
      case isTrue => exact cloned_settles initial rfl
      case isFalse => exact .inl ⟨_, rfl⟩
  | _ =>
      first
        | exact Pc.settles_of_decides trivial relies stands
        | exact Pc.settles_of_remains trivial relies stands

end Ends

section Threads

variable {word : U32} {stage : Stage}

/-- A stage has the guards that the place of the code holds. -/
theorem After.Stands.noGuards
    {next : After}
    (stands : next.Stands stage) :
    stage.locks = [] ∧ stage.readLocks = [] := by
  cases next with
  | done =>
      obtain rfl := stands
      exact ⟨rfl, rfl⟩
  | retNone phase =>
      obtain rfl := stands
      exact ⟨rfl, rfl⟩
  | relock closures =>
      obtain ⟨call, rfl, -⟩ := stands
      exact ⟨rfl, rfl⟩

/-- Before its release a lock may be a guard of the stage. -/
theorem After.Releases.guards
    {next : After}
    {lock : Lock}
    (releases : next.Releases stage lock) :
    stage.locks.length ≤ 1 ∧ stage.readLocks = [] := by
  cases next with
  | done =>
      obtain rfl := releases
      exact ⟨Nat.le_refl 1, rfl⟩
  | retNone phase =>
      obtain rfl := releases.2
      exact ⟨Nat.zero_le 1, rfl⟩
  | relock closures =>
      obtain ⟨-, call, rfl, -⟩ := releases
      exact ⟨Nat.zero_le 1, rfl⟩

/-- The waker holds a reader unit for the read lock of its stage. -/
theorem Waker.Stands.guards
    {waker : Waker}
    {phase : Phase}
    (stands : waker.Stands stage phase) :
    stage.locks = [] ∧
      stage.readLocks.length ≤ if waker.isConverting then 1 else 0 := by
  cases waker with
  | releasing next =>
      obtain ⟨locks, readLocks⟩ := After.Stands.noGuards stands
      exact ⟨locks, readLocks ▸ Nat.zero_le _⟩
  | converting converter =>
      cases converter with
      | guard =>
          obtain rfl := stands
          exact ⟨rfl, Nat.le_refl 1⟩
      | woken =>
          obtain ⟨call, rfl, -⟩ := stands
          exact ⟨rfl, Nat.zero_le 1⟩

/-- The guards of a stage are shares of the word. -/
theorem Pc.Stands.guards
    {pc : Pc}
    (stands : pc.Stands word stage) :
    stage.locks.length ≤ pc.share.owner ∧
      stage.readLocks.length ≤ pc.share.units := by
  have atWake {waker : Waker} {units : Nat}
      (stands : waker.Stands stage (.fromBitsTruncate word)) :
      stage.locks.length ≤ 0 ∧ stage.readLocks.length ≤ 1 + units := by
    obtain ⟨locks, readLocks⟩ := stands.guards
    rw [locks]
    refine ⟨Nat.le_refl 0, readLocks.trans ?_⟩
    split <;> omega
  have none {next : After} {share : Share}
      (stands : next.Stands stage) :
      stage.locks.length ≤ share.owner ∧
        stage.readLocks.length ≤ share.units := by
    obtain ⟨locks, readLocks⟩ := stands.noGuards
    rw [locks, readLocks]
    exact ⟨Nat.zero_le _, Nat.zero_le _⟩
  cases pc with
  | idle =>
      obtain rfl := stands
      exact ⟨Nat.le_refl 0, Nat.le_refl 0⟩
  | dropLockCas lock next =>
      obtain ⟨locks, readLocks⟩ := After.Releases.guards stands
      exact ⟨locks, readLocks ▸ Nat.zero_le _⟩
  | dropLockXor lock next =>
      obtain ⟨locks, readLocks⟩ := After.Releases.guards stands
      exact ⟨locks, readLocks ▸ Nat.zero_le _⟩
  | convertXor lock cur converter =>
      cases converter with
      | guard =>
          obtain rfl := stands
          exact ⟨Nat.le_refl 1, Nat.zero_le _⟩
      | woken =>
          obtain ⟨-, call, rfl, -⟩ := stands
          exact ⟨Nat.zero_le _, Nat.zero_le _⟩
  | dropReadSub lock next =>
      rcases stands with stands | ⟨-, rfl⟩
      · exact none stands
      · exact ⟨Nat.le_refl 0, Nat.le_refl 1⟩
  | transferPrefer cur next => exact none stands
  | transferXor preference cur next => exact none stands
  | transferFairness preference cur next => exact none stands
  | transferWake preference cur next => exact none stands
  | transferAnd preference next => exact none stands
  | wakeXor toUnactivate waker =>
      obtain ⟨locks, readLocks⟩ := Waker.Stands.guards stands
      rw [locks]
      refine ⟨Nat.zero_le _, readLocks.trans ?_⟩
      cases waker with
      | converting converter => exact Nat.le_refl 1
      | releasing next => exact Nat.zero_le _
  | wakeFairness waker => exact atWake stands
  | wakeCall waker => exact atWake stands
  | wakeOr count waker => exact atWake stands
  | wakeSub count waker => exact atWake stands
  | cloneWoken guard =>
      obtain rfl := stands
      exact ⟨Nat.le_refl 0, Nat.le_succ 1⟩
  | cloneLoad guard spinWait =>
      obtain rfl := stands
      exact ⟨Nat.le_refl 0, Nat.le_refl 1⟩
  | cloneCas guard spinWait cur =>
      obtain rfl := stands
      exact ⟨Nat.le_refl 0, Nat.le_refl 1⟩
  | cloneReadLoad guard spinWait =>
      obtain rfl := stands
      exact ⟨Nat.le_refl 0, Nat.le_refl 1⟩
  | cloneSetWaiter guard spinWait cur =>
      obtain rfl := stands
      exact ⟨Nat.le_refl 0, Nat.le_refl 1⟩
  | cloneWait guard cur =>
      obtain rfl := stands
      exact ⟨Nat.le_refl 0, Nat.le_refl 1⟩
  | parkedClone guard =>
      obtain rfl := stands
      exact ⟨Nat.le_refl 0, Nat.le_refl 1⟩
  | _ =>
      obtain ⟨call, rfl, -⟩ := stands
      exact ⟨Nat.zero_le _, Nat.zero_le _⟩

/-- A stage that speaks of the phase is at a place that holds the lock. -/
theorem Pc.Stands.kept
    {pc : Pc}
    {after : U32}
    (stands : pc.Stands word stage)
    (phase : 0 < pc.share.held → (view after).phase = (view word).phase) :
    pc.Stands after stage := by
  cases pc with
  | wakeXor toUnactivate waker =>
      apply Waker.Stands.kept stands (phase _)
      cases waker with
      | converting converter => exact Nat.one_pos
      | releasing next =>
          change 0 < (if _ then _ else _ : Share).held
          split
          case isTrue => exact Nat.one_pos
          case isFalse => exact Nat.one_pos
  | wakeFairness waker =>
      exact Waker.Stands.kept stands (phase (by simp [Pc.share, Share.held]))
  | wakeCall waker =>
      exact Waker.Stands.kept stands (phase (by simp [Pc.share, Share.held]))
  | wakeOr count waker =>
      exact Waker.Stands.kept stands (phase (by simp [Pc.share, Share.held]))
  | wakeSub count waker =>
      exact Waker.Stands.kept stands (phase (by simp [Pc.share, Share.held]))
  | waitReadersLoad closures spinWait inner =>
      obtain ⟨call, asked, honours⟩ := stands
      exact ⟨call, asked, Pc.Honours.kept honours phase⟩
  | waitReadersCas closures spinWait cur =>
      obtain ⟨call, asked, honours⟩ := stands
      exact ⟨call, asked, Pc.Honours.kept honours phase⟩
  | _ => exact stands

/-- A parked thread whose wait is interrupted keeps its stage. -/
theorem Pc.Stands.interrupted
    {pc after : Pc}
    (stands : pc.Stands word stage)
    (interrupts : pc.interrupted = some after) :
    after.Stands word stage := by
  cases pc with
  | parkedWriter closures =>
      obtain rfl := Option.some.inj interrupts
      exact stands
  | parkedReader closures =>
      obtain rfl := Option.some.inj interrupts
      exact stands
  | parkedClone guard =>
      obtain rfl := Option.some.inj interrupts
      exact stands
  | _ => cases interrupts

/-- A thread that is woken keeps its stage. -/
theorem Pc.Stands.woken
    {pc after : Pc}
    (stands : pc.Stands word stage)
    (wakes : pc.wokenWriter = some after ∨ pc.wokenReader = some after) :
    after.Stands word stage := by
  cases pc with
  | parkedWriter closures =>
      rcases wakes with wakes | wakes
      · obtain rfl := Option.some.inj wakes
        exact stands
      · cases wakes
  | parkedReader closures =>
      rcases wakes with wakes | wakes
      · cases wakes
      · obtain rfl := Option.some.inj wakes
        exact stands
  | parkedClone guard =>
      rcases wakes with wakes | wakes
      · cases wakes
      · obtain rfl := Option.some.inj wakes
        exact stands
  | _ => rcases wakes with wakes | wakes <;> cases wakes

/-- A thread and its counterpart at the atomic locker. -/
structure Thread.Stands
    (word : U32)
    (thread : Thread)
    (atomic : Atomic.Thread) : Prop where
  stage : thread.pc.Stands word atomic.stage
  locks : atomic.locks = thread.locks
  readLocks : atomic.readLocks = thread.readLocks

/-- The alive guards of a counterpart are shares of the thread. -/
theorem Thread.Stands.alive
    {thread : Thread}
    {atomic : Atomic.Thread}
    (stands : thread.Stands word atomic) :
    atomic.aliveLocks.length ≤ thread.share.owner ∧
      atomic.aliveReadLocks.length ≤ thread.share.units := by
  obtain ⟨locks, readLocks⟩ := stands.stage.guards
  rw [Atomic.Thread.aliveLocks, Atomic.Thread.aliveReadLocks,
    List.length_append, List.length_append, stands.locks, stands.readLocks]
  exact ⟨Nat.add_le_add_right locks _, Nat.add_le_add_right readLocks _⟩

/-- An operation starts at both lockers, and on the same guards. -/
theorem Thread.Stands.start
    {thread started : Thread}
    {atomic : Atomic.Thread}
    {op : UserOp}
    (stands : thread.Stands word atomic)
    (starts : thread.start op = some started) :
    ∃ next, atomic.start op = some next ∧ started.Stands word next := by
  obtain ⟨stage, locks, readLocks⟩ := stands
  obtain ⟨stage, lockList, readLockList⟩ := atomic
  obtain rfl := locks
  obtain rfl := readLocks
  unfold Thread.start at starts
  split at starts
  case h_2 => cases starts
  case h_1 idle =>
    rw [idle] at stage
    obtain rfl := stage
    cases op with
    | lock closures hint =>
        obtain rfl := Option.some.inj starts
        exact ⟨_, rfl, ⟨_, rfl, rfl⟩, rfl, rfl⟩
    | tryLock how hint =>
        obtain rfl := Option.some.inj starts
        exact ⟨_, rfl, ⟨_, rfl, rfl⟩, rfl, rfl⟩
    | dropLock index =>
        obtain ⟨lock, found, rfl⟩ := Option.map_eq_some_iff.mp starts
        exact ⟨_, Option.map_eq_some_iff.mpr ⟨lock, found, rfl⟩,
          rfl, rfl, rfl⟩
    | dropReadLock index =>
        obtain ⟨lock, found, rfl⟩ := Option.map_eq_some_iff.mp starts
        exact ⟨_, Option.map_eq_some_iff.mpr ⟨lock, found, rfl⟩,
          .inr ⟨rfl, rfl⟩, rfl, rfl⟩
    | clone index =>
        obtain ⟨lock, found, rfl⟩ := Option.map_eq_some_iff.mp starts
        exact ⟨_, Option.map_eq_some_iff.mpr ⟨lock, found, rfl⟩,
          rfl, rfl, rfl⟩
    | convert index =>
        obtain ⟨lock, found, rfl⟩ := Option.map_eq_some_iff.mp starts
        exact ⟨_, Option.map_eq_some_iff.mpr ⟨lock, found, rfl⟩,
          rfl, rfl, rfl⟩
    | setPhase index phase =>
        obtain ⟨lock, found, rfl⟩ := Option.map_eq_some_iff.mp starts
        refine ⟨_, Option.map_eq_some_iff.mpr ⟨lock, found, rfl⟩, ?_, rfl, rfl⟩
        rw [idle]
        exact rfl

end Threads

/-- What a caller sees of the end of local code. -/
def Next.label {ι : Type} (actor : ι) : Next → Option (Atomic.Label ι)
  | .ret result => some (.ret actor result)
  | _ => none

namespace State

variable {ι : Type} [DecidableEq ι] [Fintype ι]

/-- What a caller sees of an action. -/
def label
    (backend : Backend)
    (state : State ι)
    (action : Action ι) : Option (Atomic.Label ι) :=
  match action with
  | .start actor op => some (.start actor op)
  | action =>
      (state.ending backend action).bind fun next =>
        next.label action.actor

/-- The steps of the futex locker as its callers see them. -/
def Visible (backend : Backend) :
    State ι → Option (Atomic.Label ι) → State ι → Prop :=
  Observed (State.Step backend) (State.label backend)

/-- A state of the futex locker and one of the atomic locker. -/
structure Refines (state : State ι) (atomic : Atomic.State ι) : Prop where
  inv : state.Inv
  phase : atomic.phase = state.phase
  threads :
    ∀ actor, (state.thread actor).Stands state.word (atomic.thread actor)

omit [DecidableEq ι] in
theorem share_le_total (state : State ι) (actor : ι) :
    (state.thread actor).share ≤ state.total := by
  classical
  rw [total, tally_eq_add_others Thread.share state.thread actor]
  apply le_add_of_nonneg_right
  exact tallyOthers_induction Thread.share state.thread actor (Share.nonneg 0)
    (fun _ _ => add_nonneg) fun thread => Share.nonneg thread.share

theorem share_add_le_total
    (state : State ι)
    {actor other : ι}
    (different : other ≠ actor) :
    (state.thread actor).share + (state.thread other).share ≤ state.total := by
  rw [total, tally_eq_add_others Thread.share state.thread actor]
  exact add_le_add_right
    (weight_le_tallyOthers (fun thread => Share.nonneg thread.share)
      state.thread different) _

/-- The invariant of the word makes a lock of the counterpart exclusive. -/
theorem Refines.exclusive
    {state : State ι}
    {atomic : Atomic.State ι}
    (refines : state.Refines atomic) :
    atomic.Exclusive := by
  have sole := refines.inv.ledger.sole
  have alone := refines.inv.ledger.alone
  constructor
  · intro actor
    obtain ⟨locks, readLocks⟩ := (refines.threads actor).alive
    have lower := state.share_le_total actor
    rw [Share.le_iff] at lower
    refine ⟨by omega, ?_⟩
    rw [Ne, ← List.length_eq_zero_iff, ← List.length_eq_zero_iff]
    omega
  · intro actor other different
    obtain ⟨locks, readLocks⟩ := (refines.threads actor).alive
    obtain ⟨otherLocks, otherReadLocks⟩ := (refines.threads other).alive
    have lower := state.share_add_le_total different
    rw [Share.le_iff, Share.owner_add, Share.units_add] at lower
    rw [Ne, ← List.length_eq_zero_iff, ← List.length_eq_zero_iff,
      ← List.length_eq_zero_iff]
    omega

/-- The counterparts of the threads that a step does not perform stay. -/
theorem Refines.others
    {backend : Backend}
    {state after : State ι}
    {atomic : Atomic.State ι}
    {action : Action ι}
    {other : ι}
    (refines : state.Refines atomic)
    (step : State.Step backend state action after)
    (different : other ≠ action.actor) :
    (after.thread other).Stands after.word (atomic.thread other) := by
  obtain ⟨stage, locks, readLocks⟩ := refines.threads other
  have kept : (state.thread other).pc.Stands after.word _ :=
    stage.kept fun holds => refines.inv.phase_kept step different holds
  rcases step_other step different with same | ⟨pc, wakes, woken⟩
  · rw [same]
    exact ⟨kept, locks, readLocks⟩
  · rw [woken]
    exact ⟨kept.woken wakes, locks, readLocks⟩

/-- The step of one thread, with the counterpart it has afterwards. -/
theorem Refines.update
    {backend : Backend}
    {state after : State ι}
    {atomic : Atomic.State ι}
    {action : Action ι}
    {thread : Atomic.Thread}
    (refines : state.Refines atomic)
    (step : State.Step backend state action after)
    (stands :
      (after.thread action.actor).Stands after.word thread) :
    after.Refines (atomic.setThread after.phase action.actor thread) := by
  refine ⟨refines.inv.step step, rfl, ?_⟩
  intro other
  by_cases same : other = action.actor
  · rw [same, Atomic.State.setThread_self]
    exact stands
  · rw [Atomic.State.setThread_other _ _ same]
    exact refines.others step same

omit [DecidableEq ι] [Fintype ι] in
/-- The end of local code and its counterpart. -/
theorem continue_stands
    {word : U32}
    {stage : Stage}
    {thread continued : Thread}
    {atomic : Atomic.Thread}
    {pc : Pc}
    (stands : thread.Stands word atomic)
    (after : U32)
    (continues : thread.continue (.goto pc) = .ok continued)
    (goes : pc.Stands after stage) :
    continued.Stands after { atomic with stage := stage } := by
  obtain rfl := Except.ok.inj continues
  exact ⟨goes, stands.locks, stands.readLocks⟩

omit [DecidableEq ι] [Fintype ι] in
/-- A returned result and its counterpart. -/
theorem finish_stands
    {word : U32}
    {thread continued : Thread}
    {atomic : Atomic.Thread}
    {result : Result}
    (stands : thread.Stands word atomic)
    (after : U32)
    (continues : thread.continue (.ret result) = .ok continued) :
    continued.Stands after (atomic.finish result) := by
  obtain rfl := Except.ok.inj continues
  exact ⟨rfl, congrArg (result.locks ++ ·) stands.locks,
    congrArg (result.readLocks ++ ·) stands.readLocks⟩

/-- An instruction is answered by a commit, a return or nothing. -/
theorem Refines.instruction
    {backend : Backend}
    {state after : State ι}
    {atomic : Atomic.State ι}
    {action : Action ι}
    {next : Next}
    (refines : state.Refines atomic)
    (step : State.Step backend state action after)
    (continues :
      (state.thread action.actor).continue next =
        .ok (after.thread action.actor))
    (settles :
      next.Settles state.phase (atomic.thread action.actor).stage
        after.word) :
    ∃ final,
      Exec Atomic.State.Step atomic (next.label action.actor).toList final ∧
        after.Refines final := by
  have stands := refines.threads action.actor
  rcases settles with ⟨assertion, rfl⟩ | ⟨settled, settles, ends⟩
  · cases continues
  rw [← refines.phase] at settles
  cases next with
  | panic assertion => cases continues
  | goto pc =>
      have refined :=
        refines.update step (continue_stands stands _ continues ends)
      rcases settles with ⟨rfl, same⟩ | commits
      · have same : after.phase = atomic.phase := same
        rw [same, Atomic.State.setThread_eq_self] at refined
        exact ⟨atomic, .refl, refined⟩
      · exact ⟨_, .single (.commit commits refined.exclusive), refined⟩
  | ret result =>
      obtain rfl := ends
      have refined :=
        refines.update step (finish_stands stands after.word continues)
      rcases settles with ⟨answered, same⟩ | commits
      · have same : after.phase = atomic.phase := same
        rw [same] at refined
        exact ⟨_, .single (.ret answered.symm), refined⟩
      · exact ⟨_, Atomic.State.exec_commit_ret commits refined.exclusive,
          refined⟩

/-- The atomic locker answers each step of the futex locker. -/
theorem simulates (backend : Backend) :
    Simulates (Visible backend) Atomic.State.Step
      (Refines : State ι → Atomic.State ι → Prop) := by
  refine ⟨?_⟩
  rintro state after atomic _ refines ⟨action, step, rfl⟩
  have stands := refines.threads action.actor
  cases actorStep step with
  | @start actor op thread starts result =>
      subst result
      obtain ⟨next, answers, started⟩ := stands.start starts
      refine ⟨_, .single (.start answers), ?_⟩
      rw [refines.phase]
      apply refines.update step
      change ((state.setThread actor thread).thread actor).Stands _ _
      rw [setThread_self]
      exact started
  | @interrupt actor pc interrupts result =>
      subst result
      refine ⟨atomic, .refl, refines.inv.step step, refines.phase, ?_⟩
      intro other
      by_cases same : other = actor
      · subst same
        rw [setThread_self]
        exact ⟨stands.stage.interrupted interrupts, stands.locks,
          stands.readLocks⟩
      · exact refines.others step same
  | @instruction action next ending continues ends =>
      have shows : state.label backend action = next.label action.actor := by
        cases action with
        | start actor op => cases ending
        | interrupt actor => cases ending
        | run actor spurious => simp [State.label, ending]
        | wake actor picked => simp [State.label, ending]
      rw [shows]
      apply refines.instruction step continues
      exact ends (fun after next => next.Settles state.phase _ after)
        (Pc.instr_settles (refines.inv.relies action.actor).1 stands.stage)

omit [DecidableEq ι] in
/-- A fresh locker. -/
theorem Refines.init
    [DecidableEq ι]
    (phase : Phase) :
    (State.init ι phase).Refines (Atomic.State.init ι phase) where
  inv := Inv.init phase
  phase := (Phase.fromBitsTruncate_bits phase).symm
  threads _ := ⟨rfl, rfl, rfl⟩

/--
The futex locker is linearizable: what its callers see of any interleaving of
its instructions, they may see of the atomic locker, with the phase and the
guards that the word and the threads have in the end.
-/
theorem linearizable
    {backend : Backend}
    {phase : Phase}
    {trace : List (Atomic.Label ι)}
    {state : State ι}
    (exec : Exec (Visible backend) (State.init ι phase) trace state) :
    ∃ atomic,
      Exec Atomic.State.Step (Atomic.State.init ι phase) trace atomic ∧
        atomic.phase = state.phase ∧
        ∀ actor,
          (atomic.thread actor).locks = (state.thread actor).locks ∧
            (atomic.thread actor).readLocks =
              (state.thread actor).readLocks := by
  obtain ⟨atomic, answers, refines⟩ :=
    (simulates backend).exec (Refines.init phase) exec
  exact ⟨atomic, answers, refines.phase, fun actor =>
    ⟨(refines.threads actor).locks, (refines.threads actor).readLocks⟩⟩

/-- Perform one action, if it is possible and no assertion fails. -/
def advance
    (backend : Backend)
    (state : State ι)
    (action : Action ι) : Option (State ι) :=
  match state.exec backend action with
  | some (.ok after) => some after
  | _ => none

theorem step_of_advance
    {backend : Backend}
    {state after : State ι}
    {action : Action ι}
    (advances : state.advance backend action = some after) :
    Step backend state action after := by
  unfold advance at advances
  split at advances
  case h_1 executed =>
    obtain rfl := Option.some.inj advances
    exact executed
  case h_2 => cases advances

/-- A writer that has to wait for a reader, seen from outside. -/
theorem linearizable_waiting :
    ∃ atomic,
      Exec Atomic.State.Step (Atomic.State.init (Fin 2) .empty)
        [.start 0 (.tryLock (fun _ => .read) .empty),
          .ret 0 (.locked (some (.read ⟨.empty⟩))),
          .start 1
            (.lock ⟨fun _ => .write, fun _ => .write⟩ .initialized),
          .start 0 (.dropReadLock 0),
          .ret 0 .dropped,
          .ret 1 (.locked (some (.write ⟨.empty, .empty⟩)))]
        atomic := by
  obtain ⟨final, performed⟩ :
      ∃ final,
        runTrace (advance .linux) (State.label .linux)
            (State.init (Fin 2) .empty)
            [.start 0 (.tryLock (fun _ => .read) .empty),
              .run 0 false,
              .start 1
                (.lock ⟨fun _ => .write, fun _ => .write⟩ .initialized),
              .run 1 false, .run 1 false, .run 1 false,
              .start 0 (.dropReadLock 0),
              .run 0 false,
              .run 1 false] =
          some (_, final) :=
    ⟨_, rfl⟩
  obtain ⟨atomic, answers, -⟩ :=
    linearizable (.of_runTrace step_of_advance performed)
  exact ⟨atomic, answers⟩

end State

end StaticInit.Sync
