import StaticInit.PhaseLocker.Sync.Endings
import StaticInit.PhaseLocker.Sync.Quiescence

namespace StaticInit.Sync

/-!
# The transfer of a lock, step by step

At most one thread passes the lock on at a time.  A transfer begins at the drop
of a guard or at a conversion, goes through the places of `transfer_lock` and
`wake_readers` in their order, and is the only code that counts fairness or
takes the write waiter bit away.
-/

open LockWord (view)

/-- What a transfer holds. -/
theorem Pc.transfers_share
    {pc : Pc}
    (transfers : pc.transfers = true) :
    pc.share.owner + pc.share.passing = 1 ∨
      pc.share.waker = 1 ∧ 0 < pc.share.units := by
  cases pc with
  | transferPrefer cur next => exact .inl rfl
  | transferXor preference cur next => exact .inl rfl
  | transferFairness preference cur next => exact .inl rfl
  | transferWake preference cur next => exact .inl rfl
  | transferAnd preference next => exact .inl rfl
  | wakeXor toUnactivate waker =>
      cases waker with
      | converting converter => exact .inr ⟨rfl, Nat.one_pos⟩
      | releasing next =>
          left
          rw [Pc.share, Waker.share]
          split
          case isTrue => rfl
          case isFalse => rfl
  | wakeFairness waker => exact .inr ⟨rfl, Nat.succ_pos _⟩
  | _ => cases transfers

namespace State

variable {ι : Type} [DecidableEq ι] [Fintype ι]

/-- Transfers do not overlap. -/
theorem Inv.sole_transfer
    {state : State ι}
    {actor other : ι}
    (inv : state.Inv)
    (transfers : (state.thread actor).pc.transfers = true)
    (different : other ≠ actor) :
    (state.thread other).pc.transfers = false := by
  by_contra also
  rw [Bool.not_eq_false] at also
  have ledger := inv.ledgerOf actor
  have lower := state.share_le_rest different
  rw [Share.le_iff, Thread.share] at lower
  simp only [Share.units_add, Share.owner_add, Share.passing_add,
    Share.waker_add] at lower
  have sole := ledger.sole
  have alone := ledger.alone
  have waker := ledger.waker
  simp only [Share.units_add, Share.owner_add, Share.passing_add,
    Share.waker_add] at sole alone waker
  rcases Pc.transfers_share transfers with mine | ⟨mine, some⟩ <;>
    rcases Pc.transfers_share also with theirs | ⟨theirs, others⟩ <;>
      omega

/-- Who signals a writer is not next to a transfer. -/
theorem Inv.silent_of_transfer
    {state : State ι}
    {actor other : ι}
    (inv : state.Inv)
    {cur : U32}
    {next : After}
    (place : (state.thread actor).pc = .transferPrefer cur next) :
    (state.thread other).pc.signalsWriter = false := by
  by_cases same : other = actor
  · subst same
    rw [place]
    rfl
  by_contra signals
  rw [Bool.not_eq_false] at signals
  have owns : (state.thread other).pc.share.owner = 1 := by
    cases pc : (state.thread other).pc with
    | transferFairness preference cur next => rfl
    | transferWake preference cur next => rfl
    | writerOr closures => rfl
    | writerCountSub closures res =>
        rw [pc] at signals
        cases res with
        | true => rfl
        | false => cases signals
    | _ =>
        rw [pc] at signals
        cases signals
  have sole := (inv.ledgerOf actor).sole
  have lower := state.share_le_rest same
  rw [Share.le_iff, Thread.share] at lower
  simp only [Share.owner_add] at lower
  rw [place] at sole
  simp only [Pc.share, Share.owner_add, Share.passing_add] at sole
  omega

/-- While a lock is passed on, parked writers have their bit set. -/
theorem writeWaiter_of_transfer
    {state : State ι}
    {actor waiting : ι}
    {cur : U32}
    {next : After}
    (inv : state.Inv)
    (heard : state.HeardWriters)
    (place : (state.thread actor).pc = .transferPrefer cur next)
    (parked : (state.thread waiting).pc.parkedAsWriter = true) :
    (view state.word).writeWaiter = true := by
  rcases heard waiting parked with set | ⟨other, signals⟩
  · exact set
  · rw [inv.silent_of_transfer place] at signals
    cases signals

section Steps

variable {backend : Backend} {state after : State ι} {action : Action ι}

/-- A thread that has an instruction does not start or return from a wait. -/
theorem step_instr
    (busy : (state.thread action.actor).pc.instr backend ≠ .rest)
    (step : State.Step backend state action after) :
    (∃ spurious,
        state.runInstr action.actor spurious
            ((state.thread action.actor).pc.instr backend) =
          some (.ok after)) ∨
      ∃ picked,
        state.wakeInstr action.actor picked
            ((state.thread action.actor).pc.instr backend) =
          some (.ok after) := by
  unfold State.Step at step
  cases action with
  | start actor op =>
      rw [State.exec, Option.map_eq_some_iff] at step
      obtain ⟨thread, starts, -⟩ := step
      have idle := (Thread.start_cases starts).1
      exact absurd (congrArg (Pc.instr backend) idle) busy
  | run actor spurious => exact .inl ⟨spurious, step⟩
  | wake actor picked => exact .inr ⟨picked, step⟩
  | interrupt actor =>
      rw [State.exec, Option.map_eq_some_iff] at step
      obtain ⟨pc, interrupts, -⟩ := step
      have waits := (Pc.interrupted_awake interrupts).1
      refine absurd ?_ busy
      change (state.thread actor).pc.instr backend = .rest
      cases place : (state.thread actor).pc with
      | parkedWriter closures => rfl
      | parkedReader closures => rfl
      | parkedClone guard => rfl
      | _ =>
          rw [place] at waits
          cases waits

/-- A thread before a fetch of the word. -/
theorem step_fetch
    {update : U32 → U32}
    {next : U32 → Next}
    (instr :
      (state.thread action.actor).pc.instr backend = .fetch update next)
    (step : State.Step backend state action after) :
    after.word = update state.word ∧ after.fairness = state.fairness ∧
      (state.thread action.actor).continue (next state.word) =
        .ok (after.thread action.actor) := by
  have busy : (state.thread action.actor).pc.instr backend ≠ .rest := by
    rw [instr]
    exact Instr.noConfusion
  rcases step_instr busy step with ⟨spurious, runs⟩ | ⟨picked, wakes⟩
  · rw [instr] at runs
    obtain ⟨thread, continues, rfl⟩ := finish_ok (Option.some.inj runs)
    refine ⟨rfl, rfl, ?_⟩
    rw [setThread_self]
    exact continues
  · rw [instr] at wakes
    cases wakes

/-- A thread before a fetch of the fairness counter. -/
theorem step_fetchFairness
    {update : BitVec 16 → BitVec 16}
    {next : BitVec 16 → Next}
    (instr :
      (state.thread action.actor).pc.instr backend =
        .fetchFairness update next)
    (step : State.Step backend state action after) :
    after.word = state.word ∧ after.fairness = update state.fairness ∧
      (state.thread action.actor).continue (next state.fairness) =
        .ok (after.thread action.actor) := by
  have busy : (state.thread action.actor).pc.instr backend ≠ .rest := by
    rw [instr]
    exact Instr.noConfusion
  rcases step_instr busy step with ⟨spurious, runs⟩ | ⟨picked, wakes⟩
  · rw [instr] at runs
    obtain ⟨thread, continues, rfl⟩ := finish_ok (Option.some.inj runs)
    refine ⟨rfl, rfl, ?_⟩
    rw [setThread_self]
    exact continues
  · rw [instr] at wakes
    cases wakes

/-- A thread before the wake of a writer: somebody is woken, or nobody is parked. -/
theorem step_wakeOneWriter
    {next : Bool → Next}
    (instr :
      (state.thread action.actor).pc.instr backend = .wakeOneWriter next)
    (step : State.Step backend state action after) :
    after.word = state.word ∧ after.fairness = state.fairness ∧
      ∃ woken,
        (state.thread action.actor).continue (next woken) =
            .ok (after.thread action.actor) ∧
          (woken = false →
            ∀ other, (state.thread other).pc.parkedAsWriter = false) := by
  have busy : (state.thread action.actor).pc.instr backend ≠ .rest := by
    rw [instr]
    exact Instr.noConfusion
  rcases step_instr busy step with ⟨spurious, runs⟩ | ⟨picked, wakes⟩
  · rw [instr] at runs
    cases runs
  · rcases wakeInstr_outcome wakes with
      ⟨found, same, canWake, finishes⟩ | ⟨found, same, -, -⟩
    · obtain rfl := Instr.wakeOneWriter.inj (instr.symm.trans same)
      obtain ⟨thread, continues, rfl⟩ := finish_ok finishes.symm
      rw [wakePicked_self canWake (wokenWriter_none_of_wake instr)]
        at continues
      refine ⟨rfl, rfl, picked.length == 1, ?_, ?_⟩
      · rw [setThread_self]
        exact continues
      · intro nobody other
        have none : picked = [] := by
          have few := canWake.2.2.1
          cases picked with
          | nil => rfl
          | cons first others =>
              cases others with
              | nil => cases nobody
              | cons second others =>
                  simp only [List.length_cons] at few
                  omega
        subst none
        have absent : other ∉ ([] : List ι) := List.not_mem_nil
        have left := canWake.nobody_left Nat.one_pos absent
        by_contra parked
        rw [Bool.not_eq_false] at parked
        rw [Pc.wokenWriter_isSome parked] at left
        cases left
    · rw [instr] at same
      cases same

end Steps

end State

/-- Where the head of the loop of `transfer_lock` leads. -/
inductive LoopsTo (preference : Preference) (cur : U32) (next : After) : Pc → Prop where
  | takes
      (marked : (view cur).writeWaiter = true)
      (readers : preference = .readers → (view cur).readWaiter = false) :
      LoopsTo preference cur next (.transferXor preference cur next)
  | wakes
      (marked : (view cur).readWaiter = true)
      (writer : preference = .writer → (view cur).writeWaiter = false) :
      LoopsTo preference cur next (.wakeXor 0 (.releasing next))
  | releases
      (preferred : preference = .writer)
      (writers : (view cur).writeWaiter = false)
      (readers : (view cur).readWaiter = false) :
      LoopsTo preference cur next (.transferAnd preference next)

theorem writeWaiterBit_zero
    {cur : U32}
    (unmarked : ¬(cur &&& writeWaiterBit != 0) = true) :
    (view cur).writeWaiter = false := by
  rwa [writeWaiterBit_ne_iff, Bool.not_eq_true] at unmarked

theorem readWaiterBit_zero
    {cur : U32}
    (unmarked : ¬(cur &&& readWaiterBit != 0) = true) :
    (view cur).readWaiter = false := by
  rwa [readWaiterBit_ne_iff, Bool.not_eq_true] at unmarked

/-- A thread goes on from the head of the loop of `transfer_lock`. -/
theorem loopsTo_of_continue
    {preference : Preference}
    {cur : U32}
    {next : After}
    {thread continued : Thread}
    (continues :
      thread.continue (transferLoop preference cur next) = .ok continued) :
    LoopsTo preference cur next continued.pc := by
  cases preference with
  | writer =>
      dsimp only [transferLoop] at continues
      split at continues
      case isTrue marked =>
        obtain rfl := Except.ok.inj continues
        exact .takes ((writeWaiterBit_ne_iff cur).mp marked) Preference.noConfusion
      case isFalse unmarked =>
        split at continues
        case isTrue marked =>
          obtain rfl := Except.ok.inj continues
          exact .wakes ((readWaiterBit_ne_iff cur).mp marked)
            fun _ => writeWaiterBit_zero unmarked
        case isFalse absent =>
          obtain rfl := Except.ok.inj continues
          exact .releases rfl (writeWaiterBit_zero unmarked)
            (readWaiterBit_zero absent)
  | readers =>
      dsimp only [transferLoop] at continues
      split at continues
      case isTrue marked =>
        obtain rfl := Except.ok.inj continues
        exact .wakes ((readWaiterBit_ne_iff cur).mp marked) Preference.noConfusion
      case isFalse unmarked =>
        unfold Next.assert at continues
        split at continues
        case isTrue marked =>
          obtain rfl := Except.ok.inj continues
          exact .takes ((writeWaiterBit_ne_iff cur).mp marked)
            fun _ => readWaiterBit_zero unmarked
        case isFalse => cases continues

/-- Local code does not end in a transfer. -/
def Next.Untransferred : Next → Prop
  | .goto pc => pc.transfers = false
  | _ => True

theorem Next.Ordinary.untransferred
    {next : Next}
    (ordinary : next.Ordinary) :
    next.Untransferred := by
  cases next with
  | goto pc => exact ordinary.2
  | ret result => trivial
  | panic assertion => trivial

theorem Thread.continue_untransferred
    {thread continued : Thread}
    {next : Next}
    (continues : thread.continue next = .ok continued)
    (untransferred : next.Untransferred) :
    continued.pc.transfers = false := by
  cases next with
  | goto pc =>
      obtain rfl := Except.ok.inj continues
      exact untransferred
  | ret result =>
      obtain rfl := Except.ok.inj continues
      rfl
  | panic assertion => cases continues

theorem After.resume_untransferred
    {thread continued : Thread}
    (next : After)
    (continues : thread.continue next.resume = .ok continued) :
    continued.pc.transfers = false :=
  Thread.continue_untransferred continues
    next.resume_ordinary.untransferred

theorem Thread.start_untransferred
    {thread started : Thread}
    {op : UserOp}
    (starts : thread.start op = some started) :
    started.pc.transfers = false := by
  obtain ⟨idle, change⟩ := Thread.start_cases starts
  rcases change with
    ⟨call, rfl⟩ | ⟨index, lock, pc, -, rfl | rfl, rfl⟩ |
      ⟨index, lock, pc, -, rfl | rfl, rfl⟩ | ⟨index, lock, phase, -, rfl⟩
  case inr.inr.inr => rw [idle]; rfl
  all_goals rfl

theorem Pc.interrupted_untransferred
    {pc after : Pc}
    (interrupts : pc.interrupted = some after) :
    after.transfers = false := by
  cases pc with
  | parkedWriter closures =>
      obtain rfl := Option.some.inj interrupts
      rfl
  | parkedReader closures =>
      obtain rfl := Option.some.inj interrupts
      rfl
  | parkedClone guard =>
      obtain rfl := Option.some.inj interrupts
      rfl
  | _ => cases interrupts

/-- A place that changes or reads the fairness counter. -/
theorem Pc.fairness_cases
    {backend : Backend}
    {pc : Pc}
    {update : BitVec 16 → BitVec 16}
    {next : BitVec 16 → Next}
    (fetches : pc.instr backend = .fetchFairness update next) :
    pc.transfers = true := by
  cases pc with
  | optimistic call =>
      rw [Pc.instr, Call.optimistic] at fetches
      split at fetches <;> cases fetches
  | secondWrite call cur => cases call <;> cases fetches
  | transferPrefer cur next => rfl
  | transferFairness preference cur next => rfl
  | wakeFairness waker => rfl
  | _ => cases fetches

/-- Local code does not end in a transfer, or it begins one. -/
def Next.Enters (word : U32) : Next → Prop
  | .goto pc =>
      pc.transfers = false ∨
        (∃ next, pc = .transferPrefer word next) ∨
        ∃ converter, pc = .wakeXor 0 (.converting converter)
  | _ => True

theorem Next.Untransferred.enters
    {word : U32}
    {next : Next}
    (untransferred : next.Untransferred) :
    next.Enters word := by
  cases next with
  | goto pc => exact .inl untransferred
  | ret result => trivial
  | panic assertion => trivial

theorem transferLock_enters
    (word : U32)
    (next : After) :
    (transferLock word next).Enters word := by
  unfold transferLock Next.assert
  split
  case isTrue =>
    split
    case isTrue => exact .inr (.inl ⟨next, rfl⟩)
    case isFalse => trivial
  case isFalse => trivial

/-- Outside of a transfer the code goes on there, or begins a transfer. -/
theorem Pc.enters
    {backend : Backend}
    {pc : Pc}
    (word : U32)
    (outside : pc.transfers = false) :
    (pc.instr backend).Ends word fun after next => next.Enters after := by
  cases moves : pc.mayTransfer with
  | false =>
      have ordinary : (pc.instr backend).EndsBy Next.Ordinary :=
        Pc.endsOrdinary moves
      generalize instr : pc.instr backend = performed at ordinary
      have enters : ∀ {word next}, Next.Ordinary next → next.Enters word :=
        fun ends => ends.untransferred.enters
      cases performed with
      | fetch update next => exact enters (ordinary _)
      | exchange weak cur new ok err =>
          exact ⟨fun _ => enters ordinary.1, enters (ordinary.2 _)⟩
      | fetchWriterCount update next => exact fun _ => enters (ordinary _)
      | fetchFairness update next => exact fun _ => enters (ordinary _)
      | wait value parked failed =>
          refine ⟨.inl ?_, enters ordinary⟩
          rcases Pc.waits_cases instr with
            ⟨closures, -, rfl⟩ | ⟨closures, -, rfl⟩ | ⟨guard, -, rfl⟩
          · rfl
          · rfl
          · rfl
      | wakeOneWriter next => exact fun _ => enters (ordinary _)
      | wakeReaders next => exact fun _ => enters (ordinary _)
      | rest => trivial
  | true =>
      cases pc with
      | dropLockXor lock next =>
          change (lock.released next word).Enters (word ^^^ lock.releaseMask)
          unfold Lock.released
          split
          case isTrue => exact transferLock_enters _ next
          case isFalse => exact next.resume_ordinary.untransferred.enters
      | convertXor lock cur converter =>
          change (lock.converted converter word).Enters
            (word ^^^ lock.convertMask cur)
          unfold Lock.converted
          split
          case isTrue => exact .inr (.inr ⟨converter, rfl⟩)
          case isFalse => trivial
      | dropReadSub lock next =>
          change (readDropped next word).Enters (word - readerUnity)
          unfold readDropped
          split
          case isTrue => exact transferLock_enters _ next
          case isFalse => exact next.resume_ordinary.untransferred.enters
      | transferPrefer cur next => cases outside
      | transferXor preference cur next => cases outside
      | transferFairness preference cur next => cases outside
      | transferWake preference cur next => cases outside
      | transferAnd preference next => cases outside
      | wakeXor toUnactivate waker => cases outside
      | _ => cases moves

/-- Only `transfer_lock` takes the write waiter bit away. -/
theorem Pc.keepsWriteWaiter
    {backend : Backend}
    {pc : Pc}
    {word : U32}
    (relies : pc.Relies word)
    (counted : pc.share.units ≤ readerCount word)
    (elsewhere : ∀ preference cur next, pc ≠ .transferXor preference cur next) :
    (pc.instr backend).Ends word fun after _ =>
      (view word).writeWaiter = true → (view after).writeWaiter = true := by
  have same {after : U32} (same : SameWaiters word after)
      (set : (view word).writeWaiter = true) :
      (view after).writeWaiter = true := by
    rw [same.1]
    exact set
  cases touches : pc.touchesWaiters with
  | false =>
      have keeps : (pc.instr backend).KeepsWaiters word :=
        Pc.keepsWaiters touches relies counted
      generalize pc.instr backend = performed at keeps
      cases performed with
      | fetch update next => exact same keeps
      | exchange weak cur new ok err =>
          refine ⟨?_, id⟩
          rintro rfl
          exact same keeps
      | fetchWriterCount update next => exact fun _ => id
      | fetchFairness update next => exact fun _ => id
      | wait value parked failed => exact ⟨id, id⟩
      | wakeOneWriter next => exact fun _ => id
      | wakeReaders next => exact fun _ => id
      | rest => trivial
  | true =>
      have adds {mask : U32} (set : (view word).writeWaiter = true) :
          (view (word ||| mask)).writeWaiter = true := by
        rw [LockWord.view_or]
        simp [set]
      cases pc with
      | setWriteWaiter closures spinWait cur =>
          refine ⟨?_, id⟩
          rintro rfl
          exact adds
      | setReadWaiter closures spinWait cur =>
          refine ⟨?_, id⟩
          rintro rfl
          exact adds
      | cloneSetWaiter guard spinWait cur =>
          refine ⟨?_, id⟩
          rintro rfl
          exact adds
      | waitReadersCas closures spinWait cur =>
          refine ⟨?_, id⟩
          rintro rfl -
          rw [view_and_not_lockedBit, view_or_writeWaiterBit]
      | writerOr closures => exact adds
      | wakeOr count waker => exact adds
      | transferXor preference cur next =>
          exact absurd rfl (elsewhere preference cur next)
      | wakeXor toUnactivate waker =>
          intro set
          obtain ⟨-, allowed⟩ := relies
          cases waker with
          | converting converter =>
              obtain ⟨rfl, -⟩ := allowed
              simp [wakeMask, Waker.isConverting, set]
          | releasing next =>
              rcases allowed with rfl | rfl
              · simp [wakeMask, Waker.isConverting, set]
              · simp [wakeMask, Waker.isConverting, set]
      | _ => cases touches

namespace State

variable {ι : Type} [DecidableEq ι] [Fintype ι]

/-- How a step takes part in the transfer of the lock. -/
inductive Transfers
    (backend : Backend)
    (state after : State ι)
    (actor : ι) : Prop where
  | rests
      (before : (state.thread actor).pc.transfers = false)
      (later : (after.thread actor).pc.transfers = false)
      (fairness : after.fairness = state.fairness)
      (kept :
        (view state.word).writeWaiter = true →
          (view after.word).writeWaiter = true)
  | begins
      {next : After}
      (before : (state.thread actor).pc.transfers = false)
      (later : (after.thread actor).pc = .transferPrefer after.word next)
      (fairness : after.fairness = state.fairness)
      (kept :
        (view state.word).writeWaiter = true →
          (view after.word).writeWaiter = true)
  | converts
      {converter : Converter}
      (before : (state.thread actor).pc.transfers = false)
      (later : (after.thread actor).pc = .wakeXor 0 (.converting converter))
      (fairness : after.fairness = state.fairness)
      (kept :
        (view state.word).writeWaiter = true →
          (view after.word).writeWaiter = true)
  | decides
      {cur : U32}
      {next : After}
      (before : (state.thread actor).pc = .transferPrefer cur next)
      (later :
        LoopsTo
          (if backend.preferWakeOneWriter state.fairness then
            .writer
          else
            .readers)
          cur next (after.thread actor).pc)
      (fairness : after.fairness = state.fairness)
      (word : after.word = state.word)
  | takes
      {preference : Preference}
      {cur : U32}
      {next : After}
      (before :
        (state.thread actor).pc = .transferXor preference cur next)
      (later :
        (after.thread actor).pc = .transferFairness preference cur next)
      (fairness : after.fairness = state.fairness)
  | counts
      {preference : Preference}
      {cur : U32}
      {next : After}
      (before :
        (state.thread actor).pc = .transferFairness preference cur next)
      (later : (after.thread actor).pc = .transferWake preference cur next)
      (fairness : after.fairness = state.fairness + 1)
      (word : after.word = state.word)
  | hands
      {preference : Preference}
      {cur : U32}
      {next : After}
      (before :
        (state.thread actor).pc = .transferWake preference cur next)
      (later : (after.thread actor).pc.transfers = false)
      (fairness : after.fairness = state.fairness)
      (word : after.word = state.word)
  | turns
      {preference : Preference}
      {cur : U32}
      {next : After}
      (before :
        (state.thread actor).pc = .transferWake preference cur next)
      (nobody : ∀ other, (state.thread other).pc.parkedAsWriter = false)
      (later :
        (after.thread actor).pc = .wakeXor lockedBit (.releasing next) ∨
          (after.thread actor).pc = .transferAnd preference next ∧
            (preference = .writer → (view cur).readWaiter = false))
      (fairness : after.fairness = state.fairness)
      (word : after.word = state.word)
  | releases
      {preference : Preference}
      {next : After}
      (before : (state.thread actor).pc = .transferAnd preference next)
      (later :
        (after.thread actor).pc.transfers = false ∨
          LoopsTo preference after.word next (after.thread actor).pc)
      (fairness : after.fairness = state.fairness)
      (kept :
        (view state.word).writeWaiter = true →
          (view after.word).writeWaiter = true)
  | marks
      {toUnactivate : U32}
      {waker : Waker}
      (before : (state.thread actor).pc = .wakeXor toUnactivate waker)
      (later : (after.thread actor).pc = .wakeFairness waker)
      (fairness : after.fairness = state.fairness)
      (kept :
        (view state.word).writeWaiter = true →
          (view after.word).writeWaiter = true)
  | resets
      {waker : Waker}
      (before : (state.thread actor).pc = .wakeFairness waker)
      (later : (after.thread actor).pc.transfers = false)
      (fairness : after.fairness = 1)
      (word : after.word = state.word)

section

variable {backend : Backend} {state after : State ι} {action : Action ι}

/-- What holds of a thread however its operation starts, ends or goes on. -/
theorem step_ends
    {property : U32 → Next → Prop}
    (step : State.Step backend state action after)
    (ends :
      ((state.thread action.actor).pc.instr backend).Ends
        state.word property) :
    after.word = state.word ∧
        (after.thread action.actor).pc.transfers = false ∨
      ∃ next,
        (state.thread action.actor).continue next =
            .ok (after.thread action.actor) ∧
          property after.word next := by
  cases actorStep step with
  | @start actor op thread starts result =>
      subst result
      refine .inl ⟨rfl, ?_⟩
      dsimp only [Action.actor]
      rw [setThread_self]
      exact Thread.start_untransferred starts
  | @interrupt actor pc interrupts result =>
      subst result
      refine .inl ⟨rfl, ?_⟩
      dsimp only [Action.actor]
      rw [setThread_self]
      exact Pc.interrupted_untransferred interrupts
  | instruction ending continues holds =>
      exact .inr ⟨_, continues, holds property ends⟩

/-- Outside of a transfer a step leaves the fairness counter as it is. -/
theorem step_fairness
    (outside : (state.thread action.actor).pc.transfers = false)
    (step : State.Step backend state action after) :
    after.fairness = state.fairness := by
  unfold State.Step at step
  cases action with
  | start actor op =>
      rw [State.exec, Option.map_eq_some_iff] at step
      obtain ⟨thread, -, same⟩ := step
      obtain rfl := Except.ok.inj same
      rfl
  | run actor spurious =>
      obtain ⟨word, writerCount, fairness, next, outcome, finishes⟩ :=
        runInstr_outcome step
      obtain ⟨thread, -, rfl⟩ := finish_ok finishes.symm
      dsimp only [Action.actor] at outside
      generalize instr : (state.thread actor).pc.instr backend = performed
        at outcome
      cases outcome with
      | fairness update next =>
          rw [Pc.fairness_cases instr] at outside
          cases outside
      | _ => rfl
  | wake actor picked =>
      rcases wakeInstr_outcome step with
        ⟨next, -, -, finishes⟩ | ⟨next, -, -, finishes⟩
      · obtain ⟨thread, -, rfl⟩ := finish_ok finishes.symm
        rfl
      · obtain ⟨thread, -, rfl⟩ := finish_ok finishes.symm
        rfl
  | interrupt actor =>
      rw [State.exec, Option.map_eq_some_iff] at step
      obtain ⟨pc, -, same⟩ := step
      obtain rfl := Except.ok.inj same
      rfl

/-- The write waiter bit stays until a transfer takes it. -/
theorem step_writeWaiter
    (inv : state.Inv)
    (elsewhere :
      ∀ preference cur next,
        (state.thread action.actor).pc ≠ .transferXor preference cur next)
    (step : State.Step backend state action after)
    (set : (view state.word).writeWaiter = true) :
    (view after.word).writeWaiter = true := by
  have relies := (inv.relies action.actor).1
  have counted := inv.units_le action.actor
  rcases step_ends step (Pc.keepsWriteWaiter relies counted elsewhere) with ⟨same, -⟩ | ⟨next, -, kept⟩
  · rw [same]
    exact set
  · exact kept set

/-- A step outside of a transfer stays there, or begins a transfer. -/
theorem step_enters
    (inv : state.Inv)
    (outside : (state.thread action.actor).pc.transfers = false)
    (step : State.Step backend state action after) :
    Transfers backend state after action.actor := by
  have fairness := step_fairness outside step
  have kept :
      (view state.word).writeWaiter = true →
        (view after.word).writeWaiter = true := by
    apply step_writeWaiter inv _ step
    intro preference cur next place
    rw [place] at outside
    cases outside
  rcases step_ends step (Pc.enters state.word outside) with
    ⟨-, later⟩ | ⟨next, continues, enters⟩
  · exact .rests outside later fairness kept
  cases next with
  | goto pc =>
      have continues := congrArg Thread.pc (Except.ok.inj continues)
      rcases enters with later | ⟨next, rfl⟩ | ⟨converter, rfl⟩
      · exact .rests outside (continues ▸ later) fairness kept
      · exact .begins outside continues.symm fairness kept
      · exact .converts outside continues.symm fairness kept
  | ret result =>
      have continues := congrArg Thread.pc (Except.ok.inj continues)
      exact .rests outside (continues ▸ rfl) fairness kept
  | panic assertion => cases continues

/-- Every step takes part in the transfer of the lock in one of its ways. -/
theorem step_transfers
    (inv : state.Inv)
    (step : State.Step backend state action after) :
    Transfers backend state after action.actor := by
  have kept
      (elsewhere :
        ∀ preference cur next,
          (state.thread action.actor).pc ≠
            .transferXor preference cur next) :
      (view state.word).writeWaiter = true →
        (view after.word).writeWaiter = true :=
    step_writeWaiter inv elsewhere step
  cases place : (state.thread action.actor).pc with
  | transferPrefer cur next =>
      obtain ⟨word, fairness, continues⟩ :=
        step_fetchFairness (congrArg (Pc.instr backend) place) step
      refine .decides place ?_ fairness word
      split at continues
      case isTrue prefers =>
        rw [if_pos prefers]
        exact loopsTo_of_continue continues
      case isFalse prefers =>
        rw [if_neg prefers]
        exact loopsTo_of_continue continues
  | transferXor preference cur next =>
      obtain ⟨word, fairness, continues⟩ :=
        step_fetch (congrArg (Pc.instr backend) place) step
      refine .takes place ?_ fairness
      unfold Next.assert at continues
      split at continues
      case isTrue =>
        split at continues
        case isTrue =>
          exact (congrArg Thread.pc (Except.ok.inj continues)).symm
        case isFalse => cases continues
      case isFalse => cases continues
  | transferFairness preference cur next =>
      obtain ⟨word, fairness, continues⟩ :=
        step_fetchFairness (congrArg (Pc.instr backend) place) step
      exact .counts place
        (congrArg Thread.pc (Except.ok.inj continues)).symm fairness word
  | transferWake preference cur next =>
      obtain ⟨word, fairness, woken, continues, nobody⟩ :=
        step_wakeOneWriter (congrArg (Pc.instr backend) place) step
      cases woken with
      | true =>
          exact .hands place (next.resume_untransferred continues) fairness
            word
      | false =>
          refine .turns place (nobody rfl) ?_ fairness word
          cases preference with
          | writer =>
              rw [transferWoken, if_neg Bool.false_ne_true] at continues
              split at continues
              case isTrue =>
                exact .inl (congrArg Thread.pc (Except.ok.inj continues)).symm
              case isFalse unmarked =>
                refine .inr ⟨(congrArg Thread.pc
                  (Except.ok.inj continues)).symm, fun _ => ?_⟩
                simpa using readWaiterBit_zero unmarked
          | readers =>
              exact .inr ⟨(congrArg Thread.pc (Except.ok.inj continues)).symm,
                Preference.noConfusion⟩
  | transferAnd preference next =>
      have elsewhere := kept (by rw [place]; exact fun _ _ _ => Pc.noConfusion)
      obtain ⟨word, fairness, continues⟩ :=
        step_fetch (congrArg (Pc.instr backend) place) step
      refine .releases place ?_ fairness elsewhere
      unfold transferReleased Next.assert at continues
      split at continues
      case isTrue =>
        split at continues
        case isTrue => exact .inl (next.resume_untransferred continues)
        case isFalse =>
          rw [word]
          exact .inr (loopsTo_of_continue continues)
      case isFalse => cases continues
  | wakeXor toUnactivate waker =>
      have elsewhere := kept (by rw [place]; exact fun _ _ _ => Pc.noConfusion)
      obtain ⟨word, fairness, continues⟩ :=
        step_fetch (congrArg (Pc.instr backend) place) step
      refine .marks place ?_ fairness elsewhere
      unfold wakeMarked Next.assert at continues
      split at continues
      case isTrue =>
        split at continues
        case isTrue =>
          split at continues
          case isTrue =>
            exact (congrArg Thread.pc (Except.ok.inj continues)).symm
          case isFalse => cases continues
        case isFalse => cases continues
      case isFalse => cases continues
  | wakeFairness waker =>
      obtain ⟨word, fairness, continues⟩ :=
        step_fetchFairness (congrArg (Pc.instr backend) place) step
      refine .resets place ?_ fairness word
      rw [← Except.ok.inj continues]
      rfl
  | _ =>
      apply step_enters inv _ step
      rw [place]
      rfl

end

end State

end StaticInit.Sync
