import StaticInit.PhaseLocker.Sync.Assertions
import StaticInit.PhaseLocker.Sync.Descent
import StaticInit.PhaseLocker.Sync.Quiescence

namespace StaticInit.Sync

/-!
# Every wait can come to an end

As long as no thread waits behind a guard of its own, the threads can always
go on such that every call returns and every guard is dropped: there is no
deadlock, and no thread sleeps for ever.  Threads are run one at a time until
they are at rest, and the guards of those outside are dropped.
-/

open LockWord (view)

/-- A step of a thread at work, or the drop of a guard. -/
def Action.drains {ι : Type} : Action ι → Bool
  | .start _ (.dropLock _) => true
  | .start _ (.dropReadLock _) => true
  | .start _ _ => false
  | .run _ spurious => !spurious
  | .wake _ _ => true
  | .interrupt _ => false

section Waiting

def After.relocks : After → Bool
  | .relock _ => true
  | _ => false

def Waker.relocks : Waker → Bool
  | .converting _ => false
  | .releasing next => next.relocks

def Call.mayWait : Call → Bool
  | .lock _ _ => true
  | .tryLock _ _ => false

/-- The thread waits for a lock, or may come to wait for one. -/
def Pc.mayWait : Pc → Bool
  | .idle => false
  | .optimistic call => call.mayWait
  | .secondWrite call _ => call.mayWait
  | .secondRead call _ => call.mayWait
  | .dropLockCas _ next => next.relocks
  | .dropLockXor _ next => next.relocks
  | .convertXor .. => false
  | .dropReadSub _ next => next.relocks
  | .transferPrefer _ next => next.relocks
  | .transferXor _ _ next => next.relocks
  | .transferFairness _ _ next => next.relocks
  | .transferWake _ _ next => next.relocks
  | .transferAnd _ next => next.relocks
  | .wakeXor _ waker => waker.relocks
  | .wakeFairness waker => waker.relocks
  | .wakeCall waker => waker.relocks
  | .wakeOr _ waker => waker.relocks
  | .wakeSub _ waker => waker.relocks
  | _ => true

/-- Local code ends where no wait follows. -/
def Next.Free : Next → Prop
  | .goto pc => pc.mayWait = false
  | _ => True

theorem Next.assert_free
    {condition : Bool}
    {assertion : Assertion}
    {next : Next}
    (free : next.Free) :
    (Next.assert condition assertion next).Free := by
  unfold Next.assert
  split
  case isTrue => exact free
  case isFalse => trivial

theorem After.resume_free
    {next : After}
    (stays : next.relocks = false) :
    next.resume.Free := by
  cases next with
  | relock closures => cases stays
  | _ => trivial

variable {cur : U32}

theorem Call.secondFailed_free
    {call : Call}
    (tries : call.mayWait = false) :
    call.secondFailed.Free := by
  cases call with
  | lock closures hint => cases tries
  | tryLock how hint => trivial

theorem Call.second_free
    {call : Call}
    (tries : call.mayWait = false) :
    (call.second cur).Free := by
  unfold Call.second
  split
  case h_1 =>
    split
    case isTrue => exact tries
    case isFalse => exact Call.secondFailed_free tries
  case h_2 =>
    split
    case isTrue => exact tries
    case isFalse => exact Call.secondFailed_free tries
  case h_3 => trivial

theorem Call.optimisticNone_free
    {call : Call}
    (tries : call.mayWait = false) :
    (call.optimisticNone cur).Free := by
  unfold Call.optimisticNone
  split
  case isTrue => trivial
  case isFalse => exact Call.second_free tries

theorem Call.optimistic_free
    {call : Call}
    (tries : call.mayWait = false) :
    call.optimistic.EndsBy Next.Free := by
  unfold Call.optimistic
  split
  case h_1 => exact fun cur => Call.optimisticNone_free tries
  case h_2 => exact ⟨trivial, fun cur => Call.second_free tries⟩
  case h_3 => exact ⟨trivial, fun cur => Call.second_free tries⟩

theorem Call.secondReadFailed_free
    {call : Call}
    (tries : call.mayWait = false) :
    (call.secondReadFailed cur).Free := by
  cases call with
  | lock closures hint => cases tries
  | tryLock how hint =>
      simp only [secondReadFailed]
      split
      case isTrue => rfl
      case isFalse => trivial

theorem transferLock_free
    {next : After}
    (stays : next.relocks = false) :
    (transferLock cur next).Free :=
  Next.assert_free (Next.assert_free stays)

theorem transferLoop_free
    (preference : Preference)
    {next : After}
    (stays : next.relocks = false) :
    (transferLoop preference cur next).Free := by
  unfold transferLoop
  split
  case h_1 =>
    split
    case isTrue => exact stays
    case isFalse => split <;> exact stays
  case h_2 =>
    split
    case isTrue => exact stays
    case isFalse => exact Next.assert_free stays

theorem transferWoken_free
    (preference : Preference)
    {next : After}
    (stays : next.relocks = false)
    (woken : Bool) :
    (transferWoken preference cur next woken).Free := by
  unfold transferWoken
  split
  case isTrue => exact After.resume_free stays
  case isFalse =>
    cases preference with
    | writer => dsimp only; split <;> exact stays
    | readers => exact stays

theorem readDropped_free
    {next : After}
    (stays : next.relocks = false) :
    (readDropped next cur).Free := by
  unfold readDropped
  split
  case isTrue => exact transferLock_free stays
  case isFalse => exact After.resume_free stays

/-- Where no wait may follow, none follows the next instruction either. -/
theorem Pc.endsFree
    {backend : Backend}
    {pc : Pc}
    (stays : pc.mayWait = false) :
    (pc.instr backend).EndsBy Next.Free := by
  cases pc with
  | idle => trivial
  | optimistic call => exact Call.optimistic_free stays
  | secondWrite call cur =>
      cases call with
      | lock closures hint => cases stays
      | tryLock how hint => exact ⟨trivial, fun _ => trivial⟩
  | secondRead call cur =>
      exact ⟨trivial, fun _ => Call.secondReadFailed_free stays⟩
  | dropLockCas lock next => exact ⟨After.resume_free stays, fun _ => stays⟩
  | dropLockXor lock next =>
      intro word
      dsimp only [Lock.released]
      split
      case isTrue => exact transferLock_free stays
      case isFalse => exact After.resume_free stays
  | convertXor lock cur converter =>
      intro word
      dsimp only [Lock.converted]
      split
      case isTrue => rfl
      case isFalse => trivial
  | dropReadSub lock next => exact fun _ => readDropped_free stays
  | transferPrefer cur next =>
      intro fairness
      dsimp only
      split
      case isTrue => exact transferLoop_free .writer stays
      case isFalse => exact transferLoop_free .readers stays
  | transferXor preference cur next =>
      exact fun _ => Next.assert_free (Next.assert_free stays)
  | transferFairness preference cur next => exact fun _ => stays
  | transferWake preference cur next =>
      exact transferWoken_free preference stays
  | transferAnd preference next =>
      intro word
      apply Next.assert_free
      split
      case isTrue => exact After.resume_free stays
      case isFalse => exact transferLoop_free preference stays
  | wakeXor toUnactivate waker =>
      exact fun _ =>
        Next.assert_free (Next.assert_free (Next.assert_free stays))
  | wakeFairness waker => exact fun _ => stays
  | wakeCall waker =>
      intro count
      dsimp only [wakeCounted]
      split <;> exact stays
  | wakeOr count waker => exact fun _ => stays
  | wakeSub count waker =>
      intro word
      cases waker with
      | converting converter => trivial
      | releasing next => exact stays
  | _ => cases stays

end Waiting

section Threads

variable {thread continued : Thread} {next : Next}

theorem Thread.continue_free
    (continues : thread.continue next = .ok continued)
    (free : next.Free) :
    continued.pc.mayWait = false := by
  cases next with
  | goto pc =>
      obtain rfl := Except.ok.inj continues
      exact free
  | ret result =>
      obtain rfl := Except.ok.inj continues
      rfl
  | panic assertion => cases continues

/-- A thread gets guards only as its operation ends. -/
theorem Thread.continue_guards
    (continues : thread.continue next = .ok continued)
    (waits : continued.pc.mayWait = true) :
    continued.locks = thread.locks ∧
      continued.readLocks = thread.readLocks := by
  cases next with
  | goto pc =>
      obtain rfl := Except.ok.inj continues
      exact ⟨rfl, rfl⟩
  | ret result =>
      obtain rfl := Except.ok.inj continues
      cases waits
  | panic assertion => cases continues

/-- Two for each guard, and the stage of the operation. -/
def Thread.weight (thread : Thread) : Nat :=
  thread.pc.weight + 2 * (thread.locks.length + thread.readLocks.length)

theorem Thread.continue_weight
    (continues : thread.continue next = .ok continued) :
    continued.weight + thread.pc.weight = next.weight + thread.weight := by
  cases next with
  | goto pc =>
      obtain rfl := Except.ok.inj continues
      simp only [weight, Next.weight]
      omega
  | ret result =>
      obtain rfl := Except.ok.inj continues
      simp only [weight, Next.weight, Pc.weight, List.length_append]
      omega
  | panic assertion => cases continues

theorem Waker.weight_eq (waker : Waker) :
    waker.weight = 3 ∨ waker.weight = 1 := by
  cases waker with
  | converting converter => exact .inl rfl
  | releasing next => exact .inr rfl

/-- The places at rest. -/
theorem Pc.rest_cases
    {pc : Pc}
    (rests : pc.weight = 0 ∨ pc.weight = 4) :
    pc = .idle ∨ (∃ closures spinWait, pc = .slowLoad closures spinWait) ∨
      pc.parked = true := by
  have woken (waker : Waker) : ¬ (waker.weight = 0 ∨ waker.weight = 4) := by
    rcases waker.weight_eq with same | same <;> omega
  cases pc with
  | idle => exact .inl rfl
  | slowLoad closures spinWait => exact .inr (.inl ⟨closures, spinWait, rfl⟩)
  | parkedWriter closures => exact .inr (.inr rfl)
  | parkedReader closures => exact .inr (.inr rfl)
  | parkedClone guard => exact .inr (.inr rfl)
  | writerCountSub closures res => cases res <;> simp [Pc.weight] at rests
  | wakeXor toUnactivate waker => exact absurd rests (woken waker)
  | wakeFairness waker => exact absurd rests (woken waker)
  | wakeCall waker => exact absurd rests (woken waker)
  | wakeOr count waker => exact absurd rests (woken waker)
  | wakeSub count waker => exact absurd rests (woken waker)
  | _ => simp [Pc.weight] at rests

theorem Pc.mayWait_of_parked
    {pc : Pc}
    (parked : pc.parked = true) :
    pc.mayWait = true := by
  cases pc with
  | parkedWriter closures => rfl
  | parkedReader closures => rfl
  | parkedClone guard => rfl
  | _ => cases parked

theorem Pc.weight_wokenWriter
    {pc woken : Pc}
    (wakes : pc.wokenWriter = some woken) :
    pc.weight = woken.weight + 1 := by
  cases pc with
  | parkedWriter closures =>
      obtain rfl := Option.some.inj wakes
      rfl
  | _ => cases wakes

theorem Pc.weight_wokenReader
    {pc woken : Pc}
    (wakes : pc.wokenReader = some woken) :
    pc.weight = woken.weight + 1 := by
  cases pc with
  | parkedReader closures =>
      obtain rfl := Option.some.inj wakes
      rfl
  | parkedClone guard =>
      obtain rfl := Option.some.inj wakes
      rfl
  | _ => cases wakes

end Threads

namespace State

variable {ι : Type} [DecidableEq ι]

omit [DecidableEq ι] in
/-- An instruction that does not park ends as all its ends do. -/
theorem Outcome.endsBy
    {state : State ι}
    {instr : Instr}
    {property : Next → Prop}
    {word : U32}
    {writerCount : BitVec 32}
    {fairness : BitVec 16}
    {next : Next}
    (outcome : state.Outcome instr word writerCount fairness next)
    (ends : instr.EndsBy property) :
    property next ∨ ∃ value parked failed, instr = .wait value parked failed := by
  cases outcome with
  | fetch update next => exact .inl (ends _)
  | exchanged same => exact .inl ends.1
  | notExchanged failed => exact .inl (ends.2 _)
  | counted update next => exact .inl (ends _)
  | fairness update next => exact .inl (ends _)
  | waited same => exact .inr ⟨_, _, _, rfl⟩
  | notWaited => exact .inl ends

variable [Fintype ι]

/-- A step towards a locker that nobody uses. -/
def DrainStep
    (backend : Backend)
    (state : State ι)
    (action : Action ι)
    (after : State ι) : Prop :=
  State.Step backend state action after ∧ action.drains = true

variable {backend : Backend} {tolerance : GeneratorTolerance}
  {state after : State ι} {action : Action ι} {actor : ι}

/-- Dropping guards is a use of the locker as the crate makes it. -/
theorem DrainStep.crateStep
    (step : state.DrainStep backend action after) :
    state.CrateStep backend tolerance action after := by
  refine ⟨step.1, ?_⟩
  rintro actor op rfl
  cases op with
  | dropLock index => exact .dropLock index
  | dropReadLock index => exact .dropReadLock index
  | _ => cases step.2

/-- A thread that waits or may come to wait holds no guard. -/
def HandsFree (state : State ι) : Prop :=
  ∀ actor,
    (state.thread actor).pc.mayWait = true →
      (state.thread actor).locks = [] ∧ (state.thread actor).readLocks = []

omit [DecidableEq ι] [Fintype ι] in
/-- A woken thread was waiting. -/
theorem Woken.mayWait
    {before after : Thread}
    (woken : Woken before after) :
    before.pc.mayWait = true :=
  Pc.mayWait_of_parked woken.was_parked.1

omit [DecidableEq ι] [Fintype ι] in
/-- A step of a thread keeps its hands free. -/
theorem HandsFree.continue
    {before : State ι}
    {next : Next}
    {thread : Thread}
    (handsFree : state.HandsFree)
    (kept : before.thread actor = state.thread actor)
    (continues : (before.thread actor).continue next = .ok thread)
    (ends : (state.thread actor).pc.mayWait = false → next.Free)
    (waits : thread.pc.mayWait = true) :
    thread.locks = [] ∧ thread.readLocks = [] := by
  obtain ⟨locks, readLocks⟩ := Thread.continue_guards continues waits
  rw [locks, readLocks, kept]
  apply handsFree actor
  by_contra stays
  rw [Bool.not_eq_true] at stays
  cases waits.symm.trans (Thread.continue_free continues (ends stays))

/-- No step of a draining locker lets a thread wait with a guard. -/
theorem HandsFree.step
    (handsFree : state.HandsFree)
    (step : state.DrainStep backend action after) :
    after.HandsFree := by
  intro other waits
  by_cases moves : other = action.actor
  case neg =>
    rcases step_other step.1 moves with same | woken
    · rw [same] at waits ⊢
      exact handsFree other waits
    · have free := handsFree other woken.mayWait
      obtain ⟨pc, -, same⟩ := woken
      rw [same]
      exact free
  subst moves
  obtain ⟨step, drains⟩ := step
  unfold State.Step at step
  cases action with
  | start actor op =>
      rw [State.exec, Option.map_eq_some_iff] at step
      obtain ⟨thread, starts, same⟩ := step
      obtain rfl := Except.ok.inj same
      simp only [Action.actor, setThread_self] at waits
      unfold Thread.start at starts
      split at starts
      case h_1 idle =>
        cases op with
        | dropLock index =>
            obtain ⟨lock, -, rfl⟩ := Option.map_eq_some_iff.mp starts
            cases waits
        | dropReadLock index =>
            obtain ⟨lock, -, rfl⟩ := Option.map_eq_some_iff.mp starts
            cases waits
        | _ => cases drains
      case h_2 => cases starts
  | run actor spurious =>
      obtain ⟨word, writerCount, fairness, next, outcome, finishes⟩ :=
        runInstr_outcome step
      obtain ⟨thread, continues, rfl⟩ := finish_ok finishes.symm
      simp only [Action.actor, setThread_self] at waits ⊢
      apply handsFree.continue rfl continues _ waits
      intro stays
      rcases outcome.endsBy (Pc.endsFree stays) with free | ⟨_, _, _, parks⟩
      · exact free
      · rcases Pc.waits_cases parks with
          ⟨closures, place, -⟩ | ⟨closures, place, -⟩ | ⟨guard, place, -⟩
        all_goals
          rw [place] at stays
          cases stays
  | wake actor picked =>
      rcases wakeInstr_outcome step with
        ⟨next, instr, canWake, finishes⟩ | ⟨next, instr, canWake, finishes⟩
      · obtain ⟨thread, continues, rfl⟩ := finish_ok finishes.symm
        simp only [Action.actor, setThread_self] at waits ⊢
        have kept := wakePicked_self canWake (wokenWriter_none_of_wake instr)
        apply handsFree.continue kept continues _ waits
        intro stays
        have ends : ((state.thread actor).pc.instr backend).EndsBy Next.Free :=
          Pc.endsFree stays
        rw [instr] at ends
        exact ends _
      · obtain ⟨thread, continues, rfl⟩ := finish_ok finishes.symm
        simp only [Action.actor, setThread_self] at waits ⊢
        have kept := wakePicked_self canWake (wokenReader_none_of_wake instr)
        apply handsFree.continue kept continues _ waits
        intro stays
        have ends : ((state.thread actor).pc.instr backend).EndsBy Next.Free :=
          Pc.endsFree stays
        rw [instr] at ends
        exact ends _
  | interrupt actor => cases drains

/-- What a locker keeps while it is drained. -/
structure Drainable
    (tolerance : GeneratorTolerance)
    (state : State ι) : Prop where
  heeded : state.Heeded tolerance
  handsFree : state.HandsFree

theorem Drainable.step
    (drainable : state.Drainable tolerance)
    (step : state.DrainStep backend action after) :
    after.Drainable tolerance :=
  ⟨drainable.heeded.step step.crateStep, drainable.handsFree.step step⟩

/-- What the operations and the guards of all threads still have to do. -/
def weight (state : State ι) : Nat :=
  tally Thread.weight state.thread

theorem weight_setThread
    (state : State ι)
    (actor : ι)
    (thread : Thread) :
    (state.setThread actor thread).weight + (state.thread actor).weight =
      thread.weight + state.weight := by
  rw [weight, setThread, tally_update, weight,
    tally_eq_add_others Thread.weight state.thread actor]
  omega

/-- Woken threads are one stage further. -/
theorem weight_wakePicked
    {woken : Pc → Option Pc}
    {limit : Nat}
    {picked : List ι}
    (lighter :
      ∀ pc later, woken pc = some later → pc.weight = later.weight + 1)
    (canWake : state.CanWake woken limit picked) :
    state.weight = (state.wakePicked woken picked).weight + picked.length := by
  have gained :
      ∀ other ∈ picked.toFinset,
        (state.thread other).weight =
          ((state.wakePicked woken picked).thread other).weight + 1 := by
    intro other member
    rw [List.mem_toFinset] at member
    obtain ⟨later, wakes⟩ :=
      Option.isSome_iff_exists.mp (canWake.2.1 other member)
    simp only [wakePicked, member, if_true, wakeThread, wakes, Thread.weight,
      lighter _ _ wakes]
    omega
  have kept :
      ∀ other, other ∉ picked.toFinset →
        state.thread other = (state.wakePicked woken picked).thread other := by
    intro other absent
    rw [List.mem_toFinset] at absent
    simp [wakePicked, absent]
  have sum := tally_gained Thread.weight gained kept
  rw [List.toFinset_card_of_nodup canWake.1] at sum
  simpa [weight] using sum

omit [DecidableEq ι] in
/-- There are always threads to pick, if only none. -/
theorem exists_canWake
    (state : State ι)
    (woken : Pc → Option Pc)
    (limit : Nat) :
    ∃ picked, state.CanWake woken limit picked := by
  let parked :=
    Finset.univ.filter fun actor => (woken (state.thread actor).pc).isSome
  refine ⟨parked.toList.take limit, ?_, ?_, List.length_take_le _ _, ?_⟩
  · exact parked.nodup_toList.sublist (List.take_sublist _ _)
  · intro actor member
    have listed := Finset.mem_toList.mp (List.mem_of_mem_take member)
    exact (Finset.mem_filter.mp listed).2
  · intro few actor isParked
    rw [List.length_take] at few
    have short : parked.toList.length ≤ limit := by omega
    rw [List.take_of_length_le short, Finset.mem_toList]
    exact Finset.mem_filter.mpr ⟨Finset.mem_univ actor, isParked⟩

omit [Fintype ι] in
/-- An instruction of a thread that is alone at work. -/
theorem runInstr_lowers
    {instr : Instr}
    {weight bound : Nat}
    (lowers : instr.Lowers weight bound state.word)
    (runs : state.runInstr actor false instr = some (.ok after)) :
    ∃ word writerCount fairness next thread,
      next.Lowers weight bound word ∧
        (state.thread actor).continue next = .ok thread ∧
        after =
          State.setThread
            { state with
              word := word
              writerCount := writerCount
              fairness := fairness }
            actor thread := by
  have ends :
      ∀ {word writerCount fairness next},
        State.finish
            { state with
              word := word
              writerCount := writerCount
              fairness := fairness }
            actor next = .ok after →
          next.Lowers weight bound word →
            ∃ word writerCount fairness next thread,
              next.Lowers weight bound word ∧
                (state.thread actor).continue next = .ok thread ∧
                after =
                  State.setThread
                    { state with
                      word := word
                      writerCount := writerCount
                      fairness := fairness }
                    actor thread := by
    intro word writerCount fairness next finishes lowers
    obtain ⟨thread, continues, rfl⟩ := finish_ok finishes
    exact ⟨word, writerCount, fairness, next, thread, lowers, continues, rfl⟩
  cases instr with
  | fetch update next => exact ends (Option.some.inj runs) lowers
  | exchange weak cur new ok err =>
      have runs := Option.some.inj runs
      rw [Bool.and_false] at runs
      split at runs
      case isTrue taken => exact ends runs (lowers.1 taken.1)
      case isFalse failed =>
        exact ends runs (lowers.2 fun same => failed ⟨same, rfl⟩)
  | fetchWriterCount update next => exact ends (Option.some.inj runs) (lowers _)
  | fetchFairness update next => exact ends (Option.some.inj runs) (lowers _)
  | wait value parked failed =>
      have runs := Option.some.inj runs
      split at runs
      case isTrue same => exact ends runs (lowers.1 same)
      case isFalse different => exact ends runs (lowers.2 different)
  | _ => cases runs

/-- A thread moved on within its stage, and no other thread moved. -/
structure Nearer (state after : State ι) (actor : ι) : Prop where
  weight : after.weight = state.weight
  others : ∀ other ≠ actor, after.thread other = state.thread other
  stage : (after.thread actor).pc.weight = (state.thread actor).pc.weight
  left :
    (after.thread actor).pc.left after.word <
      (state.thread actor).pc.left state.word

/-- What local code that lowers what is left does to the state. -/
theorem lowers_continue
    {before : State ι}
    {next : Next}
    {thread : Thread}
    (kept : before.thread = state.thread)
    (lowers :
      next.Lowers (state.thread actor).pc.weight
        ((state.thread actor).pc.left state.word) before.word)
    (continues : (state.thread actor).continue next = .ok thread) :
    (before.setThread actor thread).weight < state.weight ∨
      Nearer state (before.setThread actor thread) actor := by
  have whole : before.weight = state.weight := by rw [weight, kept, weight]
  have changed := before.weight_setThread actor thread
  have continued := Thread.continue_weight continues
  rw [whole, kept] at changed
  rcases lowers with lighter | ⟨pc, rfl, same, nearer⟩
  · left
    omega
  · right
    obtain rfl := Except.ok.inj continues
    rw [Next.weight] at continued
    refine ⟨by omega, ?_, ?_, ?_⟩
    · intro other different
      rw [setThread_other _ different, kept]
    · rw [setThread_self]
      exact same
    · rw [setThread_self]
      exact nearer

omit [Fintype ι] in
theorem wakePicked_nil (state : State ι) (woken : Pc → Option Pc) :
    state.wakePicked woken [] = state := by
  simp [wakePicked]

/-- A wake takes its thread on, or makes those that it finds lighter. -/
theorem wake_lowers
    {woken : Pc → Option Pc}
    {limit : Nat}
    {picked : List ι}
    {next : Nat → Next}
    (lighter :
      ∀ pc later, woken pc = some later → pc.weight = later.weight + 1)
    (canWake : state.CanWake woken limit picked)
    (running : woken (state.thread actor).pc = none)
    (allLight :
      ∀ count, (next count).weight ≤ (state.thread actor).pc.weight)
    (lowers :
      (next 0).Lowers (state.thread actor).pc.weight
        ((state.thread actor).pc.left state.word) state.word)
    (finishes :
      (state.wakePicked woken picked).finish actor (next picked.length) =
        .ok after) :
    after.weight < state.weight ∨ Nearer state after actor := by
  obtain ⟨thread, continues, rfl⟩ := finish_ok finishes
  cases picked with
  | nil =>
      rw [wakePicked_nil] at continues ⊢
      exact lowers_continue rfl lowers continues
  | cons first rest =>
      left
      rw [wakePicked_self canWake running] at continues
      have sum := state.weight_wakePicked lighter canWake
      have changed :=
        (state.wakePicked woken (first :: rest)).weight_setThread actor thread
      rw [wakePicked_self canWake running] at changed
      have continued := Thread.continue_weight continues
      have light := allLight (first :: rest).length
      rw [List.length_cons] at sum
      omega

/-- A thread that is about to be counted is not, so there is room for it. -/
theorem countedWriters_lt
    (counts : (state.thread actor).pc.countsWriter = true) :
    state.countedWriters < Fintype.card ι := by
  have uncounted : (state.thread actor).pc.countedWriter = false := by
    cases place : (state.thread actor).pc with
    | writerCountAdd closures cur => rfl
    | _ =>
        rw [place] at counts
        cases counts
  have light :
      ∀ other ∈ Finset.univ.erase actor,
        (state.thread other).pc.countedWriter.toNat ≤ 1 :=
    fun other _ => Bool.toNat_le _
  have sum := Finset.sum_le_card_nsmul _ _ 1 light
  rw [Finset.card_erase_of_mem (Finset.mem_univ actor)] at sum
  have some : 0 < Fintype.card ι := Fintype.card_pos_iff.mpr ⟨actor⟩
  rw [countedWriters, tally_eq_add_others _ _ actor, uncounted, tallyOthers]
  rw [Finset.card_univ] at sum
  simp only [nsmul_eq_mul, mul_one, Nat.cast_id, Bool.toNat_false] at sum ⊢
  omega

/-- No assertion fails if conversions give way to threads that wait for readers. -/
theorem not_flawed
    (few : Fintype.card ι < 2 ^ 32)
    (calmly :
      (state.thread actor).pc.weight = 5 ∨
        ∀ other, (state.thread other).pc.weight ≠ 5) :
    ¬ state.Flawed (.run actor false) := by
  rintro (⟨wakes, other, -, waits⟩ | ⟨counts, full⟩)
  · have waiting : (state.thread other).pc.weight = 5 := by
      cases place : (state.thread other).pc with
      | waitReadersLoad closures spinWait inner => rfl
      | waitReadersCas closures spinWait cur => rfl
      | _ =>
          rw [place] at waits
          cases waits
    have waking : (state.thread actor).pc.weight ≠ 5 := by
      cases place : (state.thread actor).pc with
      | wakeXor toUnactivate waker =>
          cases waker with
          | _ => nofun
      | _ =>
          rw [place] at wakes
          cases wakes
    exact calmly.elim waking fun none => none other waiting
  · have room := countedWriters_lt counts
    omega

/-- A thread at work takes a step that lowers what is left. -/
theorem Drainable.advance
    (few : Fintype.card ι < 2 ^ 32)
    (drainable : state.Drainable tolerance)
    (busy : 0 < (state.thread actor).pc.weight)
    (awake : (state.thread actor).pc.weight ≠ 4)
    (calmly :
      (state.thread actor).pc.weight = 5 ∨
        ∀ other, (state.thread other).pc.weight ≠ 5) :
    ∃ action after,
      state.DrainStep backend action after ∧
        (after.weight < state.weight ∨ Nearer state after actor) := by
  have inv := drainable.heeded.inv
  have counted :
      (state.thread actor).pc.share.units ≤ readerCount state.word := by
    have readers := (inv.ledgerOf actor).readers
    rw [Share.units_add] at readers
    omega
  have lowers :
      ((state.thread actor).pc.instr backend).Lowers
        (state.thread actor).pc.weight
        ((state.thread actor).pc.left state.word) state.word :=
    Pc.lowers (inv.relies actor).1 counted (drainable.heeded.calm actor).pc
      busy awake
  have runs :
      ∀ result,
        state.runInstr actor false ((state.thread actor).pc.instr backend) =
            some result →
          ∃ action after,
            state.DrainStep backend action after ∧
              (after.weight < state.weight ∨ Nearer state after actor) := by
    intro result executed
    cases result with
    | error assertion =>
        have fails : State.Fails backend state (.run actor false) assertion :=
          executed
        exact absurd (inv.flawed_of_fails fails) (not_flawed few calmly)
    | ok after =>
        refine ⟨.run actor false, after, ⟨executed, rfl⟩, ?_⟩
        obtain ⟨word, writerCount, fairness, next, thread, lowers, continues,
          rfl⟩ := runInstr_lowers lowers executed
        exact lowers_continue rfl lowers continues
  cases instr : (state.thread actor).pc.instr backend with
  | rest =>
      rw [instr] at lowers
      exact lowers.elim
  | wakeOneWriter next =>
      rw [instr] at lowers
      obtain ⟨picked, canWake⟩ := state.exists_canWake Pc.wokenWriter 1
      have executed :
          state.exec backend (.wake actor picked) =
            some ((state.wakePicked Pc.wokenWriter picked).finish actor
              (next (picked.length == 1))) := by
        rw [exec, instr, wakeInstr, if_pos canWake]
      cases finishes :
        (state.wakePicked Pc.wokenWriter picked).finish actor
          (next (picked.length == 1)) with
      | error assertion =>
          rw [finishes] at executed
          exact (inv.flawed_of_fails executed).elim
      | ok after =>
          rw [finishes] at executed
          refine ⟨.wake actor picked, after, ⟨executed, rfl⟩, ?_⟩
          have light :
              ∀ count,
                (next (count == 1)).weight ≤
                  (state.thread actor).pc.weight := by
            intro count
            cases count == 1 with
            | true => exact lowers.1
            | false =>
                rcases lowers.2 with lighter | ⟨pc, same, weighs, -⟩
                · exact lighter.le
                · rw [same]
                  exact weighs.le
          exact wake_lowers (fun _ _ => Pc.weight_wokenWriter) canWake
            (wokenWriter_none_of_wake instr) light lowers.2 finishes
  | wakeReaders next =>
      rw [instr] at lowers
      obtain ⟨picked, canWake⟩ :=
        state.exists_canWake Pc.wokenReader maxWakedReaders
      have executed :
          state.exec backend (.wake actor picked) =
            some ((state.wakePicked Pc.wokenReader picked).finish actor
              (next picked.length)) := by
        rw [exec, instr, wakeInstr, if_pos canWake]
      cases finishes :
        (state.wakePicked Pc.wokenReader picked).finish actor
          (next picked.length) with
      | error assertion =>
          rw [finishes] at executed
          exact (inv.flawed_of_fails executed).elim
      | ok after =>
          rw [finishes] at executed
          refine ⟨.wake actor picked, after, ⟨executed, rfl⟩, ?_⟩
          exact wake_lowers (fun _ _ => Pc.weight_wokenReader) canWake
            (wokenReader_none_of_wake instr) lowers.1 lowers.2 finishes
  | _ => exact runs _ (by rw [instr]; rfl)

/-- A thread at work can be run until the threads have less to do. -/
theorem Drainable.settle
    (few : Fintype.card ι < 2 ^ 32)
    (drainable : state.Drainable tolerance)
    (busy : 0 < (state.thread actor).pc.weight)
    (awake : (state.thread actor).pc.weight ≠ 4)
    (calmly :
      (state.thread actor).pc.weight = 5 ∨
        ∀ other, (state.thread other).pc.weight ≠ 5) :
    ∃ actions after,
      Run (State.DrainStep backend) state actions after ∧
        after.Drainable tolerance ∧ after.weight < state.weight := by
  induction left : (state.thread actor).pc.left state.word
    using Nat.strong_induction_on generalizing state with
  | _ left inductionHypothesis =>
      obtain ⟨action, after, step, lighter | nearer⟩ :=
        drainable.advance few busy awake calmly
      · exact ⟨[action], after, .cons step .refl, drainable.step step, lighter⟩
      · have calmlyStill :
            (after.thread actor).pc.weight = 5 ∨
              ∀ other, (after.thread other).pc.weight ≠ 5 := by
          rw [nearer.stage]
          refine calmly.imp_right fun none other => ?_
          by_cases same : other = actor
          · rw [same, nearer.stage]
            exact none actor
          · rw [nearer.others other same]
            exact none other
        rw [← nearer.stage] at busy awake
        have less := nearer.left
        rw [left] at less
        obtain ⟨actions, final, run, drained, lighter⟩ :=
          inductionHypothesis _ less (drainable.step step) busy awake
            calmlyStill rfl
        rw [nearer.weight] at lighter
        exact ⟨action :: actions, final, .cons step run, drained, lighter⟩

/-- Nobody is at work, and nobody has a guard to drop. -/
structure Resting
    (tolerance : GeneratorTolerance)
    (state : State ι) : Prop
    extends state.Drainable tolerance where
  stages :
    ∀ actor,
      (state.thread actor).pc.weight = 0 ∨ (state.thread actor).pc.weight = 4
  noGuards :
    ∀ actor,
      (state.thread actor).locks = [] ∧ (state.thread actor).readLocks = []

/-- An owner outside the locker drops a guard. -/
theorem exists_drop
    (idle : (state.thread actor).pc = .idle)
    (owns :
      ¬ ((state.thread actor).locks = [] ∧
        (state.thread actor).readLocks = [])) :
    ∃ action after,
      state.DrainStep backend action after ∧ after.weight < state.weight := by
  have starts :
      ∀ op thread,
        (state.thread actor).start op = some thread →
          thread.weight < (state.thread actor).weight →
            (Action.start actor op).drains = true →
              ∃ action after,
                state.DrainStep backend action after ∧
                  after.weight < state.weight := by
    intro op thread starts lighter drains
    refine ⟨.start actor op, state.setThread actor thread, ⟨?_, drains⟩, ?_⟩
    · rw [State.Step, exec, starts]
      rfl
    · have changed := state.weight_setThread actor thread
      omega
  generalize (state.thread actor) = thread at idle owns starts
  obtain ⟨pc, locks, readLocks⟩ := thread
  obtain rfl := idle
  cases locks with
  | cons lock locks =>
      apply starts (.dropLock 0) _ rfl _ rfl
      simp [Thread.weight, Pc.weight]
      omega
  | nil =>
      cases readLocks with
      | cons lock readLocks =>
          apply starts (.dropReadLock 0) _ rfl _ rfl
          simp [Thread.weight, Pc.weight]
          omega
      | nil => exact absurd ⟨rfl, rfl⟩ owns

/-- The threads are at rest, or they can be run until they have less to do. -/
theorem Drainable.rests_or_settles
    (backend : Backend)
    (few : Fintype.card ι < 2 ^ 32)
    (drainable : state.Drainable tolerance) :
    state.Resting tolerance ∨
      ∃ actions after,
        Run (State.DrainStep backend) state actions after ∧
          after.Drainable tolerance ∧ after.weight < state.weight := by
  by_cases asking : ∃ actor, (state.thread actor).pc.weight = 5
  · obtain ⟨actor, asks⟩ := asking
    exact .inr (drainable.settle few (by omega) (by omega) (.inl asks))
  push Not at asking
  by_cases working :
    ∃ actor,
      0 < (state.thread actor).pc.weight ∧ (state.thread actor).pc.weight ≠ 4
  · obtain ⟨actor, busy, awake⟩ := working
    exact .inr (drainable.settle few busy awake (.inr asking))
  have stages :
      ∀ actor,
        (state.thread actor).pc.weight = 0 ∨
          (state.thread actor).pc.weight = 4 := by
    intro actor
    by_contra neither
    exact working ⟨actor, by omega, by omega⟩
  by_cases owning :
    ∃ actor,
      ¬ ((state.thread actor).locks = [] ∧ (state.thread actor).readLocks = [])
  · obtain ⟨actor, owns⟩ := owning
    have idle : (state.thread actor).pc = .idle := by
      have free := mt (drainable.handsFree actor) owns
      rcases Pc.rest_cases (stages actor) with idle | ⟨_, _, place⟩ | parked
      · exact idle
      · exact absurd (by rw [place]; rfl) free
      · exact absurd (Pc.mayWait_of_parked parked) free
    obtain ⟨action, after, step, lighter⟩ := exists_drop idle owns
    exact .inr ⟨[action], after, .cons step .refl, drainable.step step, lighter⟩
  · push Not at owning
    exact .inl ⟨drainable, stages, owning⟩

omit [DecidableEq ι] in
/-- At rest nothing is held. -/
theorem Resting.nothing_held (resting : state.Resting tolerance) :
    state.total.held = 0 := by
  have sum := map_tally Share.heldHom Thread.share state.thread
  change state.total.held = _ at sum
  rw [sum]
  by_contra positive
  obtain ⟨actor, holds⟩ := exists_weight_ne_zero positive
  apply holds
  change (state.thread actor).share.held = 0
  have calm := (resting.heeded.calm actor).pc
  obtain ⟨locks, readLocks⟩ := resting.noGuards actor
  rw [Thread.share, locks, readLocks]
  rcases Pc.rest_cases (resting.stages actor) with
    place | ⟨closures, spinWait, place⟩ | parked
  · rw [place]
    rfl
  · rw [place]
    rfl
  · cases place : (state.thread actor).pc with
    | parkedWriter closures => rfl
    | parkedReader closures => rfl
    | parkedClone guard =>
        rw [place] at calm
        exact calm.elim
    | _ =>
        rw [place] at parked
        cases parked

omit [DecidableEq ι] in
/-- At rest no wake is on its way. -/
theorem Resting.silent
    (resting : state.Resting tolerance)
    (actor : ι) :
    (state.thread actor).pc.signalsWriter = false ∧
      (state.thread actor).pc.signalsReaders = false := by
  rcases Pc.rest_cases (resting.stages actor) with
    place | ⟨closures, spinWait, place⟩ | parked
  · rw [place]
    exact ⟨rfl, rfl⟩
  · rw [place]
    exact ⟨rfl, rfl⟩
  · exact Pc.parked_silent parked

omit [DecidableEq ι] in
/-- At rest nobody is parked. -/
theorem Resting.nobody_parked
    (resting : state.Resting tolerance)
    (actor : ι) :
    (state.thread actor).pc.parked = false := by
  obtain ⟨reader, writer⟩ :=
    resting.heeded.noWaiters resting.nothing_held
  rw [Pc.not_parked_iff]
  constructor
  · by_contra parked
    rw [Bool.not_eq_false] at parked
    rcases resting.heeded.writers actor parked with set | ⟨other, signals⟩
    · cases writer.symm.trans set
    · cases (resting.silent other).1.symm.trans signals
  · by_contra parked
    rw [Bool.not_eq_false] at parked
    rcases resting.heeded.readers actor parked with set | ⟨other, signals⟩
    · cases reader.symm.trans set
    · cases (resting.silent other).2.symm.trans signals

end State

end StaticInit.Sync
