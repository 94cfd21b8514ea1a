import StaticInit.PhaseLocker.Sync.Invariant

namespace StaticInit.Sync

/-!
# The reader field of the futex word

The 21 bits of `READER_BITS` and `READER_OVERF` count the read guards, and for
a call of `wake_readers` the readers that it may still wake.  No instruction
carries out of the field or borrows from its other side.
-/

open LockWord (view)

/-- The read guards of the code at a place; a woken reader has one. -/
def Pc.liveReadLocks : Pc → Nat
  | .readerLoad _ => 1
  | .dropReadSub .. => 1
  | .wakeXor _ (.converting _) => 1
  | .wakeFairness _ => 1
  | .wakeCall _ => 1
  | .wakeOr .. => 1
  | .wakeSub .. => 1
  | .cloneLoad .. => 1
  | .cloneCas .. => 1
  | .cloneReadLoad .. => 1
  | .cloneSetWaiter .. => 1
  | .cloneWait .. => 1
  | .parkedClone _ => 1
  | .cloneWoken _ => 2
  | _ => 0

/-- How many readers `wake_readers` woke, between its two atomic operations. -/
def Pc.wokenReaders : Pc → Option Nat
  | .wakeFairness _ => some 0
  | .wakeCall _ => some 0
  | .wakeOr count _ => some count
  | .wakeSub count _ => some count
  | _ => none

/-- The readers that a call of `wake_readers` may still wake. -/
def Pc.placeholder (pc : Pc) : Nat :=
  match pc.wokenReaders with
  | some count => 2 ^ 20 - count
  | none => 0

/-- The read guards of a thread, inside and outside the locker. -/
def Thread.liveReadLocks (thread : Thread) : Nat :=
  thread.pc.liveReadLocks + thread.readLocks.length

/-- The readers that the instruction at a place adds. -/
def Pc.gain : Pc → Nat
  | .optimistic call => if call.how call.hint = .read then 1 else 0
  | .secondRead .. => 1
  | .slowRead .. => 1
  | .cloneCas .. => 1
  | .convertXor .. => 1
  | .wakeXor _ (.converting _) => 2 ^ 20
  | .wakeXor _ (.releasing _) => 2 ^ 20 + 1
  | _ => 0

/-- The readers that the instruction at a place subtracts. -/
def Pc.loss : Pc → Nat
  | .dropReadSub .. => 1
  | .wakeSub count _ => 2 ^ 20 - count
  | _ => 0

/-- The instruction at a place is an addition or a subtraction. -/
def Pc.isArithmetic : Pc → Bool
  | .optimistic call => call.how call.hint == .read
  | .secondRead .. => true
  | .slowRead .. => true
  | .cloneCas .. => true
  | .dropReadSub .. => true
  | .wakeSub .. => true
  | _ => false

/-- The reader field changes as a number, and alone if by arithmetic. -/
structure Adjusted
    (before after : U32)
    (gain loss : Nat)
    (arithmetic : Bool) : Prop where
  count : readerCount after + loss = readerCount before + gain
  outside :
    arithmetic = true →
      view after = { view before with readers := (view after).readers }

theorem Adjusted.refl (word : U32) (arithmetic : Bool) :
    Adjusted word word 0 0 arithmetic :=
  ⟨rfl, fun _ => rfl⟩

/-- An instruction on the other fields. -/
theorem Adjusted.of_readers
    {before after : U32}
    (same : (view after).readers = (view before).readers) :
    Adjusted before after 0 0 false :=
  ⟨congrArg BitVec.toNat same, nofun⟩

/-- One reader more. -/
theorem Adjusted.join
    {word : U32}
    (room : hasReadersMax word = false) :
    Adjusted word (word + readerUnity) 1 0 true := by
  have bound := readerCount_lt word
  have changed := view_add_of_room room
  rw [← Bool.not_eq_true, hasReadersMax_iff] at room
  constructor
  · have count : readerCount (word + readerUnity) = readerCount word + 1 := by
      rw [readerCount, changed, readerCount, BitVec.toNat_add]
      change (readerCount word + 1) % 2 ^ 21 = readerCount word + 1
      exact Nat.mod_eq_of_lt (by omega)
    exact count
  · intro _
    rw [changed]

/-- Counted readers leave. -/
theorem Adjusted.leave
    {word units : U32}
    {count : Nat}
    (weight : units.toNat = count * 2 ^ 8)
    (counted : count ≤ readerCount word) :
    Adjusted word (word - units) 0 count true := by
  have changed := LockWord.view_sub_units weight counted
  constructor
  · have left : readerCount (word - units) = readerCount word - count := by
      rw [readerCount, changed, readerCount]
      exact toNat_ofNat_sub _ _
    omega
  · intro _
    rw [changed]

/-- What an instruction makes of the word, where it changes it. -/
def Instr.Adjusts
    (word : U32)
    (gain loss : Nat)
    (arithmetic : Bool) : Instr → Prop
  | .fetch update _ => Adjusted word (update word) gain loss arithmetic
  | .exchange _ cur new _ _ =>
      word = cur → Adjusted word new gain loss arithmetic
  | _ => True

section Places

variable {word : U32} {rest : Share}

theorem Call.optimistic_adjusts (call : Call) :
    call.optimistic.Adjusts word (Pc.optimistic call).gain 0
      (Pc.optimistic call).isArithmetic := by
  simp only [Call.optimistic, Pc.gain, Pc.isArithmetic]
  generalize call.how call.hint = nature
  cases nature with
  | none => exact .refl _ _
  | write =>
      rintro rfl
      exact .of_readers (by simp)
  | read =>
      rintro rfl
      apply Adjusted.join
      rw [← Bool.not_eq_true, hasReadersMax_iff]
      simp [readerCount]

theorem wakeXor_adjusts
    {toUnactivate : U32}
    (waker : Waker)
    (relies : (Pc.wakeXor toUnactivate waker).Relies word)
    (ledger : Ledger word (waker.share toUnactivate + rest)) :
    readerCount word < 2 ^ 20 ∧
      Adjusted word (word ^^^ wakeMask toUnactivate waker.isConverting)
        (Pc.wakeXor toUnactivate waker).gain 0 false := by
  cases waker with
  | converting converter =>
      obtain ⟨-, rfl, few⟩ := relies
      refine ⟨few, ?_, nofun⟩
      have changed :
          (view (word ^^^ wakeMask 0 true)).readers =
            (view word).readers ^^^ 0x100000#21 := by
        simp [wakeMask]
      rw [Nat.add_zero, readerCount, Waker.isConverting, changed,
        toNat_xor_overf few, Pc.gain]
      rfl
  | releasing next =>
      have noReaders : (view word).readers = 0#21 := by
        obtain ⟨-, rfl | rfl⟩ := relies
        · exact Ledger.readers_of_alone
            (show Ledger word ({ passing := 1 } + rest) from ledger)
            Nat.one_pos
        · exact Ledger.readers_of_alone
            (show Ledger word ({ owner := 1 } + rest) from ledger)
            Nat.one_pos
      have none : readerCount word = 0 := by
        rw [readerCount, noReaders]
        rfl
      refine ⟨by omega, ?_, nofun⟩
      have changed :
          (view (word ^^^ wakeMask toUnactivate false)).readers =
            0x100001#21 := by
        obtain ⟨-, rfl | rfl⟩ := relies
        · simp [wakeMask, noReaders]
        · simp [wakeMask, noReaders]
      rw [none, Waker.isConverting, readerCount, changed, Nat.zero_add,
        Nat.add_zero, Pc.gain]
      rfl

/-- A write lock becomes the only reader. -/
theorem convertXor_adjusts
    (lock : Lock)
    (cur : Phase)
    (ledger : Ledger word ({ owner := 1 } + rest)) :
    Adjusted word (word ^^^ lock.convertMask cur) 1 0 false := by
  have noReaders := ledger.readers_of_alone Nat.one_pos
  have changed :
      (view (word ^^^ lock.convertMask cur)).readers = 1#21 := by
    simp [Lock.convertMask, noReaders]
  have none : readerCount word = 0 := by
    rw [readerCount, noReaders]
    rfl
  refine ⟨?_, fun arithmetic => absurd arithmetic Bool.false_ne_true⟩
  rw [none, readerCount, changed]
  rfl

/-- Each instruction changes the reader field by what its place says. -/
theorem Pc.instr_adjusts
    (backend : Backend)
    (pc : Pc)
    (ledger : Ledger word (pc.share + rest))
    (relies : pc.Relies word) :
    (pc.instr backend).Adjusts word pc.gain pc.loss pc.isArithmetic := by
  cases pc with
  | optimistic call => exact call.optimistic_adjusts
  | secondWrite call cur =>
      cases call <;>
      · rintro rfl
        exact .of_readers (by simp)
  | secondRead call cur =>
      rintro rfl
      exact .join (room_of_lockable relies)
  | slowRead closures spinWait cur =>
      rintro rfl
      exact .join (room_of_lockable relies)
  | cloneCas guard spinWait cur =>
      rintro rfl
      exact .join relies.2
  | slowWrite closures spinWait cur =>
      rintro rfl
      exact .of_readers (by simp)
  | slowWhileReaders closures spinWait cur =>
      rintro rfl
      exact .of_readers (by simp)
  | setWriteWaiter closures spinWait cur =>
      rintro rfl
      exact .of_readers (by simp)
  | setReadWaiter closures spinWait cur =>
      rintro rfl
      exact .of_readers (by simp)
  | cloneSetWaiter guard spinWait cur =>
      rintro rfl
      exact .of_readers (by simp)
  | waitReadersCas closures spinWait cur =>
      rintro rfl
      exact .of_readers (by rw [view_and_not_lockedBit, view_or_writeWaiterBit])
  | writerOr closures => exact .of_readers (by simp)
  | wakeOr count waker => exact .of_readers (by simp)
  | transferAnd preference next =>
      exact .of_readers (by rw [view_and_not_lockedBit])
  | transferXor preference cur next => exact .of_readers (by simp)
  | dropLockCas lock next =>
      rintro rfl
      exact .of_readers (by simp)
  | dropLockXor lock next => exact .of_readers (by simp [Lock.releaseMask])
  | convertXor lock cur converter => exact convertXor_adjusts lock cur ledger
  | dropReadSub lock next =>
      apply Adjusted.leave (show readerUnity.toNat = 1 * 2 ^ 8 from rfl)
      rw [ledger.readers]
      exact Nat.le_add_right 1 _
  | wakeXor toUnactivate waker =>
      exact (wakeXor_adjusts waker relies ledger).2
  | wakeSub count waker =>
      apply Adjusted.leave (toNat_wakeUnits relies)
      rw [ledger.readers]
      simp only [Pc.share, Share.units_add]
      omega
  | secondReadLoad closures hint => exact .refl _ _
  | slowLoad closures spinWait => exact .refl _ _
  | slowReadLoad closures spinWait => exact .refl _ _
  | waitReadersLoad closures spinWait inner => exact .refl _ _
  | writerLoad closures => exact .refl _ _
  | readerLoad closures => exact .refl _ _
  | cloneLoad guard spinWait => exact .refl _ _
  | cloneReadLoad guard spinWait => exact .refl _ _
  | cloneWoken guard => exact .refl _ _
  | _ => trivial

end Places

/-- The units of a place are its guards and what its wake may still give. -/
theorem Pc.units_eq (pc : Pc) :
    pc.share.units = pc.liveReadLocks + pc.placeholder := by
  cases pc with
  | writerCountSub closures res => cases res <;> rfl
  | wakeXor toUnactivate waker =>
      cases waker with
      | converting converter => rfl
      | releasing next =>
          rw [Pc.share, Waker.share]
          split <;> rfl
  | _ => rfl

/-- A call of `wake_readers` between its operations is a waker. -/
theorem Pc.waker_of_wokenReaders
    {word : U32}
    {pc : Pc}
    {count : Nat}
    (between : pc.wokenReaders = some count)
    (relies : pc.Relies word) :
    pc.share.waker = 1 ∧ count ≤ 2 ^ 20 := by
  cases pc with
  | wakeFairness waker =>
      obtain rfl := Option.some.inj between
      exact ⟨rfl, Nat.zero_le _⟩
  | wakeCall waker =>
      obtain rfl := Option.some.inj between
      exact ⟨rfl, Nat.zero_le _⟩
  | wakeOr woken waker =>
      obtain rfl := Option.some.inj between
      exact ⟨rfl, relies⟩
  | wakeSub woken waker =>
      obtain rfl := Option.some.inj between
      exact ⟨rfl, relies⟩
  | _ => cases between

namespace State

variable {ι : Type} [DecidableEq ι] [Fintype ι]

/-- The read guards that are alive. -/
def liveReadLocks (state : State ι) : Nat :=
  tally Thread.liveReadLocks state.thread

/-- What the reader field shows, and what the next instructions do to it. -/
structure Accounting (backend : Backend) (state : State ι) : Prop where
  waking :
    ∀ actor count,
      (state.thread actor).pc.wokenReaders = some count →
        count ≤ 2 ^ 20 ∧
          readerCount state.word = state.liveReadLocks + (2 ^ 20 - count)
  quiet :
    (∀ actor, (state.thread actor).pc.wokenReaders = none) →
      readerCount state.word = state.liveReadLocks
  adjusted :
    ∀ actor spurious after,
      State.Step backend state (.run actor spurious) after →
        after.word = state.word ∨
          Adjusted state.word after.word (state.thread actor).pc.gain
            (state.thread actor).pc.loss (state.thread actor).pc.isArithmetic
  unmarked :
    ∀ actor toUnactivate waker,
      (state.thread actor).pc = .wakeXor toUnactivate waker →
        readerCount state.word < 2 ^ 20
  noUnderflow :
    ∀ actor count waker,
      (state.thread actor).pc = .wakeSub count waker →
        readerUnity.toNat * count ≤ readerOverf.toNat ∧
          (wakeUnits count).toNat =
            readerOverf.toNat - readerUnity.toNat * count

omit [DecidableEq ι] in
/-- The units of the ledger are the guards and what a wake may still give. -/
theorem units_eq (state : State ι) :
    state.total.units =
      state.liveReadLocks +
        tally (fun thread => thread.pc.placeholder) state.thread := by
  have units := map_tally Share.unitsHom Thread.share state.thread
  change state.total.units = _ at units
  rw [units, liveReadLocks, tally, tally, tally, ← Finset.sum_add_distrib]
  apply Finset.sum_congr rfl
  intro actor _
  change (state.thread actor).pc.share.units + _ = _
  rw [Pc.units_eq, Thread.liveReadLocks]
  exact Nat.add_right_comm _ _ _

/-- Only one call of `wake_readers` is between its operations. -/
theorem Inv.others_placeholder
    {state : State ι}
    {actor : ι}
    {count : Nat}
    (inv : state.Inv)
    (between : (state.thread actor).pc.wokenReaders = some count) :
    tallyOthers (fun thread => thread.pc.placeholder) state.thread actor = 0 := by
  by_contra held
  obtain ⟨other, different, holds⟩ := exists_other_weight_ne_zero held
  obtain ⟨woken, otherBetween⟩ :
      ∃ woken, (state.thread other).pc.wokenReaders = some woken := by
    rw [← Option.ne_none_iff_exists']
    intro none
    simp only [Pc.placeholder, none] at holds
    exact holds rfl
  have waker := (Pc.waker_of_wokenReaders between (inv.relies actor).1).1
  have otherWaker :=
    (Pc.waker_of_wokenReaders otherBetween (inv.relies other).1).1
  have sole := (inv.ledgerOf actor).waker
  have lower := (state.share_le_rest different).2.2.2.2.1
  have counted : (state.thread other).pc.share.waker ≤
      (state.thread other).share.waker :=
    Nat.le_add_right _ _
  rw [Share.waker_add, waker] at sole
  omega

/-- A step changes the word as its instruction says. -/
theorem Inv.adjusted
    {backend : Backend}
    {state after : State ι}
    {actor : ι}
    {spurious : Bool}
    (inv : state.Inv)
    (step : State.Step backend state (.run actor spurious) after) :
    after.word = state.word ∨
      Adjusted state.word after.word (state.thread actor).pc.gain
        (state.thread actor).pc.loss (state.thread actor).pc.isArithmetic := by
  have adjusts :=
    (state.thread actor).pc.instr_adjusts backend (inv.ledgerOf actor)
      (inv.relies actor).1
  obtain ⟨word, writerCount, fairness, next, outcome, result⟩ :=
    runInstr_outcome step
  obtain ⟨thread, -, rfl⟩ := finish_ok result.symm
  change word = state.word ∨ Adjusted state.word word _ _ _
  generalize (state.thread actor).pc.instr backend = instr at adjusts outcome
  cases outcome with
  | fetch update next => exact .inr adjusts
  | exchanged shown => exact .inr (adjusts shown)
  | _ => exact .inl rfl

/--
The reader field counts the read guards and what a wake may still give, and no
change of it crosses its bounds.
-/
theorem reader_accounting
    {backend : Backend}
    {state : State ι}
    (reachable : Reachable backend state) :
    state.Accounting backend := by
  have inv := reachable.inv
  have readers := inv.ledger.readers
  rw [state.units_eq] at readers
  constructor
  case waking =>
    intro actor count between
    refine ⟨(Pc.waker_of_wokenReaders between (inv.relies actor).1).2, ?_⟩
    rw [readers, tally_eq_add_others _ _ actor, inv.others_placeholder between,
      Pc.placeholder, between]
    rfl
  case quiet =>
    intro quiet
    have none :
        tally (fun thread => thread.pc.placeholder) state.thread = 0 := by
      apply Finset.sum_eq_zero
      intro actor _
      simp only [Pc.placeholder, quiet actor]
    rw [readers, none]
    rfl
  case adjusted =>
    intro actor spurious after step
    exact inv.adjusted step
  case unmarked =>
    intro actor toUnactivate waker here
    have ledger := inv.ledgerOf actor
    have relies := (inv.relies actor).1
    rw [here] at ledger relies
    exact (wakeXor_adjusts waker relies ledger).1
  case noUnderflow =>
    intro actor count waker here
    have relies := (inv.relies actor).1
    rw [here] at relies
    have bounded : count ≤ 2 ^ 20 := relies
    have unity : readerUnity.toNat = 2 ^ 8 := rfl
    have overf : readerOverf.toNat = 2 ^ 28 := rfl
    rw [toNat_wakeUnits bounded, unity, overf]
    omega

/-- Two threads, one of which has a read guard. -/
theorem reader_accounting_reading :
    let actions : List (Action (Fin 2)) :=
      [.start 0 (.lock ⟨fun _ => .read, fun _ => .read⟩ .empty),
        .run 0 false]
    ∃ state,
      Run (Step .linux) (init (Fin 2) .empty) actions state ∧
        state.liveReadLocks = 1 ∧ state.Accounting .linux := by
  intro actions
  obtain ⟨state, performed, alive⟩ :
      ∃ state,
        (init (Fin 2) .empty).execAll .linux actions = some (.ok state) ∧
          state.liveReadLocks = 1 :=
    ⟨_, rfl, rfl⟩
  have run := run_of_execAll performed
  exact ⟨state, run, alive, reader_accounting ⟨_, _, run⟩⟩

end State

end StaticInit.Sync
