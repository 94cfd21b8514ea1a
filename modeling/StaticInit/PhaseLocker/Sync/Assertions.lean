import StaticInit.PhaseLocker.Sync.Invariant

namespace StaticInit.Sync

/-!
# The assertions of the futex locker

Two assertions can fail.  `wake_readers`, called to convert a lock, asserts
that nobody holds the lock bit, but a writer may have set it while it waits
for readers to leave.  And `writer_count` may be full.  In every other case
every assertion of the locker holds when it is reached.
-/

open LockWord (view)

/-- Inside `wait_for_readers`, with the lock bit set. -/
def Pc.waitsForReaders : Pc → Bool
  | .waitReadersLoad .. => true
  | .waitReadersCas .. => true
  | _ => false

/-- Before the exchange of `wake_readers`, for a conversion. -/
def Pc.wakesConverting : Pc → Bool
  | .wakeXor _ (.converting _) => true
  | _ => false

/-- Before the addition in `compare_and_wait_as_writer`. -/
def Pc.countsWriter : Pc → Bool
  | .writerCountAdd .. => true
  | _ => false

/-- Inside `compare_and_wait_as_writer`, counted in `writer_count`. -/
def Pc.countedWriter : Pc → Bool
  | .writerWait .. => true
  | .parkedWriter _ => true
  | .writerCountSub .. => true
  | _ => false

theorem Pc.pending_eq (pc : Pc) :
    pc.share.pending = pc.waitsForReaders.toNat := by
  cases pc with
  | writerCountSub closures res => cases res <;> rfl
  | wakeXor toUnactivate waker =>
      cases waker with
      | converting converter => rfl
      | releasing next =>
          rw [Pc.share, Waker.share]
          split <;> rfl
  | _ => rfl

theorem Pc.counted_eq (pc : Pc) :
    pc.share.counted = pc.countedWriter.toNat := by
  cases pc with
  | writerCountSub closures res => cases res <;> rfl
  | wakeXor toUnactivate waker =>
      cases waker with
      | converting converter => rfl
      | releasing next =>
          rw [Pc.share, Waker.share]
          split <;> rfl
  | _ => rfl

/-- The two flawed places, in terms of the word and the counter. -/
theorem Pc.flawed_iff
    (pc : Pc)
    (word : U32)
    (writerCount : BitVec 32) :
    pc.Flawed word writerCount ↔
      pc.wakesConverting = true ∧ (view word).locked = true ∨
        pc.countsWriter = true ∧ writerCount = BitVec.allOnes 32 := by
  cases pc with
  | wakeXor toUnactivate waker =>
      cases waker with
      | converting converter =>
          simp [Pc.Flawed, Pc.wakesConverting, Pc.countsWriter]
      | releasing next =>
          simp [Pc.Flawed, Pc.wakesConverting, Pc.countsWriter]
  | writerCountAdd closures cur =>
      simp [Pc.Flawed, Pc.wakesConverting, Pc.countsWriter]
  | _ => simp [Pc.Flawed, Pc.wakesConverting, Pc.countsWriter]

/-- The last assertion of `wake_readers` fails on a locked word. -/
theorem wakeMarked_panics
    {word : U32}
    (converter : Converter)
    (locked : (view word).locked = true) :
    wakeMarked 0 (.converting converter) word = .panic .wakeSawUnlocked := by
  have marked : ¬ ((word ^^^ 0) &&& lockedBit == 0) = true := by
    rw [lockedBit_eq_iff]
    simpa using locked
  have converting :
      ((Waker.converting converter).isConverting ||
        word &&& readerUnity != readerUnity) = true :=
    rfl
  unfold wakeMarked Next.assert
  rw [if_pos (by simp), if_pos converting, if_neg marked]

namespace State

variable {ι : Type} [DecidableEq ι] [Fintype ι]

/-- How many threads `writer_count` counts. -/
def countedWriters (state : State ι) : Nat :=
  tally (fun thread => thread.pc.countedWriter.toNat) state.thread

/--
A conversion wakes readers while another thread waits for readers to leave,
or a thread is the last one that `writer_count` has no room for.
-/
def Flawed (state : State ι) : Action ι → Prop
  | .run actor _ =>
      (state.thread actor).pc.wakesConverting = true ∧
          (∃ other, other ≠ actor ∧
            (state.thread other).pc.waitsForReaders = true) ∨
        (state.thread actor).pc.countsWriter = true ∧
          state.countedWriters = 2 ^ 32 - 1
  | _ => False

omit [DecidableEq ι] in
/-- The counted writers are those of the ledger. -/
theorem countedWriters_eq (state : State ι) :
    state.total.counted = state.countedWriters := by
  have counts := map_tally Share.countedHom Thread.share state.thread
  refine counts.trans (tally_congr ?_ state.thread)
  intro thread
  exact thread.pc.counted_eq

/-- Next to a converted lock, the lock bit is a writer waiting for readers. -/
theorem Inv.locked_iff
    {state : State ι}
    {actor : ι}
    (inv : state.Inv)
    (wakes : (state.thread actor).pc.wakesConverting = true) :
    (view state.word).locked = true ↔
      ∃ other, other ≠ actor ∧
        (state.thread other).pc.waitsForReaders = true := by
  have ledger := inv.ledgerOf actor
  have bound := lockCount_le_one state.word
  have share :
      (state.thread actor).pc.share = { units := 1, waker := 1 } := by
    cases place : (state.thread actor).pc with
    | wakeXor toUnactivate waker =>
        cases waker with
        | converting converter => rfl
        | releasing next => rw [place] at wakes; cases wakes
    | _ => rw [place] at wakes; cases wakes
  have locked : lockCount state.word = (state.rest actor).pending := by
    have locked := ledger.locked
    have alone := ledger.alone
    rw [share] at locked alone
    simp only [Share.units_add, Share.owner_add, Share.passing_add,
      Share.pending_add] at locked alone
    omega
  have others :
      (state.rest actor).pending =
        tallyOthers (fun thread => thread.pc.waitsForReaders.toNat)
          state.thread actor := by
    have image :=
      map_tallyOthers Share.pendingHom Thread.share state.thread actor
    rw [rest, Share.pending_add]
    refine (Nat.zero_add _).trans (image.trans ?_)
    exact tallyOthers_congr (fun thread => thread.pc.pending_eq) _ _
  rw [← lockCount_eq_one_iff, locked, others]
  constructor
  · intro found
    obtain ⟨other, different, waits⟩ :=
      exists_other_weight_ne_zero
        (found.trans_ne Nat.one_ne_zero)
    refine ⟨other, different, ?_⟩
    simpa using waits
  · rintro ⟨other, different, waits⟩
    have nonneg :
        ∀ thread : Thread, 0 ≤ thread.pc.waitsForReaders.toNat :=
      fun _ => Nat.zero_le _
    have lower := weight_le_tallyOthers nonneg state.thread different
    rw [waits] at lower
    change 1 ≤ _ at lower
    omega

omit [DecidableEq ι] in
/-- The counter is full when it counts as many writers as it can. -/
theorem Inv.full_iff
    {state : State ι}
    (inv : state.Inv) :
    state.writerCount = BitVec.allOnes 32 ↔
      state.countedWriters = 2 ^ 32 - 1 := by
  rw [← state.countedWriters_eq, ← inv.counted, ← BitVec.toNat_inj,
    BitVec.toNat_allOnes]

/-- The two flawed places are the flawed actions. -/
theorem Inv.flawed_iff
    {state : State ι}
    (inv : state.Inv)
    (actor : ι)
    (spurious : Bool) :
    (state.thread actor).pc.Flawed state.word state.writerCount ↔
      state.Flawed (.run actor spurious) := by
  rw [Pc.flawed_iff, inv.full_iff]
  exact or_congr (and_congr_right inv.locked_iff) Iff.rfl

omit [Fintype ι] in
/-- Only a panic ends local code with a failed assertion. -/
theorem panic_of_finish
    {state : State ι}
    {actor : ι}
    {next : Next}
    {assertion : Assertion}
    (finishes : state.finish actor next = .error assertion) :
    next = .panic assertion := by
  cases next with
  | goto pc => cases finishes
  | ret result => cases finishes
  | panic other =>
      obtain rfl := Except.error.inj finishes
      rfl

omit [DecidableEq ι] [Fintype ι] in
/-- An instruction that fits the ledger panics only where it is flawed. -/
theorem Outcome.flawed
    {state : State ι}
    {instr : Instr}
    {word : U32}
    {writerCount : BitVec 32}
    {fairness : BitVec 16}
    {next : Next}
    {assertion : Assertion}
    {share rest : Share}
    {flawed : Prop}
    (outcome : state.Outcome instr word writerCount fairness next)
    (fits :
      instr.Fits state.word state.writerCount share rest flawed)
    (panics : next = .panic assertion) :
    flawed := by
  cases outcome with
  | fetch update next =>
      rw [Instr.Fits, panics] at fits
      exact fits
  | exchanged same =>
      have fits := fits.1 same
      rw [panics] at fits
      exact fits
  | notExchanged failed =>
      have fits := fits.2
      rw [panics] at fits
      exact fits
  | counted update next =>
      rw [Instr.Fits, panics] at fits
      exact fits
  | fairness update next =>
      have fits := fits state.fairness
      rw [panics] at fits
      exact fits
  | waited same => cases panics
  | notWaited =>
      have fits := fits.2
      rw [panics] at fits
      exact fits

/-- The waker of a writer panics nowhere. -/
theorem Inv.not_panic_of_wake
    {backend : Backend}
    {state : State ι}
    {actor : ι}
    {next : Bool → Next}
    {assertion : Assertion}
    (inv : state.Inv)
    (instr :
      (state.thread actor).pc.instr backend = .wakeOneWriter next)
    (woken : Bool) :
    next woken ≠ .panic assertion := by
  intro panics
  have fits := inv.fits backend actor
  rw [instr] at fits
  cases woken with
  | true =>
      have gives := fits.1
      rw [panics] at gives
      exact gives
  | false =>
      have flawed := fits.2
      rw [panics] at flawed
      cases place : (state.thread actor).pc with
      | wakeXor toUnactivate waker => rw [place] at instr; cases instr
      | writerCountAdd closures cur => rw [place] at instr; cases instr
      | _ => rw [place] at flawed; exact flawed

/-- An assertion that fails is one of the two flawed ones. -/
theorem Inv.flawed_of_fails
    {backend : Backend}
    {state : State ι}
    {action : Action ι}
    {assertion : Assertion}
    (inv : state.Inv)
    (fails : State.Fails backend state action assertion) :
    state.Flawed action := by
  unfold State.Fails at fails
  cases action with
  | start actor op =>
      rw [State.exec, Option.map_eq_some_iff] at fails
      obtain ⟨thread, -, same⟩ := fails
      cases same
  | run actor spurious =>
      obtain ⟨word, writerCount, fairness, next, outcome, finishes⟩ :=
        runInstr_outcome fails
      rw [← inv.flawed_iff actor spurious]
      exact outcome.flawed (inv.fits backend actor)
        (panic_of_finish finishes.symm)
  | wake actor picked =>
      rcases wakeInstr_outcome fails with
        ⟨next, instr, -, finishes⟩ | ⟨next, instr, canWake, finishes⟩
      · exact absurd (panic_of_finish finishes.symm)
          (inv.not_panic_of_wake instr _)
      · have gives := inv.fits backend actor
        rw [instr] at gives
        have gives := gives picked.length canWake.2.2.1
        rw [panic_of_finish finishes.symm] at gives
        exact gives.elim
  | interrupt actor =>
      rw [State.exec, Option.map_eq_some_iff] at fails
      obtain ⟨pc, -, same⟩ := fails
      cases same

/-- A flawed action fails its assertion. -/
theorem Inv.fails_of_flawed
    (backend : Backend)
    {state : State ι}
    {action : Action ι}
    (inv : state.Inv)
    (flawed : state.Flawed action) :
    ∃ assertion, State.Fails backend state action assertion := by
  cases action with
  | run actor spurious =>
      rw [← inv.flawed_iff actor spurious] at flawed
      have relies := (inv.relies actor).1
      change ∃ assertion,
        state.runInstr actor spurious
            ((state.thread actor).pc.instr backend) =
          some (.error assertion)
      cases place : (state.thread actor).pc with
      | wakeXor toUnactivate waker =>
          rw [place] at flawed relies
          cases waker with
          | converting converter =>
              obtain rfl := relies.2.1
              refine ⟨.wakeSawUnlocked, congrArg some ?_⟩
              rw [wakeMarked_panics converter flawed]
              rfl
          | releasing next => cases flawed
      | writerCountAdd closures cur =>
          rw [place] at flawed
          refine ⟨.writerCountNotMax, congrArg some ?_⟩
          rw [flawed]
          rfl
      | _ => rw [place] at flawed; cases flawed
  | start actor op => cases flawed
  | wake actor picked => cases flawed
  | interrupt actor => cases flawed

/--
The assertions reached by a schedule all hold exactly when no action of the
schedule is flawed.
-/
theorem assertions_hold_iff
    (backend : Backend)
    (phase : Phase)
    (actions : List (Action ι)) :
    (∀ earlier action state assertion,
        earlier ++ [action] <+: actions →
          Run (State.Step backend) (State.init ι phase) earlier state →
            ¬ State.Fails backend state action assertion) ↔
      ∀ earlier action state,
        earlier ++ [action] <+: actions →
          Run (State.Step backend) (State.init ι phase) earlier state →
            ¬ state.Flawed action := by
  constructor
  · intro holds earlier action state leading run flawed
    have inv : state.Inv := Reachable.inv ⟨phase, earlier, run⟩
    obtain ⟨assertion, fails⟩ := inv.fails_of_flawed backend flawed
    exact holds earlier action state assertion leading run fails
  · intro sound earlier action state assertion leading run fails
    have inv : state.Inv := Reachable.inv ⟨phase, earlier, run⟩
    exact sound earlier action state leading run (inv.flawed_of_fails fails)

/--
A write guard is converted while a second thread waits to read; a third one
locks while the converted guard is the only reader, and the assertion of
`wake_readers` that the lock bit is clear fails.
-/
theorem wakeSawUnlocked_fails :
    ∃ state : State (Fin 3),
      Reachable .linux state ∧
        State.Fails .linux state (.run 0 false) .wakeSawUnlocked := by
  refine ⟨_, reachable_of_execAll Phase.empty
    ([.start 0 (.lock ⟨fun _ => .write, fun _ => .write⟩ .empty),
        .run 0 false,
        .start 1 (.lock ⟨fun _ => .read, fun _ => .read⟩ .empty),
        .run 1 false] ++
      List.replicate 13 (.run 1 false) ++
      [.start 0 (.convert 0),
        .run 0 false,
        .start 2 (.lock ⟨fun _ => .write, fun _ => .write⟩ .empty),
        .run 2 false,
        .run 2 false,
        .run 2 false]) rfl, ?_⟩
  rfl

end State

end StaticInit.Sync
