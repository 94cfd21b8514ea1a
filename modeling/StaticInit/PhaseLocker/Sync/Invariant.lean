import StaticInit.PhaseLocker.Sync.Steps
import StaticInit.PhaseLocker.Sync.Threads

namespace StaticInit.Sync

/-!
# The invariant of the futex locker

In every reachable state the word and `writer_count` show the shares of all
threads, and every thread may rely on what its code takes for granted.  One
lemma for each kind of step says that the step keeps this.
-/

open LockWord (view)

namespace State

variable {ι : Type} [DecidableEq ι] [Fintype ι]

/-- What all threads hold in total. -/
def total (state : State ι) : Share :=
  tally Thread.share state.thread

/-- What a thread sees of the rest: its own guards and the other threads. -/
def rest (state : State ι) (actor : ι) : Share :=
  guardShare (state.thread actor).locks (state.thread actor).readLocks +
    tallyOthers Thread.share state.thread actor

/-- The invariant of the futex locker. -/
structure Inv (state : State ι) : Prop where
  ledger : Ledger state.word state.total
  counted : state.writerCount.toNat = state.total.counted
  relies : ∀ actor, (state.thread actor).Relies state.word

theorem total_eq_add_rest (state : State ι) (actor : ι) :
    state.total = (state.thread actor).pc.share + state.rest actor := by
  rw [total, tally_eq_add_others Thread.share state.thread actor, rest,
    ← add_assoc]
  rfl

theorem rest_waker_le_units (state : State ι) (actor : ι) :
    (state.rest actor).waker ≤ (state.rest actor).units := by
  have others :
      (tallyOthers Thread.share state.thread actor).waker ≤
        (tallyOthers Thread.share state.thread actor).units := by
    change Share.WakerCounted _
    apply tallyOthers_induction
    · exact Nat.le_refl 0
    · intro first second firstLe secondLe
      exact Nat.add_le_add firstLe secondLe
    · exact Thread.waker_le_units
  exact Nat.le_trans (by simpa [rest, guardShare] using others)
    (Nat.le_add_left _ _)

theorem share_le_rest
    (state : State ι)
    {actor other : ι}
    (different : other ≠ actor) :
    (state.thread other).share ≤ state.rest actor := by
  apply le_trans
    (weight_le_tallyOthers (fun thread => Share.nonneg thread.share)
      state.thread different)
  exact le_add_of_nonneg_left (Share.nonneg _)

/-- The ledger from the point of view of one thread. -/
theorem Inv.ledgerOf
    {state : State ι}
    (inv : state.Inv)
    (actor : ι) :
    Ledger state.word
      ((state.thread actor).pc.share + state.rest actor) := by
  rw [← state.total_eq_add_rest actor]
  exact inv.ledger

/-- One thread trades its share while the word changes. -/
theorem Inv.update
    {state : State ι}
    {actor : ι}
    {word : U32}
    {writerCount : BitVec 32}
    {fairness : BitVec 16}
    {thread : Thread}
    {traded : Share}
    (inv : state.Inv)
    (share :
      thread.share =
        traded +
          guardShare (state.thread actor).locks
            (state.thread actor).readLocks)
    (ledger : Ledger word (traded + state.rest actor))
    (frame : Frame state.word word (state.rest actor))
    (counted : writerCount.toNat = (traded + state.rest actor).counted)
    (relies : thread.Relies word) :
    Inv
      { word := word
        writerCount := writerCount
        fairness := fairness
        thread := Function.update state.thread actor thread } := by
  have total :
      tally Thread.share (Function.update state.thread actor thread) =
        traded + state.rest actor := by
    rw [tally_update, share, rest, add_assoc]
  constructor
  · rw [State.total, total]
    exact ledger
  · rw [State.total, total]
    exact counted
  · intro other
    by_cases same : other = actor
    · subst same
      simpa using relies
    · simp only [Function.update_of_ne same]
      exact (inv.relies other).kept frame (state.share_le_rest same)

/-- What the guards of a thread rely on after another word took effect. -/
theorem Inv.guards_kept
    {state : State ι}
    {word : U32}
    (inv : state.Inv)
    (actor : ι)
    (frame : Frame state.word word (state.rest actor)) :
    GuardsRely word (state.thread actor).locks
      (state.thread actor).readLocks :=
  (inv.relies actor).2.kept frame
    (le_add_of_nonneg_right (Share.nonneg _))

/-- The end of an instruction that fits the ledger. -/
theorem Inv.finish
    {state after : State ι}
    {actor : ι}
    {word : U32}
    {fairness : BitVec 16}
    {next : Next}
    {flawed : Prop}
    (inv : state.Inv)
    (fits :
      next.Fits state.word word (state.thread actor).pc.share
        (state.rest actor) flawed)
    (finishes :
      State.finish
          { state with word := word, fairness := fairness } actor next =
        .ok after) :
    after.Inv := by
  obtain ⟨thread, continues, rfl⟩ := finish_ok finishes
  have moved :
      Moved state.word word (state.thread actor).pc.share next.share
          (state.rest actor) ∧ next.Relies word := by
    cases next with
    | goto pc => exact fits
    | ret result => exact fits
    | panic assertion => cases continues
  obtain ⟨⟨ledger, frame, -, counted⟩, relies⟩ := moved
  apply inv.update (Thread.continue_share continues) ledger frame
  · rw [inv.counted, state.total_eq_add_rest actor, Share.counted_add,
      Share.counted_add, counted]
  · exact Thread.continue_relies continues relies
      (inv.guards_kept actor frame)

/-- The end of an instruction on `writer_count`. -/
theorem Inv.finishCount
    {state after : State ι}
    {actor : ι}
    {writerCount : BitVec 32}
    {next : Next}
    {flawed : Prop}
    (inv : state.Inv)
    (counts :
      next.Counts state.word state.writerCount.toNat writerCount.toNat
        (state.thread actor).pc.share flawed)
    (finishes :
      State.finish { state with writerCount := writerCount } actor next =
        .ok after) :
    after.Inv := by
  obtain ⟨thread, continues, rfl⟩ := finish_ok finishes
  cases next with
  | goto pc =>
      obtain ⟨changed, same, relies⟩ := counts
      have ledger := inv.ledgerOf actor
      have frame := ledger.refl.frame
      have counted := inv.counted
      rw [state.total_eq_add_rest actor, Share.counted_add] at counted
      apply inv.update (Thread.continue_share continues)
        (ledger.recount same) frame
      · rw [Share.counted_add]
        change writerCount.toNat = pc.share.counted + _
        omega
      · exact Thread.continue_relies continues relies
          (inv.guards_kept actor frame)
  | ret result => exact counts.elim
  | panic assertion => cases continues

/-- The instruction of a thread fits the ledger. -/
theorem Inv.fits
    {state : State ι}
    (inv : state.Inv)
    (backend : Backend)
    (actor : ι) :
    ((state.thread actor).pc.instr backend).Fits
      state.word state.writerCount (state.thread actor).pc.share
      (state.rest actor)
      ((state.thread actor).pc.Flawed state.word state.writerCount) := by
  apply Pc.fits _ (inv.ledgerOf actor) _
    (state.rest_waker_le_units actor) (inv.relies actor).1
  rw [← state.total_eq_add_rest actor]
  exact inv.counted

/-- An atomic instruction keeps the invariant. -/
theorem Inv.runInstr
    {state after : State ι}
    {actor : ι}
    {spurious : Bool}
    {instr : Instr}
    {flawed : Prop}
    (inv : state.Inv)
    (fits :
      instr.Fits state.word state.writerCount
        (state.thread actor).pc.share (state.rest actor) flawed)
    (runs : state.runInstr actor spurious instr = some (.ok after)) :
    after.Inv := by
  cases instr with
  | fetch update next =>
      exact inv.finish fits (Option.some.inj runs)
  | exchange weak cur new ok err =>
      have runs := Option.some.inj runs
      split at runs
      case isTrue taken => exact inv.finish (fits.1 taken.1) runs
      case isFalse => exact inv.finish fits.2 runs
  | fetchWriterCount update next =>
      exact inv.finishCount fits (Option.some.inj runs)
  | fetchFairness update next =>
      exact inv.finish (fits state.fairness) (Option.some.inj runs)
  | wait value parked failed =>
      have runs := Option.some.inj runs
      split at runs
      case isTrue same => exact inv.finish (fits.1 same) runs
      case isFalse => exact inv.finish fits.2 runs
  | wakeOneWriter next => cases runs
  | wakeReaders next => cases runs
  | rest => cases runs

/-- Waking gives `gain` to each woken thread. -/
structure Wakes (woken : Pc → Option Pc) (gain : Share) : Prop where
  share :
    ∀ {pc after : Pc}, woken pc = some after → after.share = pc.share + gain
  relies :
    ∀ {word : U32} {pc after : Pc},
      pc.Relies word → woken pc = some after → after.Relies word

theorem wakes_writer : Wakes Pc.wokenWriter { owner := 1 } :=
  ⟨Pc.wokenWriter_share, fun _ => Pc.wokenWriter_relies⟩

theorem wakes_reader : Wakes Pc.wokenReader { units := 1 } :=
  ⟨Pc.wokenReader_share, Pc.wokenReader_relies⟩

theorem Wakes.wakeThread_share
    {woken : Pc → Option Pc}
    {gain : Share}
    (wakes : Wakes woken gain)
    {thread : Thread}
    (parked : (woken thread.pc).isSome) :
    (wakeThread woken thread).share = thread.share + gain := by
  obtain ⟨pc, wakesAt⟩ := Option.isSome_iff_exists.mp parked
  rw [wakeThread, wakesAt]
  change pc.share + guardShare _ _ = _
  rw [wakes.share wakesAt, Thread.share, add_right_comm]

theorem Wakes.wakeThread_relies
    {woken : Pc → Option Pc}
    {gain : Share}
    (wakes : Wakes woken gain)
    {word : U32}
    {thread : Thread}
    (relies : thread.Relies word) :
    (wakeThread woken thread).Relies word := by
  unfold wakeThread
  cases wakesAt : woken thread.pc with
  | some pc => exact ⟨wakes.relies relies.1 wakesAt, relies.2⟩
  | none => exact relies

omit [DecidableEq ι] [Fintype ι] in
/-- The waking thread itself is not parked. -/
theorem wakePicked_actor
    {state : State ι}
    {actor : ι}
    {woken : Pc → Option Pc}
    {limit : Nat}
    {picked : List ι}
    (canWake : state.CanWake woken limit picked)
    (running : woken (state.thread actor).pc = none) :
    actor ∉ picked := by
  intro member
  have parked := canWake.2.1 actor member
  rw [running] at parked
  cases parked

omit [Fintype ι] in
theorem wakePicked_self
    {state : State ι}
    {actor : ι}
    {woken : Pc → Option Pc}
    {limit : Nat}
    {picked : List ι}
    (canWake : state.CanWake woken limit picked)
    (running : woken (state.thread actor).pc = none) :
    (state.wakePicked woken picked).thread actor = state.thread actor := by
  simp [wakePicked, wakePicked_actor canWake running]

/-- A wake gives the woken threads what the waker gives away. -/
theorem Inv.wake
    {state after : State ι}
    {actor : ι}
    {woken : Pc → Option Pc}
    {gain gift : Share}
    {limit : Nat}
    {picked : List ι}
    {next : Next}
    (inv : state.Inv)
    (wakes : Wakes woken gain)
    (canWake : state.CanWake woken limit picked)
    (running : woken (state.thread actor).pc = none)
    (gives :
      next.Gives state.word (state.thread actor).pc.share gift)
    (gifts : gift = picked.length • gain)
    (finishes :
      (state.wakePicked woken picked).finish actor next = .ok after) :
    after.Inv := by
  obtain ⟨thread, continues, rfl⟩ := finish_ok finishes
  have outside := wakePicked_actor canWake running
  rw [wakePicked_self canWake running] at continues
  have given :
      next.share + gift = (state.thread actor).pc.share ∧
        next.Relies state.word := by
    cases next with
    | goto pc => exact gives
    | ret result => exact gives
    | panic assertion => cases continues
  let before : ι → Thread := Function.update state.thread actor thread
  let changed : ι → Thread :=
    ((state.wakePicked woken picked).setThread actor thread).thread
  have gained :
      ∀ other ∈ picked.toFinset,
        (changed other).share = (before other).share + gain := by
    intro other member
    rw [List.mem_toFinset] at member
    have different : other ≠ actor := by
      rintro rfl
      exact outside member
    simp only [changed, before, setThread, wakePicked,
      Function.update_of_ne different, if_pos member]
    exact wakes.wakeThread_share (canWake.2.1 other member)
  have kept :
      ∀ other, other ∉ picked.toFinset → changed other = before other := by
    intro other absent
    rw [List.mem_toFinset] at absent
    by_cases isActor : other = actor
    · subst isActor
      simp [changed, before, setThread]
    · simp only [changed, before, setThread, wakePicked,
        Function.update_of_ne isActor, if_neg absent]
  have total :
      ((state.wakePicked woken picked).setThread actor thread).total =
        state.total := by
    rw [State.total, tally_gained Thread.share gained kept,
      List.toFinset_card_of_nodup canWake.1, ← gifts, tally_update,
      Thread.continue_share continues, state.total_eq_add_rest actor,
      ← given.1, rest, add_assoc next.share]
    exact add_right_comm _ _ _
  constructor
  · rw [total]
    exact inv.ledger
  · rw [total]
    exact inv.counted
  · intro other
    by_cases isActor : other = actor
    · subst isActor
      simp only [setThread, Function.update_self]
      exact Thread.continue_relies continues given.2 (inv.relies other).2
    · simp only [setThread, wakePicked, Function.update_of_ne isActor]
      split
      case isTrue => exact wakes.wakeThread_relies (inv.relies other)
      case isFalse => exact inv.relies other

/-- A wake keeps the invariant. -/
theorem Inv.wakeInstr
    {backend : Backend}
    {state after : State ι}
    {actor : ι}
    {picked : List ι}
    (inv : state.Inv)
    (runs :
      state.wakeInstr actor picked ((state.thread actor).pc.instr backend) =
        some (.ok after)) :
    after.Inv := by
  have fits := inv.fits backend actor
  cases instr : (state.thread actor).pc.instr backend with
  | wakeOneWriter next =>
      rw [instr] at runs fits
      dsimp only [State.wakeInstr] at runs
      split at runs
      case isTrue canWake =>
        have finishes := Option.some.inj runs
        have running := wokenWriter_none_of_wake instr
        rcases Nat.le_one_iff_eq_zero_or_eq_one.mp canWake.2.2.1 with
          nobody | oneWriter
        · obtain rfl := List.length_eq_zero_iff.mp nobody
          exact inv.finish fits.2 finishes
        · rw [oneWriter] at finishes
          apply inv.wake wakes_writer canWake running fits.1 _ finishes
          rw [oneWriter, one_nsmul]
      case isFalse => cases runs
  | wakeReaders next =>
      rw [instr] at runs fits
      dsimp only [State.wakeInstr] at runs
      split at runs
      case isTrue canWake =>
        have finishes := Option.some.inj runs
        have running := wokenReader_none_of_wake instr
        exact inv.wake wakes_reader canWake running
          (fits picked.length canWake.2.2.1) (nsmul_units _).symm finishes
      case isFalse => cases runs
  | fetch update next => rw [instr] at runs; cases runs
  | exchange weak cur new ok err => rw [instr] at runs; cases runs
  | fetchWriterCount update next => rw [instr] at runs; cases runs
  | fetchFairness update next => rw [instr] at runs; cases runs
  | wait value parked failed => rw [instr] at runs; cases runs
  | rest => rw [instr] at runs; cases runs

/-- Replacing a thread by one with the same share keeps the invariant. -/
theorem Inv.setThread
    {state : State ι}
    {actor : ι}
    {thread : Thread}
    (inv : state.Inv)
    (share : thread.share = (state.thread actor).share)
    (relies : thread.Relies state.word) :
    (state.setThread actor thread).Inv := by
  have ledger := inv.ledgerOf actor
  have counted := inv.counted
  rw [state.total_eq_add_rest actor] at counted
  exact inv.update share ledger ledger.refl.frame counted relies

/-- Every step keeps the invariant. -/
theorem Inv.step
    {backend : Backend}
    {state after : State ι}
    {action : Action ι}
    (inv : state.Inv)
    (step : State.Step backend state action after) :
    after.Inv := by
  unfold State.Step at step
  cases action with
  | start actor op =>
      rw [State.exec, Option.map_eq_some_iff] at step
      obtain ⟨thread, starts, same⟩ := step
      obtain rfl := Except.ok.inj same
      exact inv.setThread (Thread.start_share starts)
        (Thread.start_relies (inv.relies actor) starts)
  | run actor spurious => exact inv.runInstr (inv.fits backend actor) step
  | wake actor picked => exact inv.wakeInstr step
  | interrupt actor =>
      rw [State.exec, Option.map_eq_some_iff] at step
      obtain ⟨pc, interrupts, same⟩ := step
      obtain rfl := Except.ok.inj same
      apply inv.setThread
      · rw [Thread.share, Pc.interrupted_share interrupts]
        rfl
      · exact ⟨Pc.interrupted_relies (inv.relies actor).1 interrupts,
          (inv.relies actor).2⟩

omit [DecidableEq ι] in
/-- A fresh locker. -/
theorem Inv.init (phase : Phase) :
    (State.init ι phase).Inv := by
  have total : (State.init ι phase).total = 0 :=
    Finset.sum_eq_zero fun _ _ => rfl
  constructor
  · rw [total]
    have fresh : view (State.init ι phase).word =
        ⟨false, false, false, 0#21, phase⟩ :=
      LockWord.view_bits phase
    obtain ⟨readers, locked, -⟩ := counts_of_view fresh
    exact ⟨readers, locked, Nat.zero_le 1, .inl rfl, .inl rfl,
      Nat.zero_le 1, Nat.le_refl 0⟩
  · rw [total]
    rfl
  · intro actor
    exact ⟨trivial, guardsRely_nil _⟩

/-- The invariant holds in every reachable state. -/
theorem Reachable.inv
    {backend : Backend}
    {state : State ι}
    (reachable : State.Reachable backend state) :
    state.Inv := by
  obtain ⟨phase, actions, run⟩ := reachable
  exact run.invariant (Inv.init phase) fun _ inv step => inv.step step

end State

end StaticInit.Sync
