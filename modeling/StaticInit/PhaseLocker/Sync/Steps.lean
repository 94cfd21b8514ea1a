import StaticInit.PhaseLocker.Sync.System

namespace StaticInit.Sync

/-!
# What one step changes

`State.Outcome` lists how an instruction can end: the word, the two counters
and the end of the local code.  A step changes its own thread by the end of
its local code; any other thread stays as it is, unless it was parked and the
step woke it.
-/

/-- The thread that performs an action. -/
def Action.actor {ι : Type} : Action ι → ι
  | .start actor _ => actor
  | .run actor _ => actor
  | .wake actor _ => actor
  | .interrupt actor => actor

namespace State

variable {ι : Type} [DecidableEq ι]

/-- The thread that an action sets. -/
theorem setThread_self
    (state : State ι)
    (actor : ι)
    (thread : Thread) :
    (state.setThread actor thread).thread actor = thread :=
  Function.update_self _ _ _

theorem setThread_other
    {state : State ι}
    {actor other : ι}
    (thread : Thread)
    (different : other ≠ actor) :
    (state.setThread actor thread).thread other = state.thread other :=
  Function.update_of_ne different _ _

/-- A state after the end of local code in which no assertion fails. -/
theorem finish_ok
    {state after : State ι}
    {actor : ι}
    {next : Next}
    (finishes : state.finish actor next = .ok after) :
    ∃ thread,
      (state.thread actor).continue next = .ok thread ∧
        after = state.setThread actor thread := by
  unfold State.finish at finishes
  cases continues : (state.thread actor).continue next with
  | error assertion =>
      rw [continues] at finishes
      cases finishes
  | ok thread =>
      rw [continues] at finishes
      exact ⟨thread, rfl, (Except.ok.inj finishes).symm⟩

/-- How an instruction that is not a wake can end. -/
inductive Outcome (state : State ι) :
    Instr → U32 → BitVec 32 → BitVec 16 → Next → Prop where
  | fetch
      (update : U32 → U32)
      (next : U32 → Next) :
      Outcome state (.fetch update next) (update state.word)
        state.writerCount state.fairness (next state.word)
  | exchanged
      {weak : Bool}
      {cur new : U32}
      {ok : Next}
      {err : U32 → Next}
      (same : state.word = cur) :
      Outcome state (.exchange weak cur new ok err) new
        state.writerCount state.fairness ok
  | notExchanged
      {weak : Bool}
      {cur new : U32}
      {ok : Next}
      {err : U32 → Next}
      (failed : state.word = cur → weak = true) :
      Outcome state (.exchange weak cur new ok err) state.word
        state.writerCount state.fairness (err state.word)
  | counted
      (update : BitVec 32 → BitVec 32)
      (next : BitVec 32 → Next) :
      Outcome state (.fetchWriterCount update next) state.word
        (update state.writerCount) state.fairness (next state.writerCount)
  | fairness
      (update : BitVec 16 → BitVec 16)
      (next : BitVec 16 → Next) :
      Outcome state (.fetchFairness update next) state.word
        state.writerCount (update state.fairness) (next state.fairness)
  | waited
      {value : U32}
      {parked : Pc}
      {failed : Next}
      (same : state.word = value) :
      Outcome state (.wait value parked failed) state.word
        state.writerCount state.fairness (.goto parked)
  | notWaited
      {value : U32}
      {parked : Pc}
      {failed : Next} :
      Outcome state (.wait value parked failed) state.word
        state.writerCount state.fairness failed

/-- An instruction that is not a wake ends in one of its outcomes. -/
theorem runInstr_outcome
    {state : State ι}
    {actor : ι}
    {spurious : Bool}
    {instr : Instr}
    {result : Except Assertion (State ι)}
    (runs : state.runInstr actor spurious instr = some result) :
    ∃ word writerCount fairness next,
      state.Outcome instr word writerCount fairness next ∧
        result =
          State.finish
            { state with
              word := word
              writerCount := writerCount
              fairness := fairness }
            actor next := by
  cases instr with
  | fetch update next =>
      exact ⟨_, _, _, _, .fetch update next, (Option.some.inj runs).symm⟩
  | exchange weak cur new ok err =>
      have runs := Option.some.inj runs
      split at runs
      case isTrue taken =>
        exact ⟨_, _, _, _, .exchanged taken.1, runs.symm⟩
      case isFalse notTaken =>
        refine ⟨_, _, _, _, .notExchanged ?_, runs.symm⟩
        intro same
        by_contra strong
        rw [Bool.not_eq_true] at strong
        exact notTaken ⟨same, by rw [strong, Bool.false_and]⟩
  | fetchWriterCount update next =>
      exact ⟨_, _, _, _, .counted update next, (Option.some.inj runs).symm⟩
  | fetchFairness update next =>
      exact ⟨_, _, _, _, .fairness update next, (Option.some.inj runs).symm⟩
  | wait value parked failed =>
      have runs := Option.some.inj runs
      split at runs
      case isTrue same => exact ⟨_, _, _, _, .waited same, runs.symm⟩
      case isFalse => exact ⟨_, _, _, _, .notWaited, runs.symm⟩
  | wakeOneWriter next => cases runs
  | wakeReaders next => cases runs
  | rest => cases runs

variable [Fintype ι]

/-- A wake continues its thread and those it picked. -/
theorem wakeInstr_outcome
    {state : State ι}
    {actor : ι}
    {picked : List ι}
    {instr : Instr}
    {result : Except Assertion (State ι)}
    (runs : state.wakeInstr actor picked instr = some result) :
    (∃ next,
        instr = .wakeOneWriter next ∧
          state.CanWake Pc.wokenWriter 1 picked ∧
          result =
            (state.wakePicked Pc.wokenWriter picked).finish actor
              (next (picked.length == 1))) ∨
      ∃ next,
        instr = .wakeReaders next ∧
          state.CanWake Pc.wokenReader maxWakedReaders picked ∧
          result =
            (state.wakePicked Pc.wokenReader picked).finish actor
              (next picked.length) := by
  cases instr with
  | wakeOneWriter next =>
      dsimp only [wakeInstr] at runs
      split at runs
      case isTrue canWake =>
        exact .inl ⟨next, rfl, canWake, (Option.some.inj runs).symm⟩
      case isFalse => cases runs
  | wakeReaders next =>
      dsimp only [wakeInstr] at runs
      split at runs
      case isTrue canWake =>
        exact .inr ⟨next, rfl, canWake, (Option.some.inj runs).symm⟩
      case isFalse => cases runs
  | _ => cases runs

/-- A thread that a step woke. -/
def Woken (before after : Thread) : Prop :=
  ∃ pc,
    (before.pc.wokenWriter = some pc ∨ before.pc.wokenReader = some pc) ∧
      after = { before with pc := pc }

omit [Fintype ι] in
/-- A wake leaves a thread as it is or wakes it. -/
theorem wakePicked_thread
    {woken : Pc → Option Pc}
    (state : State ι)
    (picked : List ι)
    (other : ι)
    (wakes :
      ∀ pc, woken (state.thread other).pc = some pc →
        (state.thread other).pc.wokenWriter = some pc ∨
          (state.thread other).pc.wokenReader = some pc) :
    (state.wakePicked woken picked).thread other = state.thread other ∨
      Woken (state.thread other)
        ((state.wakePicked woken picked).thread other) := by
  simp only [wakePicked]
  split
  case isTrue =>
    unfold wakeThread
    cases wakesAt : woken (state.thread other).pc with
    | some pc => exact .inr ⟨pc, wakes pc wakesAt, rfl⟩
    | none => exact .inl rfl
  case isFalse => exact .inl rfl

/-- Another thread than the actor stays as it is or is woken. -/
theorem step_other
    {backend : Backend}
    {state after : State ι}
    {action : Action ι}
    {other : ι}
    (step : State.Step backend state action after)
    (different : other ≠ action.actor) :
    after.thread other = state.thread other ∨
      Woken (state.thread other) (after.thread other) := by
  unfold State.Step at step
  cases action with
  | start actor op =>
      rw [State.exec, Option.map_eq_some_iff] at step
      obtain ⟨thread, -, same⟩ := step
      obtain rfl := Except.ok.inj same
      exact .inl (setThread_other _ different)
  | run actor spurious =>
      obtain ⟨word, writerCount, fairness, next, -, finishes⟩ :=
        runInstr_outcome step
      obtain ⟨thread, -, rfl⟩ := finish_ok finishes.symm
      exact .inl (setThread_other _ different)
  | wake actor picked =>
      have different : other ≠ actor := different
      rcases wakeInstr_outcome step with
        ⟨next, -, -, finishes⟩ | ⟨next, -, -, finishes⟩
      · obtain ⟨thread, -, rfl⟩ := finish_ok finishes.symm
        rw [setThread_other thread different]
        exact wakePicked_thread state picked other fun _ => .inl
      · obtain ⟨thread, -, rfl⟩ := finish_ok finishes.symm
        rw [setThread_other thread different]
        exact wakePicked_thread state picked other fun _ => .inr
  | interrupt actor =>
      rw [State.exec, Option.map_eq_some_iff] at step
      obtain ⟨pc, -, same⟩ := step
      obtain rfl := Except.ok.inj same
      exact .inl (setThread_other _ different)

end State

end StaticInit.Sync
