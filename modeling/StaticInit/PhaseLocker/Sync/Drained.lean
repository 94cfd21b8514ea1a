import StaticInit.PhaseLocker.Sync.Draining

namespace StaticInit.Sync

/-!
# The locker is free in the end

When the threads are at rest, those that still ask for a lock find the locker
free: one after the other they take it, drop what they got and are outside.
-/

open LockWord (view)

/-- A word that shows the phase only is free for everyone. -/
theorem lockable_bits (phase : Phase) :
    (isWriteLockable phase.bits = true ∧ hasNoReaders phase.bits = true) ∧
      isReadLockable phase.bits = true := by
  rw [isWriteLockable_iff, hasNoReaders_iff, isReadLockable_iff, readerCount,
    LockWord.view_bits]
  simp

/-- The thread is about to ask again in `raw_lock_slow`. -/
def Pc.asks : Pc → Bool
  | .slowLoad .. => true
  | _ => false

namespace State

variable {ι : Type} [DecidableEq ι]

/-- The state with a word and a thread exchanged. -/
def put
    (state : State ι)
    (word : U32)
    (actor : ι)
    (thread : Thread) : State ι :=
  State.setThread { state with word := word } actor thread

variable [Fintype ι] {backend : Backend} {tolerance : GeneratorTolerance}
  {state after : State ι} {actor : ι} {word : U32} {thread later : Thread}
  {next : Next}

omit [Fintype ι] in
theorem put_finish
    (state : State ι)
    (word : U32)
    (actor : ι)
    (continues : thread.continue next = .ok later) :
    (state.put word actor thread).finish actor next =
      .ok (state.put word actor later) := by
  rw [finish, put, setThread_self, continues]
  simp [put, setThread, Except.map]

theorem put_fetch
    {update : U32 → U32}
    {new : U32}
    {next : U32 → Next}
    (instr : thread.pc.instr backend = .fetch update next)
    (stores : update word = new)
    (continues : thread.continue (next word) = .ok later) :
    State.DrainStep backend (state.put word actor thread) (.run actor false)
      (state.put new actor later) := by
  obtain rfl := stores
  have finishes := state.put_finish (update word) actor continues
  refine ⟨?_, rfl⟩
  rw [State.Step, exec, put, setThread_self, instr, runInstr]
  exact congrArg some finishes

theorem put_exchange
    {weak : Bool}
    {new : U32}
    {ok : Next}
    {err : U32 → Next}
    (instr : thread.pc.instr backend = .exchange weak word new ok err)
    (continues : thread.continue ok = .ok later) :
    State.DrainStep backend (state.put word actor thread) (.run actor false)
      (state.put new actor later) := by
  have finishes := state.put_finish new actor continues
  refine ⟨?_, rfl⟩
  rw [State.Step, exec, put, setThread_self, instr, runInstr]
  rw [if_pos ⟨rfl, Bool.and_false weak⟩]
  exact congrArg some finishes

theorem put_start
    {op : UserOp}
    (starts : thread.start op = some later)
    (drains : (Action.start actor op).drains = true) :
    State.DrainStep backend (state.put word actor thread) (.start actor op)
      (state.put word actor later) := by
  refine ⟨?_, drains⟩
  rw [State.Step, exec, put, setThread_self, starts]
  simp [put, setThread]

/-- A thread that asks to write takes the free lock and drops it. -/
theorem leaves_write
    {closures : Closures}
    {spinWait : SpinWait}
    {phase : Phase}
    (write : closures.how phase = .write) :
    ∃ actions,
      Run (State.DrainStep backend)
        (state.put phase.bits actor ⟨.slowLoad closures spinWait, [], []⟩)
        actions (state.put phase.bits actor .outside) := by
  obtain ⟨⟨lockable, noReaders⟩, -⟩ := lockable_bits phase
  let lock : Lock := .new phase.bits
  have same : lock = ⟨phase, phase⟩ := by
    simp only [lock, Lock.new, Phase.fromBitsTruncate_bits]
  have loads :
      State.DrainStep backend
        (state.put phase.bits actor ⟨.slowLoad closures spinWait, [], []⟩)
        (.run actor false)
        (state.put phase.bits actor
          ⟨.slowWrite closures spinWait phase.bits, [], []⟩) := by
    refine put_fetch rfl rfl ?_
    simp [slowLoop, write, lockable, noReaders, Thread.continue]
  have locks :
      State.DrainStep backend
        (state.put phase.bits actor
          ⟨.slowWrite closures spinWait phase.bits, [], []⟩)
        (.run actor false)
        (state.put (phase.bits ||| lockedBit) actor ⟨.idle, [lock], []⟩) :=
    put_exchange rfl rfl
  have drops :
      State.DrainStep backend
        (state.put (phase.bits ||| lockedBit) actor ⟨.idle, [lock], []⟩)
        (.start actor (.dropLock 0))
        (state.put (phase.bits ||| lockedBit) actor
          ⟨.dropLockCas lock .done, [], []⟩) :=
    put_start rfl rfl
  have unlocks :
      State.DrainStep backend
        (state.put (phase.bits ||| lockedBit) actor
          ⟨.dropLockCas lock .done, [], []⟩)
        (.run actor false)
        (state.put phase.bits actor .outside) := by
    rw [same]
    exact put_exchange rfl rfl
  exact ⟨_, .cons loads (.cons locks (.cons drops (.cons unlocks .refl)))⟩

/-- A thread that asks to read takes the free lock and drops it. -/
theorem leaves_read
    {closures : Closures}
    {spinWait : SpinWait}
    {phase : Phase}
    (read : closures.how phase = .read) :
    ∃ actions,
      Run (State.DrainStep backend)
        (state.put phase.bits actor ⟨.slowLoad closures spinWait, [], []⟩)
        actions (state.put phase.bits actor .outside) := by
  obtain ⟨-, lockable⟩ := lockable_bits phase
  let lock : ReadLock := .new phase.bits
  have loads :
      State.DrainStep backend
        (state.put phase.bits actor ⟨.slowLoad closures spinWait, [], []⟩)
        (.run actor false)
        (state.put phase.bits actor
          ⟨.slowRead closures spinWait phase.bits, [], []⟩) := by
    refine put_fetch rfl rfl ?_
    simp [slowLoop, read, lockable, Thread.continue]
  have locks :
      State.DrainStep backend
        (state.put phase.bits actor
          ⟨.slowRead closures spinWait phase.bits, [], []⟩)
        (.run actor false)
        (state.put (phase.bits + readerUnity) actor ⟨.idle, [], [lock]⟩) :=
    put_exchange rfl rfl
  have drops :
      State.DrainStep backend
        (state.put (phase.bits + readerUnity) actor ⟨.idle, [], [lock]⟩)
        (.start actor (.dropReadLock 0))
        (state.put (phase.bits + readerUnity) actor
          ⟨.dropReadSub lock .done, [], []⟩) :=
    put_start rfl rfl
  have unlocks :
      State.DrainStep backend
        (state.put (phase.bits + readerUnity) actor
          ⟨.dropReadSub lock .done, [], []⟩)
        (.run actor false)
        (state.put phase.bits actor .outside) := by
    refine put_fetch rfl (BitVec.add_sub_cancel ..) ?_
    have shown : view (phase.bits + readerUnity) = _ :=
      LockWord.view_add_readerUnity (by simp)
    have noWaiters : hasWaiters (phase.bits + readerUnity) = false := by
      rw [← Bool.not_eq_true, hasWaiters_iff, shown]
      simp
    simp [readDropped, noWaiters, After.resume, Thread.continue,
      Result.locks, Result.readLocks, Thread.outside]
  exact ⟨_, .cons loads (.cons locks (.cons drops (.cons unlocks .refl)))⟩

/-- Every thread is outside without a guard, and the word shows the phase only. -/
def Drained (state : State ι) : Prop :=
  (∀ actor, state.thread actor = .outside) ∧ state.word = state.phase.bits

/-- A thread that asks for a lock can go, and leaves the word as it was. -/
theorem leaves
    (state : State ι)
    (backend : Backend)
    (actor : ι)
    (closures : Closures)
    (spinWait : SpinWait)
    (phase : Phase) :
    ∃ actions,
      Run (State.DrainStep backend)
        (state.put phase.bits actor ⟨.slowLoad closures spinWait, [], []⟩)
        actions (state.put phase.bits actor .outside) := by
  cases nature : closures.how phase with
  | none =>
      refine ⟨_, .cons (put_fetch rfl rfl ?_) .refl⟩
      simp only [slowLoop, Phase.fromBitsTruncate_bits, nature]
      rfl
  | write => exact leaves_write nature
  | read => exact leaves_read nature

/-- How many threads still ask for a lock. -/
def asking (state : State ι) : Nat :=
  tally (fun thread => thread.pc.asks.toNat) state.thread

/-- A thread that asks for a lock at rest can go. -/
theorem Resting.drained_or_leaves
    (backend : Backend)
    (resting : state.Resting tolerance) :
    state.Drained ∨
      ∃ actions after,
        Run (State.DrainStep backend) state actions after ∧
          after.Resting tolerance ∧ after.asking < state.asking := by
  have bits : state.word = state.phase.bits :=
    resting.heeded.word_eq resting.nothing_held
  by_cases waiting :
    ∃ actor closures spinWait,
      (state.thread actor).pc = .slowLoad closures spinWait
  case neg =>
    left
    refine ⟨fun actor => ?_, bits⟩
    have idle : (state.thread actor).pc = .idle := by
      rcases Pc.rest_cases (resting.stages actor) with
        idle | ⟨closures, spinWait, place⟩ | parked
      · exact idle
      · exact absurd ⟨actor, closures, spinWait, place⟩ waiting
      · cases parked.symm.trans (resting.nobody_parked actor)
    obtain ⟨locks, readLocks⟩ := resting.noGuards actor
    rw [Thread.outside, ← idle, ← locks, ← readLocks]
  right
  obtain ⟨actor, closures, spinWait, place⟩ := waiting
  have thread :
      state.thread actor = ⟨.slowLoad closures spinWait, [], []⟩ := by
    obtain ⟨locks, readLocks⟩ := resting.noGuards actor
    rw [← place, ← locks, ← readLocks]
  have same :
      state.put state.phase.bits actor
        ⟨.slowLoad closures spinWait, [], []⟩ = state := by
    rw [← thread, ← bits]
    simp [put, setThread]
  obtain ⟨actions, run⟩ :=
    state.leaves backend actor closures spinWait state.phase
  rw [same] at run
  refine ⟨actions, _, run, ⟨run.invariant resting.toDrainable ?_, ?_, ?_⟩, ?_⟩
  · exact fun _ kept step => kept.step step
  · intro other
    by_cases same : other = actor
    · rw [same, put, setThread_self]
      exact .inl rfl
    · rw [put, setThread_other _ same]
      exact resting.stages other
  · intro other
    by_cases same : other = actor
    · rw [same, put, setThread_self]
      exact ⟨rfl, rfl⟩
    · rw [put, setThread_other _ same]
      exact resting.noGuards other
  · rw [asking, asking, put, setThread, tally_update,
      tally_eq_add_others _ state.thread actor, thread]
    exact Nat.add_lt_add_right Nat.zero_lt_one _

/-- The threads can always leave the locker free behind them. -/
theorem Drainable.drains
    (backend : Backend)
    (few : Fintype.card ι < 2 ^ 32)
    (drainable : state.Drainable tolerance) :
    ∃ actions final,
      Run (State.DrainStep backend) state actions final ∧ final.Drained := by
  obtain ⟨earlier, middle, first, -, rests⟩ :=
    Run.descends (Drainable.rests_or_settles backend few) drainable
  obtain ⟨later, final, second, -, drained⟩ :=
    Run.descends (Resting.drained_or_leaves backend) rests
  exact ⟨earlier ++ later, final, first.append second, drained⟩

/-- Unless a thread waits behind a guard of its own, there is no deadlock. -/
theorem no_deadlock
    {phase : Phase}
    {actions : List (Action ι)}
    (few : Fintype.card ι < 2 ^ 32)
    (run :
      Run (State.CrateStep backend tolerance) (State.init ι phase) actions
        state)
    (handsFree : state.HandsFree) :
    ∃ later final,
      Run (State.DrainStep backend) state later final ∧
        (∀ actor, final.thread actor = .outside) ∧
          final.word = final.phase.bits := by
  have heeded : state.Heeded tolerance :=
    run.invariant (Heeded.init tolerance phase) fun _ heeded step =>
      heeded.step step
  exact Drainable.drains backend few ⟨heeded, handsFree⟩

/-- A thread is parked behind the guard of another one, and both get out. -/
theorem no_deadlock_behind_guard :
    let write : UserOp := .lock ⟨fun _ => .write, fun _ => .write⟩ .empty
    let actions : List (Action (Fin 2)) :=
      [.start 0 write, .run 0 false, .start 1 write] ++
        List.replicate 15 (.run 1 false)
    ∃ state,
      Run (State.CrateStep .linux ⟨false, false⟩)
          (State.init (Fin 2) Phase.empty) actions state ∧
        (state.thread 0).locks ≠ [] ∧ (state.thread 1).pc.parked = true ∧
          ∃ later final,
            Run (State.DrainStep .linux) state later final ∧
              (∀ actor, final.thread actor = .outside) ∧
                final.word = final.phase.bits := by
  intro write actions
  obtain ⟨state, performed, idle, owns, parked, alone⟩ :
      ∃ state : State (Fin 2),
        (State.init (Fin 2) Phase.empty).execAll .linux actions =
            some (.ok state) ∧
          (state.thread 0).pc = .idle ∧
          (state.thread 0).locks ≠ [] ∧
          (state.thread 1).pc.parked = true ∧
          (state.thread 1).locks = [] ∧ (state.thread 1).readLocks = [] :=
    ⟨_, rfl, rfl, nofun, rfl, rfl, rfl⟩
  have run :
      Run (State.CrateStep .linux ⟨false, false⟩)
        (State.init (Fin 2) Phase.empty) actions state :=
    crateRun_of_execAll performed (by
      intro actor op member thread
      have started : op = write := by
        simp [actions] at member
        tauto
      rw [started]
      exact .lock _ .write)
  have handsFree : state.HandsFree := by
    intro actor waits
    match actor with
    | 0 =>
        rw [idle] at waits
        cases waits
    | 1 => exact alone
  exact ⟨state, run, owns, parked, no_deadlock (by decide) run handsFree⟩

end State

end StaticInit.Sync
