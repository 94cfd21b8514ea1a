import Mathlib.Data.List.Perm.Basic
import StaticInit.PhaseLocker.Natures
import StaticInit.PhaseLocker.Sync.System
import StaticInit.Simulation

namespace StaticInit.Atomic

open Sync (Lock ReadLock Call Result UserOp)

/-!
# The atomic locker

What a `PhaseLocker` is for, without its word: a phase and the guards of the
threads.  An operation takes effect in one commit between its start and its
return.  A write lock is given only where no other guard is alive, the nature
of a lock is what the closure asks of the phase at the commit, and the release
or the conversion of a write lock publishes its `on_unlock` phase.
-/

/-- How far a thread is with its operation. -/
inductive Stage where
  | idle
  | asked (call : Call)
  | droppingLock (lock : Lock)
  | convertingLock (lock : Lock)
  | droppingReadLock (lock : ReadLock)
  | cloning (guard : ReadLock)
  /-- The operation took effect and its result is to be returned. -/
  | answered (result : Result)

namespace Stage

/-- The locks that an operation took from the thread or is about to return. -/
def locks : Stage → List Lock
  | .droppingLock lock => [lock]
  | .convertingLock lock => [lock]
  | .answered result => result.locks
  | _ => []

/-- The read locks that an operation took or is about to return. -/
def readLocks : Stage → List ReadLock
  | .droppingReadLock lock => [lock]
  | .cloning guard => [guard]
  | .answered result => result.readLocks
  | _ => []

end Stage

/-- A thread and the guards it owns outside the locker. -/
structure Thread where
  stage : Stage
  locks : List Lock
  readLocks : List ReadLock

namespace Thread

/-- A thread outside the locker that owns no guard. -/
def outside : Thread := ⟨.idle, [], []⟩

/-- The locks a thread owns, inside and outside the locker. -/
def aliveLocks (thread : Thread) : List Lock :=
  thread.stage.locks ++ thread.locks

/-- The read locks a thread owns, inside and outside the locker. -/
def aliveReadLocks (thread : Thread) : List ReadLock :=
  thread.stage.readLocks ++ thread.readLocks

/-- Start an operation: only outside the locker, only on owned guards. -/
def start (thread : Thread) (op : UserOp) : Option Thread :=
  match thread.stage with
  | .idle =>
      match op with
      | .lock closures hint =>
          some { thread with stage := .asked (.lock closures hint) }
      | .tryLock how hint =>
          some { thread with stage := .asked (.tryLock how hint) }
      | .dropLock index =>
          thread.locks[index]?.map fun lock =>
            { thread with
              stage := .droppingLock lock
              locks := thread.locks.eraseIdx index }
      | .dropReadLock index =>
          thread.readLocks[index]?.map fun lock =>
            { thread with
              stage := .droppingReadLock lock
              readLocks := thread.readLocks.eraseIdx index }
      | .clone index =>
          thread.readLocks[index]?.map fun lock =>
            { thread with
              stage := .cloning lock
              readLocks := thread.readLocks.eraseIdx index }
      | .convert index =>
          thread.locks[index]?.map fun lock =>
            { thread with
              stage := .convertingLock lock
              locks := thread.locks.eraseIdx index }
      | .setPhase index phase =>
          thread.locks[index]?.map fun lock =>
            { thread with
              locks :=
                thread.locks.set index { lock with onUnlock := phase } }
  | _ => none

/-- The operation returns its result. -/
def finish (thread : Thread) (result : Result) : Thread where
  stage := .idle
  locks := result.locks ++ thread.locks
  readLocks := result.readLocks ++ thread.readLocks

end Thread

/-- The moment at which an operation takes effect, on the phase too. -/
inductive Commit (phase : Phase) : Stage → Phase → Stage → Prop where
  | write
      {call : Call}
      (asks : call.how phase = .write) :
      Commit phase (.asked call) phase
        (.answered (.locked (some (.write ⟨phase, phase⟩))))
  | read
      {call : Call}
      (asks : call.how phase = .read) :
      Commit phase (.asked call) phase
        (.answered (.locked (some (.read ⟨phase⟩))))
  | none
      {call : Call}
      (asks : call.MayReturnNone phase) :
      Commit phase (.asked call) phase
        (.answered (.locked (some (.none phase))))
  /-- `try_lock` returns `None`. -/
  | failed
      {how : Phase → LockNature}
      {hint : Phase} :
      Commit phase (.asked (.tryLock how hint)) phase
        (.answered (.locked Option.none))
  | dropLock
      {lock : Lock}
      (shows : lock.initPhase = phase) :
      Commit phase (.droppingLock lock) lock.onUnlock (.answered .dropped)
  | convertLock
      {lock : Lock}
      (shows : lock.initPhase = phase) :
      Commit phase (.convertingLock lock) lock.onUnlock
        (.answered (.converted ⟨lock.onUnlock⟩))
  | dropReadLock
      {lock : ReadLock}
      (shows : lock.initPhase = phase) :
      Commit phase (.droppingReadLock lock) phase (.answered .dropped)
  | clone
      {guard : ReadLock}
      (shows : guard.initPhase = phase) :
      Commit phase (.cloning guard) phase (.answered (.cloned guard guard))

/-- A stage is kept with the phase, or it commits. -/
def Settles
    (before : Phase)
    (stage : Stage)
    (after : Phase)
    (settled : Stage) : Prop :=
  settled = stage ∧ after = before ∨ Commit before stage after settled

/-- The atomic locker and its threads. -/
structure State (ι : Type) where
  phase : Phase
  thread : ι → Thread

/-- A locker in some phase, with every thread outside. -/
def State.init (ι : Type) (phase : Phase) : State ι where
  phase := phase
  thread := fun _ => .outside

/-- What the callers of a locker see. -/
inductive Label (ι : Type) where
  | start (actor : ι) (op : UserOp)
  | ret (actor : ι) (result : Result)

namespace State

variable {ι : Type} [DecidableEq ι]

/-- Replace the phase and one thread. -/
def setThread
    (state : State ι)
    (phase : Phase)
    (actor : ι)
    (thread : Thread) : State ι where
  phase := phase
  thread := Function.update state.thread actor thread

omit [DecidableEq ι] in
/-- A lock is alive only where no other guard is. -/
structure Exclusive (state : State ι) : Prop where
  own :
    ∀ actor,
      (state.thread actor).aliveLocks.length ≤ 1 ∧
        ((state.thread actor).aliveLocks ≠ [] →
          (state.thread actor).aliveReadLocks = [])
  others :
    ∀ actor other,
      other ≠ actor →
        (state.thread actor).aliveLocks ≠ [] →
          (state.thread other).aliveLocks = [] ∧
            (state.thread other).aliveReadLocks = []

/-- The steps of the atomic locker: commits are not seen. -/
inductive Step (state : State ι) : Option (Label ι) → State ι → Prop where
  | start
      {actor : ι}
      {op : UserOp}
      {thread : Thread}
      (starts : (state.thread actor).start op = some thread) :
      Step state (some (.start actor op))
        (state.setThread state.phase actor thread)
  | commit
      {actor : ι}
      {phase : Phase}
      {stage : Stage}
      (commits : Commit state.phase (state.thread actor).stage phase stage)
      (exclusive :
        (state.setThread phase actor
          { state.thread actor with stage := stage }).Exclusive) :
      Step state none
        (state.setThread phase actor
          { state.thread actor with stage := stage })
  | ret
      {actor : ι}
      {result : Result}
      (answered : (state.thread actor).stage = .answered result) :
      Step state (some (.ret actor result))
        (state.setThread state.phase actor
          ((state.thread actor).finish result))

@[simp] theorem setThread_self
    (state : State ι)
    (phase : Phase)
    (actor : ι)
    (thread : Thread) :
    (state.setThread phase actor thread).thread actor = thread :=
  Function.update_self _ _ _

theorem setThread_other
    {state : State ι}
    {actor other : ι}
    (phase : Phase)
    (thread : Thread)
    (different : other ≠ actor) :
    (state.setThread phase actor thread).thread other =
      state.thread other :=
  Function.update_of_ne different _ _

@[simp] theorem setThread_phase
    (state : State ι)
    (phase : Phase)
    (actor : ι)
    (thread : Thread) :
    (state.setThread phase actor thread).phase = phase :=
  rfl

/-- The last change of a thread is what counts. -/
@[simp] theorem setThread_setThread
    (state : State ι)
    (earlier later : Phase)
    (actor : ι)
    (before after : Thread) :
    (state.setThread earlier actor before).setThread later actor after =
      state.setThread later actor after := by
  simp [setThread]

omit [DecidableEq ι] in
/-- Only the guards that are alive count. -/
theorem Exclusive.congr
    {state other : State ι}
    (exclusive : state.Exclusive)
    (locks :
      ∀ actor,
        (other.thread actor).aliveLocks = (state.thread actor).aliveLocks)
    (readLocks :
      ∀ actor,
        (other.thread actor).aliveReadLocks =
          (state.thread actor).aliveReadLocks) :
    other.Exclusive := by
  constructor
  · intro actor
    rw [locks, readLocks]
    exact exclusive.own actor
  · intro actor another different
    rw [locks, locks, readLocks]
    exact exclusive.others actor another different

/-- A result that is returned leaves its guards to the thread. -/
theorem exclusive_of_finish
    {state : State ι}
    {phase : Phase}
    {actor : ι}
    {thread : Thread}
    {result : Result}
    (exclusive :
      (state.setThread phase actor (thread.finish result)).Exclusive) :
    (state.setThread phase actor
      { thread with stage := .answered result }).Exclusive := by
  apply exclusive.congr
  · intro other
    by_cases same : other = actor
    · subst same
      simp [Thread.aliveLocks, Thread.finish, Stage.locks]
    · simp [setThread_other _ _ same]
  · intro other
    by_cases same : other = actor
    · subst same
      simp [Thread.aliveReadLocks, Thread.finish, Stage.readLocks]
    · simp [setThread_other _ _ same]

/-- An operation commits and returns at once. -/
theorem exec_commit_ret
    {state : State ι}
    {actor : ι}
    {phase : Phase}
    {result : Result}
    (commits :
      Commit state.phase (state.thread actor).stage phase
        (.answered result))
    (exclusive :
      (state.setThread phase actor
        ((state.thread actor).finish result)).Exclusive) :
    Exec Step state [.ret actor result]
      (state.setThread phase actor
        ((state.thread actor).finish result)) := by
  have answered :
      ((state.setThread phase actor
          { state.thread actor with stage := .answered result }).thread
        actor).stage = .answered result := by
    rw [setThread_self]
  have returned := Step.ret answered
  rw [setThread_self, setThread_setThread] at returned
  exact .silent (.commit commits (exclusive_of_finish exclusive))
    (.visible returned .refl)

/-- A thread and a phase that stay as they are. -/
theorem setThread_eq_self
    (state : State ι)
    (actor : ι) :
    state.setThread state.phase actor (state.thread actor) = state := by
  simp [setThread]

end State

section Alive

variable {thread after : Thread}

/-- The phases that the locks of a thread show, and those of its read locks. -/
def Thread.initPhases (thread : Thread) : List Phase × List Phase :=
  (thread.aliveLocks.map Lock.initPhase,
    thread.aliveReadLocks.map ReadLock.initPhase)

/-- A guard that is handed to the locker stays alive. -/
theorem map_eraseIdx_perm
    {Guard : Type}
    {guards : List Guard}
    {guard : Guard}
    {index : Nat}
    (initPhase : Guard → Phase)
    (found : guards[index]? = some guard) :
    ((guard :: guards.eraseIdx index).map initPhase).Perm
      (guards.map initPhase) := by
  obtain ⟨inside, rfl⟩ := List.getElem?_eq_some_iff.mp found
  exact (List.getElem_cons_eraseIdx_perm inside).map initPhase

/-- An operation starts with the guards that the thread has. -/
theorem Thread.start_perm
    {op : UserOp}
    (starts : thread.start op = some after) :
    after.initPhases.1.Perm thread.initPhases.1 ∧
      after.initPhases.2.Perm thread.initPhases.2 := by
  obtain ⟨stage, locks, readLocks⟩ := thread
  cases stage with
  | idle =>
      cases op with
      | lock closures hint =>
          obtain rfl := Option.some.inj starts
          exact ⟨.refl _, .refl _⟩
      | tryLock how hint =>
          obtain rfl := Option.some.inj starts
          exact ⟨.refl _, .refl _⟩
      | dropLock index =>
          obtain ⟨lock, found, rfl⟩ := Option.map_eq_some_iff.mp starts
          exact ⟨map_eraseIdx_perm _ found, .refl _⟩
      | convert index =>
          obtain ⟨lock, found, rfl⟩ := Option.map_eq_some_iff.mp starts
          exact ⟨map_eraseIdx_perm _ found, .refl _⟩
      | dropReadLock index =>
          obtain ⟨lock, found, rfl⟩ := Option.map_eq_some_iff.mp starts
          exact ⟨.refl _, map_eraseIdx_perm _ found⟩
      | clone index =>
          obtain ⟨lock, found, rfl⟩ := Option.map_eq_some_iff.mp starts
          exact ⟨.refl _, map_eraseIdx_perm _ found⟩
      | setPhase index phase =>
          obtain ⟨lock, found, rfl⟩ := Option.map_eq_some_iff.mp starts
          obtain ⟨inside, rfl⟩ := List.getElem?_eq_some_iff.mp found
          refine ⟨?_, .refl _⟩
          have bound : index < (locks.map Lock.initPhase).length := by
            simpa using inside
          have kept := List.set_getElem_self bound
          rw [List.getElem_map] at kept
          simp only [initPhases, aliveLocks, Stage.locks, List.nil_append,
            List.map_set]
          rw [kept]
  | _ => cases starts

/-- A result that is returned leaves its guards to the thread. -/
theorem Thread.finish_initPhases
    {result : Result}
    (answered : thread.stage = .answered result) :
    (thread.finish result).initPhases = thread.initPhases := by
  simp [initPhases, aliveLocks, aliveReadLocks, finish, answered,
    Stage.locks, Stage.readLocks]

end Alive

namespace State

variable {ι : Type}

/-- Locks are exclusive, and every guard shows the phase it was given at. -/
structure Guarded (state : State ι) : Prop where
  exclusive : state.Exclusive
  locks :
    ∀ actor, ∀ phase ∈ (state.thread actor).initPhases.1,
      phase = state.phase
  readLocks :
    ∀ actor, ∀ phase ∈ (state.thread actor).initPhases.2,
      phase = state.phase

variable {state after : State ι}

/-- Only the guards that are alive count, wherever they are. -/
theorem Guarded.congr
    (guarded : state.Guarded)
    (phase : after.phase = state.phase)
    (kept :
      ∀ actor,
        (after.thread actor).initPhases.1.Perm
            (state.thread actor).initPhases.1 ∧
          (after.thread actor).initPhases.2.Perm
            (state.thread actor).initPhases.2) :
    after.Guarded := by
  have lengths :
      ∀ actor,
        (after.thread actor).aliveLocks.length =
            (state.thread actor).aliveLocks.length ∧
          (after.thread actor).aliveReadLocks.length =
            (state.thread actor).aliveReadLocks.length := by
    intro actor
    have first := (kept actor).1.length_eq
    have second := (kept actor).2.length_eq
    simp only [Thread.initPhases, List.length_map] at first second
    exact ⟨first, second⟩
  have none :
      ∀ actor,
        ((after.thread actor).aliveLocks = [] ↔
            (state.thread actor).aliveLocks = []) ∧
          ((after.thread actor).aliveReadLocks = [] ↔
            (state.thread actor).aliveReadLocks = []) := by
    intro actor
    simp only [← List.length_eq_zero_iff, lengths actor, and_self]
  refine ⟨⟨?_, ?_⟩, ?_, ?_⟩
  · intro actor
    rw [(lengths actor).1, Ne, (none actor).1, (none actor).2]
    exact guarded.exclusive.own actor
  · intro actor other different
    rw [Ne, (none actor).1, (none other).1, (none other).2]
    exact guarded.exclusive.others actor other different
  · intro actor shown member
    rw [phase]
    exact guarded.locks actor shown ((kept actor).1.mem_iff.mp member)
  · intro actor shown member
    rw [phase]
    exact guarded.readLocks actor shown ((kept actor).2.mem_iff.mp member)

/-- A fresh locker has no guards. -/
theorem Guarded.init (phase : Phase) : (State.init ι phase).Guarded where
  exclusive := ⟨fun _ => ⟨Nat.zero_le 1, fun _ => rfl⟩, fun _ _ _ _ => ⟨rfl, rfl⟩⟩
  locks _ _ member := absurd member List.not_mem_nil
  readLocks _ _ member := absurd member List.not_mem_nil

/-- A commit gives guards that show its phase. -/
theorem shows_of_commit
    {before phase : Phase}
    {start stage : Stage}
    (commits : Commit before start phase stage) :
    (∀ lock ∈ stage.locks, lock.initPhase = phase) ∧
      ∀ lock ∈ stage.readLocks, lock.initPhase = phase := by
  cases commits with
  | write => simp [Stage.locks, Stage.readLocks, Result.locks, Result.readLocks]
  | read => simp [Stage.locks, Stage.readLocks, Result.locks, Result.readLocks]
  | none => simp [Stage.locks, Stage.readLocks, Result.locks, Result.readLocks]
  | failed =>
      simp [Stage.locks, Stage.readLocks, Result.locks, Result.readLocks]
  | dropLock =>
      simp [Stage.locks, Stage.readLocks, Result.locks, Result.readLocks]
  | convertLock =>
      simp [Stage.locks, Stage.readLocks, Result.locks, Result.readLocks]
  | dropReadLock =>
      simp [Stage.locks, Stage.readLocks, Result.locks, Result.readLocks]
  | clone shows =>
      simp [Stage.locks, Stage.readLocks, Result.locks, Result.readLocks, shows]

/-- Only a thread with a lock changes the phase. -/
theorem phase_of_commit
    {before phase : Phase}
    {start stage : Stage}
    (commits : Commit before start phase stage) :
    phase = before ∨ start.locks ≠ [] := by
  cases commits with
  | dropLock => exact .inr (by simp [Stage.locks])
  | convertLock => exact .inr (by simp [Stage.locks])
  | _ => exact .inl rfl

section Commits

variable {actor : ι} {phase : Phase} {stage : Stage}

/-- Where another guard of the thread is alive the phase is kept. -/
theorem Guarded.kept_own
    (guarded : state.Guarded)
    (commits : Commit state.phase (state.thread actor).stage phase stage)
    (alive :
      (state.thread actor).locks ≠ [] ∨
        (state.thread actor).readLocks ≠ []) :
    phase = state.phase := by
  apply (phase_of_commit commits).resolve_right
  intro holds
  obtain ⟨single, free⟩ := guarded.exclusive.own actor
  have inside := List.length_pos_iff.mpr holds
  rw [Thread.aliveLocks, List.length_append] at single
  obtain locks | readLocks := alive
  · have outside := List.length_pos_iff.mpr locks
    omega
  · have owns : (state.thread actor).aliveLocks ≠ [] := by
      simp [Thread.aliveLocks, holds]
    have readers := free owns
    rw [Thread.aliveReadLocks, List.append_eq_nil_iff] at readers
    exact readLocks readers.2

/-- Where a guard of another thread is alive the phase is kept. -/
theorem Guarded.kept_other
    {other : ι}
    (guarded : state.Guarded)
    (commits : Commit state.phase (state.thread actor).stage phase stage)
    (different : other ≠ actor)
    (alive :
      (state.thread other).aliveLocks ≠ [] ∨
        (state.thread other).aliveReadLocks ≠ []) :
    phase = state.phase := by
  apply (phase_of_commit commits).resolve_right
  intro holds
  have owns : (state.thread actor).aliveLocks ≠ [] := by
    simp [Thread.aliveLocks, holds]
  obtain ⟨locks, readLocks⟩ :=
    guarded.exclusive.others actor other different owns
  exact alive.elim (absurd locks) (absurd readLocks)

/-- A commit keeps the guards as they should be. -/
theorem Guarded.commit
    [DecidableEq ι]
    (guarded : state.Guarded)
    (commits : Commit state.phase (state.thread actor).stage phase stage)
    (exclusive :
      (state.setThread phase actor
        { state.thread actor with stage := stage }).Exclusive) :
    (state.setThread phase actor
      { state.thread actor with stage := stage }).Guarded := by
  have shows := shows_of_commit commits
  refine ⟨exclusive, ?_, ?_⟩
  · intro other shown member
    by_cases same : other = actor
    · subst same
      rw [setThread_self] at member
      obtain ⟨lock, owned, rfl⟩ := List.mem_map.mp member
      obtain taken | kept := List.mem_append.mp owned
      · exact shows.1 lock taken
      · have outside := guarded.kept_own commits (.inl (List.ne_nil_of_mem kept))
        rw [setThread_phase, outside]
        exact guarded.locks other _
          (List.mem_map_of_mem (List.mem_append_right _ kept))
    · rw [setThread_other _ _ same] at member
      have alive := List.ne_nil_of_mem member
      have kept := guarded.kept_other commits same
        (.inl (by simpa [Thread.initPhases] using alive))
      rw [setThread_phase, kept]
      exact guarded.locks other shown member
  · intro other shown member
    by_cases same : other = actor
    · subst same
      rw [setThread_self] at member
      obtain ⟨lock, owned, rfl⟩ := List.mem_map.mp member
      obtain taken | kept := List.mem_append.mp owned
      · exact shows.2 lock taken
      · have outside := guarded.kept_own commits (.inr (List.ne_nil_of_mem kept))
        rw [setThread_phase, outside]
        exact guarded.readLocks other _
          (List.mem_map_of_mem (List.mem_append_right _ kept))
    · rw [setThread_other _ _ same] at member
      have alive := List.ne_nil_of_mem member
      have kept := guarded.kept_other commits same
        (.inr (by simpa [Thread.initPhases] using alive))
      rw [setThread_phase, kept]
      exact guarded.readLocks other shown member

/-- Every step keeps the guards as they should be. -/
theorem Guarded.step
    [DecidableEq ι]
    {label : Option (Label ι)}
    (guarded : state.Guarded)
    (step : Step state label after) :
    after.Guarded := by
  cases step with
  | @start actor op thread starts =>
      refine guarded.congr rfl fun other => ?_
      by_cases same : other = actor
      · subst same
        rw [setThread_self]
        exact Thread.start_perm starts
      · rw [setThread_other _ _ same]
        exact ⟨.refl _, .refl _⟩
  | commit commits exclusive => exact guarded.commit commits exclusive
  | @ret actor result answered =>
      refine guarded.congr rfl fun other => ?_
      by_cases same : other = actor
      · subst same
        rw [setThread_self, Thread.finish_initPhases answered]
        exact ⟨.refl _, .refl _⟩
      · rw [setThread_other _ _ same]
        exact ⟨.refl _, .refl _⟩

end Commits

end State

end StaticInit.Atomic
