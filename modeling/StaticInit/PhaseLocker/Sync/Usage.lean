import StaticInit.LazySequentializer.Initialization
import StaticInit.PhaseLocker.Sync.Phases

namespace StaticInit.Sync

/-!
# How this crate uses the futex locker

The closures that the crate passes to `lock`, and the phases that the lazy
sequentializer sets under a write guard.  Under this usage a phase change
never takes back what a reader asked for, and so no thread goes to wait on a
word that nobody holds.
-/

open LockWord (view)

/-- The closures of `lock` in this crate. -/
inductive CrateClosures (tolerance : GeneratorTolerance) : Closures → Prop where
  | write :
      CrateClosures tolerance ⟨fun _ => .write, fun _ => .write⟩
  | read :
      CrateClosures tolerance ⟨fun _ => .read, fun _ => .read⟩
  /-- `init`. -/
  | initOrNone :
      CrateClosures tolerance
        ⟨fun phase => if tolerance.shallInit phase then .write else .none,
          fun _ => .read⟩
  /-- `init_then_read_guard`. -/
  | initOrRead :
      CrateClosures tolerance
        ⟨fun phase => if tolerance.shallInit phase then .write else .read,
          fun _ => .read⟩
  /-- `finalize_callback`. -/
  | finalize :
      CrateClosures tolerance
        ⟨fun phase =>
            if phase.intersects .initialized then .write else .none,
          fun phase =>
            if phase.intersects .initialized then .write else .none⟩

/-- The phases that the sequentializer sets in a guard that shows `initial`. -/
def SequentializerSets
    (tolerance : GeneratorTolerance)
    (initial phase : Phase) : Prop :=
  tolerance.shallInit initial = true ∧
      (GuardCode.Sets phase (lazyInitialization tolerance initial) ∨
        GuardCode.Sets phase lazyInitializationOnly) ∨
    initial.intersects .initialized = true ∧
      GuardCode.Sets phase (lazyFinalization initial)

/-- The operations of this crate on a locker; read guards are not cloned. -/
inductive CrateOp
    (tolerance : GeneratorTolerance)
    (thread : Thread) : UserOp → Prop where
  | lock
      {closures : Closures}
      (hint : Phase)
      (crate : CrateClosures tolerance closures) :
      CrateOp tolerance thread (.lock closures hint)
  | tryLock (how : Phase → LockNature) (hint : Phase) :
      CrateOp tolerance thread (.tryLock how hint)
  | dropLock (index : Nat) : CrateOp tolerance thread (.dropLock index)
  | dropReadLock (index : Nat) :
      CrateOp tolerance thread (.dropReadLock index)
  | convert (index : Nat) : CrateOp tolerance thread (.convert index)
  | setPhase
      {index : Nat}
      {lock : Lock}
      {phase : Phase}
      (found : thread.locks[index]? = some lock)
      (sets : SequentializerSets tolerance lock.initPhase phase) :
      CrateOp tolerance thread (.setPhase index phase)

/-- A phase change that takes back neither the end of initialization nor a value. -/
structure Advances
    (tolerance : GeneratorTolerance)
    (before after : Phase) : Prop where
  shallInit :
    tolerance.shallInit before = false → tolerance.shallInit after = false
  initialized :
    before.intersects .initialized = true →
      after.intersects .initialized = true

theorem Advances.refl
    (tolerance : GeneratorTolerance)
    (phase : Phase) :
    Advances tolerance phase phase :=
  ⟨id, id⟩

/-- The sequentializer only sets phases that advance. -/
theorem SequentializerSets.advances
    {tolerance : GeneratorTolerance}
    {initial phase : Phase}
    (sets : SequentializerSets tolerance initial phase) :
    Advances tolerance initial phase := by
  rcases sets with ⟨shallInit, -⟩ | ⟨initialized, sets⟩
  · constructor
    · intro notInit
      rw [shallInit] at notInit
      cases notInit
    · intro initialized
      rw [GeneratorTolerance.not_shallInit initialized] at shallInit
      cases shallInit
  · have kept : phase.intersects .initialized = true := by
      cases sets with
      | success => rw [Phase.intersects_or, initialized, Bool.true_or]
      | panic => rw [Phase.intersects_or, initialized, Bool.true_or]
      | returned value later => cases later
    exact ⟨fun _ => GeneratorTolerance.not_shallInit kept, fun _ => kept⟩

/-- Who asks to read goes on asking to read when the phase advances. -/
theorem CrateClosures.read_stays
    {tolerance : GeneratorTolerance}
    {closures : Closures}
    {before after : Phase}
    (crate : CrateClosures tolerance closures)
    (advances : Advances tolerance before after)
    (reads : closures.how before = .read) :
    closures.how after = .read := by
  cases crate with
  | write => cases reads
  | read => rfl
  | initOrNone =>
      dsimp only at reads
      split at reads <;> cases reads
  | initOrRead =>
      dsimp only at reads ⊢
      split at reads
      case isTrue => cases reads
      case isFalse notInit =>
        rw [Bool.not_eq_true] at notInit
        rw [advances.shallInit notInit]
        rfl
  | finalize =>
      dsimp only at reads
      split at reads <;> cases reads

end StaticInit.Sync
