import StaticInit.PhaseLocker.Spinning.Natures
import StaticInit.PhaseLocker.Sync.Natures

namespace StaticInit

/-!
# The calls of `lock` and `try_lock` in this crate

Each function of the lazy sequentializer, each unchecked lock of a locked lazy
and `Mutex::lock` matches on the result of one call; the arms that they
declare unreachable are undefined behaviour or a panic if they are taken.
-/

open Sync (Lock ReadLock Closures Call)

/-- A function that matches on the result of `lock` or `try_lock`. -/
inductive CallSite where
  | init
  | initThenReadGuard
  | initThenWriteGuard
  | tryInitThenReadGuard
  | tryInitThenWriteGuard
  | finalizeCallback
  | fastReadLockUnchecked
  | readLockUnchecked
  | fastWriteLockUnchecked
  | writeLockUnchecked
  | mutexLock
  deriving Repr, DecidableEq

namespace CallSite

/-- The closure `how` of `finalize_callback`. -/
def finalizeHow (phase : Phase) : LockNature :=
  if phase.intersects .initialized then .write else .none

/-- The call of each function; `shall_init` and the hint are its parameters. -/
def call
    (shallInit : Phase → Bool)
    (hint : Phase) : CallSite → Call
  | .init =>
      .lock
        ⟨fun phase => if shallInit phase then .write else .none,
          fun _ => .read⟩ hint
  | .initThenReadGuard =>
      .lock
        ⟨fun phase => if shallInit phase then .write else .read,
          fun _ => .read⟩ hint
  | .initThenWriteGuard => .lock ⟨fun _ => .write, fun _ => .write⟩ hint
  | .tryInitThenReadGuard =>
      .tryLock (fun phase => if shallInit phase then .write else .read) hint
  | .tryInitThenWriteGuard => .tryLock (fun _ => .write) hint
  | .finalizeCallback => .lock ⟨finalizeHow, finalizeHow⟩ hint
  | .fastReadLockUnchecked => .tryLock (fun _ => .read) hint
  | .readLockUnchecked => .lock ⟨fun _ => .read, fun _ => .read⟩ hint
  | .fastWriteLockUnchecked => .tryLock (fun _ => .write) hint
  | .writeLockUnchecked => .lock ⟨fun _ => .write, fun _ => .write⟩ hint
  | .mutexLock => .lock ⟨fun _ => .write, fun _ => .write⟩ .empty

/-- The arms that a function declares unreachable. -/
def isUnreachable : CallSite → LockResult ReadLock Lock → Bool
  | .init, _ => false
  | .initThenReadGuard, .none _ => true
  | .initThenReadGuard, _ => false
  | .initThenWriteGuard, .write _ => false
  | .initThenWriteGuard, _ => true
  | .tryInitThenReadGuard, .none _ => true
  | .tryInitThenReadGuard, _ => false
  | .tryInitThenWriteGuard, .write _ => false
  | .tryInitThenWriteGuard, _ => true
  | .finalizeCallback, .read _ => true
  | .finalizeCallback, _ => false
  | .fastReadLockUnchecked, .read _ => false
  | .fastReadLockUnchecked, _ => true
  | .readLockUnchecked, .read _ => false
  | .readLockUnchecked, _ => true
  | .fastWriteLockUnchecked, .write _ => false
  | .fastWriteLockUnchecked, _ => true
  | .writeLockUnchecked, .write _ => false
  | .writeLockUnchecked, _ => true
  | .mutexLock, .write _ => false
  | .mutexLock, _ => true

/-- A result that agrees with the closures is in an arm that is handled. -/
theorem handled_of_agrees
    {site : CallSite}
    {shallInit : Phase → Bool}
    {hint phase : Phase}
    {shown : Phase → Prop}
    {result : LockResult ReadLock Lock}
    (agrees : (site.call shallInit hint).Agrees phase shown result) :
    site.isUnreachable result = false := by
  have readOrWrite (initial : Phase) :
      (if shallInit initial then LockNature.write else .read) ≠ .none := by
    split
    case isTrue => exact nofun
    case isFalse => exact nofun
  have finalizeNotRead : finalizeHow phase ≠ .read := by
    unfold finalizeHow
    split
    case isTrue => exact nofun
    case isFalse => exact nofun
  cases site with
  | init => rfl
  | initThenReadGuard =>
      cases result with
      | none found => exact absurd agrees.2 (not_or.mpr ⟨readOrWrite found, nofun⟩)
      | _ => rfl
  | tryInitThenReadGuard =>
      cases result with
      | none found => exact absurd agrees.2 (readOrWrite found)
      | _ => rfl
  | finalizeCallback =>
      cases result with
      | read lock => exact absurd agrees finalizeNotRead
      | _ => rfl
  | initThenWriteGuard =>
      cases result with
      | write lock => rfl
      | read lock => cases agrees
      | none found => exact agrees.2.elim nofun nofun
  | tryInitThenWriteGuard =>
      cases result with
      | write lock => rfl
      | read lock => cases agrees
      | none found => cases agrees.2
  | fastReadLockUnchecked =>
      cases result with
      | write lock => cases agrees
      | read lock => rfl
      | none found => cases agrees.2
  | readLockUnchecked =>
      cases result with
      | write lock => cases agrees
      | read lock => rfl
      | none found => exact agrees.2.elim nofun nofun
  | fastWriteLockUnchecked =>
      cases result with
      | write lock => rfl
      | read lock => cases agrees
      | none found => cases agrees.2
  | writeLockUnchecked =>
      cases result with
      | write lock => rfl
      | read lock => cases agrees
      | none found => exact agrees.2.elim nofun nofun
  | mutexLock =>
      cases result with
      | write lock => rfl
      | read lock => cases agrees
      | none found => exact agrees.2.elim nofun nofun

end CallSite

namespace LockerSystem

variable {ι State Action : Type}

/-- No call of this crate gets a result in an arm that it declares unreachable. -/
def ArmsDead
    (system : LockerSystem ι State Action)
    (initial : State) : Prop :=
  ∀ (actions : List Action) (state after : State) (action : Action)
    (actor : ι) (result : LockResult ReadLock Lock)
    (site : CallSite) (shallInit : Phase → Bool) (hint : Phase),
    Run system.step initial actions state →
      system.step state action after →
        lastMark (system.called actor) actions =
            some (site.call shallInit hint) →
          system.returned state action = some (actor, result) →
            site.isUnreachable result = false

theorem HonoursNatures.armsDead
    {system : LockerSystem ι State Action}
    {initial : State}
    (honours : system.HonoursNatures initial) :
    system.ArmsDead initial := by
  intro actions state after action actor result site shallInit hint run step
    called returned
  obtain ⟨call, last, agrees⟩ :=
    honours actions state after action actor result run step returned
  obtain rfl := Option.some.inj (last.symm.trans called)
  exact CallSite.handled_of_agrees agrees

end LockerSystem

/--
Both synchronized lockers return the nature that the closures of the call ask
for: at the phase of the word for a guard, at a phase shown during the call
for none.  So no arm that the crate declares unreachable is taken.
-/
theorem natures_honoured
    {ι : Type}
    [DecidableEq ι]
    [Fintype ι]
    (backend : Sync.Backend)
    (phase : Phase) :
    ((Sync.State.system ι backend).HonoursNatures (.init ι phase) ∧
        (Sync.State.system ι backend).ArmsDead (.init ι phase)) ∧
      (Spinning.State.system ι).HonoursNatures (.init ι phase) ∧
        (Spinning.State.system ι).ArmsDead (.init ι phase) := by
  have futex :
      (Sync.State.system ι backend).HonoursNatures (.init ι phase) :=
    (Sync.State.keepsPlaces backend phase).honoursNatures
  have spinning :
      (Spinning.State.system ι).HonoursNatures (.init ι phase) :=
    (Spinning.State.keepsPlaces phase).honoursNatures
  exact ⟨⟨futex, futex.armsDead⟩, spinning, spinning.armsDead⟩

end StaticInit
