import StaticInit.PhaseLocker.Sync.Invariant

namespace StaticInit.Sync

/-!
# Mutual exclusion of the futex locker

A `Lock` or `ReadLock` is alive from the return of the call that gives it
until the exchange that releases or converts it; inside the locker it is owned
by the code of its own drop, conversion or clone.
-/

/-- The locks owned by the code at a place. -/
def Pc.ownedLocks : Pc → List Lock
  | .dropLockCas lock _ => [lock]
  | .dropLockXor lock _ => [lock]
  | .convertXor lock _ _ => [lock]
  | _ => []

/-- The read locks owned by the code at a place. -/
def Pc.ownedReadLocks : Pc → List ReadLock
  | .dropReadSub lock _ => [lock]
  | .cloneLoad guard _ => [guard]
  | .cloneCas guard _ _ => [guard]
  | .cloneReadLoad guard _ => [guard]
  | .cloneSetWaiter guard _ _ => [guard]
  | .cloneWait guard _ => [guard]
  | .parkedClone guard => [guard]
  | .cloneWoken guard => [guard]
  | _ => []

/-- Between the start and the end of the conversion of a lock. -/
def Pc.isConverting : Pc → Bool
  | .convertXor .. => true
  | .wakeXor _ (.converting _) => true
  | .wakeFairness (.converting _) => true
  | .wakeCall (.converting _) => true
  | .wakeOr _ (.converting _) => true
  | .wakeSub _ (.converting _) => true
  | _ => false

/-- The locks a thread owns, inside and outside the locker. -/
def Thread.aliveLocks (thread : Thread) : List Lock :=
  thread.pc.ownedLocks ++ thread.locks

/-- The read locks a thread owns, inside and outside the locker. -/
def Thread.aliveReadLocks (thread : Thread) : List ReadLock :=
  thread.pc.ownedReadLocks ++ thread.readLocks

/-- An alive lock is a write lock of the ledger. -/
theorem Thread.aliveLocks_le_owner (thread : Thread) :
    thread.aliveLocks.length ≤ thread.share.owner := by
  have atPlace : thread.pc.ownedLocks.length ≤ thread.pc.share.owner := by
    cases thread.pc with
    | dropLockCas lock next => exact Nat.le_refl 1
    | dropLockXor lock next => exact Nat.le_refl 1
    | convertXor lock cur converter => exact Nat.le_refl 1
    | _ => exact Nat.zero_le _
  rw [Thread.aliveLocks, List.length_append]
  exact Nat.add_le_add_right atPlace _

/-- An alive read lock is a counted reader of the ledger. -/
theorem Thread.aliveReadLocks_le_units (thread : Thread) :
    thread.aliveReadLocks.length ≤ thread.share.units := by
  have atPlace :
      thread.pc.ownedReadLocks.length ≤ thread.pc.share.units := by
    cases thread.pc with
    | dropReadSub lock next => exact Nat.le_refl 1
    | cloneLoad guard spinWait => exact Nat.le_refl 1
    | cloneCas guard spinWait cur => exact Nat.le_refl 1
    | cloneReadLoad guard spinWait => exact Nat.le_refl 1
    | cloneSetWaiter guard spinWait cur => exact Nat.le_refl 1
    | cloneWait guard cur => exact Nat.le_refl 1
    | parkedClone guard => exact Nat.le_refl 1
    | cloneWoken guard => exact Nat.le_succ 1
    | _ => exact Nat.zero_le _
  rw [Thread.aliveReadLocks, List.length_append]
  exact Nat.add_le_add_right atPlace _

/-- A converting thread holds the lock, first for writing, then for reading. -/
theorem Pc.holds_of_isConverting
    {pc : Pc}
    (converting : pc.isConverting = true) :
    0 < pc.share.units + pc.share.owner := by
  cases pc with
  | convertXor lock cur converter => exact Nat.one_pos
  | wakeXor toUnactivate waker =>
      cases waker with
      | converting converter => exact Nat.one_pos
      | releasing next => cases converting
  | wakeFairness waker => simp [Pc.share]
  | wakeCall waker => simp [Pc.share]
  | wakeOr count waker => simp [Pc.share]
  | wakeSub count waker => simp [Pc.share]
  | _ => cases converting

/-- A woken thread owns the same locks as before. -/
theorem aliveLocks_of_woken
    {before after : Thread}
    (woken : State.Woken before after) :
    after.aliveLocks = before.aliveLocks := by
  obtain ⟨pc, wakes, rfl⟩ := woken
  rw [Thread.aliveLocks, Thread.aliveLocks]
  have writer : before.pc.wokenWriter = some pc →
      pc.ownedLocks = before.pc.ownedLocks := by
    cases before.pc with
    | parkedWriter closures =>
        intro wakes
        obtain rfl := Option.some.inj wakes
        rfl
    | _ => exact fun wakes => nomatch wakes
  have reader : before.pc.wokenReader = some pc →
      pc.ownedLocks = before.pc.ownedLocks := by
    cases before.pc with
    | parkedReader closures =>
        intro wakes
        obtain rfl := Option.some.inj wakes
        rfl
    | parkedClone guard =>
        intro wakes
        obtain rfl := Option.some.inj wakes
        rfl
    | _ => exact fun wakes => nomatch wakes
  rw [wakes.elim writer reader]

/-- A converting thread is not parked. -/
theorem not_woken_of_isConverting
    {before after : Thread}
    (converting : before.pc.isConverting = true) :
    ¬ State.Woken before after := by
  rintro ⟨pc, wakes, -⟩
  cases place : before.pc with
  | parkedWriter closures => rw [place] at converting; cases converting
  | parkedReader closures => rw [place] at converting; cases converting
  | parkedClone guard => rw [place] at converting; cases converting
  | _ =>
      rw [place] at wakes
      exact wakes.elim nofun nofun

namespace State

variable {ι : Type} [DecidableEq ι] [Fintype ι]

/-- How many locks are alive. -/
def aliveLocks (state : State ι) : Nat :=
  tally (fun thread => thread.aliveLocks.length) state.thread

/-- How many read locks are alive. -/
def aliveReadLocks (state : State ι) : Nat :=
  tally (fun thread => thread.aliveReadLocks.length) state.thread

omit [DecidableEq ι] in
theorem aliveLocks_le_owner (state : State ι) :
    state.aliveLocks ≤ state.total.owner := by
  have owners := map_tally Share.ownerHom Thread.share state.thread
  change state.total.owner = _ at owners
  rw [owners]
  exact tally_mono Thread.aliveLocks_le_owner state.thread

omit [DecidableEq ι] in
theorem aliveReadLocks_le_units (state : State ι) :
    state.aliveReadLocks ≤ state.total.units := by
  have units := map_tally Share.unitsHom Thread.share state.thread
  change state.total.units = _ at units
  rw [units]
  exact tally_mono Thread.aliveReadLocks_le_units state.thread

/-- Next to a converting thread no lock is alive. -/
theorem Inv.aliveLocks_of_converting
    {state : State ι}
    (inv : state.Inv)
    {converting other : ι}
    (different : other ≠ converting)
    (converts : (state.thread converting).pc.isConverting = true) :
    (state.thread other).aliveLocks = [] := by
  rw [← List.length_eq_zero_iff]
  have ledger := inv.ledgerOf converting
  have holds := Pc.holds_of_isConverting converts
  have lower := state.share_le_rest different
  have alive := (state.thread other).aliveLocks_le_owner
  have sole := ledger.sole
  have alone := ledger.alone
  simp only [Share.units_add, Share.owner_add, Share.passing_add]
    at sole alone
  rw [Share.le_iff] at lower
  omega

/--
At most one lock is alive; while one is, no read lock is; and while a thread
converts its lock, no other thread owns or obtains one.
-/
theorem mutual_exclusion
    {backend : Backend}
    {state : State ι}
    (reachable : Reachable backend state) :
    state.aliveLocks ≤ 1 ∧
      (state.aliveLocks = 1 → state.aliveReadLocks = 0) ∧
      ∀ converting other,
        other ≠ converting →
          (state.thread converting).pc.isConverting = true →
            (state.thread other).aliveLocks = [] ∧
              ∀ action after,
                State.Step backend state action after →
                  (after.thread other).aliveLocks = [] := by
  have inv := reachable.inv
  have owners := state.aliveLocks_le_owner
  have units := state.aliveReadLocks_le_units
  have sole := inv.ledger.sole
  have alone := inv.ledger.alone
  refine ⟨by omega, by omega, ?_⟩
  intro converting other different converts
  have none := inv.aliveLocks_of_converting different converts
  refine ⟨none, ?_⟩
  intro action after step
  by_cases moves : other = action.actor
  · have still : after.thread converting = state.thread converting := by
      apply (step_other step _).resolve_right
      · exact not_woken_of_isConverting converts
      · exact fun same => different (moves.trans same.symm)
    apply (inv.step step).aliveLocks_of_converting different
    rw [still]
    exact converts
  · rcases step_other step moves with same | woken
    · rw [same]
      exact none
    · rw [aliveLocks_of_woken woken]
      exact none

/-- Two threads: one holds the lock while the other one tries to read. -/
theorem mutual_exclusion_writing :
    let actions : List (Action (Fin 2)) :=
      [.start 0 (.lock ⟨fun _ => .write, fun _ => .write⟩ .empty),
        .run 0 false,
        .start 1 (.lock ⟨fun _ => .read, fun _ => .read⟩ .empty),
        .run 1 false]
    ∃ state,
      Run (Step .linux) (init (Fin 2) .empty) actions state ∧
        state.aliveLocks = 1 ∧ state.aliveReadLocks = 0 := by
  intro actions
  obtain ⟨state, performed, alive⟩ :
      ∃ state,
        (init (Fin 2) .empty).execAll .linux actions = some (.ok state) ∧
          state.aliveLocks = 1 :=
    ⟨_, rfl, rfl⟩
  have run := run_of_execAll performed
  exact ⟨state, run, alive, (mutual_exclusion ⟨_, _, run⟩).2.1 alive⟩

end State

end StaticInit.Sync
