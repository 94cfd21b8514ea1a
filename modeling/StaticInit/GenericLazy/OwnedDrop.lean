import StaticInit.GenericLazy.OwnedSlot

namespace StaticInit.Owned

/-!
# The value of an owned lazy is dropped once

An access through a unique reference initializes without the lock.  It leaves
what a shared access leaves once its guard is dropped, so the destructor finds
the same phase and the same slot.
-/

variable
  {type : OwnedType} {kind : GeneratorTolerance} {owned after : Owned}
  {completes : Bool} {phase : Phase} {word : U32}

/-- The drop of a guard. -/
def Event.isDrop : Event → Bool
  | .dropWrite _ | .dropRead => true
  | _ => false

/-- What is left of the access, once the guard it holds is dropped. -/
def Settles (unique after : Owned) : Held → Prop
  | .readGuard _ => 0 < after.readGuards ∧ after.dropRead = unique
  | .writeGuard phase =>
      after.writeGuards[0]? = some phase ∧ after.dropWrite 0 phase = unique
  | _ => after = unique

/-- The user drops the guard, unless the check has done it. -/
theorem Settles.releases
    {unique : Owned}
    {held : Held}
    (settles : Settles unique after held)
    (type : OwnedType)
    (accessor : Accessor) :
    ∃ releases,
      (∀ event ∈ releases, event.isDrop = true) ∧
        Run (Step type) (after.check type accessor held).1 releases unique := by
  have released : ∀ event : Event, event.isDrop = true →
      Step type after event unique →
        ∃ releases,
          (∀ event ∈ releases, event.isDrop = true) ∧
            Run (Step type) after releases unique := by
    intro event drops step
    refine ⟨[event], ?_, .cons step .refl⟩
    intro other member
    rw [List.mem_singleton.mp member]
    exact drops
  cases held with
  | nothing phase =>
      obtain rfl : after = unique := settles
      exact ⟨[], nofun, .refl⟩
  | readGuard phase =>
      obtain ⟨some_, dropped⟩ := settles
      rw [check]
      by_cases passed : passes type accessor after.tolerance phase
      · rw [passed]
        exact released .dropRead rfl ⟨some_, dropped.symm⟩
      · rw [checkRead_refused passed, ← dropped]
        exact ⟨[], nofun, .refl⟩
  | writeGuard phase =>
      obtain ⟨first, dropped⟩ := settles
      rw [check]
      by_cases passed : passes type accessor after.tolerance phase
      · rw [passed, checkWrite]
        by_cases same : accessor = .init
        · rw [if_pos same, ← dropped]
          exact ⟨[], nofun, .refl⟩
        · rw [if_neg same]
          exact released (.dropWrite 0) rfl ⟨phase, first, dropped.symm⟩
      · rw [checkWrite_refused passed, ← dropped]
        exact ⟨[], nofun, .refl⟩
  | ended reply =>
      obtain rfl : after = unique := settles
      exact ⟨[], nofun, .refl⟩

section Paths

/-- The word of a phase is lockable. -/
theorem isWriteLockable_bits (locker : LockerType) (phase : Phase) :
    locker.isWriteLockable phase.bits = true := by
  have noReaders : Sync.readerCount phase.bits = 0 := by
    simp [Sync.readerCount]
  have unlocked : Sync.isNotWriteLocked phase.bits = true := by
    simp
  have none : Sync.hasNoReaders phase.bits = true :=
    (Sync.hasNoReaders_iff _).mpr noReaders
  have spinning : Spinning.isWriteLockable phase.bits = true :=
    Bool.and_eq_true_iff.mpr ⟨unlocked, none⟩
  cases locker with
  | futex =>
      refine Bool.and_eq_true_iff.mpr ⟨?_, none⟩
      simp
  | spinning => exact spinning
  | unSync => exact spinning

/-- The lock of a lazy that nobody uses is free. -/
theorem lock_vacant
    {how : Phase → LockNature}
    (locker : LockerType)
    (fast : Bool)
    (phase : Phase)
    (nature : how phase = .write) :
    locker.lock fast phase.bits how =
      .taken (phase.bits ||| lockedBit) (.write phase) := by
  have sync :
      ∀ locker : LockerType,
        locker.syncLock fast phase.bits how =
          .taken (phase.bits ||| lockedBit) (.write phase) := by
    intro locker
    rw [LockerType.syncLock, Phase.fromBitsTruncate_bits, nature]
    dsimp only
    rw [if_pos (isWriteLockable_bits locker phase)]
  cases locker with
  | futex => exact sync .futex
  | spinning => exact sync .spinning
  | unSync =>
      have free : phase.bits &&& (lockedBit ||| readerBits) = 0 := by
        rw [UnSync.writable_iff]
        simp [Sync.readerCount]
      have guard :
          UnSync.WriteGuard.new (phase.bits ||| lockedBit) = ⟨phase⟩ := by
        rw [UnSync.WriteGuard.new, Sync.fromBitsTruncate_or_lockedBit,
          Phase.fromBitsTruncate_bits]
      change LockerType.unSyncLock fast phase.bits how = _
      rw [LockerType.unSyncLock, UnSync.tryLock, UnSync.lock, UnSync.phase,
        Phase.fromBitsTruncate_bits, nature, free, guard]
      cases fast with
      | _ => rfl

/-- Both paths make the same attempt. -/
theorem settles_initializing
    {next : Owned → Owned × Held}
    (inv : owned.Inv type kind)
    (vacant : owned.Vacant phase)
    (fresh : owned.generator ≠ .once false)
    (returned :
      ∀ after : Owned,
        after.word = initializedPhase.bits → after.writeGuards = [] →
          Settles after (next (after.holding word)).1
            (next (after.holding word)).2) :
    Settles (owned.mutLazyInitializationOnly completes).1
      ((owned.receive word (.write phase)).initializing completes next).1
      ((owned.receive word (.write phase)).initializing completes next).2 := by
  have attempted := inv.attempted vacant fresh completes
  rw [initializing, lazyInitializationOnly_eq vacant.writeGuards]
  generalize owned.mutLazyInitializationOnly completes = ending at attempted
  cases attempted with
  | returned inv filled bits writeGuards readGuards =>
      exact returned _ bits writeGuards
  | unwound => exact rfl

/-- Lock a lazy that nobody uses. -/
theorem lock_eq
    {how : Phase → LockNature}
    {next : LockResult Unit Phase → Owned → Owned × Held}
    (locker : LockerType)
    (fast : Bool)
    (vacant : owned.Vacant phase)
    (nature : how phase = .write) :
    owned.lock locker fast how next =
      some
        (next (.write phase)
          (owned.receive (phase.bits ||| lockedBit) (.write phase))) := by
  rw [Owned.lock, vacant.word, lock_vacant locker fast phase nature]

section Due

variable
  (inv : owned.Inv type kind) (vacant : owned.Vacant phase)
  (due : owned.shallInit phase = true)
  (fresh : owned.generator ≠ .once false)

include inv vacant due fresh

theorem settles_init :
    ∃ ending,
      owned.init type.locker completes = some ending ∧
        Settles (owned.mutLazyInitializationOnly completes).1
          ending.1 ending.2 := by
  refine ⟨_, lock_eq _ _ vacant (if_pos due), ?_⟩
  refine settles_initializing inv vacant fresh ?_
  intro after bits writeGuards
  exact holding_dropWrite bits writeGuards

theorem settles_initThenReadGuard (fast : Bool) :
    ∃ ending,
      owned.initThenReadGuard type.locker fast completes = some ending ∧
        Settles (owned.mutLazyInitializationOnly completes).1
          ending.1 ending.2 := by
  refine ⟨_, lock_eq _ _ vacant (if_pos due), ?_⟩
  refine settles_initializing inv vacant fresh ?_
  intro after bits writeGuards
  exact ⟨Nat.succ_pos _, convert_dropRead type.locker bits writeGuards⟩

theorem settles_initThenWriteGuard (fast : Bool) :
    ∃ ending,
      owned.initThenWriteGuard type.locker fast completes = some ending ∧
        Settles (owned.mutLazyInitializationOnly completes).1
          ending.1 ending.2 := by
  have same :
      (owned.receive (phase.bits ||| lockedBit) (.write phase)).shallInit
          phase =
        true :=
    due
  refine ⟨_, lock_eq _ _ vacant rfl, ?_⟩
  dsimp only
  rw [if_pos same]
  refine settles_initializing inv vacant fresh ?_
  intro after bits writeGuards
  exact ⟨rfl, holding_dropWrite bits writeGuards⟩

end Due

theorem not_offers_primed
    {accessor : Accessor}
    (primed : accessor.isPrimed = true) :
    type.lazyType.offers accessor = false := by
  unfold OwnedType.lazyType
  cases type.isLocked with
  | true =>
      cases accessor with
      | _ => first | rfl | cases primed
  | false =>
      cases accessor with
      | _ => first | rfl | cases primed

/-- A shared access that initializes the lazy. -/
theorem Inv.settles_prepare
    {accessor : Accessor}
    (inv : owned.Inv type kind)
    (offered : type.lazyType.offers accessor = true)
    (initializes : accessor.preparation = .init)
    (vacant : owned.Vacant phase)
    (due : owned.shallInit phase = true)
    (fresh : owned.generator ≠ .once false)
    (completes : Bool) :
    ∃ ending,
      owned.prepare type accessor completes = some ending ∧
        Settles (owned.mutLazyInitializationOnly completes).1
          ending.1 ending.2 := by
  cases accessor with
  | get => exact settles_init inv vacant due fresh
  | init =>
      rw [prepare]
      split
      case isTrue =>
        exact settles_initThenWriteGuard inv vacant due fresh false
      case isFalse => exact settles_init inv vacant due fresh
  | read =>
      exact settles_initThenReadGuard inv vacant due fresh false
  | fastRead =>
      exact settles_initThenReadGuard inv vacant due fresh true
  | write =>
      exact settles_initThenWriteGuard inv vacant due fresh false
  | fastWrite =>
      exact settles_initThenWriteGuard inv vacant due fresh true
  | primedRead =>
      rw [not_offers_primed rfl] at offered
      cases offered
  | primedWrite =>
      rw [not_offers_primed rfl] at offered
      cases offered
  | _ => cases initializes

/-- The access through a unique reference. -/
theorem initUnique_eq
    (vacant : owned.Vacant phase)
    (due : owned.shallInit phase = true)
    (completes : Bool) :
    (owned.initUnique completes).1 =
      (owned.mutLazyInitializationOnly completes).1 := by
  have found : Phase.fromBits owned.word = some phase := by
    rw [Phase.fromBits, vacant.word, Phase.fromBitsTruncate_bits, if_pos rfl]
  rw [initUnique, found]
  dsimp only
  rw [if_pos due]
  generalize owned.mutLazyInitializationOnly completes = ending
  obtain ⟨after, returned⟩ := ending
  cases returned with
  | true =>
      dsimp only
      split
      case h_1 => rfl
      case h_2 => rfl
  | false => rfl

/-- A unique access holds no guard. -/
theorem check_initUnique
    (accessor : Accessor)
    (completes : Bool) :
    ((owned.initUnique completes).1.check type accessor
        (owned.initUnique completes).2).1 =
      (owned.initUnique completes).1 := by
  unfold initUnique
  split
  case h_1 => rfl
  case h_2 phase found =>
    split
    case isTrue =>
      generalize owned.mutLazyInitializationOnly completes = ending
      obtain ⟨after, returned⟩ := ending
      cases returned with
      | true =>
          dsimp only
          split
          case h_1 => rfl
          case h_2 => rfl
      | false => rfl
    case isFalse => rfl

theorem offers_getMut (type : OwnedType) :
    type.lazyType.offers .getMut = true := by
  unfold OwnedType.lazyType
  cases type.isLocked with
  | true => rfl
  | false => rfl

theorem step_getMut
    (type : OwnedType)
    (unique : owned.isUnique = true)
    (completes : Bool) :
    ∃ reply,
      Step type owned (.access .getMut completes reply)
        (owned.initUnique completes).1 := by
  have kept : ((owned.initUnique completes).1.check type .getMut
      (owned.initUnique completes).2).1 = (owned.initUnique completes).1 :=
    check_initUnique .getMut completes
  refine
    ⟨((owned.initUnique completes).1.check type .getMut
        (owned.initUnique completes).2).2, offers_getMut type, ?_⟩
  rw [access, prepare, if_pos unique, Option.map_some]
  exact congrArg some (Prod.ext kept rfl)

/-- A shared access that initializes the lazy, and the drop of its guard. -/
theorem Inv.step_shared
    {accessor : Accessor}
    (inv : owned.Inv type kind)
    (vacant : owned.Vacant phase)
    (due : owned.shallInit phase = true)
    (fresh : owned.generator ≠ .once false)
    (completes : Bool)
    (offered : type.lazyType.offers accessor = true)
    (initializes : accessor.preparation = .init) :
    ∃ reply shared releases,
      Step type owned (.access accessor completes reply) shared ∧
        (∀ event ∈ releases, event.isDrop = true) ∧
        Run (Step type) shared releases
          (owned.mutLazyInitializationOnly completes).1 := by
  obtain ⟨⟨after, held⟩, prepared, settles⟩ :=
    inv.settles_prepare offered initializes vacant due fresh completes
  obtain ⟨releases, drops, run⟩ := settles.releases type accessor
  refine
    ⟨(after.check type accessor held).2, (after.check type accessor held).1,
      releases, ⟨offered, ?_⟩, drops, run⟩
  rw [Owned.access, prepared]
  rfl

/-- The drop of a lazy drops what its phase tells of. -/
theorem Inv.drop_eq
    (inv : owned.Inv type kind)
    (unique : owned.isUnique = true) :
    owned.drop = owned.completed.map some := by
  unfold drop
  rcases inv.free_of_unique unique with ⟨phase, vacant, empty | failed⟩ | filled
  · rw [vacant.phase_eq, empty, vacant.completed]
    rfl
  · rw [vacant.phase_eq, failed, vacant.completed]
    rfl
  · obtain ⟨run, slot, completed⟩ := filled.value
    rw [filled.phase, slot, completed]
    rfl

theorem Inv.completed_le
    (inv : owned.Inv type kind) :
    owned.completed.length ≤ 1 := by
  have vacant_le : ∀ {phase : Phase}, owned.Vacant phase →
      owned.completed.length ≤ 1 := by
    intro phase vacant
    rw [vacant.completed]
    exact Nat.zero_le 1
  have generated_le : owned.Generated → owned.completed.length ≤ 1 := by
    rintro ⟨-, run, -, completed⟩
    rw [completed]
    exact Nat.le_refl 1
  cases inv.stage with
  | untouched vacant => exact vacant_le vacant
  | failed vacant => exact vacant_le vacant
  | guarded guarded _ => exact generated_le guarded.toGenerated
  | filled filled => exact generated_le filled.toGenerated

theorem Inv.started_le
    (inv : owned.Inv type kind)
    (strict : kind.initFailure = false) :
    owned.started ≤ 1 := by
  have tolerance := inv.tolerance
  cases same : owned.generator with
  | always =>
      rw [Owned.tolerance, same] at tolerance
      rw [← tolerance] at strict
      cases strict
  | once available =>
      cases available with
      | true =>
          rw [inv.unused same]
          exact Nat.zero_le 1
      | false => exact inv.started same

end Paths

/-- Every reachable state keeps the slot and the phase in step. -/
theorem inv_of_run
    {type : OwnedType}
    {generator : OwnedGenerator}
    (built : generator ≠ .once false)
    {events : List Event}
    {owned : Owned}
    (run : Run (Step type) (Owned.new generator) events owned) :
    owned.Inv type generator.tolerance ∧
      ∀ event ∈ events, event.showsValue := by
  induction run with
  | refl => exact ⟨.new built, nofun⟩
  | snoc event earlier last inductionHypothesis =>
      obtain ⟨inv, shown⟩ := inductionHypothesis
      obtain ⟨after, shows⟩ := inv.step last
      refine ⟨after, ?_⟩
      intro other member
      rcases List.mem_append.mp member with before | now
      · exact shown other before
      · rw [List.mem_singleton.mp now]
        exact shows

/--
A value is dropped with the lazy if a run of the generator returned one, and
then that value alone; no empty slot is read or dropped; a closure that can be
called once is called once at most; and an access through a unique reference
leaves what a shared access leaves once its guard is dropped.
-/
theorem value_dropped_once
    {type : OwnedType}
    {generator : OwnedGenerator}
    (built : generator ≠ .once false)
    {events : List Event}
    {owned : Owned}
    (run : Run (Step type) (Owned.new generator) events owned) :
    (∀ event ∈ events, event.showsValue) ∧
      (owned.isUnique = true → owned.drop = owned.completed.map some) ∧
      owned.completed.length ≤ 1 ∧
      owned.calledTwice = false ∧
      (generator = .once true → owned.started ≤ 1) ∧
      (owned.isUnique = true →
        owned.shallInit owned.phase = true →
          ∀ completes : Bool,
            ∃ reply unique,
              Step type owned (.access .getMut completes reply) unique ∧
                ∀ accessor : Accessor,
                  type.lazyType.offers accessor = true →
                    accessor.preparation = .init →
                      ∃ other shared releases,
                        Step type owned (.access accessor completes other)
                            shared ∧
                          (∀ event ∈ releases, event.isDrop = true) ∧
                          Run (Step type) shared releases unique) := by
  obtain ⟨inv, shown⟩ := inv_of_run built run
  refine ⟨shown, inv.drop_eq, inv.completed_le, inv.calledTwice, ?_, ?_⟩
  · rintro rfl
    exact inv.started_le rfl
  · intro unique due completes
    obtain ⟨⟨phase, vacant⟩, fresh⟩ :=
      inv.due (inv.free_of_unique unique) due
    rw [vacant.phase_eq] at due
    obtain ⟨reply, step⟩ := step_getMut type unique completes
    rw [initUnique_eq vacant due completes] at step
    refine ⟨reply, _, step, ?_⟩
    intro accessor offered initializes
    exact inv.step_shared vacant due fresh completes offered initializes

/--
A locked lazy whose closure returns a value under the write guard, which is
then dropped.
-/
theorem value_dropped_once_locked :
    (∃ owned,
      Run (Step ⟨.futex, true⟩) (Owned.new (.once true))
          [.access .tryRead true (.error .empty),
            .access .write true (.reference (some 0)), .dropWrite 0]
          owned ∧
        owned.drop = [some 0]) ∧
      ∀ owned,
        Run (Step ⟨.futex, true⟩) (Owned.new (.once true))
            [.access .tryRead true (.error .empty),
              .access .write true (.reference (some 0)), .dropWrite 0]
            owned →
          owned.isUnique = true → owned.drop = owned.completed.map some := by
  have built : OwnedGenerator.once true ≠ .once false := nofun
  refine ⟨?_, fun owned run => (value_dropped_once built run).2.1⟩
  refine
    ⟨_,
      .cons (⟨rfl, rfl⟩ : Step _ _ (.access .tryRead true (.error .empty)) _) <|
        .cons (⟨rfl, rfl⟩ :
            Step _ _ (.access .write true (.reference (some 0))) _) <|
          .cons (⟨initializedPhase, rfl, rfl⟩ : Step _ _ (.dropWrite 0) _) .refl,
      ?_⟩
  rfl

end StaticInit.Owned
