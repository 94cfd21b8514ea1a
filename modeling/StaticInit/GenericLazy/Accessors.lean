import StaticInit.LazySequentializer.Execution
import StaticInit.Runs

namespace StaticInit

/-!
# The accessors of the process-wide lazies

Seven types share `GenericLazy` and `GenericLockedLazy`.  They differ in their
policy, in their sequentializer and in what the finalizer does to the value.
An accessor may initialize the static first and then checks the phase, with
`is_accessible` or with `post_init_is_accessible`.
-/

/-- The process-wide lazies whose policy does not assume registration. -/
inductive LazyType where
  | lazy
  | lockedLazy
  | primedLockedLazy
  | lazyFinalize
  | lockedLazyFinalize
  | lockedLazyDroped
  | primedLockedLazyDroped
  deriving Repr, DecidableEq

/-- The sequentializers of these types. -/
inductive SequentializerType where
  /-- `SyncSequentializer`. -/
  | sync
  /-- `ExitSequentializer`. -/
  | exit
  deriving Repr, DecidableEq

inductive Accessor where
  | get
  | tryGet
  | getMut
  | tryGetMut
  | init
  | read
  | fastRead
  | tryRead
  | fastTryRead
  | write
  | fastWrite
  | tryWrite
  | fastTryWrite
  | primedRead
  | primedReadNonInitializing
  | primedWrite
  | primedWriteNonInitializing
  deriving Repr, DecidableEq

/-- What an access gives. -/
inductive AccessResult where
  /-- A reference to the value, or a guard that gives one. -/
  | reference
  /-- `AccessError`, returned or unwrapped, or the guard of an `Err`. -/
  | error (phase : Phase)
  /-- The phase that `init` returns. -/
  | phase (phase : Phase)
  /-- The lock was not free for a `fast_` accessor. -/
  | busy
  /-- User code has panicked. -/
  | unwound
  | failed (assertion : DebugAssertion)
  deriving Repr, DecidableEq

/-- What an accessor does before it checks the phase. -/
inductive Preparation where
  | nothing
  /-- Initialize the static, if `shall_init` asks for it. -/
  | init
  /-- The same through a unique reference, without the lock. -/
  | initUnique
  deriving Repr, DecidableEq

namespace Accessor

def preparation : Accessor → Preparation
  | .get | .init | .read | .fastRead | .write | .fastWrite => .init
  | .primedRead | .primedWrite => .init
  | .getMut => .initUnique
  | _ => .nothing

/-- Whether the accessor gives up if the lock is not free. -/
def isFast : Accessor → Bool
  | .fastRead | .fastTryRead | .fastWrite | .fastTryWrite => true
  | _ => false

/-- The accessors of each type behind a lock. -/
def isLocked : Accessor → Bool
  | .init | .read | .fastRead | .tryRead | .fastTryRead => true
  | .write | .fastWrite | .tryWrite | .fastTryWrite => true
  | _ => false

def isPrimed : Accessor → Bool
  | .primedRead | .primedReadNonInitializing => true
  | .primedWrite | .primedWriteNonInitializing => true
  | _ => false

end Accessor

namespace LazyType

def policy (tolerance : GeneratorTolerance) : LazyType → LazyPolicy
  | .lazy | .lockedLazy | .primedLockedLazy => InitializedChecker tolerance
  | .lazyFinalize | .lockedLazyFinalize =>
      InitializedSoftFinalizedChecker false tolerance
  | .lockedLazyDroped | .primedLockedLazyDroped =>
      InitializedHardFinalizedChecker false tolerance

def sequentializer : LazyType → SequentializerType
  | .lazy | .lockedLazy | .primedLockedLazy => .sync
  | _ => .exit

/-- Whether the finalizer drops the value, or puts it back in its prime. -/
def isDroped : LazyType → Bool
  | .lockedLazyDroped | .primedLockedLazyDroped => true
  | _ => false

/-- The accessors of a type. -/
def offers : LazyType → Accessor → Bool
  | .lazy, accessor =>
      accessor ∈ [.get, .tryGet, .getMut, .tryGetMut, .init]
  | .lazyFinalize, accessor => accessor ∈ [.get, .tryGet, .init]
  | .lockedLazy, accessor =>
      accessor.isLocked || accessor ∈ [.getMut, .tryGetMut]
  | .lockedLazyFinalize, accessor => accessor.isLocked
  | .lockedLazyDroped, accessor => accessor.isLocked
  | .primedLockedLazy, accessor => accessor.isLocked || accessor.isPrimed
  | .primedLockedLazyDroped, accessor =>
      accessor.isLocked || accessor.isPrimed

/-- The program of an initialization through a shared reference. -/
def initialization
    (tolerance : GeneratorTolerance)
    (type : LazyType)
    (phase : Phase) : GuardCode :=
  match type.sequentializer with
  | .sync => lazyInitializationOnly
  | .exit => lazyInitialization tolerance phase

/-- The first part of an access. -/
def prepare
    (tolerance : GeneratorTolerance)
    (type : LazyType)
    (preparation : Preparation)
    (outcomes : Outcomes)
    (static : Static) : Static × Ending :=
  match preparation with
  | .nothing => (static, .done)
  | .init =>
      if (type.policy tolerance).shallInit static.phase then
        (type.initialization tolerance static.phase).execute outcomes static
      else
        (static, .done)
  | .initUnique =>
      if (type.policy tolerance).shallInit static.phase then
        mutLazyInitializationOnly.execute outcomes static
      else
        (static, .done)

/-- `check_access` and its siblings. -/
def checkAccess (accessible : Phase → Bool) (phase : Phase) : AccessResult :=
  if accessible phase then .reference else .error phase

/-- The second part of an access. -/
def check
    (tolerance : GeneratorTolerance)
    (type : LazyType)
    (accessor : Accessor)
    (phase : Phase) : AccessResult :=
  match accessor with
  | .get | .read | .fastRead | .write | .fastWrite =>
      checkAccess (type.policy tolerance).postInitIsAccessible phase
  | .init =>
      match type with
      | .lazy | .lazyFinalize => .phase phase
      | _ => checkAccess (type.policy tolerance).postInitIsAccessible phase
  | .getMut =>
      match type with
      | .lazy => checkAccess (type.policy tolerance).postInitIsAccessible phase
      | _ => checkAccess (type.policy tolerance).isAccessible phase
  | _ => checkAccess (type.policy tolerance).isAccessible phase

/-- One access; `busy` tells whether another thread holds the lock against it. -/
def access
    (tolerance : GeneratorTolerance)
    (type : LazyType)
    (accessor : Accessor)
    (busy : Bool)
    (outcomes : Outcomes)
    (static : Static) : Static × AccessResult :=
  if accessor.isFast && busy then
    (static, .busy)
  else
    match type.prepare tolerance accessor.preparation outcomes static with
    | (after, .done) => (after, type.check tolerance accessor after.phase)
    | (after, .unwound) => (after, .unwound)
    | (after, .failed assertion) => (after, .failed assertion)

end LazyType

/-- The slot holds a generated value that was not dropped since. -/
def Static.holds (static : Static) (type : LazyType) : Bool :=
  static.generated && !(type.isDroped && static.finalized)

namespace Accessor

/-- What happens to a static. -/
inductive Event where
  | access
      (accessor : Accessor)
      (busy : Bool)
      (outcomes : Outcomes)
      (result : AccessResult)
  | finalize (outcomes : Outcomes)

/-- One step of a static of a type. -/
def Step
    (tolerance : GeneratorTolerance)
    (type : LazyType)
    (before : Static) : Event → Static → Prop
  | .access accessor busy outcomes result, after =>
      type.offers accessor = true ∧
        type.access tolerance accessor busy outcomes before = (after, result)
  | .finalize outcomes, after =>
      type.sequentializer = .exit ∧ before.finalizeCallback outcomes = after

end Accessor

namespace Static

variable
  {static after : Static} {tolerance : GeneratorTolerance} {type : LazyType}
  {outcomes : Outcomes}

theorem shallInit_policy (type : LazyType) :
    (type.policy tolerance).shallInit = tolerance.shallInit := by
  cases type with
  | _ => rfl

/-- The checks that need no initialization before them are exact. -/
theorem Sound.isAccessible
    (tolerance : GeneratorTolerance)
    (sound : static.Sound) :
    (type.policy tolerance).isAccessible static.phase = static.holds type := by
  unfold Static.holds
  rw [sound.generated, sound.finalized]
  cases type with
  | lockedLazyDroped => rfl
  | primedLockedLazyDroped => rfl
  | _ => exact (Bool.and_true _).symm

/-- Whether the check after an initialization ignores `INITIALIZED`. -/
def skipsCheck (tolerance : GeneratorTolerance) (type : LazyType) : Bool :=
  tolerance.initFailure &&
    (type.sequentializer = .sync || tolerance.finalRegistrationFailure)

theorem postInitIsAccessible_eq (phase : Phase) :
    (type.policy tolerance).postInitIsAccessible phase =
      if skipsCheck tolerance type then
        (type.policy tolerance).initializedIsAccessible phase
      else
        (type.policy tolerance).isAccessible phase := by
  unfold skipsCheck
  cases type with
  | lazy => simp [LazyType.policy, LazyType.sequentializer, InitializedChecker]
  | lockedLazy =>
      simp [LazyType.policy, LazyType.sequentializer, InitializedChecker]
  | primedLockedLazy =>
      simp [LazyType.policy, LazyType.sequentializer, InitializedChecker]
  | _ => rfl

theorem isAccessible_eq (phase : Phase) :
    (type.policy tolerance).isAccessible phase =
      (phase.intersects .initialized &&
        (type.policy tolerance).initializedIsAccessible phase) := by
  cases type with
  | lockedLazyDroped => rfl
  | primedLockedLazyDroped => rfl
  | _ => exact (Bool.and_true _).symm

/-- The check after an initialization is exact if the value is there. -/
theorem Sound.postInitIsAccessible
    (sound : static.Sound)
    (certain : skipsCheck tolerance type = true → static.generated = true) :
    (type.policy tolerance).postInitIsAccessible static.phase =
      static.holds type := by
  rw [postInitIsAccessible_eq, ← sound.isAccessible tolerance]
  split
  case isTrue skips =>
    rw [isAccessible_eq, ← sound.generated, certain skips, Bool.true_and]
  case isFalse => rfl

/-- What the first part of an access leaves. -/
structure Prepared
    (tolerance : GeneratorTolerance)
    (type : LazyType)
    (before after : Static)
    (ending : Ending) : Prop where
  sound : after.Sound
  /-- A value that is there is kept. -/
  kept : before.holds type = true → after.holds type = true
  /-- A check that is skipped would find the value. -/
  certain :
    ending = .done → skipsCheck tolerance type = true → after.generated = true

/-- An access that does not initialize the static leaves it alone. -/
theorem Sound.prepared_refl
    (sound : static.Sound)
    (certain :
      skipsCheck tolerance type = true →
        tolerance.shallInit static.phase = false) :
    Prepared tolerance type static static .done := by
  refine ⟨sound, id, ?_⟩
  intro _ skips
  have tolerant := (Bool.and_eq_true_iff.mp skips).left
  have initialized := certain skips
  rw [GeneratorTolerance.shallInit, if_pos tolerant] at initialized
  rw [sound.generated]
  exact Bool.not_inj initialized

/-- An attempt to initialize a static that holds nothing. -/
theorem Attempted.prepared
    {certain : Prop}
    {ending : Ending}
    (sound : static.Sound)
    (shallInit : tolerance.shallInit static.phase = true)
    (attempted : Attempted certain after ending)
    (skips : skipsCheck tolerance type = true → certain) :
    Prepared tolerance type static after ending := by
  refine ⟨attempted.sound, ?_, ?_⟩
  · intro holds
    have generated := (Bool.and_eq_true_iff.mp holds).left
    rw [sound.generated,
      GeneratorTolerance.notInitialized_of_shallInit shallInit] at generated
    cases generated
  · exact fun done skipped => attempted.generated done (skips skipped)

/-- The preparation of an access that shall initialize the static. -/
theorem Sound.initialization
    {ending : Ending}
    (sound : static.Sound)
    (shallInit : tolerance.shallInit static.phase = true)
    (executed :
      (type.initialization tolerance static.phase).execute outcomes static =
        (after, ending)) :
    Prepared tolerance type static after ending := by
  unfold LazyType.initialization at executed
  split at executed
  case h_1 =>
    exact (sound.lazyInitializationOnly shallInit executed).prepared sound
      shallInit fun _ => trivial
  case h_2 exit =>
    refine (sound.lazyInitialization shallInit executed).prepared sound
      shallInit ?_
    intro skips
    refine .inl ?_
    unfold skipsCheck at skips
    rw [exit] at skips
    exact (Bool.and_eq_true_iff.mp skips).right

/-- Each preparation keeps the phase true and a value that is there. -/
theorem Sound.prepare
    {preparation : Preparation}
    {ending : Ending}
    (sound : static.Sound)
    (prepares : preparation ≠ .nothing)
    (prepared :
      type.prepare tolerance preparation outcomes static = (after, ending)) :
    Prepared tolerance type static after ending := by
  unfold LazyType.prepare at prepared
  rw [shallInit_policy] at prepared
  cases preparation with
  | nothing => exact absurd rfl prepares
  | init =>
      dsimp only at prepared
      split at prepared
      case isTrue shallInit =>
        exact sound.initialization shallInit prepared
      case isFalse shallNot =>
        obtain ⟨rfl, rfl⟩ := Prod.mk.inj prepared
        exact sound.prepared_refl fun _ => Bool.eq_false_of_not_eq_true shallNot
  | initUnique =>
      dsimp only at prepared
      split at prepared
      case isTrue shallInit =>
        exact (sound.lazyInitializationOnly shallInit prepared).prepared sound
          shallInit fun _ => trivial
      case isFalse shallNot =>
        obtain ⟨rfl, rfl⟩ := Prod.mk.inj prepared
        exact sound.prepared_refl fun _ => Bool.eq_false_of_not_eq_true shallNot

/-- What an access leaves and gives. -/
structure Accessed
    (type : LazyType)
    (before after : Static)
    (result : AccessResult) : Prop where
  sound : after.Sound
  kept : before.holds type = true → after.holds type = true
  reference : result = .reference → after.holds type = true
  error : ∀ phase, result = .error phase → after.holds type = false

/-- A check that is exact gives a reference if and only if a value is there. -/
theorem Accessed.of_check
    {accessible : Phase → Bool}
    (sound : after.Sound)
    (kept : static.holds type = true → after.holds type = true)
    (exactly : accessible after.phase = after.holds type) :
    Accessed type static after
      (LazyType.checkAccess accessible after.phase) := by
  unfold LazyType.checkAccess
  rw [exactly]
  cases holds : after.holds type with
  | true => exact ⟨sound, fun _ => holds, fun _ => holds, nofun⟩
  | false =>
      refine ⟨sound, ?_, nofun, fun _ _ => holds⟩
      intro before
      cases holds.symm.trans (kept before)

/-- Every check after a preparation is exact. -/
theorem Prepared.check
    (accessor : Accessor)
    (prepared : Prepared tolerance type static after .done) :
    Accessed type static after
      (type.check tolerance accessor after.phase) := by
  have plain :=
    Accessed.of_check prepared.sound prepared.kept
      (prepared.sound.isAccessible tolerance)
  have postInit :=
    Accessed.of_check prepared.sound prepared.kept
      (prepared.sound.postInitIsAccessible (prepared.certain rfl))
  unfold LazyType.check
  split
  case h_6 =>
    split
    case h_3 => exact postInit
    all_goals exact ⟨prepared.sound, prepared.kept, nofun, nofun⟩
  case h_7 =>
    split
    case h_1 => exact postInit
    case h_2 => exact plain
  case h_8 => exact plain
  all_goals exact postInit

/-- The check of an accessor that prepares nothing is exact. -/
theorem Sound.check
    {accessor : Accessor}
    (sound : static.Sound)
    (plain : accessor.preparation = .nothing) :
    Accessed type static static
      (type.check tolerance accessor static.phase) := by
  have accessed :
      Accessed type static static
        (LazyType.checkAccess (type.policy tolerance).isAccessible
          static.phase) :=
    .of_check sound id (sound.isAccessible tolerance)
  unfold LazyType.check
  split
  case h_8 => exact accessed
  all_goals cases plain

/-- Every access gives a reference exactly if there is a value. -/
theorem Sound.access
    {accessor : Accessor}
    {busy : Bool}
    {result : AccessResult}
    (sound : static.Sound)
    (accessed :
      type.access tolerance accessor busy outcomes static = (after, result)) :
    Accessed type static after result := by
  unfold LazyType.access at accessed
  split at accessed
  case isTrue =>
    obtain ⟨rfl, rfl⟩ := Prod.mk.inj accessed
    exact ⟨sound, id, nofun, nofun⟩
  case isFalse =>
    by_cases plain : accessor.preparation = .nothing
    · rw [plain] at accessed
      obtain ⟨rfl, rfl⟩ := Prod.mk.inj accessed
      exact sound.check plain
    · split at accessed
      case h_1 prepared =>
        obtain ⟨rfl, rfl⟩ := Prod.mk.inj accessed
        exact (sound.prepare plain prepared).check accessor
      case h_2 prepared =>
        obtain ⟨rfl, rfl⟩ := Prod.mk.inj accessed
        have prepared := sound.prepare plain prepared
        exact ⟨prepared.sound, prepared.kept, nofun, nofun⟩
      case h_3 prepared =>
        obtain ⟨rfl, rfl⟩ := Prod.mk.inj accessed
        have prepared := sound.prepare plain prepared
        exact ⟨prepared.sound, prepared.kept, nofun, nofun⟩

end Static

namespace Accessor

variable {tolerance : GeneratorTolerance} {type : LazyType}

/-- The phase is true after every history. -/
theorem sound_of_run
    {events : List Event}
    {static : Static}
    (run : Run (Step tolerance type) Static.fresh events static) :
    static.Sound := by
  refine run.invariant .fresh ?_
  intro before after event sound step
  cases event with
  | access => exact (sound.access step.right).sound
  | finalize =>
      obtain ⟨-, rfl⟩ := step
      exact sound.finalizeCallback

/--
An accessor gives a reference only to a generated value that was not dropped,
and reports no error as long as there is one.
-/
theorem access_exact
    {events : List Event}
    {before after : Static}
    {accessor : Accessor}
    {busy : Bool}
    {outcomes : Outcomes}
    {result : AccessResult}
    (run : Run (Step tolerance type) Static.fresh events before)
    (accesses :
      Step tolerance type before (.access accessor busy outcomes result)
        after) :
    (result = .reference → after.holds type = true) ∧
      (before.holds type = true ∨ after.holds type = true →
        ∀ phase, result ≠ .error phase) := by
  have accessed := (sound_of_run run).access accesses.right
  refine ⟨accessed.reference, ?_⟩
  rintro holds phase reported
  have empty := accessed.error phase reported
  rcases holds with before | after
  · cases empty.symm.trans (accessed.kept before)
  · cases empty.symm.trans after

/-- A write after a read whose generator panicked, registration refused. -/
theorem access_exact_retried :
    let panics : Outcomes := fun call =>
      if call = .init then .panicked else .returned false
    let poisoned : Static :=
      ⟨.registrationRefused ||| .initializationPanicked |||
          .initializationSkiped, false, false, false⟩
    let generated : Static :=
      ⟨.registrationRefused ||| .initialized, true, false, false⟩
    Run (Step ⟨true, true⟩ .lockedLazyDroped) Static.fresh
        [.access .read false panics .unwound] poisoned ∧
      Step ⟨true, true⟩ .lockedLazyDroped poisoned
          (.access .write false (fun _ => .returned false) .reference)
          generated ∧
        (AccessResult.reference = .reference →
            generated.holds .lockedLazyDroped = true) ∧
          (poisoned.holds .lockedLazyDroped = true ∨
              generated.holds .lockedLazyDroped = true →
            ∀ phase, AccessResult.reference ≠ .error phase) := by
  intro panics poisoned generated
  have read :
      Step ⟨true, true⟩ .lockedLazyDroped Static.fresh
        (.access .read false panics .unwound) poisoned :=
    ⟨rfl, rfl⟩
  have write :
      Step ⟨true, true⟩ .lockedLazyDroped poisoned
        (.access .write false (fun _ => .returned false) .reference)
        generated :=
    ⟨rfl, by decide⟩
  have run := Run.snoc _ .refl read
  exact ⟨run, write, access_exact run write⟩

end Accessor

end StaticInit
