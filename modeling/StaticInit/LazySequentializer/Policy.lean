import StaticInit.Phase

namespace StaticInit

/-!
# Tolerances and access policies

The `GeneratorTolerance` of a static says which failures of its initialization
are tolerated.  A `LazyPolicy` says, from the phase alone, whether an access
shall initialize the static and whether it may then reach the value.
-/

/-- The tolerance of a generator to failures. -/
structure GeneratorTolerance where
  /-- A panicked initialization may be tried again. -/
  initFailure : Bool
  /-- The static is initialized even if it will not be finalized. -/
  finalRegistrationFailure : Bool
  deriving Repr, DecidableEq

/-- The predicates of a policy, for one tolerance. -/
structure LazyPolicy where
  shallInit : Phase → Bool
  isAccessible : Phase → Bool
  postInitIsAccessible : Phase → Bool
  initializedIsAccessible : Phase → Bool

/-- The `shall_init` of every policy. -/
def GeneratorTolerance.shallInit
    (tolerance : GeneratorTolerance)
    (phase : Phase) : Bool :=
  if tolerance.initFailure then
    !phase.intersects .initialized
  else
    phase.isEmpty

/-- An initialized static is not initialized again. -/
theorem GeneratorTolerance.not_shallInit
    {tolerance : GeneratorTolerance}
    {phase : Phase}
    (initialized : phase.intersects .initialized = true) :
    tolerance.shallInit phase = false := by
  unfold GeneratorTolerance.shallInit
  split
  case isTrue => rw [initialized, Bool.not_true]
  case isFalse => exact Phase.not_isEmpty_of_intersects initialized

theorem GeneratorTolerance.notInitialized_of_shallInit
    {tolerance : GeneratorTolerance}
    {phase : Phase}
    (shallInit : tolerance.shallInit phase = true) :
    phase.intersects .initialized = false := by
  by_contra initialized
  rw [not_shallInit (Bool.eq_true_of_not_eq_false initialized)] at shallInit
  cases shallInit

/-- Only a tolerant static is initialized after a failed attempt. -/
theorem GeneratorTolerance.tolerant_of_shallInit
    {tolerance : GeneratorTolerance}
    {phase : Phase}
    (shallInit : tolerance.shallInit phase = true)
    (tried : phase.isEmpty = false) :
    tolerance.initFailure = true := by
  by_contra strict
  rw [GeneratorTolerance.shallInit, if_neg strict, tried] at shallInit
  cases shallInit

/-- The policy of a static that is never finalized. -/
def InitializedChecker (tolerance : GeneratorTolerance) : LazyPolicy where
  shallInit := tolerance.shallInit
  isAccessible := fun phase => phase.intersects .initialized
  postInitIsAccessible := fun phase =>
    if tolerance.initFailure then
      true
    else
      phase.intersects .initialized
  initializedIsAccessible := fun _ => true

/-- The policy of a static that is accessible even if it was finalized. -/
def InitializedSoftFinalizedChecker
    (regAlways : Bool)
    (tolerance : GeneratorTolerance) : LazyPolicy where
  shallInit := tolerance.shallInit
  isAccessible := fun phase => phase.intersects .initialized
  postInitIsAccessible := fun phase =>
    if tolerance.initFailure &&
        (regAlways || tolerance.finalRegistrationFailure) then
      true
    else
      phase.intersects .initialized
  initializedIsAccessible := fun _ => true

/-- Neither finalized nor being left by a panicked finalizer. -/
def Phase.notFinalized (phase : Phase) : Bool :=
  !phase.intersects (.finalized ||| .finalizationPanicked)

/-- The policy of a static whose value is dropped when it is finalized. -/
def InitializedHardFinalizedChecker
    (regAlways : Bool)
    (tolerance : GeneratorTolerance) : LazyPolicy where
  shallInit := tolerance.shallInit
  isAccessible := fun phase =>
    phase.intersects .initialized && phase.notFinalized
  postInitIsAccessible := fun phase =>
    if tolerance.initFailure &&
        (regAlways || tolerance.finalRegistrationFailure) then
      phase.notFinalized
    else
      phase.intersects .initialized && phase.notFinalized
  initializedIsAccessible := Phase.notFinalized

end StaticInit
