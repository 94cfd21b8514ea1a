import StaticInit.LazySequentializer.Policy

namespace StaticInit

/-!
# The code that runs under the write guard

`lazy_initialization` and its siblings hold a write guard, set its phase and
call user code that may panic.  They are written here as programs whose only
effects are those: a call of user code is made while the guard holds the
phase for a panic, and the phase for success is set when the call returns.
What a program leaves in its guard is published when the guard is released.
-/

/-- User code called under a write guard. -/
inductive UserCall where
  /-- Register the static for finalization; returns whether it was accepted. -/
  | reg
  /-- Run the generator and write the value. -/
  | init
  | finalize
  deriving Repr, DecidableEq

/-- The debug assertions under a write guard. -/
inductive DebugAssertion where
  | notFinalized
  | notInitialized
  | empty
  deriving Repr, DecidableEq

/-- A program that holds a write guard. -/
inductive GuardCode where
  /-- Give the guard back. -/
  | done
  | setPhase (phase : Phase) (next : GuardCode)
  /-- `PhaseGuard::transition`. -/
  | transition
      (call : UserCall)
      (onSuccess onPanic : Phase)
      (next : Bool → GuardCode)
  | failed (assertion : DebugAssertion)

/-- `debug_assert!(condition)` followed by the rest of the code. -/
def GuardCode.assert
    (condition : Bool)
    (assertion : DebugAssertion)
    (rest : GuardCode) : GuardCode :=
  if condition then rest else .failed assertion

namespace Phase

/-- The phase before a new attempt to initialize. -/
def beforeInit
    (tolerance : GeneratorTolerance)
    (registrationFinished : Phase) : Phase :=
  if tolerance.initFailure then
    registrationFinished &&&
      ~~~(initialized ||| initializationPanicked ||| initializationSkiped)
  else
    registrationFinished

/-- The phase of `initialized` in `lazy_initialization`. -/
def generated
    (tolerance : GeneratorTolerance)
    (registrationFinished : Phase) : Phase :=
  registrationFinished.beforeInit tolerance ||| .initialized

/-- The phase of `initialization_panic` in `lazy_initialization`. -/
def generatorPanicked
    (tolerance : GeneratorTolerance)
    (registrationFinished : Phase) : Phase :=
  registrationFinished.beforeInit tolerance |||
    .initializationPanicked ||| .initializationSkiped

/-- What the code before the generator keeps of the phase. -/
theorem intersects_beforeInit
    (tolerance : GeneratorTolerance)
    (phase : Phase)
    {flag : Phase}
    (apart :
      ~~~(initialized ||| initializationPanicked |||
          initializationSkiped) &&& flag = flag) :
    (phase.beforeInit tolerance).intersects flag = phase.intersects flag := by
  unfold beforeInit
  split
  case isTrue => exact phase.intersects_and_complement apart
  case isFalse => rfl

theorem beforeInit_notInitialized
    (tolerance : GeneratorTolerance)
    {phase : Phase}
    (notInitialized : phase.intersects .initialized = false) :
    (phase.beforeInit tolerance).intersects .initialized = false := by
  unfold beforeInit
  split
  case isTrue =>
    have none :
        (phase &&& ~~~(initialized ||| initializationPanicked |||
            initializationSkiped)) &&& initialized = empty := by
      apply Phase.ext
      simp only [flags_and, BitVec.and_assoc]
      exact BitVec.and_zero
    rw [intersects, none]
    rfl
  case isFalse => exact notInitialized

theorem generated_initialized
    (tolerance : GeneratorTolerance)
    (phase : Phase) :
    (phase.generated tolerance).intersects .initialized = true := by
  rw [generated, intersects_or]
  exact Bool.or_true _

/-- A generator that returns sets no other flag. -/
theorem intersects_generated
    (tolerance : GeneratorTolerance)
    (phase : Phase)
    {flag : Phase}
    (apart :
      ~~~(initialized ||| initializationPanicked |||
          initializationSkiped) &&& flag = flag)
    (other : initialized.intersects flag = false) :
    (phase.generated tolerance).intersects flag = phase.intersects flag := by
  rw [generated, intersects_or, intersects_beforeInit tolerance phase apart,
    other, Bool.or_false]

theorem generatorPanicked_panicked
    (tolerance : GeneratorTolerance)
    (phase : Phase) :
    (phase.generatorPanicked tolerance).intersects .initializationPanicked =
      true := by
  rw [generatorPanicked, intersects_or, intersects_or]
  exact Bool.or_eq_true_iff.mpr (.inl (Bool.or_true _))

theorem generatorPanicked_notInitialized
    (tolerance : GeneratorTolerance)
    {phase : Phase}
    (notInitialized : phase.intersects .initialized = false) :
    (phase.generatorPanicked tolerance).intersects .initialized = false := by
  rw [generatorPanicked, intersects_or, intersects_or,
    beforeInit_notInitialized tolerance notInitialized]
  rfl

/-- A generator that panics sets no other flag. -/
theorem intersects_generatorPanicked
    (tolerance : GeneratorTolerance)
    (phase : Phase)
    {flag : Phase}
    (apart :
      ~~~(initialized ||| initializationPanicked |||
          initializationSkiped) &&& flag = flag)
    (other :
      (initializationPanicked ||| initializationSkiped).intersects flag =
        false) :
    (phase.generatorPanicked tolerance).intersects flag =
      phase.intersects flag := by
  rw [intersects_or] at other
  rw [generatorPanicked, intersects_or, intersects_or, Bool.or_assoc, other,
    Bool.or_false, intersects_beforeInit tolerance phase apart]

end Phase

/-- Run the generator, in both branches of `lazy_initialization`. -/
def generate
    (tolerance : GeneratorTolerance)
    (registrationFinished : Phase) : GuardCode :=
  .transition .init
    (registrationFinished.generated tolerance)
    (registrationFinished.generatorPanicked tolerance)
    fun _ => .done

/-- `lazy_initialization` once the registration is settled. -/
def lazyInitializationRegistered
    (tolerance : GeneratorTolerance)
    (registrationFinished : Phase) : GuardCode :=
  if registrationFinished.intersects .registered then
    generate tolerance registrationFinished
  else if tolerance.finalRegistrationFailure then
    generate tolerance registrationFinished
  else
    .setPhase (registrationFinished ||| .initializationSkiped) .done

/-- The phase in which `lazy_initialization` leaves the registration. -/
def Phase.registration (accepted : Bool) : Phase :=
  if accepted then .registered else .registrationRefused

/-- `lazy_initialization`, of a guard that shows `cur`. -/
def lazyInitialization
    (tolerance : GeneratorTolerance)
    (cur : Phase) : GuardCode :=
  .assert (!cur.intersects (.finalized ||| .finalizationPanicked))
      .notFinalized <|
    .assert (!cur.intersects .initialized) .notInitialized <|
      if !tolerance.initFailure || cur.isEmpty then
        .assert cur.isEmpty .empty <|
          .transition .reg cur
            (.registrationPanicked ||| .initializationSkiped)
            fun accepted =>
              lazyInitializationRegistered tolerance (.registration accepted)
      else
        lazyInitializationRegistered tolerance cur

/-- The call of `reg` in `lazy_initialization`. -/
def register (tolerance : GeneratorTolerance) : GuardCode :=
  .transition .reg .empty (.registrationPanicked ||| .initializationSkiped)
    fun accepted =>
      lazyInitializationRegistered tolerance (.registration accepted)

/-- The first attempt to initialize registers the static. -/
theorem lazyInitialization_empty (tolerance : GeneratorTolerance) :
    lazyInitialization tolerance .empty = register tolerance := by
  cases tolerant : tolerance.initFailure with
  | true =>
      rw [lazyInitialization, tolerant]
      rfl
  | false =>
      rw [lazyInitialization, tolerant]
      rfl

/-- A retried initialization keeps the registration of its first attempt. -/
theorem lazyInitialization_retried
    {tolerance : GeneratorTolerance}
    {cur : Phase}
    (notFinalized :
      cur.intersects (.finalized ||| .finalizationPanicked) = false)
    (notInitialized : cur.intersects .initialized = false)
    (tolerant : tolerance.initFailure = true)
    (tried : cur.isEmpty = false) :
    lazyInitialization tolerance cur =
      lazyInitializationRegistered tolerance cur := by
  rw [lazyInitialization, notFinalized, notInitialized, tolerant, tried,
    Bool.not_false, GuardCode.assert, GuardCode.assert, if_pos rfl,
    if_pos rfl, if_neg (by decide)]

/-- `lazy_initialization_only`. -/
def lazyInitializationOnly : GuardCode :=
  .transition .init
    (.empty ||| .initialized)
    (.empty ||| .initializationPanicked ||| .initializationSkiped)
    fun _ => .done

/-- `mut_lazy_initialization_only`, of a locker that nobody else uses. -/
def mutLazyInitializationOnly : GuardCode :=
  .transition .init
    (.empty ||| .initialized)
    (.empty ||| .initializationPanicked ||| .initializationSkiped)
    fun _ => .done

/-- `lazy_finalization`, of a guard that shows `cur`. -/
def lazyFinalization (cur : Phase) : GuardCode :=
  .transition .finalize
    (cur ||| .finalized) (cur ||| .finalizationPanicked) fun _ => .done

/-- What `finalize_callback` does once it has the write lock. -/
def finalizeCallback (phase : Phase) : GuardCode :=
  .assert (phase &&& (.finalized ||| .finalizationPanicked)).isEmpty
    .notFinalized (lazyFinalization phase)

namespace GuardCode

/-- A program may set a phase. -/
inductive Sets (phase : Phase) : GuardCode → Prop where
  | here {next : GuardCode} : Sets phase (.setPhase phase next)
  | after
      {other : Phase}
      {next : GuardCode}
      (later : Sets phase next) :
      Sets phase (.setPhase other next)
  | success
      {call : UserCall}
      {onPanic : Phase}
      {next : Bool → GuardCode} :
      Sets phase (.transition call phase onPanic next)
  | panic
      {call : UserCall}
      {onSuccess : Phase}
      {next : Bool → GuardCode} :
      Sets phase (.transition call onSuccess phase next)
  | returned
      {call : UserCall}
      {onSuccess onPanic : Phase}
      {next : Bool → GuardCode}
      (value : Bool)
      (later : Sets phase (next value)) :
      Sets phase (.transition call onSuccess onPanic next)

end GuardCode

end StaticInit
