import StaticInit.GenericLazy.Accessors

namespace StaticInit.Lesser

/-!
# The finalizable lesser lazies without the global hint

Where there is no hint these types are accessed as the others are, but their
policies assume that a registration is always accepted.  A tolerant static is
then not checked for `INITIALIZED` after an attempt to initialize it; a debug
assertion checks the assumption.
-/

/-- The lesser lazies that are finalized at program exit. -/
inductive LazyType where
  | lesserLazyFinalize
  | lesserLockedLazyFinalize
  | lesserLockedLazyDroped
  deriving Repr, DecidableEq

/-- A static, and whether debug assertions are compiled. -/
structure Declaration where
  type : LazyType
  tolerance : GeneratorTolerance
  debugAssertions : Bool
  deriving Repr, DecidableEq

/-- What an access gives. -/
inductive Result where
  | access (result : AccessResult)
  /-- The assertion of `post_init_is_accessible` fails. -/
  | notRegistered
  deriving Repr, DecidableEq

namespace LazyType

def policy (tolerance : GeneratorTolerance) : LazyType → LazyPolicy
  | .lesserLazyFinalize | .lesserLockedLazyFinalize =>
      InitializedSoftFinalizedChecker true tolerance
  | .lesserLockedLazyDroped => InitializedHardFinalizedChecker true tolerance

/-- The accessors of a type. -/
def offers : LazyType → Accessor → Bool
  | .lesserLazyFinalize, accessor => accessor ∈ [.get, .tryGet, .init]
  | _, accessor => accessor.isLocked

end LazyType

namespace Declaration

def policy (declaration : Declaration) : LazyPolicy :=
  declaration.type.policy declaration.tolerance

/-- The first part of an access. -/
def prepare
    (declaration : Declaration)
    (accessor : Accessor)
    (outcomes : Outcomes)
    (static : Static) : Static × Ending :=
  match accessor.preparation with
  | .init =>
      if declaration.policy.shallInit static.phase then
        (lazyInitialization declaration.tolerance static.phase).execute
          outcomes static
      else
        (static, .done)
  | _ => (static, .done)

/-- `post_init_check_access`, with the assertion of the policy. -/
def postInitCheckAccess
    (declaration : Declaration)
    (phase : Phase) : Result :=
  if declaration.debugAssertions && declaration.tolerance.initFailure &&
      !phase.intersects .registered then
    .notRegistered
  else
    .access
      (LazyType.checkAccess declaration.policy.postInitIsAccessible phase)

/-- The second part of an access. -/
def check
    (declaration : Declaration)
    (accessor : Accessor)
    (phase : Phase) : Result :=
  match accessor with
  | .get | .read | .fastRead | .write | .fastWrite =>
      declaration.postInitCheckAccess phase
  | .init =>
      match declaration.type with
      | .lesserLazyFinalize => .access (.phase phase)
      | _ =>
          -- the write guard is dropped, the phase is returned
          match declaration.postInitCheckAccess phase with
          | .access .reference => .access (.phase phase)
          | other => other
  | _ =>
      .access (LazyType.checkAccess declaration.policy.isAccessible phase)

/--
One access; `busy` tells whether another thread holds the lock against it.  An
access that waits looks at the phase again when it is woken.
-/
def access
    (declaration : Declaration)
    (accessor : Accessor)
    (busy : Bool)
    (outcomes : Outcomes)
    (static : Static) : Static × Result :=
  if accessor.isFast && busy then
    (static, .access .busy)
  else
    match declaration.prepare accessor outcomes static with
    | (after, .done) => (after, declaration.check accessor after.phase)
    | (after, .unwound) => (after, .access .unwound)
    | (after, .failed assertion) => (after, .access (.failed assertion))

end Declaration

/-- What happens to a static. -/
inductive Event where
  | access
      (accessor : Accessor)
      (busy : Bool)
      (outcomes : Outcomes)
      (result : Result)
  | finalize (outcomes : Outcomes)

/-- One step of a static. -/
def Step
    (declaration : Declaration)
    (before : Static) : Event → Static → Prop
  | .access accessor busy outcomes result, after =>
      declaration.type.offers accessor = true ∧
        declaration.access accessor busy outcomes before = (after, result)
  | .finalize outcomes, after => before.finalizeCallback outcomes = after

/-- Every reference that was given is to a completely generated value. -/
def Generated (declaration : Declaration) (events : List Event) : Prop :=
  ∀ earlier accessor busy outcomes before after,
    earlier ++ [.access accessor busy outcomes (.access .reference)] <+:
        events →
      Run (Step declaration) Static.fresh earlier before →
        Step declaration before
            (.access accessor busy outcomes (.access .reference)) after →
          after.generated = true ∧ after.phase.intersects .initialized = true

/-- The accessors that check the phase with `post_init_is_accessible`. -/
def checksPostInit : Accessor → Bool
  | .get | .read | .fastRead | .write | .fastWrite => true
  | _ => false

/-- The static is not registered when `lazy_initialization` goes on. -/
def Unregistered (outcomes : Outcomes) (static : Static) : Prop :=
  if static.phase.isEmpty then
    outcomes .reg = .returned false
  else
    static.phase.intersects .registered = false

/--
An access takes the slot for initialized without cause: it attempts to
initialize a static that is not registered, and the generator is not run.
-/
def Slips
    (declaration : Declaration)
    (accessor : Accessor)
    (busy : Bool)
    (outcomes : Outcomes)
    (static : Static) : Prop :=
  checksPostInit accessor = true ∧ (accessor.isFast && busy) = false ∧
    declaration.tolerance.initFailure = true ∧
      declaration.tolerance.finalRegistrationFailure = false ∧
        declaration.debugAssertions = false ∧
          static.phase.intersects .initialized = false ∧
            Unregistered outcomes static

section Initialization

variable
  {tolerance : GeneratorTolerance} {outcomes : Outcomes}
  {static after : Static}

/-- Without a registration that is required nothing is generated. -/
theorem execute_unregistered
    {phase : Phase}
    (refused : phase.intersects .registered = false)
    (required : tolerance.finalRegistrationFailure = false) :
    (lazyInitializationRegistered tolerance phase).execute outcomes static =
      (static.setPhase (phase ||| .initializationSkiped), .done) := by
  rw [lazyInitializationRegistered, refused, if_neg Bool.false_ne_true,
    required, if_neg Bool.false_ne_true]
  rfl

/-- An attempt that is done has generated a value, if it registered the static. -/
theorem initialized_of_registered
    (sound : static.Sound)
    (shallInit : tolerance.shallInit static.phase = true)
    (certain :
      tolerance.finalRegistrationFailure = true ∨
        ¬ Unregistered outcomes static)
    (executed :
      (lazyInitialization tolerance static.phase).execute outcomes static =
        (after, .done)) :
    after.phase.intersects .initialized = true := by
  have attempted := sound.lazyInitialization shallInit executed
  rw [← attempted.sound.generated]
  refine attempted.generated rfl ?_
  rcases certain with tolerated | registered
  · exact .inl tolerated
  · right
    unfold Unregistered at registered
    cases first : static.phase.isEmpty with
    | false =>
        rw [first, if_neg Bool.false_ne_true] at registered
        rw [if_neg Bool.false_ne_true]
        exact Bool.eq_true_of_not_eq_false registered
    | true =>
        rw [first, if_pos rfl] at registered
        rw [if_pos rfl]
        cases outcome : outcomes .reg with
        | returned value =>
            cases value with
            | true => rfl
            | false => exact absurd outcome registered
        | panicked =>
            -- the attempt is unwound, not done
            rw [(Phase.isEmpty_iff static.phase).mp first,
              lazyInitialization_empty, register, GuardCode.execute, outcome]
              at executed
            cases (Prod.mk.inj executed).2

/-- A registration that is refused leaves a static that is not initialized. -/
theorem execute_of_unregistered
    (sound : static.Sound)
    (tolerant : tolerance.initFailure = true)
    (notInitialized : static.phase.intersects .initialized = false)
    (required : tolerance.finalRegistrationFailure = false)
    (unregistered : Unregistered outcomes static) :
    ∃ after,
      (lazyInitialization tolerance static.phase).execute outcomes static =
          (after, .done) ∧
        after.phase.intersects .registered = false ∧
          after.phase.intersects .initialized = false := by
  unfold Unregistered at unregistered
  cases first : static.phase.isEmpty with
  | false =>
      rw [first, if_neg Bool.false_ne_true] at unregistered
      rw [lazyInitialization_retried (sound.not_finalized notInitialized)
        notInitialized tolerant first,
        execute_unregistered unregistered required]
      refine ⟨_, rfl, ?_, ?_⟩
      · rw [Static.setPhase, Phase.intersects_or, unregistered]
        rfl
      · rw [Static.setPhase, Phase.intersects_or, notInitialized]
        rfl
  | true =>
      rw [first, if_pos rfl] at unregistered
      rw [(Phase.isEmpty_iff static.phase).mp first, lazyInitialization_empty,
        register, GuardCode.execute, unregistered]
      dsimp only
      have refused :
          (Phase.registration false).intersects .registered = false := by
        decide
      have stillRefused :
          (Phase.registration false ||| .initializationSkiped).intersects
              .registered =
            false := by
        decide
      have skipped :
          (Phase.registration false ||| .initializationSkiped).intersects
              .initialized =
            false := by
        decide
      rw [execute_unregistered refused required]
      exact ⟨_, rfl, stillRefused, skipped⟩

end Initialization

namespace Declaration

variable
  {declaration : Declaration} {accessor : Accessor} {busy : Bool}
  {outcomes : Outcomes} {static after : Static} {phase : Phase}

theorem shallInit_policy (declaration : Declaration) :
    declaration.policy.shallInit = declaration.tolerance.shallInit := by
  unfold policy LazyType.policy
  split
  all_goals rfl

/-- What may be accessed without an attempt is initialized. -/
theorem initialized_of_isAccessible
    (accessible : declaration.policy.isAccessible phase = true) :
    phase.intersects .initialized = true := by
  unfold policy LazyType.policy at accessible
  split at accessible
  case h_3 => exact (Bool.and_eq_true_iff.mp accessible).1
  all_goals exact accessible

/-- The check after an attempt is exact for a static that is not tolerant. -/
theorem postInitIsAccessible_strict
    (strict : declaration.tolerance.initFailure = false) :
    declaration.policy.postInitIsAccessible phase =
      declaration.policy.isAccessible phase := by
  unfold policy LazyType.policy InitializedSoftFinalizedChecker
    InitializedHardFinalizedChecker
  rw [strict]
  split
  all_goals rfl

/-- A tolerant static is taken for initialized after an attempt. -/
theorem postInitIsAccessible_tolerant
    (tolerant : declaration.tolerance.initFailure = true)
    (notFinalized :
      phase.intersects (.finalized ||| .finalizationPanicked) = false) :
    declaration.policy.postInitIsAccessible phase = true := by
  unfold policy LazyType.policy InitializedSoftFinalizedChecker
    InitializedHardFinalizedChecker
  rw [tolerant]
  split
  case h_3 =>
    dsimp only
    rw [Bool.true_or, Bool.and_true, if_pos rfl, Phase.notFinalized,
      notFinalized]
    rfl
  all_goals rfl

/-- An access that checks after an attempt makes the attempt. -/
theorem preparation_of_checksPostInit
    (checks : checksPostInit accessor = true) :
    accessor.preparation = .init := by
  cases accessor with
  | get => rfl
  | read => rfl
  | fastRead => rfl
  | write => rfl
  | fastWrite => rfl
  | _ => cases checks

/-- What the check of a static says that is not initialized. -/
theorem check_reference
    (notInitialized : phase.intersects .initialized = false)
    (reference : declaration.check accessor phase = .access .reference) :
    checksPostInit accessor = true ∧
      declaration.tolerance.initFailure = true ∧
        (declaration.debugAssertions = false ∨
          phase.intersects .registered = true) := by
  have inaccessible : declaration.policy.isAccessible phase = false := by
    by_contra accessible
    rw [initialized_of_isAccessible
      (Bool.eq_true_of_not_eq_false accessible)] at notInitialized
    cases notInitialized
  have plain :
      LazyType.checkAccess declaration.policy.isAccessible phase ≠
        .reference := by
    rw [LazyType.checkAccess, inaccessible]
    exact nofun
  have postInit :
      declaration.postInitCheckAccess phase = .access .reference →
        declaration.tolerance.initFailure = true ∧
          (declaration.debugAssertions = false ∨
            phase.intersects .registered = true) := by
    intro reference
    unfold postInitCheckAccess at reference
    split at reference
    case isTrue => cases reference
    case isFalse passes =>
      have given := Result.access.inj reference
      cases tolerant : declaration.tolerance.initFailure with
      | false =>
          unfold LazyType.checkAccess at given plain
          rw [postInitIsAccessible_strict tolerant] at given
          exact absurd given plain
      | true =>
          refine ⟨rfl, ?_⟩
          cases debug : declaration.debugAssertions with
          | false => exact .inl rfl
          | true =>
              rw [tolerant, debug] at passes
              simpa using passes
  unfold check at reference
  split at reference
  case h_6 =>
    split at reference
    case h_1 => cases reference
    case h_2 =>
      split at reference
      case h_1 => cases reference
      case h_2 _ other => exact absurd reference other
  case h_7 => exact absurd (Result.access.inj reference) plain
  all_goals exact ⟨rfl, postInit reference⟩

/-- A tolerant static passes the check if the debug assertion does not fail. -/
theorem check_eq_reference
    (checks : checksPostInit accessor = true)
    (tolerant : declaration.tolerance.initFailure = true)
    (notFinalized :
      phase.intersects (.finalized ||| .finalizationPanicked) = false)
    (passes :
      declaration.debugAssertions = false ∨
        phase.intersects .registered = true) :
    declaration.check accessor phase = .access .reference := by
  have postInit :
      declaration.postInitCheckAccess phase = .access .reference := by
    unfold postInitCheckAccess LazyType.checkAccess
    rw [postInitIsAccessible_tolerant tolerant notFinalized]
    rcases passes with release | registered
    · rw [release]
      rfl
    · rw [registered, Bool.not_true, Bool.and_false]
      rfl
  cases accessor with
  | get => exact postInit
  | read => exact postInit
  | fastRead => exact postInit
  | write => exact postInit
  | fastWrite => exact postInit
  | _ => cases checks

/-- The first part of an access leaves a phase that is true. -/
theorem sound_prepare
    {ending : Ending}
    (sound : static.Sound)
    (prepared :
      declaration.prepare accessor outcomes static = (after, ending)) :
    after.Sound := by
  unfold prepare at prepared
  rw [shallInit_policy] at prepared
  split at prepared
  case h_1 =>
    split at prepared
    case isTrue shallInit =>
      exact (sound.lazyInitialization shallInit prepared).sound
    case isFalse =>
      obtain ⟨rfl, -⟩ := Prod.mk.inj prepared
      exact sound
  case h_2 =>
    obtain ⟨rfl, -⟩ := Prod.mk.inj prepared
    exact sound

theorem sound_access
    {result : Result}
    (sound : static.Sound)
    (accessed :
      declaration.access accessor busy outcomes static = (after, result)) :
    after.Sound := by
  unfold access at accessed
  split at accessed
  case isTrue =>
    obtain ⟨rfl, -⟩ := Prod.mk.inj accessed
    exact sound
  case isFalse =>
    split at accessed
    all_goals
      rename_i prepared
      obtain ⟨rfl, -⟩ := Prod.mk.inj accessed
      exact sound_prepare sound prepared

/-- A reference to a slot without a value comes from an access that slips. -/
theorem slips_of_reference
    (sound : static.Sound)
    (accessed :
      declaration.access accessor busy outcomes static =
        (after, .access .reference))
    (notInitialized : after.phase.intersects .initialized = false) :
    Slips declaration accessor busy outcomes static := by
  unfold access at accessed
  split at accessed
  case isTrue => cases accessed
  case isFalse lock =>
    split at accessed
    case h_2 => cases accessed
    case h_3 => cases accessed
    case h_1 prepared =>
      obtain ⟨rfl, reference⟩ := Prod.mk.inj accessed
      obtain ⟨checks, tolerant, passes⟩ :=
        check_reference notInitialized reference
      unfold prepare at prepared
      rw [preparation_of_checksPostInit checks, shallInit_policy] at prepared
      dsimp only at prepared
      split at prepared
      case isTrue shallInit =>
        have empty := GeneratorTolerance.notInitialized_of_shallInit shallInit
        have uncertain :
            ¬ (declaration.tolerance.finalRegistrationFailure = true ∨
              ¬ Unregistered outcomes static) := by
          intro certain
          rw [initialized_of_registered sound shallInit certain prepared]
            at notInitialized
          cases notInitialized
        obtain ⟨required, unregistered⟩ := not_or.mp uncertain
        have required := Bool.eq_false_of_not_eq_true required
        have unregistered := not_not.mp unregistered
        obtain ⟨left, executed, refused, -⟩ :=
          execute_of_unregistered sound tolerant empty required unregistered
        rw [executed] at prepared
        obtain ⟨rfl, -⟩ := Prod.mk.inj prepared
        refine ⟨checks, Bool.eq_false_of_not_eq_true lock, tolerant, required,
          ?_, empty, unregistered⟩
        rcases passes with release | registered
        · exact release
        · rw [refused] at registered
          cases registered
      case isFalse initialized =>
        -- without an attempt the phase was looked at, and has the value
        obtain ⟨rfl, -⟩ := Prod.mk.inj prepared
        rw [GeneratorTolerance.shallInit, if_pos tolerant, notInitialized]
          at initialized
        exact absurd rfl initialized

/-- An access that slips gives a reference to a slot without a value. -/
theorem reference_of_slips
    (sound : static.Sound)
    (slips : Slips declaration accessor busy outcomes static) :
    ∃ after,
      declaration.access accessor busy outcomes static =
          (after, .access .reference) ∧
        after.phase.intersects .initialized = false := by
  obtain ⟨checks, lock, tolerant, required, release, notInitialized,
    unregistered⟩ := slips
  have shallInit : declaration.tolerance.shallInit static.phase = true := by
    rw [GeneratorTolerance.shallInit, if_pos tolerant, notInitialized]
    rfl
  obtain ⟨after, executed, -, skipped⟩ :=
    execute_of_unregistered sound tolerant notInitialized required unregistered
  have left := (sound.lazyInitialization shallInit executed).sound
  refine ⟨after, ?_, skipped⟩
  unfold access prepare
  rw [lock, if_neg Bool.false_ne_true, preparation_of_checksPostInit checks,
    shallInit_policy]
  dsimp only
  rw [if_pos shallInit, executed]
  dsimp only
  rw [check_eq_reference checks tolerant (left.not_finalized skipped)
    (.inl release)]

end Declaration

section Runs

variable
  {declaration : Declaration} {events : List Event}
  {static before after : Static}

/-- The phase is true after every history. -/
theorem sound_of_run
    (run : Run (Step declaration) Static.fresh events static) :
    static.Sound := by
  refine run.invariant .fresh ?_
  intro before after event sound step
  cases event with
  | access => exact Declaration.sound_access sound step.2
  | finalize =>
      obtain rfl := step
      exact sound.finalizeCallback

/-- The event determines the step. -/
theorem step_unique
    {event : Event}
    (first : Step declaration before event static)
    (second : Step declaration before event after) :
    static = after := by
  cases event with
  | access => exact (Prod.mk.inj (first.2.symm.trans second.2)).1
  | finalize => exact Eq.trans (Eq.symm first) second

/--
All references that were given are to generated values exactly if no access
has slipped.
-/
theorem references_generated_iff
    (declaration : Declaration)
    (events : List Event)
    (static : Static)
    (run : Run (Step declaration) Static.fresh events static) :
    Generated declaration events ↔
      ∀ earlier accessor busy outcomes result before,
        earlier ++ [.access accessor busy outcomes result] <+: events →
          Run (Step declaration) Static.fresh earlier before →
            ¬ Slips declaration accessor busy outcomes before := by
  constructor
  · rintro generated earlier accessor busy outcomes result before leading ran
      slips
    obtain ⟨later, rfl⟩ := leading
    obtain ⟨after, whole, -⟩ := run.split
    obtain ⟨middle, ran', step⟩ := whole.unsnoc
    obtain rfl := ran.unique ran' fun _ => step_unique
    obtain ⟨empty, accessed, notInitialized⟩ :=
      Declaration.reference_of_slips (sound_of_run ran) slips
    obtain ⟨rfl, rfl⟩ := Prod.mk.inj (accessed.symm.trans step.2)
    have initialized :=
      (generated earlier accessor busy outcomes before empty
        (List.prefix_append _ _) ran step).2
    rw [notInitialized] at initialized
    cases initialized
  · intro none earlier accessor busy outcomes before after leading ran step
    have sound := sound_of_run (.snoc _ ran step)
    rw [sound.generated]
    refine and_self_iff.mpr ?_
    by_contra notInitialized
    exact none earlier accessor busy outcomes _ before leading ran
      (Declaration.slips_of_reference (sound_of_run ran) step.2
        (Bool.eq_false_of_not_eq_true notInitialized))

/-- The register of program exit is closed, and `get` gives an empty slot. -/
theorem refused_static_referenced :
    ∃ (events : List Event) (static : Static),
      Run (Step ⟨.lesserLazyFinalize, ⟨true, false⟩, false⟩) Static.fresh events
          static ∧
        ¬ Generated ⟨.lesserLazyFinalize, ⟨true, false⟩, false⟩ events := by
  let refuses : Outcomes := fun _ => .returned false
  let left : Static :=
    ⟨.registrationRefused ||| .initializationSkiped, false, false, false⟩
  have get :
      Step ⟨.lesserLazyFinalize, ⟨true, false⟩, false⟩ Static.fresh
        (.access .get false refuses (.access .reference)) left :=
    ⟨rfl, by decide⟩
  refine ⟨_, left, .snoc _ .refl get, ?_⟩
  intro generated
  have initialized :=
    generated [] .get false refuses Static.fresh left (List.prefix_refl _) .refl
      get
  cases initialized.1

/--
A read whose generator panics, then a read that waited for the lock, of a
registered static.
-/
theorem references_generated_iff_accepted :
    let declaration : Declaration :=
      ⟨.lesserLockedLazyDroped, ⟨true, false⟩, false⟩
    let panics : Outcomes := fun call =>
      if call = .init then .panicked else .returned true
    let events : List Event :=
      [.access .read false panics (.access .unwound),
        .access .read true (fun _ => .returned true) (.access .reference)]
    Run (Step declaration) Static.fresh events
        ⟨.registered ||| .initialized, true, false, true⟩ ∧
      (Generated declaration events ↔
        ∀ earlier accessor busy outcomes result before,
          earlier ++ [.access accessor busy outcomes result] <+: events →
            Run (Step declaration) Static.fresh earlier before →
              ¬ Slips declaration accessor busy outcomes before) := by
  intro declaration panics events
  have first :
      Step declaration Static.fresh
        (.access .read false panics (.access .unwound))
        ⟨.registered ||| .initializationPanicked ||| .initializationSkiped,
          false, false, true⟩ :=
    ⟨rfl, by decide⟩
  have second :
      Step declaration
        ⟨.registered ||| .initializationPanicked ||| .initializationSkiped,
          false, false, true⟩
        (.access .read true (fun _ => .returned true) (.access .reference))
        ⟨.registered ||| .initialized, true, false, true⟩ :=
    ⟨rfl, by decide⟩
  have run := Run.snoc _ (.snoc _ .refl first) second
  exact ⟨run, references_generated_iff _ _ _ run⟩

end Runs

end StaticInit.Lesser
