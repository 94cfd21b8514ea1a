import StaticInit.LazySequentializer.Initialization

namespace StaticInit

/-!
# Serialized accesses

The lock serializes what is done under it, so between two accesses a static is
its phase and its slot.  A program under the write guard is run to its end at
once; an outcome says how each call of user code ends.
-/

/-- How a call of user code ends. -/
inductive CallOutcome where
  | returned (value : Bool)
  | panicked
  deriving Repr, DecidableEq

/-- How the calls of one access end. -/
abbrev Outcomes := UserCall → CallOutcome

/-- A static between two accesses. -/
structure Static where
  phase : Phase
  /-- The generator completed and its value was written in the slot. -/
  generated : Bool
  /-- The finalizer was called on the slot. -/
  finalized : Bool
  /-- Its node is in the register of program exit. -/
  listed : Bool
  deriving Repr, DecidableEq

/-- A static before its first access. -/
def Static.fresh : Static where
  phase := .empty
  generated := false
  finalized := false
  listed := false

namespace Static

def setPhase (static : Static) (phase : Phase) : Static :=
  { static with phase := phase }

/-- What a call that returned did. -/
def returned (static : Static) (value : Bool) : UserCall → Static
  | .reg => { static with listed := static.listed || value }
  | .init => { static with generated := true }
  | .finalize => { static with finalized := true }

/-- What a call that panicked did. -/
def panicked (static : Static) : UserCall → Static
  | .finalize => { static with finalized := true }
  | _ => static

end Static

/-- How a program under the write guard ends. -/
inductive Ending where
  | done
  /-- A panic of user code goes on to the caller. -/
  | unwound
  | failed (assertion : DebugAssertion)
  deriving Repr, DecidableEq

/-- Run a program under the write guard. -/
def GuardCode.execute
    (outcomes : Outcomes) : GuardCode → Static → Static × Ending
  | .done, static => (static, .done)
  | .setPhase phase next, static =>
      next.execute outcomes (static.setPhase phase)
  | .transition call onSuccess onPanic next, static =>
      match outcomes call with
      | .returned value =>
          (next value).execute outcomes
            ((static.returned value call).setPhase onSuccess)
      | .panicked => ((static.panicked call).setPhase onPanic, .unwound)
  | .failed assertion, static => (static, .failed assertion)

/-- `finalize_callback`, once the lock is free. -/
def Static.finalizeCallback (outcomes : Outcomes) (static : Static) : Static :=
  if static.phase.intersects .initialized then
    ((StaticInit.finalizeCallback static.phase).execute outcomes static).1
  else
    static

/-- The phase tells what happened to the slot. -/
structure Static.Sound (static : Static) : Prop where
  generated : static.generated = static.phase.intersects .initialized
  finalized :
    static.finalized =
      static.phase.intersects (.finalized ||| .finalizationPanicked)
  generatedFirst : static.finalized = true → static.generated = true

namespace Static

variable {static : Static} {tolerance : GeneratorTolerance} {outcomes : Outcomes}

theorem Sound.fresh : Static.fresh.Sound where
  generated := rfl
  finalized := rfl
  generatedFirst := nofun

theorem sound_setPhase
    {phase : Phase}
    (generated : static.generated = phase.intersects .initialized)
    (finalized :
      static.finalized =
        phase.intersects (.finalized ||| .finalizationPanicked))
    (generatedFirst : static.finalized = true → static.generated = true) :
    (static.setPhase phase).Sound :=
  ⟨generated, finalized, generatedFirst⟩

/-- A phase that is not initialized fits an untouched slot. -/
theorem sound_untouched
    {phase : Phase}
    (empty : static.generated = false)
    (untouched : static.finalized = false)
    (notInitialized : phase.intersects .initialized = false)
    (notFinalized :
      phase.intersects (.finalized ||| .finalizationPanicked) = false) :
    (static.setPhase phase).Sound := by
  refine sound_setPhase (empty.trans notInitialized.symm)
    (untouched.trans notFinalized.symm) ?_
  intro finalized
  cases untouched.symm.trans finalized

/-- A static that is not initialized has an untouched slot. -/
theorem Sound.not_finalized
    (sound : static.Sound)
    (notInitialized : static.phase.intersects .initialized = false) :
    static.phase.intersects (.finalized ||| .finalizationPanicked) = false := by
  rw [← sound.finalized]
  by_contra finalized
  have generated :=
    sound.generatedFirst (Bool.eq_true_of_not_eq_false finalized)
  rw [sound.generated, notInitialized] at generated
  cases generated

/-- A static that was not initialized, after an attempt. -/
structure Attempted
    (certain : Prop)
    (after : Static)
    (ending : Ending) : Prop where
  sound : after.Sound
  finalized : after.finalized = false
  /-- An attempt that is done left a value, where that is certain. -/
  generated : ending = .done → certain → after.generated = true

/-- A run of the generator from a phase that is not initialized. -/
theorem generate_attempted
    {phase : Phase}
    {certain : Prop}
    (empty : static.generated = false)
    (untouched : static.finalized = false)
    (notInitialized : phase.intersects .initialized = false)
    (notFinalized :
      phase.intersects (.finalized ||| .finalizationPanicked) = false)
    {after : Static}
    {ending : Ending}
    (executed :
      (generate tolerance phase).execute outcomes static = (after, ending)) :
    Attempted certain after ending := by
  unfold generate GuardCode.execute at executed
  cases outcome : outcomes .init with
  | returned value =>
      rw [outcome] at executed
      obtain ⟨rfl, rfl⟩ := Prod.mk.inj executed
      refine ⟨sound_setPhase ?_ ?_ fun _ => rfl, untouched, fun _ _ => rfl⟩
      · exact (Phase.generated_initialized tolerance phase).symm
      · rw [Phase.intersects_generated tolerance phase rfl rfl, notFinalized]
        exact untouched
  | panicked =>
      rw [outcome] at executed
      obtain ⟨rfl, rfl⟩ := Prod.mk.inj executed
      refine ⟨sound_untouched empty untouched ?_ ?_, untouched, nofun⟩
      · exact Phase.generatorPanicked_notInitialized tolerance notInitialized
      · rw [Phase.intersects_generatorPanicked tolerance phase rfl rfl]
        exact notFinalized

/-- The rest of `lazy_initialization` once the registration is settled. -/
theorem registered_attempted
    {phase : Phase}
    (empty : static.generated = false)
    (untouched : static.finalized = false)
    (notInitialized : phase.intersects .initialized = false)
    (notFinalized :
      phase.intersects (.finalized ||| .finalizationPanicked) = false)
    {after : Static}
    {ending : Ending}
    (executed :
      (lazyInitializationRegistered tolerance phase).execute outcomes static =
        (after, ending)) :
    Attempted
      (tolerance.finalRegistrationFailure = true ∨
        phase.intersects .registered = true)
      after ending := by
  unfold lazyInitializationRegistered at executed
  split at executed
  case isTrue =>
    exact generate_attempted empty untouched notInitialized notFinalized
      executed
  case isFalse refused =>
    split at executed
    case isTrue =>
      exact generate_attempted empty untouched notInitialized notFinalized
        executed
    case isFalse strict =>
      obtain ⟨rfl, rfl⟩ := Prod.mk.inj executed
      refine ⟨sound_untouched empty untouched ?_ ?_, untouched, ?_⟩
      · rw [Phase.intersects_or, notInitialized]
        rfl
      · rw [Phase.intersects_or, notFinalized]
        rfl
      · intro _ certain
        rcases certain with tolerated | registered
        · exact absurd tolerated strict
        · exact absurd registered refused

/-- `lazy_initialization`, whenever `shall_init` asks for it. -/
theorem Sound.lazyInitialization
    (sound : static.Sound)
    (shallInit : tolerance.shallInit static.phase = true)
    {after : Static}
    {ending : Ending}
    (executed :
      (StaticInit.lazyInitialization tolerance static.phase).execute
          outcomes static =
        (after, ending)) :
    Attempted
      (tolerance.finalRegistrationFailure = true ∨
        if static.phase.isEmpty then
          outcomes .reg = .returned true
        else
          static.phase.intersects .registered = true)
      after ending := by
  have notInitialized :=
    GeneratorTolerance.notInitialized_of_shallInit shallInit
  have notFinalized := sound.not_finalized notInitialized
  have empty := sound.generated.trans notInitialized
  have untouched := sound.finalized.trans notFinalized
  cases first : static.phase.isEmpty with
  | false =>
      rw [lazyInitialization_retried notFinalized notInitialized
        (GeneratorTolerance.tolerant_of_shallInit shallInit first) first]
        at executed
      exact registered_attempted empty untouched notInitialized notFinalized
        executed
  | true =>
      rw [(Phase.isEmpty_iff static.phase).mp first, lazyInitialization_empty]
        at executed
      unfold register GuardCode.execute at executed
      cases outcome : outcomes .reg with
      | panicked =>
          rw [outcome] at executed
          obtain ⟨rfl, rfl⟩ := Prod.mk.inj executed
          exact ⟨sound_untouched empty untouched rfl rfl, untouched, nofun⟩
      | returned value =>
          rw [outcome] at executed
          have attempted :
              Attempted
                (tolerance.finalRegistrationFailure = true ∨
                  (Phase.registration value).intersects .registered = true)
                after ending := by
            refine registered_attempted ?_ ?_ ?_ ?_ executed
            · exact empty
            · exact untouched
            · cases value with
              | true => rfl
              | false => rfl
            · cases value with
              | true => rfl
              | false => rfl
          refine ⟨attempted.sound, attempted.finalized, ?_⟩
          intro done certain
          refine attempted.generated done (certain.imp_right ?_)
          intro accepted
          obtain rfl := CallOutcome.returned.inj accepted
          rfl

/-- `lazy_initialization_only`, whenever `shall_init` asks for it. -/
theorem Sound.lazyInitializationOnly
    (sound : static.Sound)
    (shallInit : tolerance.shallInit static.phase = true)
    {after : Static}
    {ending : Ending}
    (executed :
      StaticInit.lazyInitializationOnly.execute outcomes static =
        (after, ending)) :
    Attempted True after ending := by
  have notInitialized :=
    GeneratorTolerance.notInitialized_of_shallInit shallInit
  have empty := sound.generated.trans notInitialized
  have untouched :=
    sound.finalized.trans (sound.not_finalized notInitialized)
  unfold StaticInit.lazyInitializationOnly GuardCode.execute at executed
  cases outcome : outcomes .init with
  | returned value =>
      rw [outcome] at executed
      obtain ⟨rfl, rfl⟩ := Prod.mk.inj executed
      exact ⟨sound_setPhase rfl untouched fun _ => rfl, untouched,
        fun _ _ => rfl⟩
  | panicked =>
      rw [outcome] at executed
      obtain ⟨rfl, rfl⟩ := Prod.mk.inj executed
      exact ⟨sound_untouched empty untouched rfl rfl, untouched, nofun⟩

/-- `lazy_finalization` of an initialized static. -/
theorem Sound.lazyFinalization
    (sound : static.Sound)
    (initialized : static.phase.intersects .initialized = true) :
    ((StaticInit.lazyFinalization static.phase).execute
      outcomes static).1.Sound := by
  have generated := sound.generated.trans initialized
  have kept :
      ∀ flag : Phase,
        (static.phase ||| flag).intersects .initialized = true := by
    intro flag
    rw [Phase.intersects_or, initialized, Bool.true_or]
  unfold StaticInit.lazyFinalization GuardCode.execute
  cases outcomes .finalize with
  | returned value =>
      refine sound_setPhase (generated.trans (kept _).symm) ?_
        fun _ => generated
      rw [Phase.intersects_or]
      exact (Bool.or_true _).symm
  | panicked =>
      refine sound_setPhase (generated.trans (kept _).symm) ?_
        fun _ => generated
      rw [Phase.intersects_or]
      exact (Bool.or_true _).symm

/-- `finalize_callback` keeps the phase true. -/
theorem Sound.finalizeCallback
    (sound : static.Sound) :
    (static.finalizeCallback outcomes).Sound := by
  unfold Static.finalizeCallback StaticInit.finalizeCallback GuardCode.assert
  split
  case isFalse => exact sound
  case isTrue initialized =>
    split
    case isTrue => exact sound.lazyFinalization initialized
    case isFalse => exact sound

/-- `finalize_callback` removes no flag. -/
theorem finalizeCallback_kept
    {flag : Phase}
    (found : static.phase.intersects flag = true) :
    (static.finalizeCallback outcomes).phase.intersects flag = true := by
  have kept :
      ∀ added : Phase, (static.phase ||| added).intersects flag = true := by
    intro added
    rw [Phase.intersects_or, found, Bool.true_or]
  unfold Static.finalizeCallback StaticInit.finalizeCallback GuardCode.assert
  split
  case isFalse => exact found
  case isTrue =>
    split
    case isFalse => exact found
    case isTrue =>
      unfold StaticInit.lazyFinalization GuardCode.execute
      cases outcomes .finalize with
      | returned => exact kept _
      | panicked => exact kept _

end Static

end StaticInit
