import StaticInit.LazySequentializer.Serializability

namespace StaticInit

/-!
# The phases that a finalizable static shows

Few combinations of the phase bits are ever published.  Since threads take
turns it is enough to follow the accesses one after the other: the phases
below are closed under them, and an access leads to each.
-/

/-- The phases in which the write lock of a finalizable static is released. -/
def publishedPhases (tolerance : GeneratorTolerance) : List Phase :=
  let always : List Phase :=
    [.empty,
      .registrationPanicked ||| .initializationSkiped,
      .registered ||| .initialized,
      .registered ||| .initializationPanicked ||| .initializationSkiped,
      .registered ||| .initialized ||| .finalized,
      .registered ||| .initialized ||| .finalizationPanicked]
  let refused : List Phase :=
    if tolerance.finalRegistrationFailure then
      [.registrationRefused ||| .initialized,
        .registrationRefused ||| .initializationPanicked |||
          .initializationSkiped]
    else
      [.registrationRefused ||| .initializationSkiped]
  let retried : List Phase :=
    if tolerance.initFailure && tolerance.finalRegistrationFailure then
      [.registrationPanicked ||| .initialized,
        .registrationPanicked ||| .initializationPanicked |||
          .initializationSkiped]
    else
      []
  always ++ refused ++ retried

/-- How a call may end. -/
def callOutcomes : List CallOutcome :=
  [.returned true, .returned false, .panicked]

theorem mem_callOutcomes (outcome : CallOutcome) : outcome ∈ callOutcomes := by
  cases outcome with
  | returned value => cases value <;> simp [callOutcomes]
  | panicked => simp [callOutcomes]

/-- The outcomes of the three calls. -/
def Outcomes.of (reg init finalize : CallOutcome) : Outcomes
  | .reg => reg
  | .init => init
  | .finalize => finalize

theorem Outcomes.eq_of (outcomes : Outcomes) :
    .of (outcomes .reg) (outcomes .init) (outcomes .finalize) = outcomes := by
  funext call
  cases call with
  | _ => rfl

/-- A published phase, with its static in the register if it says so. -/
structure Static.Published
    (tolerance : GeneratorTolerance)
    (static : Static) : Prop where
  phase : static.phase ∈ publishedPhases tolerance
  listed : static.listed = static.phase.intersects .registered

instance (tolerance : GeneratorTolerance) (static : Static) :
    Decidable (static.Published tolerance) :=
  decidable_of_iff
    (static.phase ∈ publishedPhases tolerance ∧
      static.listed = static.phase.intersects .registered)
    ⟨fun both => ⟨both.1, both.2⟩, fun published =>
      ⟨published.phase, published.listed⟩⟩

namespace Static

/-- A static without what a program does not look at. -/
def outline (static : Static) : Static :=
  ⟨static.phase, false, false, static.listed⟩

/-- A program does not look at the slot. -/
theorem outline_execute
    (outcomes : Outcomes)
    (code : GuardCode)
    (static : Static) :
    (code.execute outcomes static).1.outline =
      (code.execute outcomes static.outline).1.outline := by
  induction code generalizing static with
  | done => rfl
  | failed assertion => rfl
  | setPhase phase next inductionHypothesis =>
      exact (inductionHypothesis (static.setPhase phase)).trans
        (inductionHypothesis (static.outline.setPhase phase)).symm
  | transition call onSuccess onPanic next inductionHypothesis =>
      simp only [GuardCode.execute]
      split
      case h_1 value _ =>
        let returned := (static.outline.returned value call).setPhase onSuccess
        rw [inductionHypothesis, inductionHypothesis value returned]
        cases call with
        | _ => rfl
      case h_2 =>
        cases call with
        | _ => rfl

variable {tolerance : GeneratorTolerance} {static : Static}

/-- Attempts to initialize lead to published phases. -/
theorem published_of_attempt (tolerance : GeneratorTolerance) :
    ∀ phase ∈ publishedPhases tolerance,
      tolerance.shallInit phase = true →
        ∀ reg ∈ callOutcomes, ∀ init ∈ callOutcomes, ∀ finalize ∈ callOutcomes,
          ((lazyInitialization tolerance phase).execute
            (.of reg init finalize)
            ⟨phase, false, false, phase.intersects .registered⟩).1.Published
              tolerance := by
  obtain ⟨initFailure, finalRegistrationFailure⟩ := tolerance
  cases initFailure with
  | true =>
      cases finalRegistrationFailure with
      | true => decide +kernel
      | false => decide +kernel
  | false =>
      cases finalRegistrationFailure with
      | true => decide +kernel
      | false => decide +kernel

/-- The exit callback leads to published phases. -/
theorem published_of_finalize (tolerance : GeneratorTolerance) :
    ∀ phase ∈ publishedPhases tolerance,
      phase.intersects .registered = true →
        ∀ reg ∈ callOutcomes, ∀ init ∈ callOutcomes, ∀ finalize ∈ callOutcomes,
          (Static.finalizeCallback (.of reg init finalize)
            ⟨phase, false, false, true⟩).Published tolerance := by
  obtain ⟨initFailure, finalRegistrationFailure⟩ := tolerance
  cases initFailure with
  | true =>
      cases finalRegistrationFailure with
      | true => decide +kernel
      | false => decide +kernel
  | false =>
      cases finalRegistrationFailure with
      | true => decide +kernel
      | false => decide +kernel

theorem outline_finalizeCallback
    (outcomes : Outcomes)
    (static : Static) :
    (static.finalizeCallback outcomes).outline =
      (static.outline.finalizeCallback outcomes).outline := by
  unfold Static.finalizeCallback
  change _ = (if static.phase.intersects .initialized then _ else _ : Static).outline
  split
  case isTrue => exact outline_execute outcomes _ static
  case isFalse => rfl

/-- A published phase does not depend on the slot. -/
theorem published_iff_outline :
    static.Published tolerance ↔ static.outline.Published tolerance :=
  ⟨fun published => ⟨published.phase, published.listed⟩,
    fun published => ⟨published.phase, published.listed⟩⟩

theorem Published.outline_eq
    (published : static.Published tolerance) :
    static.outline =
      ⟨static.phase, false, false, static.phase.intersects .registered⟩ := by
  rw [outline, published.listed]

/-- An attempt to initialize keeps the phase among the published ones. -/
theorem Published.attempt
    (published : static.Published tolerance)
    (shallInit : tolerance.shallInit static.phase = true)
    (outcomes : Outcomes) :
    ((lazyInitialization tolerance static.phase).execute
      outcomes static).1.Published tolerance := by
  rw [published_iff_outline, outline_execute, ← published_iff_outline,
    published.outline_eq, ← outcomes.eq_of]
  exact published_of_attempt tolerance _ published.phase shallInit
    _ (mem_callOutcomes _) _ (mem_callOutcomes _) _ (mem_callOutcomes _)

/-- The exit callback keeps the phase among the published ones. -/
theorem Published.finalizeCallback
    (published : static.Published tolerance)
    (listed : static.listed = true)
    (outcomes : Outcomes) :
    (static.finalizeCallback outcomes).Published tolerance := by
  have registered := published.listed.symm.trans listed
  rw [published_iff_outline, outline_finalizeCallback,
    ← published_iff_outline, published.outline_eq, registered,
    ← outcomes.eq_of]
  exact published_of_finalize tolerance _ published.phase registered
    _ (mem_callOutcomes _) _ (mem_callOutcomes _) _ (mem_callOutcomes _)

end Static

namespace Accessor

variable {tolerance : GeneratorTolerance} {type : LazyType}

/-- What is done in order leaves a published phase. -/
theorem Serial.published
    {history : List Event}
    {ended : List EndedCall}
    {static : Static}
    (exits : type.sequentializer = .exit)
    (serial : Serial tolerance type history ended static) :
    static.Published tolerance := by
  induction serial with
  | nil =>
      refine ⟨?_, rfl⟩
      simp [publishedPhases, Static.fresh]
  | snoc event _ step registered inductionHypothesis =>
      cases event with
      | finalize outcomes =>
          obtain ⟨-, rfl⟩ := step
          exact inductionHypothesis.finalizeCallback (registered rfl) outcomes
      | access accessor busy outcomes result =>
          obtain ⟨rfl, -⟩ | ⟨shallInit, rfl, -⟩ := access_cases exits step
          · exact inductionHypothesis
          · exact inductionHypothesis.attempt shallInit outcomes

/-- Attempts to initialize one after the other. -/
def attempts
    (tolerance : GeneratorTolerance)
    (static : Static) : List Outcomes → Static
  | [] => static
  | outcomes :: later =>
      if tolerance.shallInit static.phase then
        attempts tolerance
          ((lazyInitialization tolerance static.phase).execute outcomes
            static).1
          later
      else
        static

/-- Attempts are accesses. -/
theorem Serial.attempts
    {history : List Event}
    {ended : List EndedCall}
    {static : Static}
    (exits : type.sequentializer = .exit)
    (serial : Serial tolerance type history ended static)
    (unfinalized : history.countP Event.isFinalize = 0)
    (outcomes : List Outcomes) :
    ∃ history ended,
      Serial tolerance type history ended
          (attempts tolerance static outcomes) ∧
        history.countP Event.isFinalize = 0 := by
  induction outcomes generalizing static history ended with
  | nil => exact ⟨_, _, serial, unfinalized⟩
  | cons first later inductionHypothesis =>
      unfold Accessor.attempts
      split
      case isFalse => exact ⟨_, _, serial, unfinalized⟩
      case isTrue shallInit =>
        obtain ⟨event, step, -, kind⟩ :=
          (Enters.init exits shallInit).2 first
        refine inductionHypothesis (serial.snoc event step ?_) ?_
        · simp [kind]
        · simp [unfinalized, kind]

/-- Ways to each published phase. -/
def samples : List (List Outcomes) :=
  [[],
    [.of (.returned true) (.returned true) .panicked],
    [.of (.returned true) .panicked .panicked],
    [.of (.returned false) (.returned true) .panicked],
    [.of (.returned false) .panicked .panicked],
    [.of .panicked .panicked .panicked],
    [.of .panicked .panicked .panicked,
      .of .panicked (.returned true) .panicked],
    [.of .panicked .panicked .panicked, .of .panicked .panicked .panicked]]

/-- Attempts, or a finalization after them, lead to each published phase. -/
theorem exists_sample (tolerance : GeneratorTolerance) :
    ∀ phase ∈ publishedPhases tolerance,
      ∃ outcomes ∈ samples,
        (attempts tolerance .fresh outcomes).phase = phase ∨
          (attempts tolerance .fresh outcomes).listed = true ∧
            ∃ finalize ∈ callOutcomes,
              ((attempts tolerance .fresh outcomes).finalizeCallback
                (.of .panicked .panicked finalize)).phase = phase := by
  obtain ⟨initFailure, finalRegistrationFailure⟩ := tolerance
  cases initFailure with
  | true =>
      cases finalRegistrationFailure with
      | true => decide +kernel
      | false => decide +kernel
  | false =>
      cases finalRegistrationFailure with
      | true => decide +kernel
      | false => decide +kernel

/-- Each published phase is left by accesses in order. -/
theorem exists_serial
    {phase : Phase}
    (exits : type.sequentializer = .exit)
    (member : phase ∈ publishedPhases tolerance) :
    ∃ history ended static,
      Serial tolerance type history ended static ∧
        history.countP Event.isFinalize ≤ 1 ∧ static.phase = phase := by
  obtain ⟨outcomes, -, found⟩ := exists_sample tolerance phase member
  have fresh : Serial tolerance type [] [] .fresh := .nil
  obtain ⟨history, ended, serial, none⟩ := fresh.attempts exits rfl outcomes
  obtain same | ⟨listed, finalize, -, same⟩ := found
  · exact ⟨_, _, _, serial, none.le.trans (Nat.zero_le 1), same⟩
  · have finalizes :=
      serial.snoc (.finalize (.of .panicked .panicked finalize))
        ⟨exits, rfl⟩ fun _ => listed
    exact ⟨_, _, _, finalizes, by simp [none, Event.isFinalize], same⟩

end Accessor

namespace Lazily

variable {ι : Type} [DecidableEq ι]

/--
The phases that a finalizable static publishes, exactly: under any schedule of
any threads its phase is one of these, and some schedule leads to each.
-/
theorem published_iff
    (actor : ι)
    (tolerance : GeneratorTolerance)
    (phase : Phase) :
    (∃ events, ∃ state : State ι,
      Run (State.Step tolerance) (State.fresh ι) events state ∧
        state.phase = phase) ↔
      phase ∈ publishedPhases tolerance := by
  have exits : LazyType.lazyFinalize.sequentializer = .exit := rfl
  constructor
  · rintro ⟨events, state, run, rfl⟩
    cases Serializes.of_run exits run with
    | free _ logged same => exact same ▸ (logged.serial.published exits).phase
    | held _ logged _ _ _ same =>
        exact same ▸ (logged.serial.published exits).phase
  · intro member
    obtain ⟨history, ended, static, serial, once, rfl⟩ :=
      Accessor.exists_serial exits member
    obtain ⟨events, state, run, -, -, same, -⟩ :=
      State.reaches_of_serial actor exits serial once
    exact ⟨events, state, run, same⟩

end Lazily

end StaticInit
