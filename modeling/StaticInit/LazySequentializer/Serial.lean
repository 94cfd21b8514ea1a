import StaticInit.GenericLazy.Accessors
import StaticInit.LazySequentializer.Once

namespace StaticInit

/-!
# Threads access a static one after the other

The threads that share a static take steps between which others act; the
accessors of a static run a program under the write guard at once.  Whatever
the threads do, the accessors may do one after the other: with the same calls
of user code, which end in the same way and order, and with the same static
whenever nobody holds the write lock.
-/

/-- A call of user code that has ended. -/
abbrev EndedCall := UserCall × CallOutcome

namespace GuardCode

/-- The calls that a program makes, in their order. -/
def endedCalls (outcomes : Outcomes) : GuardCode → List EndedCall
  | .done => []
  | .setPhase _ next => next.endedCalls outcomes
  | .transition call _ _ next =>
      match outcomes call with
      | .returned value =>
          (call, .returned value) :: (next value).endedCalls outcomes
      | .panicked => [(call, .panicked)]
  | .failed _ => []

/-- A program may make a call. -/
def Makes (call : UserCall) : GuardCode → Prop
  | .done => False
  | .setPhase _ next => next.Makes call
  | .transition first _ _ next => first = call ∨ ∃ value, (next value).Makes call
  | .failed _ => False

/-- No call is made twice. -/
def Linear : GuardCode → Prop
  | .done => True
  | .setPhase _ next => next.Linear
  | .transition call _ _ next =>
      ∀ value, ¬ (next value).Makes call ∧ (next value).Linear
  | .failed _ => True

end GuardCode

section Linear

variable (tolerance : GeneratorTolerance) (phase : Phase)

theorem generate_linear :
    (generate tolerance phase).Linear ∧
      ¬ (generate tolerance phase).Makes .reg := by
  simp [generate, GuardCode.Linear, GuardCode.Makes]

theorem lazyInitializationRegistered_linear :
    (lazyInitializationRegistered tolerance phase).Linear ∧
      ¬ (lazyInitializationRegistered tolerance phase).Makes .reg := by
  unfold lazyInitializationRegistered
  split
  case isTrue => exact generate_linear tolerance phase
  case isFalse =>
    split
    case isTrue => exact generate_linear tolerance phase
    case isFalse => simp [GuardCode.Linear, GuardCode.Makes]

theorem GuardCode.Linear.assert
    {code : GuardCode}
    {condition : Bool}
    {assertion : DebugAssertion}
    (linear : code.Linear) :
    (GuardCode.assert condition assertion code).Linear := by
  unfold GuardCode.assert
  split
  case isTrue => exact linear
  case isFalse => trivial

/-- An initialization registers once and generates once. -/
theorem lazyInitialization_linear :
    (lazyInitialization tolerance phase).Linear := by
  unfold lazyInitialization
  refine .assert (.assert ?_)
  split
  case isTrue =>
    refine .assert fun accepted => ?_
    have linear :=
      lazyInitializationRegistered_linear tolerance (.registration accepted)
    exact ⟨linear.2, linear.1⟩
  case isFalse => exact (lazyInitializationRegistered_linear tolerance phase).1

theorem finalizeCallback_linear : (finalizeCallback phase).Linear :=
  .assert fun _ => by simp [GuardCode.Linear, GuardCode.Makes]

end Linear

namespace Accessor

/-- Whether the exit callback runs. -/
def Event.isFinalize : Event → Bool
  | .access .. => false
  | .finalize _ => true

/-- The calls of user code that an access makes. -/
def Event.endedCalls
    (tolerance : GeneratorTolerance)
    (type : LazyType)
    (static : Static) : Event → List EndedCall
  | .access accessor busy outcomes _ =>
      if accessor.isFast && busy then
        []
      else
        match accessor.preparation with
        | .nothing => []
        | .init =>
            if (type.policy tolerance).shallInit static.phase then
              (type.initialization tolerance static.phase).endedCalls outcomes
            else
              []
        | .initUnique =>
            if (type.policy tolerance).shallInit static.phase then
              mutLazyInitializationOnly.endedCalls outcomes
            else
              []
  | .finalize outcomes =>
      if static.phase.intersects .initialized then
        (finalizeCallback static.phase).endedCalls outcomes
      else
        []

/--
Accesses of a fresh static one after the other, with their user calls.  The
exit callback runs on a registered static only.
-/
inductive Serial
    (tolerance : GeneratorTolerance)
    (type : LazyType) :
    List Event → List EndedCall → Static → Prop where
  | nil : Serial tolerance type [] [] .fresh
  | snoc
      {history : List Event}
      {ended : List EndedCall}
      {static after : Static}
      (event : Event)
      (earlier : Serial tolerance type history ended static)
      (step : Step tolerance type static event after)
      (registered : event.isFinalize = true → static.listed = true) :
      Serial tolerance type (history ++ [event])
        (ended ++ event.endedCalls tolerance type static) after

variable {tolerance : GeneratorTolerance} {type : LazyType}

/-- They are a run of the accessors. -/
theorem Serial.run
    {history : List Event}
    {ended : List EndedCall}
    {static : Static}
    (serial : Serial tolerance type history ended static) :
    Run (Step tolerance type) .fresh history static := by
  induction serial with
  | nil => exact .refl
  | snoc event _ step _ inductionHypothesis =>
      exact .snoc event inductionHypothesis step

/-- An accessor or the exit callback runs a program on a static. -/
def Enters
    (tolerance : GeneratorTolerance)
    (type : LazyType)
    (static : Static)
    (finalizes : Bool)
    (program : GuardCode) : Prop :=
  (finalizes = true → static.listed = true) ∧
    ∀ outcomes,
      ∃ event,
        Step tolerance type static event
            (program.execute outcomes static).1 ∧
          event.endedCalls tolerance type static =
              program.endedCalls outcomes ∧
            event.isFinalize = finalizes

/-- The finalizable types have `init`. -/
theorem offers_init
    (exits : type.sequentializer = .exit) :
    type.offers .init = true := by
  cases type with
  | lazy => cases exits
  | lockedLazy => cases exits
  | primedLockedLazy => cases exits
  | lazyFinalize => rfl
  | lockedLazyFinalize => rfl
  | lockedLazyDroped => rfl
  | primedLockedLazyDroped => rfl

/-- An access leaves what its preparation leaves. -/
theorem access_fst
    (accessor : Accessor)
    (busy : Bool)
    (outcomes : Outcomes)
    (static : Static) :
    (type.access tolerance accessor busy outcomes static).1 =
      if accessor.isFast && busy then
        static
      else
        (type.prepare tolerance accessor.preparation outcomes static).1 := by
  unfold LazyType.access
  split
  case isTrue => rfl
  case isFalse =>
    split
    case h_1 same => rw [same]
    case h_2 same => rw [same]
    case h_3 same => rw [same]

/-- A step of `init` for each preparation of it. -/
theorem step_init
    (tolerance : GeneratorTolerance)
    (exits : type.sequentializer = .exit)
    (outcomes : Outcomes)
    (static : Static) :
    Step tolerance type static
      (.access .init false outcomes
        (type.access tolerance .init false outcomes static).2)
      (type.prepare tolerance .init outcomes static).1 := by
  refine ⟨offers_init exits, ?_⟩
  exact Prod.ext (access_fst .init false outcomes static) rfl

/-- The finalizable types give no unique access. -/
theorem not_initUnique
    {accessor : Accessor}
    (exits : type.sequentializer = .exit)
    (offers : type.offers accessor = true) :
    accessor.preparation ≠ .initUnique := by
  intro unique
  cases accessor with
  | getMut =>
      cases type with
      | lazy => cases exits
      | lockedLazy => cases exits
      | primedLockedLazy => cases exits
      | lazyFinalize => cases offers
      | lockedLazyFinalize => cases offers
      | lockedLazyDroped => cases offers
      | primedLockedLazyDroped => cases offers
  | _ => cases unique

/-- The finalizable types initialize with `lazy_initialization`. -/
theorem initialization_exit
    (tolerance : GeneratorTolerance)
    (exits : type.sequentializer = .exit)
    (phase : Phase) :
    type.initialization tolerance phase =
      lazyInitialization tolerance phase := by
  simp [LazyType.initialization, exits]

variable {static : Static}

/-- An access of a finalizable static initializes it or leaves it alone. -/
theorem access_cases
    {accessor : Accessor}
    {busy : Bool}
    {outcomes : Outcomes}
    {result : AccessResult}
    {after : Static}
    (exits : type.sequentializer = .exit)
    (step :
      Step tolerance type static (.access accessor busy outcomes result)
        after) :
    (after = static ∧
        Event.endedCalls tolerance type static
            (.access accessor busy outcomes result) =
          []) ∨
      tolerance.shallInit static.phase = true ∧
        after =
            ((lazyInitialization tolerance static.phase).execute outcomes
              static).1 ∧
          Event.endedCalls tolerance type static
              (.access accessor busy outcomes result) =
            (lazyInitialization tolerance static.phase).endedCalls
              outcomes := by
  obtain ⟨offers, accesses⟩ := step
  have last :
      after =
        if accessor.isFast && busy then
          static
        else
          (type.prepare tolerance accessor.preparation outcomes static).1 := by
    rw [← access_fst, accesses]
  simp only [Event.endedCalls]
  cases fast : accessor.isFast && busy with
  | true => exact .inl ⟨last.trans (if_pos fast), if_pos rfl⟩
  | false =>
      rw [fast, if_neg Bool.false_ne_true] at last
      rw [if_neg Bool.false_ne_true]
      cases prepares : accessor.preparation with
      | nothing =>
          rw [prepares] at last
          exact .inl ⟨last, rfl⟩
      | initUnique => exact absurd prepares (not_initUnique exits offers)
      | init =>
          rw [prepares, LazyType.prepare, Static.shallInit_policy,
            initialization_exit tolerance exits] at last
          rw [Static.shallInit_policy, initialization_exit tolerance exits]
          cases shallInit : tolerance.shallInit static.phase with
          | true =>
              rw [if_pos shallInit] at last
              exact .inr ⟨rfl, last, if_pos rfl⟩
          | false =>
              rw [shallInit] at last
              exact .inl ⟨last, if_neg Bool.false_ne_true⟩

/-- An access that initializes. -/
theorem Enters.init
    (exits : type.sequentializer = .exit)
    (shallInit : tolerance.shallInit static.phase = true) :
    Enters tolerance type static false
      (lazyInitialization tolerance static.phase) := by
  refine ⟨nofun, fun outcomes => ?_⟩
  have asks : (type.policy tolerance).shallInit static.phase = true := by
    rw [Static.shallInit_policy, shallInit]
  have program := initialization_exit tolerance exits static.phase
  have stepped := step_init tolerance exits outcomes static
  rw [LazyType.prepare, if_pos asks, program] at stepped
  refine ⟨_, stepped, ?_, rfl⟩
  simp [Event.endedCalls, isFast, preparation, asks, program]

/-- An access that finds nothing to initialize. -/
theorem Enters.done
    (exits : type.sequentializer = .exit)
    (shallInit : tolerance.shallInit static.phase = false) :
    Enters tolerance type static false .done := by
  refine ⟨nofun, fun outcomes => ?_⟩
  have refuses : (type.policy tolerance).shallInit static.phase = false := by
    rw [Static.shallInit_policy, shallInit]
  have stepped := step_init tolerance exits outcomes static
  rw [LazyType.prepare, refuses, if_neg Bool.false_ne_true] at stepped
  refine ⟨_, stepped, ?_, rfl⟩
  simp [Event.endedCalls, isFast, preparation, refuses, GuardCode.endedCalls]

/-- The exit callback on an initialized static. -/
theorem Enters.finalize
    (exits : type.sequentializer = .exit)
    (initialized : static.phase.intersects .initialized = true)
    (listed : static.listed = true) :
    Enters tolerance type static true (finalizeCallback static.phase) := by
  refine ⟨fun _ => listed, fun outcomes => ?_⟩
  refine ⟨.finalize outcomes, ⟨exits, ?_⟩, ?_, rfl⟩
  · rw [Static.finalizeCallback, if_pos initialized]
  · simp [Event.endedCalls, initialized]

/-- Where an access of the threads enters, an accessor does. -/
theorem Enters.of_access
    {access : Lazily.Access}
    {task : Lazily.Task}
    {code : GuardCode}
    (exits : type.sequentializer = .exit)
    (enters : access.enter tolerance static.phase = some (task, code)) :
    Enters tolerance type static false code ∧ code.Linear := by
  cases shallInit : tolerance.shallInit static.phase with
  | true =>
      obtain rfl : code = lazyInitialization tolerance static.phase := by
        cases access <;> simp_all [Lazily.Access.enter]
      exact ⟨.init exits shallInit, lazyInitialization_linear tolerance _⟩
  | false =>
      obtain rfl : code = .done := by
        cases access <;> simp_all [Lazily.Access.enter]
      exact ⟨.done exits shallInit, trivial⟩

end Accessor

namespace Lazily

open Accessor (Serial Enters)

namespace State

variable {ι : Type} [DecidableEq ι] {tolerance : GeneratorTolerance}
  {past : Summary} {state after : State ι}

omit [DecidableEq ι] in
/-- The node is in the register since `reg` returned true. -/
structure Enlisted (past : Summary) (state : State ι) : Prop where
  listed : state.listed = past.accepted
  reached : state.exit ≠ .pending → state.listed = true

omit [DecidableEq ι] in
/-- Where a guard is dropped the register is as before. -/
theorem Enlisted.publish
    {holder : Holder ι}
    (enlisted : state.Enlisted past)
    (finalizes : holder.task = .finalize → state.exit = .finalizing) :
    (state.publish holder).Enlisted past := by
  refine ⟨enlisted.listed, ?_⟩
  intro reached
  apply enlisted.reached
  intro pending
  refine reached ?_
  have other : holder.task ≠ .finalize := by
    intro finalize
    cases pending.symm.trans (finalizes finalize)
  exact (if_neg other).trans pending

theorem Enlisted.step
    {event : Event ι}
    (enlisted : state.Enlisted past)
    (inv : Inv tolerance past state)
    (step : Step tolerance state event after) :
    after.Enlisted (past.add event) := by
  obtain ⟨listed, reached⟩ := enlisted
  cases effect_of_step step with
  | acquire => exact ⟨listed, reached⟩
  | setPhase => exact ⟨listed, reached⟩
  | call call =>
      cases call with
      | _ => exact ⟨listed, reached⟩
  | returned call value =>
      refine ⟨?_, ?_⟩
      · cases call with
        | reg => simp [Summary.add, listed]
        | init => simp [Summary.add, listed]
        | finalize => simp [Summary.add, listed]
      · intro early
        simp [reached early]
  | panicked call holder held =>
      exact Enlisted.publish ⟨listed, reached⟩ (inv.finalizing holder held)
  | release holder held =>
      exact Enlisted.publish ⟨listed, reached⟩ (inv.finalizing holder held)
  | failed assertion holder held =>
      exact Enlisted.publish ⟨listed, reached⟩ (inv.finalizing holder held)
  | reach found =>
      rw [reach_eq]
      exact ⟨listed, fun _ => found⟩
  | resume actor waiting =>
      have found := reached (by simp [waiting])
      unfold State.resume
      split
      case isTrue => exact ⟨listed, fun _ => found⟩
      case isFalse => exact ⟨listed, fun _ => found⟩

/-- After a run the register is as user code saw it. -/
theorem Enlisted.of_run
    {events : List (Event ι)}
    (run : Run (Step tolerance) (State.fresh ι) events state) :
    state.Enlisted (summary events) := by
  induction run with
  | refl => exact ⟨rfl, fun reached => absurd rfl reached⟩
  | snoc event earlier last inductionHypothesis =>
      rw [summary_append]
      exact inductionHypothesis.step (Inv.of_run earlier) last

end State

variable {ι : Type}

/-- The call of user code that ends now. -/
def Event.ended : Event ι → Option EndedCall
  | .returned _ user value => some (user, .returned value)
  | .panicked _ user => some (user, .panicked)
  | _ => none

/-- The slot and the register are as the threads left them. -/
structure Shows (static : Static) (state : State ι) : Prop where
  generated : static.generated = state.written
  listed : static.listed = state.listed

/-- The holder is in the middle of a program that began on a static. -/
structure Runs
    (static : Static)
    (program : GuardCode)
    (calls : List EndedCall)
    (current : Static)
    (holder : Holder ι) : Prop where
  linear : holder.code.Linear
  /-- However the calls to come will end. -/
  continues :
    ∃ outcomes : Outcomes,
      ∀ later : Outcomes,
        (∀ call, ¬ holder.code.Makes call → later call = outcomes call) →
          program.execute later static = holder.code.execute later current ∧
            program.endedCalls later = calls ++ holder.code.endedCalls later
  guard : holder.calling = false → holder.guard = current.phase
  panics :
    holder.calling = true →
      ∃ call onSuccess onPanic next,
        holder.code = .transition call onSuccess onPanic next ∧
          holder.guard = onPanic

/-- What was done in order, where the exit pass is at some stage. -/
structure Logged
    (tolerance : GeneratorTolerance)
    (type : LazyType)
    (history : List Accessor.Event)
    (ended : List EndedCall)
    (static : Static)
    (exit : ExitStage) : Prop where
  serial : Serial tolerance type history ended static
  once : history.countP Accessor.Event.isFinalize ≤ 1
  early : exit ≠ .returned → history.countP Accessor.Event.isFinalize = 0

/-- What the threads did, done one after the other. -/
inductive Serializes
    (tolerance : GeneratorTolerance)
    (type : LazyType)
    (ended : List EndedCall)
    (state : State ι) : Prop where
  | free
      {history : List Accessor.Event}
      {static : Static}
      (unheld : state.holder = none)
      (logged : Logged tolerance type history ended static state.exit)
      (phase : static.phase = state.phase)
      (shows : Shows static state)
  | held
      {history : List Accessor.Event}
      {earlier calls : List EndedCall}
      {static current : Static}
      {program : GuardCode}
      {holder : Holder ι}
      (held : state.holder = some holder)
      (logged : Logged tolerance type history earlier static state.exit)
      (enters :
        Enters tolerance type static (holder.task = .finalize) program)
      (runs : Runs static program calls current holder)
      (same : ended = earlier ++ calls)
      (phase : static.phase = state.phase)
      (shows : Shows current state)

section Holders

variable {static current : Static} {program : GuardCode}
  {calls : List EndedCall} {holder after : Holder ι}

/-- A program begins. -/
theorem Runs.begin
    (holder : Holder ι)
    (linear : holder.code.Linear)
    (idle : holder.calling = false)
    (guard : holder.guard = static.phase) :
    Runs static holder.code [] static holder where
  linear := linear
  continues := ⟨fun _ => .panicked, fun _ _ => ⟨rfl, rfl⟩⟩
  guard _ := guard
  panics calling := absurd (idle.symm.trans calling) Bool.false_ne_true

theorem Runs.start
    {call : UserCall}
    (runs : Runs static program calls current holder)
    (starts : holder.start call = some after) :
    Runs static program calls current after := by
  obtain ⟨-, onSuccess, onPanic, next, code, rfl⟩ := Holder.start_eq starts
  exact ⟨runs.linear, runs.continues, nofun,
    fun _ => ⟨call, onSuccess, onPanic, next, code, rfl⟩⟩

/-- A call ends in some way. -/
theorem Runs.chosen
    {call : UserCall}
    {onSuccess onPanic : Phase}
    {next : Bool → GuardCode}
    (runs : Runs static program calls current holder)
    (code : holder.code = .transition call onSuccess onPanic next)
    (outcome : CallOutcome) :
    ∃ outcomes : Outcomes,
      outcomes call = outcome ∧
        ∀ later : Outcomes,
          later call = outcome →
            (∀ other,
              (∀ value, ¬ (next value).Makes other) →
                later other = outcomes other) →
              program.execute later static =
                  holder.code.execute later current ∧
                program.endedCalls later =
                  calls ++ holder.code.endedCalls later := by
  obtain ⟨outcomes, continues⟩ := runs.continues
  refine ⟨Function.update outcomes call outcome, Function.update_self .., ?_⟩
  intro later chosen agrees
  apply continues
  intro other absent
  rw [code, GuardCode.Makes, not_or, not_exists] at absent
  rw [agrees other absent.2, Function.update_of_ne (Ne.symm absent.1)]

theorem Runs.finish
    {call : UserCall}
    {value : Bool}
    (runs : Runs static program calls current holder)
    (finishes : holder.finish call value = some after) :
    ∃ onSuccess,
      Runs static program (calls ++ [(call, .returned value)])
        ((current.returned value call).setPhase onSuccess) after := by
  obtain ⟨-, onSuccess, onPanic, next, code, rfl⟩ :=
    Holder.finish_eq finishes
  have linear := runs.linear
  rw [code] at linear
  obtain ⟨outcomes, chosen, continues⟩ :=
    runs.chosen code (.returned value)
  refine ⟨onSuccess, (linear value).2, ⟨outcomes, ?_⟩, fun _ => rfl, nofun⟩
  intro later agrees
  have same : later call = .returned value :=
    (agrees call (linear value).1).trans chosen
  obtain ⟨executes, ends⟩ :=
    continues later same fun other absent => agrees other (absent value)
  rw [executes, ends, code]
  simp [GuardCode.execute, GuardCode.endedCalls, same]

theorem Runs.setPhase
    (runs : Runs static program calls current holder)
    (sets : holder.setPhase = some after) :
    ∃ phase,
      Runs static program calls (current.setPhase phase) after := by
  obtain ⟨phase, next, code, rfl⟩ := Holder.setPhase_eq sets
  have linear := runs.linear
  have continues := runs.continues
  rw [code] at linear continues
  refine ⟨phase, linear, continues, fun _ => rfl, ?_⟩
  intro calling
  obtain ⟨call, onSuccess, onPanic, later, transition, -⟩ :=
    runs.panics calling
  cases code.symm.trans transition

end Holders

section Steps

variable {tolerance : GeneratorTolerance} {type : LazyType}
  {history : List Accessor.Event} {earlier calls : List EndedCall}
  {static current : Static} {program : GuardCode} {holder : Holder ι}
  {state : State ι}

/-- The exit stage changes where nothing was finalized. -/
theorem Logged.mono
    {before after : ExitStage}
    {ended : List EndedCall}
    (logged : Logged tolerance type history ended static before)
    (changes : after ≠ .returned → before ≠ .returned) :
    Logged tolerance type history ended static after :=
  ⟨logged.serial, logged.once, fun open_ => logged.early (changes open_)⟩

/-- The program ends, and the guard is given back. -/
theorem Serializes.publish
    {past : Summary}
    {rest : List EndedCall}
    {last : Static}
    {outcomes : Outcomes}
    (inv : State.Inv tolerance past state)
    (held : state.holder = some holder)
    (logged : Logged tolerance type history earlier static state.exit)
    (enters :
      Enters tolerance type static (holder.task = .finalize) program)
    (executes : (program.execute outcomes static).1 = last)
    (ends : program.endedCalls outcomes = rest)
    (phase : last.phase = holder.guard)
    (shows : Shows last state) :
    Serializes tolerance type (earlier ++ rest) (state.publish holder) := by
  obtain ⟨listed, program⟩ := enters
  obtain ⟨event, step, same, kind⟩ := program outcomes
  rw [executes] at step
  have next := logged.serial.snoc event step (kind ▸ listed)
  rw [same, ends] at next
  have logs :
      Logged tolerance type (history ++ [event]) (earlier ++ rest) last
        (state.publish holder).exit := by
    have count :
        (history ++ [event]).countP Accessor.Event.isFinalize =
          history.countP Accessor.Event.isFinalize +
            if holder.task = .finalize then 1 else 0 := by
      rw [List.countP_append, List.countP_singleton, kind]
      simp
    have once := logged.once
    by_cases finalize : holder.task = .finalize
    · have finalizing := inv.finalizing holder held finalize
      have first := logged.early (by simp [finalizing])
      refine ⟨next, ?_, ?_⟩
      · rw [count, first, if_pos finalize]
      · intro open_
        exact absurd (if_pos finalize) open_
    · rw [if_neg finalize, Nat.add_zero] at count
      refine ⟨next, count.trans_le once, ?_⟩
      intro open_
      rw [count]
      exact logged.early ((if_neg finalize).symm.trans_ne open_)
  exact .free rfl logs phase ⟨shows.generated, shows.listed⟩

/-- A program that is done. -/
theorem Serializes.release
    {past : Summary}
    (inv : State.Inv tolerance past state)
    (held : state.holder = some holder)
    (logged : Logged tolerance type history earlier static state.exit)
    (enters :
      Enters tolerance type static (holder.task = .finalize) program)
    (runs : Runs static program calls current holder)
    (shows : Shows current state)
    (finished : holder.isDone = true) :
    Serializes tolerance type (earlier ++ calls) (state.publish holder) := by
  have code := Holder.isDone_eq finished
  obtain ⟨outcomes, continues⟩ := runs.continues
  obtain ⟨executes, ends⟩ := continues outcomes fun _ _ => rfl
  rw [code, GuardCode.endedCalls, List.append_nil] at ends
  rw [code, GuardCode.execute] at executes
  have idle : holder.calling = false := by
    by_contra calling
    obtain ⟨_, _, _, _, transition, -⟩ :=
      runs.panics (Bool.eq_true_of_not_eq_false calling)
    cases code.symm.trans transition
  exact .publish inv held logged enters (congrArg Prod.fst executes) ends
    (runs.guard idle).symm shows

/-- A program whose call panics. -/
theorem Serializes.panicked
    {past : Summary}
    {call : UserCall}
    (inv : State.Inv tolerance past state)
    (held : state.holder = some holder)
    (logged : Logged tolerance type history earlier static state.exit)
    (enters :
      Enters tolerance type static (holder.task = .finalize) program)
    (runs : Runs static program calls current holder)
    (shows : Shows current state)
    (running : holder.isCalling call = true) :
    Serializes tolerance type (earlier ++ (calls ++ [(call, .panicked)]))
      (state.publish holder) := by
  obtain ⟨calling, onSuccess, onPanic, next, code⟩ :=
    Holder.isCalling_eq running
  obtain ⟨_, _, _, _, same, guard⟩ := runs.panics calling
  obtain ⟨rfl, rfl, rfl, rfl⟩ :=
    GuardCode.transition.inj (code.symm.trans same)
  obtain ⟨outcomes, chosen, continues⟩ := runs.chosen code .panicked
  obtain ⟨executes, ends⟩ := continues outcomes chosen fun _ _ => rfl
  rw [code] at executes ends
  simp only [GuardCode.execute, GuardCode.endedCalls, chosen]
    at executes ends
  refine .publish inv held logged enters (congrArg Prod.fst executes) ends
    guard.symm ?_
  cases call with
  | _ => exact ⟨shows.generated, shows.listed⟩

/-- What a call that returned did to the slot and the register. -/
theorem Shows.returned
    {call : UserCall}
    {value : Bool}
    {phase : Phase}
    {next : Option (Holder ι)}
    (shows : Shows current state) :
    Shows ((current.returned value call).setPhase phase)
      { state with
        holder := next
        written := state.written || call = .init
        listed := state.listed || (call = .reg && value) } := by
  obtain ⟨generated, listed⟩ := shows
  cases call with
  | reg => exact ⟨by simp [Static.returned, Static.setPhase, generated],
      by simp [Static.returned, Static.setPhase, listed]⟩
  | init => exact ⟨by simp [Static.returned, Static.setPhase],
      by simp [Static.returned, Static.setPhase, listed]⟩
  | finalize => exact ⟨by simp [Static.returned, Static.setPhase, generated],
      by simp [Static.returned, Static.setPhase, listed]⟩

variable {after : State ι} {ended : List EndedCall}

/-- A program that holds the lock goes on. -/
theorem Serializes.moves
    {next : Holder ι}
    {later : List EndedCall}
    {last : Static}
    (held : after.holder = some next)
    (task : next.task = holder.task)
    (logged : Logged tolerance type history earlier static after.exit)
    (enters :
      Enters tolerance type static (holder.task = .finalize) program)
    (runs : Runs static program (calls ++ later) last next)
    (phase : static.phase = after.phase)
    (shows : Shows last after) :
    Serializes tolerance type (earlier ++ calls ++ later) after :=
  .held held logged (task ▸ enters) runs (List.append_assoc ..) phase shows

/-- A step of the holder of the lock keeps what was done in order. -/
theorem Serializes.holder_step
    {past : Summary}
    {event : Event ι}
    (inv : State.Inv tolerance past state)
    (held : state.holder = some holder)
    (logged : Logged tolerance type history earlier static state.exit)
    (enters :
      Enters tolerance type static (holder.task = .finalize) program)
    (runs : Runs static program calls current holder)
    (phase : static.phase = state.phase)
    (shows : Shows current state)
    (effect : State.Effect tolerance state event after) :
    Serializes tolerance type (earlier ++ calls ++ event.ended.toList)
      after := by
  cases effect with
  | acquire actor access task code free => cases held.symm.trans free
  | resume actor waiting free => cases held.symm.trans free
  | call user another next found starts =>
      obtain rfl := Option.some.inj (held.symm.trans found)
      have started := runs.start starts
      have task : next.task = holder.task := by
        obtain ⟨-, _, _, _, -, rfl⟩ := Holder.start_eq starts
        rfl
      rw [← List.append_nil calls] at started
      exact .moves rfl task logged enters started phase
        ⟨shows.generated, shows.listed⟩
  | returned user value another next found finishes =>
      obtain rfl := Option.some.inj (held.symm.trans found)
      obtain ⟨onSuccess, finished⟩ := runs.finish finishes
      have task : next.task = holder.task := by
        obtain ⟨-, _, _, _, -, rfl⟩ := Holder.finish_eq finishes
        rfl
      exact .moves rfl task logged enters finished phase shows.returned
  | setPhase another next found sets =>
      obtain rfl := Option.some.inj (held.symm.trans found)
      obtain ⟨_, set⟩ := runs.setPhase sets
      have task : next.task = holder.task := by
        obtain ⟨_, _, -, rfl⟩ := Holder.setPhase_eq sets
        rfl
      rw [← List.append_nil calls] at set
      exact .moves rfl task logged enters set phase
        ⟨shows.generated, shows.listed⟩
  | panicked user another found running =>
      obtain rfl := Option.some.inj (held.symm.trans found)
      rw [List.append_assoc]
      exact .panicked inv held logged enters runs shows running
  | release another found finished =>
      obtain rfl := Option.some.inj (held.symm.trans found)
      have released :=
        Serializes.release inv held logged enters runs shows finished
      rw [← List.append_nil (earlier ++ calls)] at released
      exact released
  | failed assertion another found fails =>
      exact absurd fails (inv.held another found).no_failure
  | reach listed pending =>
      rw [State.reach_eq]
      rw [← List.append_nil calls] at runs
      refine .moves held rfl (logged.mono fun _ => ?_) enters runs phase
        ⟨shows.generated, shows.listed⟩
      simp [pending]

/-- A step towards a free lock keeps what was done in order. -/
theorem Serializes.free_step
    {past : Summary}
    {event : Event ι}
    (exits : type.sequentializer = .exit)
    (enlisted : state.Enlisted past)
    (unheld : state.holder = none)
    (logged : Logged tolerance type history ended static state.exit)
    (phase : static.phase = state.phase)
    (shows : Shows static state)
    (effect : State.Effect tolerance state event after) :
    Serializes tolerance type (ended ++ event.ended.toList) after := by
  have kept : ended ++ [] = ended := List.append_nil ended
  cases effect with
  | acquire actor access task code free enters =>
      have other := Access.enter_task enters
      rw [← phase] at enters
      obtain ⟨enter, linear⟩ := Enters.of_access exits enters
      have runs :
          Runs static code [] static
            ⟨actor, task, state.phase, code, false⟩ :=
        .begin ⟨actor, task, state.phase, code, false⟩ linear rfl phase.symm
      refine .held rfl logged ?_ runs rfl phase
        ⟨shows.generated, shows.listed⟩
      simpa [other] using enter
  | resume actor waiting free =>
      have moved : state.exit ≠ .returned := by simp [waiting]
      unfold State.resume
      split
      case isTrue initialized =>
        rw [← phase] at initialized
        have runs :
            Runs static (finalizeCallback state.phase) [] static
              ⟨actor, .finalize, state.phase, finalizeCallback state.phase,
                false⟩ :=
          .begin
            ⟨actor, .finalize, state.phase, finalizeCallback state.phase,
              false⟩
            (finalizeCallback_linear state.phase) rfl phase.symm
        have listed : static.listed = true :=
          shows.listed.trans (enlisted.reached (by simp [waiting]))
        refine .held rfl (logged.mono fun _ => moved) ?_ runs rfl phase
          ⟨shows.generated, shows.listed⟩
        rw [← phase]
        simpa using Enters.finalize exits initialized listed
      case isFalse =>
        refine .free unheld (kept.symm ▸ logged.mono fun _ => moved) phase
          ⟨shows.generated, shows.listed⟩
  | reach listed pending =>
      have moved : state.exit ≠ .returned := by simp [pending]
      rw [State.reach_eq]
      exact .free unheld (kept.symm ▸ logged.mono fun _ => moved) phase
        ⟨shows.generated, shows.listed⟩
  | call user another next found => cases unheld.symm.trans found
  | returned user value another next found => cases unheld.symm.trans found
  | setPhase another next found => cases unheld.symm.trans found
  | panicked user another found => cases unheld.symm.trans found
  | release another found => cases unheld.symm.trans found
  | failed assertion another found => cases unheld.symm.trans found

variable [DecidableEq ι]

/-- A step of a thread keeps what was done in order. -/
theorem Serializes.step
    {past : Summary}
    {event : Event ι}
    (exits : type.sequentializer = .exit)
    (inv : State.Inv tolerance past state)
    (enlisted : state.Enlisted past)
    (serializes : Serializes tolerance type ended state)
    (step : State.Step tolerance state event after) :
    Serializes tolerance type (ended ++ event.ended.toList) after := by
  have effect := State.effect_of_step step
  cases serializes with
  | free unheld logged phase shows =>
      exact .free_step exits enlisted unheld logged phase shows effect
  | held held logged enters runs same phase shows =>
      rw [same]
      exact .holder_step inv held logged enters runs phase shows effect

/-- What the threads did in a run, done one after the other. -/
theorem Serializes.of_run
    {events : List (Event ι)}
    (exits : type.sequentializer = .exit)
    (run : Run (State.Step tolerance) (State.fresh ι) events state) :
    Serializes tolerance type (events.filterMap Event.ended) state := by
  induction run with
  | refl => exact .free rfl ⟨.nil, Nat.zero_le 1, fun _ => rfl⟩ rfl ⟨rfl, rfl⟩
  | snoc event earlier last inductionHypothesis =>
      have serializes :=
        inductionHypothesis.step exits (State.Inv.of_run earlier)
          (State.Enlisted.of_run earlier) last
      rw [List.filterMap_append]
      cases ends : event.ended with
      | none =>
          rw [ends] at serializes
          rw [List.filterMap_cons_none ends]
          exact serializes
      | some ended =>
          rw [ends] at serializes
          rw [List.filterMap_cons_some ends]
          exact serializes

end Steps

end Lazily

end StaticInit
