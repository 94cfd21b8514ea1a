import StaticInit.LazySequentializer.Serial

namespace StaticInit.Lazily

/-!
# What threads do with a static is what its accessors do

Besides `Serializes` the converse holds: an access or an exit callback that is
run at once is a schedule of one thread.  So the two levels of the model have
the same histories.
-/

open Accessor (Serial)

variable {ι : Type} [DecidableEq ι] {tolerance : GeneratorTolerance}

namespace State

/-- The threads may end some calls and leave a static, with a free lock. -/
def Reaches
    (tolerance : GeneratorTolerance)
    (state : State ι)
    (calls : List EndedCall)
    (last : Static)
    (exit : ExitStage) : Prop :=
  ∃ events after,
    Run (Step tolerance) state events after ∧
      events.filterMap Event.ended = calls ∧
        after.holder = none ∧
          after.phase = last.phase ∧ Shows last after ∧ after.exit = exit

variable {state after : State ι} {calls : List EndedCall} {last : Static}
  {exit : ExitStage}

/-- Nothing has to happen. -/
theorem Reaches.refl
    (unheld : state.holder = none)
    (phase : state.phase = last.phase)
    (shows : Shows last state) :
    state.Reaches tolerance [] last state.exit :=
  ⟨[], state, .refl, rfl, unheld, phase, shows, rfl⟩

theorem Reaches.cons
    {event : Event ι}
    (step : Step tolerance state event after)
    (later : after.Reaches tolerance calls last exit) :
    state.Reaches tolerance (event.ended.toList ++ calls) last exit := by
  obtain ⟨events, final, run, rfl, rest⟩ := later
  refine ⟨event :: events, final, .cons step run, ?_, rest⟩
  cases ends : event.ended with
  | none => rw [List.filterMap_cons_none ends, Option.toList_none,
      List.nil_append]
  | some ended => rw [List.filterMap_cons_some ends, Option.toList_some,
      List.singleton_append]

/-- A guard is given back. -/
theorem Reaches.publish
    {event : Event ι}
    {holder : Holder ι}
    (step : Step tolerance state event (state.publish holder))
    (guard : holder.guard = last.phase)
    (shows : Shows last state) :
    state.Reaches tolerance event.ended.toList last
      (if holder.task = .finalize then .returned else state.exit) := by
  have done :
      (state.publish holder).Reaches tolerance [] last
        (state.publish holder).exit :=
    .refl rfl guard ⟨shows.generated, shows.listed⟩
  simpa [State.publish] using Reaches.cons step done

/-- A thread runs the rest of its program, and its calls end as they will. -/
theorem reaches_of_code
    {actor : ι}
    {task : Task}
    {code : GuardCode}
    {current : Static}
    (outcomes : Outcomes)
    (held :
      state.holder = some ⟨actor, task, current.phase, code, false⟩)
    (shows : Shows current state) :
    state.Reaches tolerance (code.endedCalls outcomes)
      (code.execute outcomes current).1
      (if task = .finalize then .returned else state.exit) := by
  have owns := State.heldBy_of_holder held actor
  rw [if_pos rfl] at owns
  induction code generalizing state current with
  | done =>
      have step :
          Step tolerance state (.release actor)
            (state.publish ⟨actor, task, current.phase, .done, false⟩) := by
        simp [Step, exec, owns, Holder.isDone]
      exact .publish step rfl shows
  | failed assertion =>
      have step :
          Step tolerance state (.failed actor assertion)
            (state.publish
              ⟨actor, task, current.phase, .failed assertion, false⟩) := by
        simp [Step, exec, owns, Holder.fails]
      exact .publish step rfl shows
  | setPhase phase next inductionHypothesis =>
      let set : State ι :=
        { state with holder := some ⟨actor, task, phase, next, false⟩ }
      have step : Step tolerance state (.setPhase actor) set := by
        simp [Step, exec, owns, Holder.setPhase, set]
      have sets : Shows (current.setPhase phase) set :=
        ⟨shows.generated, shows.listed⟩
      have later : set.Reaches tolerance _ _ _ :=
        inductionHypothesis rfl sets
          ((heldBy_of_holder rfl actor).trans (if_pos rfl))
      exact .cons step later
  | transition call onSuccess onPanic next inductionHypothesis =>
      let started : Holder ι :=
        ⟨actor, task, onPanic, .transition call onSuccess onPanic next, true⟩
      let calls : State ι := { state with holder := some started }
      have step : Step tolerance state (.call actor call) calls := by
        simp [Step, exec, owns, Holder.start, calls, started]
      have calling : calls.heldBy actor = some started :=
        (heldBy_of_holder rfl actor).trans (if_pos rfl)
      cases outcome : outcomes call with
      | returned value =>
          let returned : State ι :=
            { state with
              holder := some ⟨actor, task, onSuccess, next value, false⟩
              written := state.written || call = .init
              listed := state.listed || (call = .reg && value) }
          have finish :
              Step tolerance calls (.returned actor call value) returned := by
            simp [Step, exec, calling, Holder.finish, calls, started, returned]
          have later : returned.Reaches tolerance _ _ _ :=
            inductionHypothesis value rfl shows.returned
              ((heldBy_of_holder rfl actor).trans (if_pos rfl))
          simp only [GuardCode.endedCalls, GuardCode.execute, outcome]
          exact .cons step (.cons finish later)
      | panicked =>
          have panics :
              Step tolerance calls (.panicked actor call)
                (calls.publish started) := by
            simp [Step, exec, calling, Holder.isCalling, started]
          have shown :
              Shows ((current.panicked call).setPhase onPanic) calls := by
            cases call with
            | _ => exact ⟨shows.generated, shows.listed⟩
          simp only [GuardCode.endedCalls, GuardCode.execute, outcome]
          exact .cons step (.publish panics rfl shown)

variable {type : LazyType} {static following : Static}
  {event : Accessor.Event}

/-- A thread initializes the static at once. -/
theorem reaches_of_init
    (actor : ι)
    (outcomes : Outcomes)
    (unheld : state.holder = none)
    (phase : static.phase = state.phase)
    (shows : Shows static state)
    (shallInit : tolerance.shallInit static.phase = true) :
    state.Reaches tolerance
      ((lazyInitialization tolerance static.phase).endedCalls outcomes)
      ((lazyInitialization tolerance static.phase).execute outcomes static).1
      state.exit := by
  let taken : State ι :=
    { state with
      holder :=
        some
          ⟨actor, .initializing, static.phase,
            lazyInitialization tolerance static.phase, false⟩ }
  have step : Step tolerance state (.acquire actor .init) taken := by
    rw [phase] at shallInit
    simp [Step, exec, unheld, Access.enter, shallInit, phase, taken]
  have takes : Shows static taken := ⟨shows.generated, shows.listed⟩
  have later : taken.Reaches tolerance _ _ _ :=
    reaches_of_code outcomes rfl takes
  exact .cons step later

/-- The exit callback finalizes the static at once. -/
theorem reaches_of_finalize
    (actor : ι)
    (outcomes : Outcomes)
    (unheld : state.holder = none)
    (phase : static.phase = state.phase)
    (shows : Shows static state)
    (pending : state.exit = .pending)
    (listed : state.listed = true) :
    state.Reaches tolerance
      (Accessor.Event.endedCalls tolerance type static (.finalize outcomes))
      (static.finalizeCallback outcomes) .returned := by
  have reach : Step tolerance state .reach state.reach := by
    simp [Step, exec, pending, listed]
  by_cases initialized : static.phase.intersects .initialized = true
  · let taken : State ι :=
      { state with
        holder :=
          some
            ⟨actor, .finalize, static.phase, finalizeCallback static.phase,
              false⟩
        exit := .finalizing }
    have resume : Step tolerance state.reach (.resume actor) taken := by
      have reached : state.reach = { state with exit := .waiting } := by
        rw [reach_eq, ← phase, initialized]
        rfl
      simp [Step, exec, reached, unheld, State.resume, ← phase, initialized,
        taken]
    have takes : Shows static taken := ⟨shows.generated, shows.listed⟩
    have later : taken.Reaches tolerance _ _ _ :=
      reaches_of_code outcomes rfl takes
    rw [Static.finalizeCallback, if_pos initialized, Accessor.Event.endedCalls,
      if_pos initialized]
    exact .cons reach (.cons resume later)
  · have reached : state.reach = { state with exit := .returned } := by
      rw [reach_eq, ← phase, if_neg initialized]
    rw [Static.finalizeCallback, if_neg initialized, Accessor.Event.endedCalls,
      if_neg initialized]
    rw [reached] at reach
    exact .cons reach (.refl unheld phase.symm ⟨shows.generated, shows.listed⟩)

/-- An accessor or the exit callback is one thread's doing. -/
theorem reaches_of_step
    (actor : ι)
    (exits : type.sequentializer = .exit)
    (unheld : state.holder = none)
    (phase : static.phase = state.phase)
    (shows : Shows static state)
    (step : Accessor.Step tolerance type static event following)
    (pending : event.isFinalize = true → state.exit = .pending)
    (listed : event.isFinalize = true → static.listed = true) :
    state.Reaches tolerance
      (event.endedCalls tolerance type static) following
      (if event.isFinalize then .returned else state.exit) := by
  cases event with
  | finalize outcomes =>
      obtain ⟨-, rfl⟩ := step
      exact reaches_of_finalize actor outcomes unheld phase shows
        (pending rfl) (shows.listed.symm.trans (listed rfl))
  | access accessor busy outcomes result =>
      obtain ⟨rfl, none⟩ | ⟨shallInit, rfl, ends⟩ :=
        Accessor.access_cases exits step
      · rw [none]
        exact .refl unheld phase.symm shows
      · rw [ends]
        exact reaches_of_init actor outcomes unheld phase shows shallInit

/-- What is done in order may be done by one thread. -/
theorem reaches_of_serial
    {history : List Accessor.Event}
    (actor : ι)
    (exits : type.sequentializer = .exit)
    (serial : Serial tolerance type history calls static)
    (once : history.countP Accessor.Event.isFinalize ≤ 1) :
    (State.fresh ι).Reaches tolerance calls static
      (if history.countP Accessor.Event.isFinalize = 0 then
        .pending
      else
        .returned) := by
  induction serial with
  | nil => exact .refl rfl rfl ⟨rfl, rfl⟩
  | @snoc history ended static after event earlier step registered
      inductionHypothesis =>
      rw [List.countP_append, List.countP_singleton] at once ⊢
      obtain ⟨events, middle, run, rfl, unheld, phase, shows, exit⟩ :=
        inductionHypothesis (Nat.le_of_add_right_le once)
      have pending : event.isFinalize = true → middle.exit = .pending := by
        intro finalizes
        rw [exit, if_pos]
        rw [if_pos finalizes] at once
        omega
      obtain ⟨more, final, rest, ends, free, last, leaves, stage⟩ :=
        reaches_of_step actor exits unheld phase.symm shows step pending
          registered
      refine ⟨events ++ more, final, run.append rest, ?_, free, last, leaves,
        ?_⟩
      · rw [List.filterMap_append, ends]
      rw [stage, exit]
      cases event.isFinalize with
      | true => simp
      | false => simp

end State

/--
The threads that share a finalizable static have the histories of its
accessors: which calls of user code end, in which order and how, and which
phase, slot and register are left, is the same whether the threads interleave
or take turns.
-/
theorem serializable_iff
    {type : LazyType}
    (actor : ι)
    (exits : type.sequentializer = .exit)
    (ended : List EndedCall)
    (phase : Phase)
    (generated listed : Bool) :
    (∃ events, ∃ state : State ι,
      Run (State.Step tolerance) (State.fresh ι) events state ∧
        state.holder = none ∧
          events.filterMap Event.ended = ended ∧
            state.phase = phase ∧
              state.written = generated ∧ state.listed = listed) ↔
      ∃ history static,
        Serial tolerance type history ended static ∧
          history.countP Accessor.Event.isFinalize ≤ 1 ∧
            static.phase = phase ∧
              static.generated = generated ∧ static.listed = listed := by
  constructor
  · rintro ⟨events, state, run, unheld, rfl, rfl, rfl, rfl⟩
    cases Serializes.of_run exits run with
    | free _ logged phase shows =>
        exact ⟨_, _, logged.serial, logged.once, phase, shows.generated,
          shows.listed⟩
    | held held => cases unheld.symm.trans held
  · rintro ⟨history, static, serial, once, rfl, rfl, rfl⟩
    obtain ⟨events, state, run, same, unheld, phase, shows, -⟩ :=
      State.reaches_of_serial actor exits serial once
    exact ⟨events, state, run, unheld, same, phase, shows.generated.symm,
      shows.listed.symm⟩

/-- The generator panics in the first access, and the static is finalized. -/
theorem serializable_retried :
    ∃ history static,
      Serial ⟨true, false⟩ .lazyFinalize history
          [(.reg, .returned true), (.init, .panicked),
            (.init, .returned true), (.finalize, .returned true)]
          static ∧
        history.countP Accessor.Event.isFinalize ≤ 1 ∧
          static.phase = .registered ||| .initialized ||| .finalized ∧
            static.generated = true ∧
              static.listed = true := by
  have run :
      Run (State.Step ⟨true, false⟩) (State.fresh (Fin 2))
        [.acquire 0 .init, .call 0 .reg, .returned 0 .reg true,
          .call 0 .init, .panicked 0 .init,
          .acquire 1 .tryInitThenReadGuard, .call 1 .init,
          .returned 1 .init true, .release 1,
          .reach, .resume 0, .call 0 .finalize,
          .returned 0 .finalize true, .release 0]
        { phase := .registered ||| .initialized ||| .finalized
          written := true
          holder := none
          listed := true
          exit := .returned } :=
    .of_runAll rfl
  exact (serializable_iff 0 rfl _ _ true true).mp
    ⟨_, _, run, rfl, rfl, rfl, rfl, rfl⟩

end StaticInit.Lazily
