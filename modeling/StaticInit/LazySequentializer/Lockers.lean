import StaticInit.LazySequentializer.Registration
import StaticInit.LazySequentializer.Serial
import StaticInit.LazySequentializer.Serialization
import StaticInit.PhaseLocker.Spinning.Atomicity
import StaticInit.PhaseLocker.Sync.Atomicity

namespace StaticInit.Lazily

open Sync (ReadLock)

/-!
# A static over the word of its locker

The actors of a static with `SyncPhaseLocker` or with the spinning locker,
where every atomic instruction on the word is a step of its own.  Through the
atomic locker they refine the serialized static, so what user code sees of
them is initialized and finalized once.
-/

section Traces

variable {ι : Type} {event shown : Event ι}

/-- An event is seen as it is. -/
theorem Event.eq_of_visible
    (sees : event.visible = some shown) :
    event = shown := by
  cases event with
  | call => exact Option.some.inj sees
  | returned => exact Option.some.inj sees
  | _ => cases sees

/-- What is not seen does not count. -/
theorem Summary.add_hidden
    {past : Summary}
    (hidden : event.visible = none) :
    past.add event = past := by
  cases event with
  | call => cases hidden
  | returned => cases hidden
  | _ => rfl

/-- A history and what is seen of it have one summary. -/
theorem summary_filterMap (events : List (Event ι)) :
    summary (events.filterMap Event.visible) = summary events := by
  unfold summary
  generalize ({} : Summary) = past
  induction events generalizing past with
  | nil => rfl
  | cons event events inductionHypothesis =>
      cases sees : event.visible with
      | none =>
          rw [List.filterMap_cons_none sees, List.foldl_cons,
            Summary.add_hidden sees]
          exact inductionHypothesis past
      | some shown =>
          rw [List.filterMap_cons_some sees, List.foldl_cons,
            List.foldl_cons, Event.eq_of_visible sees]
          exact inductionHypothesis _

/-- What is seen at a moment stands in the history. -/
theorem exists_of_filterMap
    {events earlier later : List (Event ι)}
    (same :
      events.filterMap Event.visible = earlier ++ event :: later) :
    ∃ before after,
      events = before ++ event :: after ∧
        before.filterMap Event.visible = earlier := by
  obtain ⟨before, rest, rfl, seen, tail⟩ :=
    List.filterMap_eq_append_iff.mp same
  obtain ⟨hidden, found, after, rfl, unseen, sees, -⟩ :=
    List.filterMap_eq_cons_iff.mp tail
  obtain rfl := Event.eq_of_visible sees
  refine ⟨before ++ hidden, after, (List.append_assoc ..).symm, ?_⟩
  rw [List.filterMap_append, seen, List.filterMap_eq_nil_iff.mpr unseen,
    List.append_nil]

end Traces

/-- The finalizer starts on an initialized phase. -/
theorem Progress.start_finalizer
    {ι : Type}
    {tolerance : GeneratorTolerance}
    {past : Summary}
    {holder after : Holder ι}
    (progress : Progress tolerance past holder)
    (starts : holder.start .finalize = some after) :
    past.completions = 1 := by
  obtain ⟨idle, onSuccess, onPanic, next, transition, -⟩ :=
    Holder.start_eq starts
  cases progress with
  | finalize _ _ _ _ settled initialized =>
      rw [settled.completed, if_pos initialized]
  | done code => cases code.symm.trans transition
  | skip _ code => cases code.symm.trans transition
  | register code =>
      cases (GuardCode.transition.inj (code.symm.trans transition)).left
  | generate _ code =>
      cases (GuardCode.transition.inj (code.symm.trans transition)).left
  | registering _ calling => cases idle.symm.trans calling
  | generating _ _ calling => cases idle.symm.trans calling
  | finalizing _ _ calling => cases idle.symm.trans calling

section Calls

variable {ι : Type} [DecidableEq ι] {tolerance : GeneratorTolerance}
  {past : Summary} {state after : State ι} {actor : ι}

/-- The generator starts after a registration that allows it, and completes once. -/
theorem State.Inv.ready_of_init
    (inv : State.Inv tolerance past state)
    (step : State.Step tolerance state (.call actor .init) after) :
    past.regCalls = 1 ∧
      past.completions = 0 ∧
        (past.accepted = true ∨ tolerance.finalRegistrationFailure = true) := by
  cases State.effect_of_step step with
  | call _ holder moved held starts =>
      obtain ⟨phase, ready⟩ := (inv.held holder held).start_init starts
      exact ⟨ready.regCalls, ready.completions,
        ready.allowed.imp_left ready.accepted.trans⟩

/-- The finalizer starts after the generator completed. -/
theorem State.Inv.completed_of_finalize
    (inv : State.Inv tolerance past state)
    (step : State.Step tolerance state (.call actor .finalize) after) :
    past.completions = 1 := by
  cases State.effect_of_step step with
  | call _ holder moved held starts =>
      exact (inv.held holder held).start_finalizer starts

/-- A call that is seen in a history is a step after the history before it. -/
theorem State.exists_call
    {call : UserCall}
    {events : List (Event ι)}
    {earlier later : List (Event ι)}
    (run : Run (State.Step tolerance) (State.fresh ι) events state)
    (same :
      events.filterMap Event.visible =
        earlier ++ .call actor call :: later) :
    ∃ before middle next,
      Run (State.Step tolerance) (State.fresh ι) before middle ∧
        State.Step tolerance middle (.call actor call) next ∧
          summary earlier = summary before := by
  obtain ⟨before, rest, rfl, rfl⟩ := exists_of_filterMap same
  obtain ⟨middle, first, second⟩ := run.split
  obtain ⟨next, step, -⟩ := second.uncons
  exact ⟨before, middle, next, first, step, summary_filterMap before⟩

end Calls

/-- What holds of the actors of a static and of what user code saw of them. -/
structure Serialized
    {ι : Type}
    (tolerance : GeneratorTolerance)
    (trace : List (Event ι))
    (client : Client ι)
    (phase : Phase)
    (readLocks : ι → List ReadLock) : Prop where
  registration : (summary trace).regCalls ≤ 1
  completion : (summary trace).completions ≤ 1
  intolerant :
    tolerance.initFailure = false → (summary trace).initCalls ≤ 1
  finalization : (summary trace).finalizeCalls ≤ 1
  /-- Whenever the generator starts. -/
  generates :
    ∀ earlier later actor,
      trace = earlier ++ .call actor .init :: later →
        (summary earlier).regCalls = 1 ∧
          (summary earlier).completions = 0 ∧
            ((summary earlier).accepted = true ∨
              tolerance.finalRegistrationFailure = true)
  /-- Whenever the finalizer starts. -/
  finalizes :
    ∀ earlier later actor,
      trace = earlier ++ .call actor .finalize :: later →
        (summary earlier).accepted = true ∧
          (summary earlier).completions = 1 ∧
            (summary earlier).finalizeCalls = 0
  /-- The word shows `INITIALIZED` only of a value that is there. -/
  initialized :
    phase.intersects .initialized = true → (summary trace).completions = 1
  registered : client.listed = (summary trace).accepted
  /-- One actor at a time is under the write guard of an access. -/
  alone :
    ∀ actor other task closing code calling task' closing' code' calling',
      client.place actor = .working task closing code calling →
        client.place other = .working task' closing' code' calling' →
          actor = other
  /-- Meanwhile a read guard that was returned shows the phase of the word. -/
  reading :
    ∀ actor guard,
      guard ∈ readLocks actor →
        guard.initPhase = phase ∧
          ∀ other task closing code calling,
            client.place other ≠ .working task closing code calling
  /-- No `unreachable_unchecked` is reached. -/
  defined : ∀ actor, client.place actor ≠ .undefined
  /-- No debug assertion of the sequentializer fails. -/
  assertions :
    ∀ actor task closing assertion calling,
      client.place actor ≠ .working task closing (.failed assertion) calling

namespace Follows

variable {ι : Type} [DecidableEq ι] {tolerance : GeneratorTolerance}

/-- A static before its first access. -/
theorem fresh (tolerance : GeneratorTolerance) :
    Follows tolerance (Client.fresh ι, Atomic.State.init ι .empty)
      (State.fresh ι) where
  known := ⟨_, State.Inv.fresh⟩
  phase := rfl
  listed := rfl
  unreached _ := rfl
  places _ := ⟨rfl, rfl, rfl⟩

/-- One actor at a time is under the write guard. -/
theorem alone
    {client : Client ι}
    {atomic : Atomic.State ι}
    {state : State ι}
    {actor other : ι}
    {task task' : Task}
    {closing closing' : Closing}
    {code code' : GuardCode}
    {calling calling' : Bool}
    (follows : Follows tolerance (client, atomic) state)
    (working : client.place actor = .working task closing code calling)
    (another : client.place other = .working task' closing' code' calling') :
    actor = other := by
  obtain ⟨-, _, -, held⟩ := follows.holds working
  obtain ⟨-, _, -, found⟩ := follows.holds another
  have first := (State.heldBy_eq held).1
  have second := (State.heldBy_eq found).1
  exact congrArg Holder.actor (Option.some.inj (first.symm.trans second))

/-- A read guard and a write guard of an access exclude each other. -/
theorem not_working
    {client : Client ι}
    {atomic : Atomic.State ι}
    {state : State ι}
    {actor other : ι}
    {task : Task}
    {closing : Closing}
    {code : GuardCode}
    {calling : Bool}
    (follows : Follows tolerance (client, atomic) state)
    (exclusive : atomic.Exclusive)
    (reads : (atomic.thread actor).readLocks ≠ []) :
    client.place other ≠ .working task closing code calling := by
  intro working
  obtain ⟨-, lock, owned, -⟩ := follows.holds working
  have owns : (atomic.thread other).aliveLocks ≠ [] := by
    simp [Atomic.Thread.aliveLocks, owned]
  have free : (atomic.thread actor).aliveReadLocks = [] := by
    by_cases same : actor = other
    · subst same
      exact (exclusive.own actor).2 owns
    · exact (exclusive.others other actor same owns).2
  rw [Atomic.Thread.aliveReadLocks, List.append_eq_nil_iff] at free
  exact reads free.2

end Follows

section Lockers

variable {ι : Type} [DecidableEq ι] {tolerance : GeneratorTolerance}
  {client : Client ι} {trace : List (Event ι)}

/-- The actors at the atomic locker are serialized. -/
theorem serialized_of_atomic
    {atomic : Atomic.State ι}
    (exec :
      Exec (Composed (Client.Step tolerance) Atomic.State.Step)
        (Client.fresh ι, Atomic.State.init ι .empty) trace
        (client, atomic)) :
    Serialized tolerance trace client atomic.phase
      fun actor => (atomic.thread actor).readLocks := by
  have guarded : atomic.Guarded :=
    exec.object_invariant (Atomic.State.Guarded.init .empty)
      Atomic.State.Guarded.step
  obtain ⟨state, answers, follows⟩ :=
    (Follows.simulates tolerance).exec (Follows.fresh tolerance) exec
  obtain ⟨events, run, rfl⟩ := answers.exists_run
  have inv := State.Inv.of_run run
  have enlisted := State.Enlisted.of_run run
  obtain ⟨registration, completion, intolerant⟩ := inv.bounded
  have seen : summary (events.filterMap Event.visible) = summary events :=
    summary_filterMap events
  constructor
  case registration => exact seen.symm ▸ registration
  case completion => exact seen.symm ▸ completion
  case intolerant => exact seen.symm ▸ intolerant
  case finalization => exact seen.symm ▸ inv.finalizedOnce
  case generates =>
    intro earlier later actor same
    obtain ⟨before, middle, next, first, step, past⟩ :=
      State.exists_call run same
    rw [past]
    exact (State.Inv.of_run first).ready_of_init step
  case finalizes =>
    intro earlier later actor same
    obtain ⟨before, middle, next, first, step, past⟩ :=
      State.exists_call run same
    rw [past]
    have known := State.Inv.of_run first
    have listed := State.Enlisted.of_run first
    obtain ⟨passing, none⟩ := known.finalizing_of_finalize step
    refine ⟨?_, known.completed_of_finalize step, none⟩
    rw [← listed.listed]
    apply listed.reached
    intro pending
    rw [pending] at passing
    cases passing
  case initialized =>
    intro initialized
    rw [seen]
    exact inv.initialized (follows.phase ▸ initialized)
  case registered =>
    rw [seen, ← enlisted.listed]
    exact follows.listed.symm
  case alone =>
    intro actor other _ _ _ _ _ _ _ _ working another
    exact follows.alone working another
  case reading =>
    intro actor guard returned
    constructor
    · exact guarded.readLocks actor _
        (List.mem_map_of_mem (List.mem_append_right _ returned))
    · intro other _ _ _ _
      exact follows.not_working guarded.exclusive
        (List.ne_nil_of_mem returned)
  case defined =>
    intro actor undefined
    exact (follows.fits undefined).2.elim
  case assertions =>
    intro actor _ _ _ _ working
    obtain ⟨-, _, -, held⟩ := follows.holds working
    exact (inv.held _ (State.heldBy_eq held).1).no_failure rfl

variable [Fintype ι]

/--
The accesses and the exit callback of a static, over the futex locker: in any
interleaving of their instructions each call of user code happens when it may.
An assertion of the locker that fails ends the run.
-/
theorem serialized_of_exec
    {backend : Sync.Backend}
    {state : Sync.State ι}
    (exec :
      Exec (Composed (Client.Step tolerance) (Sync.State.Visible backend))
        (Client.fresh ι, Sync.State.init ι .empty) trace (client, state)) :
    Serialized tolerance trace client state.phase
      fun actor => (state.thread actor).readLocks := by
  obtain ⟨⟨user, atomic⟩, answers, rfl, refines⟩ :=
    (Sync.State.simulates backend).composed.exec
      (.of_related _ (Sync.State.Refines.init .empty)) exec
  have same :
      (fun actor => (atomic.thread actor).readLocks) =
        fun actor => (state.thread actor).readLocks :=
    funext fun actor => (refines.threads actor).readLocks
  rw [← refines.phase, ← same]
  exact serialized_of_atomic answers

/-- A first access by `init`. -/
theorem exists_exec_init :
    ∃ final,
      Exec
          (Composed (Client.Step ⟨true, false⟩) (Sync.State.Visible .linux))
          (Client.fresh (Fin 2), Sync.State.init (Fin 2) .empty)
          [.call 0 .reg, .returned 0 .reg true, .call 0 .init,
            .returned 0 .init true]
          final ∧
        ∀ actor, final.1.place actor = .outside := by
  constructor
  constructor
  · apply Exec.silent
    · exact .together
        (@Client.Step.ask _ _ _ _ 0 (.access .init) rfl trivial)
        ⟨.start 0 (callOp (Request.call ⟨true, false⟩ (.access .init))),
          Sync.State.step_of_advance rfl, rfl⟩
    apply Exec.silent
    · exact .object ⟨.run 0 false, Sync.State.step_of_advance rfl, rfl⟩
    apply Exec.silent
    · exact .together (.receive rfl)
        ⟨.run 0 false, Sync.State.step_of_advance rfl, rfl⟩
    apply Exec.visible
    · exact .together (.call rfl)
        ⟨.start 0 (.setPhase 0 _), Sync.State.step_of_advance rfl, rfl⟩
    apply Exec.visible
    · exact .together (.returned true rfl)
        ⟨.start 0 (.setPhase 0 _), Sync.State.step_of_advance rfl, rfl⟩
    apply Exec.visible
    · exact .together (.call rfl)
        ⟨.start 0 (.setPhase 0 _), Sync.State.step_of_advance rfl, rfl⟩
    apply Exec.visible
    · exact .together (.returned true rfl)
        ⟨.start 0 (.setPhase 0 _), Sync.State.step_of_advance rfl, rfl⟩
    apply Exec.silent
    · exact .together (.drop rfl (by simp))
        ⟨.start 0 (.dropLock 0), Sync.State.step_of_advance rfl, rfl⟩
    apply Exec.silent
    · exact .together (.left rfl)
        ⟨.run 0 false, Sync.State.step_of_advance rfl, rfl⟩
    exact .refl
  · exact Fin.forall_fin_two.mpr ⟨rfl, rfl⟩

/-- What is known after a first access. -/
theorem serialized_of_exec_init :
    let trace : List (Event (Fin 2)) :=
      [.call 0 .reg, .returned 0 .reg true, .call 0 .init,
        .returned 0 .init true]
    ∃ client state,
      Exec (Composed (Client.Step ⟨true, false⟩) (Sync.State.Visible .linux))
          (Client.fresh (Fin 2), Sync.State.init (Fin 2) .empty) trace
          (client, state) ∧
        Serialized ⟨true, false⟩ trace client state.phase
          fun actor => (state.thread actor).readLocks := by
  intro trace
  obtain ⟨final, exec, -⟩ := exists_exec_init
  exact ⟨_, _, exec, serialized_of_exec exec⟩

/-- The same over the spinning locker. -/
theorem spinning_serialized_of_exec
    {state : Spinning.State ι}
    (exec :
      Exec (Composed (Client.Step tolerance) Spinning.State.Visible)
        (Client.fresh ι, Spinning.State.init ι .empty) trace
        (client, state)) :
    Serialized tolerance trace client state.phase
      fun actor => (state.thread actor).readLocks := by
  obtain ⟨⟨user, atomic⟩, answers, rfl, refines⟩ :=
    Spinning.State.simulates.composed.exec
      (.of_related _ (Spinning.State.Refines.init .empty)) exec
  have same :
      (fun actor => (atomic.thread actor).readLocks) =
        fun actor => (state.thread actor).readLocks :=
    funext fun actor => (refines.threads actor).readLocks
  rw [← refines.phase, ← same]
  exact serialized_of_atomic answers

/-- The generator panics, another actor retries and keeps a read guard. -/
theorem spinning_serialized_of_exec_retried :
    let trace : List (Event (Fin 2)) :=
      [.call 0 .reg, .returned 0 .reg false, .call 0 .init, .call 1 .init,
        .returned 1 .init true]
    ∃ client state,
      Exec (Composed (Client.Step ⟨true, true⟩) Spinning.State.Visible)
          (Client.fresh (Fin 2), Spinning.State.init (Fin 2) .empty) trace
          (client, state) ∧
        Serialized ⟨true, true⟩ trace client state.phase
          fun actor => (state.thread actor).readLocks := by
  intro trace
  obtain ⟨final, exec⟩ :
      ∃ final,
        Exec
          (Composed (Client.Step ⟨true, true⟩) Spinning.State.Visible)
          (Client.fresh (Fin 2), Spinning.State.init (Fin 2) .empty) trace
          final := by
    constructor
    · apply Exec.silent
      · exact .together
          (@Client.Step.ask _ _ _ _ 0 (.access .initThenWriteGuard) rfl
            trivial)
          ⟨.start 0
              (callOp
                (Request.call ⟨true, true⟩ (.access .initThenWriteGuard))),
            Spinning.State.step_of_advance rfl, rfl⟩
      apply Exec.silent
      · exact .object ⟨.run 0 false, Spinning.State.step_of_advance rfl, rfl⟩
      apply Exec.silent
      · exact .together (.receive rfl)
          ⟨.run 0 false, Spinning.State.step_of_advance rfl, rfl⟩
      apply Exec.visible
      · exact .together (.call rfl)
          ⟨.start 0 (.setPhase 0 _), Spinning.State.step_of_advance rfl, rfl⟩
      apply Exec.visible
      · exact .together (.returned false rfl)
          ⟨.start 0 (.setPhase 0 _), Spinning.State.step_of_advance rfl, rfl⟩
      apply Exec.visible
      · exact .together (.call rfl)
          ⟨.start 0 (.setPhase 0 _), Spinning.State.step_of_advance rfl, rfl⟩
      apply Exec.silent
      · exact .together (.panicked rfl)
          ⟨.start 0 (.dropLock 0), Spinning.State.step_of_advance rfl, rfl⟩
      apply Exec.silent
      · exact .together (.left rfl)
          ⟨.run 0 false, Spinning.State.step_of_advance rfl, rfl⟩
      apply Exec.silent
      · exact .together
          (@Client.Step.ask _ _ _ _ 1 (.access .tryInitThenReadGuard) rfl
            trivial)
          ⟨.start 1
              (callOp
                (Request.call ⟨true, true⟩ (.access .tryInitThenReadGuard))),
            Spinning.State.step_of_advance rfl, rfl⟩
      apply Exec.silent
      · exact .object ⟨.run 1 false, Spinning.State.step_of_advance rfl, rfl⟩
      apply Exec.silent
      · exact .together (.receive rfl)
          ⟨.run 1 false, Spinning.State.step_of_advance rfl, rfl⟩
      apply Exec.visible
      · exact .together (.call rfl)
          ⟨.start 1 (.setPhase 0 _), Spinning.State.step_of_advance rfl, rfl⟩
      apply Exec.visible
      · exact .together (.returned true rfl)
          ⟨.start 1 (.setPhase 0 _), Spinning.State.step_of_advance rfl, rfl⟩
      apply Exec.silent
      · exact .together (.convert rfl (by simp))
          ⟨.start 1 (.convert 0), Spinning.State.step_of_advance rfl, rfl⟩
      apply Exec.silent
      · exact .together (.left rfl)
          ⟨.run 1 false, Spinning.State.step_of_advance rfl, rfl⟩
      exact .refl
  exact ⟨_, _, exec, spinning_serialized_of_exec exec⟩

end Lockers

end StaticInit.Lazily
