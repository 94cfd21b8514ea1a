import StaticInit.Batches

namespace StaticInit.Cxa

/-!
# Thread exit with `__cxa_thread_atexit_impl`

Each thread has its own register of statics.  The first static that registers
while the register is empty has `execute_destroy` called at thread exit, unless
`execute_destroy` is already running.  Callbacks are called when the thread
exits, the last registered first; the code of finalizers and of other callbacks
may register more of both.
-/

/-- What was registered with `__cxa_thread_atexit_impl`. -/
inductive Callback where
  | executeDestroy
  /-- A callback of other code. -/
  | other
  deriving DecidableEq, Repr

/-- What a thread is doing. -/
inductive Stage (ν : Type) where
  /-- It runs its own code. -/
  | alive
  /-- It exits, and no callback runs. -/
  | exiting
  /-- It exits, and a callback of other code runs. -/
  | other
  /-- At the head of the loop of `execute_destroy`, with its variable `o_r`. -/
  | loop (o_r : Option ν)
  /-- Inside the call of `execute`. -/
  | executing (r : ν)
  /-- In the closure of `or_else`. -/
  | orElse
  deriving DecidableEq

/-- The statics are nodes; each keeps its `next` link itself. -/
structure State (ν : Type) where
  register : Option ν
  destroying : Bool
  next : ν → Option ν
  callbacks : List Callback
  stage : Stage ν

/-- A thread that has just started. -/
def State.fresh (ν : Type) : State ν where
  register := none
  destroying := false
  next := fun _ => none
  callbacks := []
  stage := .alive

/-- What happens: other code makes a call, or the thread exits step by step. -/
inductive Event (ν : Type) where
  | finalizeAtThreadExit (node : ν) (accepted : Bool)
  /-- Other code registers a callback. -/
  | atThreadExit
  | exit
  | call (callback : Callback)
  /-- A callback of other code returns. -/
  | returned
  | execute (node : ν)
  | takeNext
  | orElse
  | finished
  deriving DecidableEq

/-- Code that may make calls: the thread's own, other callbacks and finalizers. -/
def Stage.runsCode {ν : Type} : Stage ν → Bool
  | .alive => true
  | .other => true
  | .executing _ => true
  | _ => false

/-- `execute_destroy` is running. -/
def Stage.walks {ν : Type} : Stage ν → Bool
  | .loop _ => true
  | .executing _ => true
  | .orElse => true
  | _ => false

section Steps

variable {ν : Type} [DecidableEq ν]

/-- `finalize_at_thread_exit`. -/
def State.finalizeAtThreadExit
    (state : State ν)
    (st : ν) : State ν × Bool :=
  match state.register with
  | some old =>
      ({ state with
          next := Function.update state.next st (some old)
          register := some st },
        true)
  | none =>
      if state.destroying then
        ({ state with register := some st }, true)
      else
        ({ state with
            callbacks := .executeDestroy :: state.callbacks
            register := some st },
          true)

/-- The next step of the exit of the thread. -/
def State.advance (state : State ν) : Option (State ν × Event ν) :=
  match state.stage with
  | .alive => some ({ state with stage := .exiting }, .exit)
  | .exiting =>
      match state.callbacks with
      | [] => none
      | .executeDestroy :: callbacks =>
          some
            ({ state with
                callbacks := callbacks
                destroying := true
                register := none
                stage := .loop state.register },
              .call .executeDestroy)
      | .other :: callbacks =>
          some
            ({ state with callbacks := callbacks, stage := .other },
              .call .other)
  | .other => some ({ state with stage := .exiting }, .returned)
  | .loop (some r) => some ({ state with stage := .executing r }, .execute r)
  | .loop none =>
      some ({ state with destroying := false, stage := .exiting }, .finished)
  | .executing r =>
      match state.next r with
      | some next =>
          some
            ({ state with
                next := Function.update state.next r none
                stage := .loop (some next) },
              .takeNext)
      | none => some ({ state with stage := .orElse }, .takeNext)
  | .orElse =>
      some
        ({ state with register := none, stage := .loop state.register },
          .orElse)

/-- Perform an event, if it may happen now. -/
def State.exec (state : State ν) (event : Event ν) : Option (State ν) :=
  match event with
  | .finalizeAtThreadExit node accepted =>
      if
          state.stage.runsCode ∧
            (state.finalizeAtThreadExit node).2 = accepted then
        some (state.finalizeAtThreadExit node).1
      else
        none
  | .atThreadExit =>
      if state.stage.runsCode then
        some { state with callbacks := .other :: state.callbacks }
      else
        none
  | event =>
      match state.advance with
      | some (after, happened) => if happened = event then some after else none
      | none => none

/-- One step, labelled by what happens. -/
def Step (state : State ν) (event : Event ν) (after : State ν) : Prop :=
  state.exec event = some after

end Steps

/-- The thread has called every callback. -/
def State.ended {ν : Type} (state : State ν) : Prop :=
  state.stage = .exiting ∧ state.callbacks = []

section Histories

variable {ν : Type}

/-- What an event does to the register. -/
def Event.effect : Event ν → Effect ν
  | .finalizeAtThreadExit node accepted => .called node accepted
  | .call .executeDestroy => .detached
  | .execute node => .executed node
  | .orElse => .detached
  | _ => .silent

/-- An event that the exit of the thread brings about. -/
def Event.isExit : Event ν → Bool
  | .finalizeAtThreadExit _ _ => false
  | .atThreadExit => false
  | _ => true

/-- The statics for which `finalize_at_thread_exit` was called. -/
def calledNodes (events : List (Event ν)) : List ν :=
  Effect.calledNodes (events.map Event.effect)

/-- The executed statics. -/
def executedNodes (events : List (Event ν)) : List ν :=
  Effect.executedNodes (events.map Event.effect)

/-- How many steps the exit of the thread took. -/
def exitSteps (events : List (Event ν)) : Nat :=
  events.countP Event.isExit

/-- How many callbacks other code registered. -/
def otherCallbacks [DecidableEq ν] (events : List (Event ν)) : Nat :=
  events.count .atThreadExit

end Histories

section Events

variable {ν : Type} [DecidableEq ν] {state after : State ν}

/-- A call of `finalize_at_thread_exit` returns true. -/
theorem step_finalizeAtThreadExit
    {node : ν}
    {accepted : Bool}
    (step : Step state (.finalizeAtThreadExit node accepted) after) :
    state.stage.runsCode = true ∧ accepted = true ∧
      after = (state.finalizeAtThreadExit node).1 := by
  unfold Step State.exec at step
  dsimp only at step
  split at step
  case isTrue calls =>
    refine ⟨calls.1, ?_, (Option.some.inj step).symm⟩
    rw [← calls.2]
    unfold State.finalizeAtThreadExit
    split
    case h_1 => rfl
    case h_2 =>
      split
      case isTrue => rfl
      case isFalse => rfl
  case isFalse => cases step

theorem step_atThreadExit
    (step : Step state .atThreadExit after) :
    state.stage.runsCode = true ∧
      after = { state with callbacks := .other :: state.callbacks } := by
  unfold Step State.exec at step
  dsimp only at step
  split at step
  case isTrue runs => exact ⟨runs, (Option.some.inj step).symm⟩
  case isFalse => cases step

/-- Every other event is the next step of the exit. -/
theorem step_exit_iff
    {event : Event ν}
    (exits : event.isExit = true) :
    Step state event after ↔ state.advance = some (after, event) := by
  have same :
      Step state event after ↔
        (match state.advance with
          | some (next, happened) =>
              if happened = event then some next else none
          | none => none) = some after := by
    cases event with
    | finalizeAtThreadExit node accepted => cases exits
    | atThreadExit => cases exits
    | _ => rfl
  rw [same]
  cases state.advance with
  | none => simp
  | some happened =>
      obtain ⟨next, event'⟩ := happened
      simp [Prod.ext_iff, and_comm]

/-- The exit of the thread makes steps that are its own. -/
theorem advance_isExit
    {event : Event ν}
    (advances : state.advance = some (after, event)) :
    event.isExit = true := by
  unfold State.advance at advances
  split at advances
  case h_2 =>
    split at advances
    case h_1 => cases advances
    all_goals cases advances; rfl
  case h_6 =>
    split at advances
    all_goals cases advances; rfl
  all_goals cases advances; rfl

end Events

section Histories

variable {ν : Type} (events : List (Event ν)) {event : Event ν}

theorem effects_snoc (event : Event ν) :
    (events ++ [event]).map Event.effect =
      events.map Event.effect ++ [event.effect] :=
  List.map_append

theorem exitSteps_exit (exits : event.isExit = true) :
    exitSteps (events ++ [event]) = exitSteps events + 1 := by
  simp [exitSteps, exits]

theorem exitSteps_call (calls : event.isExit = false) :
    exitSteps (events ++ [event]) = exitSteps events := by
  simp [exitSteps, calls]

/-- The exit of the thread calls nothing. -/
theorem effect_exit (exits : event.isExit = true) :
    event.effect.isCall = false := by
  cases event with
  | finalizeAtThreadExit node accepted => cases exits
  | call callback => cases callback <;> rfl
  | _ => rfl

theorem otherCallbacks_exit
    [DecidableEq ν]
    (exits : event.isExit = true) :
    otherCallbacks (events ++ [event]) = otherCallbacks events := by
  have different : event ≠ .atThreadExit := by
    rintro rfl
    cases exits
  simp [otherCallbacks, different]

end Histories

/-- What the thread-exit list promises at some point of a history. -/
structure Correct
    {ν : Type}
    [DecidableEq ν]
    (events : List (Event ν))
    (state : State ν) : Prop where
  once : (executedNodes events).Nodup
  onlyCalled : ∀ node ∈ executedNodes events, node ∈ calledNodes events
  allCalled : state.ended → ∀ node ∈ calledNodes events, node ∈ executedNodes events
  pending :
    state.register ≠ none →
      state.destroying = false →
        state.callbacks.count .executeDestroy = 1
  /-- The statics are executed in batches, of which no pass leaves anything. -/
  ordered :
    ∃ batches,
      Batches.Ran (events.map Event.effect) batches ∧
        (state.stage.walks = false → batches.chain = []) ∧
        (state.register = none → batches.waiting = [])
  proceeds : ¬state.ended → ∃ event after, event.isExit = true ∧ Step state event after
  terminates :
    exitSteps events ≤
      1 + 2 * otherCallbacks events + 5 * (calledNodes events).length

/-- Where the chain that is being executed goes on. -/
def State.head {ν : Type} (state : State ν) : Option ν :=
  match state.stage with
  | .loop o_r => o_r
  | .executing r => state.next r
  | _ => none

/-- How many steps a stage takes at most, but for the nodes. -/
def Stage.fuel {ν : Type} : Stage ν → Nat
  | .alive => 1
  | .exiting => 0
  | .other => 1
  | .loop _ => 1
  | .executing _ => 3
  | .orElse => 2

/-- The register of a thread follows the batches. -/
structure Inv
    {ν : Type}
    [DecidableEq ν]
    (events : List (Event ν))
    (state : State ν)
    (batches : Batches ν) : Prop where
  follows :
    Follows (events.map Event.effect) state.next state.register state.head
      batches
  accepted :
    Effect.acceptedNodes (events.map Event.effect) = calledNodes events
  kept : batches.lost = []
  /-- `DESTROYING` is set exactly during `execute_destroy`. -/
  destroying : state.destroying = state.stage.walks
  pending :
    state.callbacks.count .executeDestroy =
      if state.register ≠ none ∧ state.destroying = false then 1 else 0
  emptied : state.stage = .loop none → state.register = none
  executed :
    ∀ r, state.stage = .executing r → r ∈ executedNodes events
  fuel :
    exitSteps events +
        (2 * state.callbacks.length +
          3 * (batches.chain.length + batches.waiting.length) +
            state.stage.fuel) ≤
      1 + 2 * otherCallbacks events + 5 * (calledNodes events).length

namespace Inv

variable
  {ν : Type} [DecidableEq ν] {events : List (Event ν)}
  {state after : State ν} {batches : Batches ν} {event : Event ν}

/-- The invariant keeps the promises of the list. -/
theorem correct
    (inv : Inv events state batches)
    (distinct : (calledNodes events).Nodup) :
    Correct events state := by
  have ran := inv.follows.ran
  have accepted := inv.accepted
  have waits : state.register = none → batches.waiting = [] := by
    intro empty
    have chain := inv.follows.waiting
    rw [empty] at chain
    exact Chain.none_iff.mp chain
  have ends : state.stage.walks = false → batches.chain = [] := by
    intro still
    have chain := inv.follows.chain
    have headless : state.head = none := by
      unfold State.head
      cases place : state.stage with
      | loop o_r =>
          rw [place] at still
          cases still
      | executing r =>
          rw [place] at still
          cases still
      | _ => rfl
    rw [headless] at chain
    exact Chain.none_iff.mp chain
  constructor
  case once => exact ran.once distinct
  case onlyCalled =>
    intro node executed
    rw [← accepted]
    exact ran.accepted executed
  case allCalled =>
    rintro ⟨exiting, none⟩ node called
    have still : state.stage.walks = false := by
      rw [exiting]
      rfl
    have empty : state.register = Option.none := by
      by_contra some
      have pending := inv.pending
      rw [if_pos ⟨some, inv.destroying.trans still⟩, none] at pending
      cases pending
    rw [← accepted] at called
    exact ran.executed (ends still) (waits empty) inv.kept called
  case pending =>
    intro some still
    rw [inv.pending, if_pos ⟨some, still⟩]
  case ordered => exact ⟨batches, ran, ends, waits⟩
  case proceeds =>
    intro running
    have advances : ∃ after event, state.advance = some (after, event) := by
      unfold State.advance
      split
      case h_2 place =>
        split
        case h_1 empty => exact absurd ⟨place, empty⟩ running
        all_goals exact ⟨_, _, rfl⟩
      case h_6 =>
        split
        all_goals exact ⟨_, _, rfl⟩
      all_goals exact ⟨_, _, rfl⟩
    obtain ⟨after, event, advances⟩ := advances
    have exits := advance_isExit advances
    exact ⟨event, after, exits, (step_exit_iff exits).mpr advances⟩
  case terminates => exact (Nat.le_add_right _ _).trans inv.fuel

/-- A static that has no link pushes itself on the register. -/
theorem finalizeAtThreadExit_eq
    {node : ν}
    (unlinked : state.next node = none) :
    (state.finalizeAtThreadExit node).1 =
      { state with
        next := Function.update state.next node state.register
        register := some node
        callbacks :=
          if state.register = none ∧ state.destroying = false then
            .executeDestroy :: state.callbacks
          else
            state.callbacks } := by
  unfold State.finalizeAtThreadExit
  cases register : state.register with
  | some old => simp
  | none =>
      have same : Function.update state.next node none = state.next :=
        Function.update_eq_self_iff.mpr unlinked.symm
      cases destroying : state.destroying with
      | true => simp [same]
      | false => simp [same]

/-- A static is registered. -/
theorem finalizeAtThreadExit
    {node : ν}
    (inv : Inv events state batches)
    (fresh : node ∉ calledNodes events)
    (runs : state.stage.runsCode = true) :
    Inv (events ++ [Event.finalizeAtThreadExit node true])
      (state.finalizeAtThreadExit node).1
      { batches with waiting := node :: batches.waiting } := by
  have called :
      calledNodes (events ++ [Event.finalizeAtThreadExit node true]) =
        calledNodes events ++ [node] := by
    unfold calledNodes
    rw [effects_snoc]
    exact Effect.calledNodes_called _ node true
  have accepted :
      Effect.acceptedNodes
          ((events ++ [Event.finalizeAtThreadExit node true]).map
            Event.effect) =
        calledNodes events ++ [node] := by
    rw [effects_snoc, ← inv.accepted]
    exact Effect.acceptedNodes_accepted _ node
  have notExecuted : ∀ r, state.stage = .executing r → r ≠ node := by
    rintro r place rfl
    have executed := inv.follows.ran.accepted (inv.executed r place)
    rw [inv.accepted] at executed
    exact fresh executed
  have fuel := inv.fuel
  have follows := inv.follows.accept fresh
  rw [finalizeAtThreadExit_eq (inv.follows.unlinked node fresh)]
  constructor
  case follows =>
    rw [effects_snoc]
    have head :
        state.head =
          match state.stage with
          | .loop o_r => o_r
          | .executing r =>
              Function.update state.next node state.register r
          | _ => none := by
      unfold State.head
      cases place : state.stage with
      | executing r =>
          dsimp only
          rw [Function.update_of_ne (notExecuted r place)]
      | _ => rfl
    rw [head] at follows
    exact follows
  case accepted => rw [accepted, called]
  case kept => exact inv.kept
  case destroying => exact inv.destroying
  case pending =>
    have pending := inv.pending
    dsimp only
    by_cases empty : state.register = none
    · cases destroying : state.destroying with
      | true => simpa [empty, destroying] using pending
      | false => simpa [empty, destroying] using pending
    · simpa [empty] using pending
  case emptied =>
    intro ended
    rw [show state.stage = .loop none from ended] at runs
    cases runs
  case executed =>
    intro r place
    unfold executedNodes
    rw [effects_snoc, Effect.executedNodes_other _ rfl]
    exact inv.executed r place
  case fuel =>
    have others :
        otherCallbacks (events ++ [Event.finalizeAtThreadExit node true]) =
          otherCallbacks events := by
      simp [otherCallbacks]
    rw [exitSteps_call events rfl, called, others, List.length_append,
      List.length_singleton, List.length_cons]
    have longer :
        (if state.register = none ∧ state.destroying = false then
            .executeDestroy :: state.callbacks
          else
            state.callbacks).length ≤ state.callbacks.length + 1 := by
      split
      case isTrue => exact Nat.le_refl _
      case isFalse => exact Nat.le_succ _
    dsimp only
    omega

/-- Other code registers a callback. -/
theorem atThreadExit
    (inv : Inv events state batches) :
    Inv (events ++ [.atThreadExit])
      { state with callbacks := .other :: state.callbacks } batches := by
  constructor
  case follows =>
    rw [effects_snoc]
    exact inv.follows.silent
  case accepted =>
    unfold calledNodes
    rw [effects_snoc]
    rw [Effect.acceptedNodes_other _ rfl, Effect.calledNodes_other _ rfl]
    exact inv.accepted
  case kept => exact inv.kept
  case destroying => exact inv.destroying
  case pending => exact inv.pending
  case emptied => exact inv.emptied
  case executed =>
    intro r place
    unfold executedNodes
    rw [effects_snoc]
    rw [Effect.executedNodes_other _ rfl]
    exact inv.executed r place
  case fuel =>
    have called : calledNodes (events ++ [.atThreadExit]) = calledNodes events := by
      unfold calledNodes
      rw [effects_snoc]
      exact Effect.calledNodes_other .silent rfl
    have others :
        otherCallbacks (events ++ [.atThreadExit]) =
          otherCallbacks events + 1 := by
      simp [otherCallbacks]
    have fuel := inv.fuel
    rw [exitSteps_call events rfl, called, others, List.length_cons]
    dsimp only
    omega

/-- A step of the exit, from what it does to the register and the callbacks. -/
theorem moves
    {newer : Batches ν}
    (inv : Inv events state batches)
    (exits : event.isExit = true)
    (follows :
      Follows (events.map Event.effect ++ [event.effect]) after.next
        after.register after.head newer)
    (kept : newer.lost = [])
    (destroying : after.destroying = after.stage.walks)
    (pending :
      after.callbacks.count .executeDestroy =
        if after.register ≠ none ∧ after.destroying = false then 1 else 0)
    (emptied : after.stage = .loop none → after.register = none)
    (executed :
      ∀ r, after.stage = .executing r →
        r ∈ executedNodes (events ++ [event]))
    (fuel :
      2 * after.callbacks.length +
          3 * (newer.chain.length + newer.waiting.length) +
            after.stage.fuel + 1 ≤
        2 * state.callbacks.length +
          3 * (batches.chain.length + batches.waiting.length) +
            state.stage.fuel) :
    Inv (events ++ [event]) after newer := by
  have called : calledNodes (events ++ [event]) = calledNodes events := by
    unfold calledNodes
    rw [effects_snoc]
    exact Effect.calledNodes_other _ (effect_exit exits)
  rw [← effects_snoc] at follows
  refine ⟨follows, ?_, kept, destroying, pending, emptied, executed, ?_⟩
  · rw [effects_snoc, Effect.acceptedNodes_other _ (effect_exit exits), called]
    exact inv.accepted
  · have before := inv.fuel
    rw [exitSteps_exit events exits, called, otherCallbacks_exit events exits]
    omega

/-- The register is detached, at the start or at the end of a chain. -/
theorem detaches
    (inv : Inv events state batches)
    (exits : event.isExit = true)
    (detached : event.effect = .detached)
    (headless : state.head = none)
    (next : after.next = state.next)
    (register : after.register = none)
    (destroying : after.destroying = true)
    (stage : after.stage = .loop state.register)
    (pending : after.callbacks.count .executeDestroy = 0)
    (fuel :
      2 * after.callbacks.length + 2 ≤
        2 * state.callbacks.length + state.stage.fuel) :
    ∃ newer, Inv (events ++ [event]) after newer := by
  have follows := inv.follows
  rw [headless] at follows
  have ended := Chain.none_iff.mp follows.chain
  refine ⟨{ batches with waiting := [], chain := batches.waiting },
    inv.moves exits ?_ inv.kept ?_ ?_ (fun _ => register) ?_ ?_⟩
  · rw [detached, next, register, State.head, stage]
    exact follows.detach
  · rw [destroying, stage]
    rfl
  · rw [pending, register]
    rfl
  · intro r place
    rw [stage] at place
    cases place
  · have one : (Stage.loop state.register).fuel = 1 := rfl
    rw [ended, stage, one]
    dsimp only [List.length_nil]
    omega

/-- A step of the exit outside of `execute_destroy`. -/
theorem passes
    (inv : Inv events state batches)
    (exits : event.isExit = true)
    (silent : event.effect = .silent)
    (headless : state.head = none)
    (next : after.next = state.next)
    (register : after.register = state.register)
    (destroying : after.destroying = false)
    (still : after.stage.walks = false)
    (pending :
      after.callbacks.count .executeDestroy =
        if state.register ≠ none then 1 else 0)
    (fuel :
      2 * after.callbacks.length + after.stage.fuel + 1 ≤
        2 * state.callbacks.length + state.stage.fuel) :
    ∃ newer, Inv (events ++ [event]) after newer := by
  have follows := inv.follows
  rw [headless] at follows
  refine ⟨batches, inv.moves exits ?_ inv.kept ?_ ?_ ?_ ?_ ?_⟩
  · have head : after.head = none := by
      unfold State.head
      cases place : after.stage with
      | loop o_r =>
          rw [place] at still
          cases still
      | executing r =>
          rw [place] at still
          cases still
      | _ => rfl
    rw [silent, next, register, head]
    exact follows.silent
  · rw [destroying, still]
  · rw [pending, register, destroying]
    simp
  · intro place
    rw [place] at still
    cases still
  · intro r place
    rw [place] at still
    cases still
  · omega

/-- Outside of `execute_destroy` its callback is pending if a static waits. -/
theorem pending_of_still
    (inv : Inv events state batches)
    (still : state.stage.walks = false) :
    state.destroying = false ∧
      state.callbacks.count .executeDestroy =
        if state.register ≠ none then 1 else 0 := by
  have destroying := inv.destroying.trans still
  refine ⟨destroying, ?_⟩
  rw [inv.pending, destroying]
  simp

/-- During `execute_destroy` its callback is not pending. -/
theorem pending_of_walks
    (inv : Inv events state batches)
    (walks : state.stage.walks = true) :
    state.destroying = true ∧
      state.callbacks.count .executeDestroy = 0 := by
  have destroying := inv.destroying.trans walks
  refine ⟨destroying, ?_⟩
  rw [inv.pending, destroying]
  simp

/-- The exit of the thread keeps the invariant. -/
theorem advance
    (inv : Inv events state batches)
    (distinct : (calledNodes events).Nodup)
    (advances : state.advance = some (after, event)) :
    ∃ newer, Inv (events ++ [event]) after newer := by
  have headOf : state.head =
      match state.stage with
      | .loop o_r => o_r
      | .executing r => state.next r
      | _ => none := rfl
  unfold State.advance at advances
  cases place : state.stage with
  | alive =>
      obtain ⟨destroying, pending⟩ := inv.pending_of_still (by rw [place]; rfl)
      rw [place] at advances headOf
      cases advances
      refine inv.passes rfl rfl headOf rfl rfl destroying rfl pending ?_
      rw [place]
      exact Nat.le_refl _
  | exiting =>
      obtain ⟨destroying, pending⟩ := inv.pending_of_still (by rw [place]; rfl)
      rw [place] at advances headOf
      cases callbacks : state.callbacks with
      | nil =>
          rw [callbacks] at advances
          cases advances
      | cons callback rest =>
          rw [callbacks] at advances pending
          cases callback with
          | executeDestroy =>
              cases advances
              refine inv.detaches rfl rfl headOf rfl rfl rfl rfl ?_ ?_
              · rw [List.count_cons_self] at pending
                split at pending
                case isTrue => exact Nat.succ.inj pending
                case isFalse => cases pending
              · rw [callbacks, place]
                exact Nat.le_refl _
          | other =>
              cases advances
              refine inv.passes rfl rfl headOf rfl rfl destroying rfl ?_ ?_
              · rw [List.count_cons_of_ne (by decide)] at pending
                exact pending
              · rw [callbacks, place]
                exact Nat.le_refl _
  | other =>
      obtain ⟨destroying, pending⟩ := inv.pending_of_still (by rw [place]; rfl)
      rw [place] at advances headOf
      cases advances
      refine inv.passes rfl rfl headOf rfl rfl destroying rfl pending ?_
      rw [place]
      exact Nat.le_refl _
  | loop o_r =>
      obtain ⟨destroying, pending⟩ := inv.pending_of_walks (by rw [place]; rfl)
      rw [place] at advances headOf
      cases o_r with
      | none =>
          cases advances
          have empty := inv.emptied place
          refine inv.passes rfl rfl headOf rfl rfl rfl rfl ?_ ?_
          · rw [empty]
            exact pending
          · rw [place]
            exact Nat.le_refl _
      | some r =>
          cases advances
          have follows := inv.follows
          rw [headOf] at follows
          obtain ⟨later, same, -⟩ := Chain.some_iff.mp follows.chain
          refine ⟨_, inv.moves rfl follows.execute inv.kept ?_ ?_ nofun ?_ ?_⟩
          · exact destroying
          · rw [pending]
            simp [destroying]
          · intro r executing
            obtain rfl := Stage.executing.inj executing
            unfold executedNodes
            rw [effects_snoc]
            dsimp only [Event.effect]
            rw [Effect.executedNodes_executed]
            exact List.mem_append_right _ (List.mem_singleton_self _)
          · rw [place, same]
            dsimp only [Stage.fuel, List.length_cons, List.tail_cons]
            omega
  | executing r =>
      obtain ⟨destroying, pending⟩ := inv.pending_of_walks (by rw [place]; rfl)
      rw [place] at advances headOf
      have follows := inv.follows
      rw [headOf] at follows
      dsimp only at follows advances
      split at advances
      case h_1 next linked =>
        cases advances
        refine ⟨batches, inv.moves rfl ?_ inv.kept ?_ ?_ nofun nofun ?_⟩
        · rw [linked] at follows
          exact (follows.unlink distinct (inv.executed r place)).silent
        · exact destroying
        · rw [pending]
          simp [destroying]
        · rw [place]
          dsimp only [Stage.fuel]
          omega
      case h_2 ended =>
        cases advances
        refine ⟨batches, inv.moves rfl ?_ inv.kept ?_ ?_ nofun nofun ?_⟩
        · rw [ended] at follows
          exact follows.silent
        · exact destroying
        · rw [pending]
          simp [destroying]
        · rw [place]
          dsimp only [Stage.fuel]
          omega
  | orElse =>
      obtain ⟨destroying, pending⟩ := inv.pending_of_walks (by rw [place]; rfl)
      rw [place] at advances headOf
      cases advances
      refine inv.detaches rfl rfl headOf rfl rfl destroying rfl pending ?_
      rw [place]
      exact Nat.le_refl _

/-- A thread that has just started. -/
theorem fresh (ν : Type) [DecidableEq ν] :
    Inv [] (State.fresh ν) Batches.empty where
  follows := .fresh
  accepted := rfl
  kept := rfl
  destroying := rfl
  pending := rfl
  emptied := nofun
  executed := nofun
  fuel := Nat.le_refl _

/-- Every event keeps the invariant. -/
theorem step
    (inv : Inv events state batches)
    (distinct : (calledNodes (events ++ [event])).Nodup)
    (step : Step state event after) :
    ∃ newer, Inv (events ++ [event]) after newer := by
  unfold calledNodes at distinct
  rw [effects_snoc] at distinct
  cases exits : event.isExit with
  | true =>
      rw [Effect.calledNodes_other _ (effect_exit exits)] at distinct
      exact inv.advance distinct ((step_exit_iff exits).mp step)
  | false =>
      cases event with
      | finalizeAtThreadExit node accepted =>
          obtain ⟨runs, rfl, rfl⟩ := step_finalizeAtThreadExit step
          have apart : node ∉ calledNodes events := by
            intro member
            rw [Event.effect, Effect.calledNodes_called] at distinct
            have apart := (List.nodup_append.mp distinct).2.2
            exact apart node member node (List.mem_singleton_self node) rfl
          exact ⟨_, inv.finalizeAtThreadExit apart runs⟩
      | atThreadExit =>
          obtain ⟨-, rfl⟩ := step_atThreadExit step
          exact ⟨batches, inv.atThreadExit⟩
      | _ => cases exits

end Inv

/-- Distinct statics keep the invariant throughout a history. -/
theorem inv_of_run
    {ν : Type}
    [DecidableEq ν]
    {events : List (Event ν)}
    {state : State ν}
    (run : Run Step (State.fresh ν) events state)
    (distinct : (calledNodes events).Nodup) :
    ∃ batches, Inv events state batches := by
  induction run with
  | refl => exact ⟨_, .fresh ν⟩
  | @snoc events before after event _ last inductionHypothesis =>
      have shorter : (calledNodes events).Nodup := by
        unfold calledNodes at distinct ⊢
        rw [effects_snoc, Effect.calledNodes, List.filterMap_append] at distinct
        exact (List.nodup_append.mp distinct).1
      obtain ⟨batches, inv⟩ := inductionHypothesis shorter
      exact inv.step distinct last

/-- The thread-exit list keeps its promises throughout every history. -/
theorem thread_exit_correct
    {ν : Type}
    [DecidableEq ν]
    (events : List (Event ν))
    (state : State ν)
    (run : Run Step (State.fresh ν) events state)
    (distinct : (calledNodes events).Nodup) :
    Correct events state := by
  obtain ⟨batches, inv⟩ := inv_of_run run distinct
  exact inv.correct distinct

/--
Two statics register before exit, the second executed one registers a third,
and a callback of other code registers a fourth after `execute_destroy` ran.
-/
theorem thread_exit_correct_four :
    let events : List (Event Nat) :=
      [.atThreadExit, .finalizeAtThreadExit 0 true,
        .finalizeAtThreadExit 1 true, .exit, .call .executeDestroy, .execute 1,
        .takeNext, .execute 0, .finalizeAtThreadExit 2 true, .takeNext,
        .orElse, .execute 2, .takeNext, .orElse, .finished, .call .other,
        .finalizeAtThreadExit 3 true, .returned, .call .executeDestroy,
        .execute 3, .takeNext, .orElse, .finished]
    ∃ state,
      Run Step (State.fresh Nat) events state ∧
        Correct events state ∧ state.ended ∧
          executedNodes events = [1, 0, 2, 3] := by
  intro events
  obtain ⟨state, performed, ended⟩ :
      ∃ state,
        runAll State.exec (State.fresh Nat) events = some state ∧
          state.stage = .exiting ∧ state.callbacks = [] :=
    ⟨_, rfl, rfl, rfl⟩
  have run : Run Step (State.fresh Nat) events state := .of_runAll performed
  exact ⟨state, run, thread_exit_correct events state run (by decide), ended,
    by decide⟩

end StaticInit.Cxa
