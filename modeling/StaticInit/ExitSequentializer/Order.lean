import StaticInit.BatchOrder
import StaticInit.ExitSequentializer.Cxa
import StaticInit.ExitSequentializer.Pthread
import StaticInit.ExitSequentializer.Register
import StaticInit.ExitSequentializer.Windows

namespace StaticInit

/-!
# The order of execution at exit

Each register pushes a static in front of the others and executes what it
detached from the front.  The shared register of program exit and those of the
threads follow the batches, so all of them execute statics in their order.
-/

namespace ExitRegister

/-- What an event does to the register. -/
def Event.effect {ν : Type} : Event ν → Effect ν
  | .finalizeAtExit node accepted => .called node accepted
  | .begin => .detached
  | .execute node => .executed node
  | .takeNext => .silent
  | .orElse => .detached

/-- What happened to the statics. -/
def effects {ν : Type} (events : List (Event ν)) : List (Effect ν) :=
  events.map Event.effect

/-- Where the chain that is being executed goes on. -/
def State.head {ν : Type} (state : State ν) : Option ν :=
  match state.stage with
  | .loop list => list
  | .executed node => state.next node
  | _ => none

section Histories

variable {ν : Type} (events : List (Event ν))

theorem effects_snoc (event : Event ν) :
    effects (events ++ [event]) = effects events ++ [event.effect] :=
  List.map_append

theorem calledNodes_effects :
    Effect.calledNodes (effects events) = calledNodes events := by
  unfold Effect.calledNodes effects calledNodes
  rw [List.filterMap_map]
  congr 1
  funext event
  cases event <;> rfl

theorem acceptedNodes_effects :
    Effect.acceptedNodes (effects events) = acceptedNodes events := by
  unfold Effect.acceptedNodes effects acceptedNodes
  rw [List.filterMap_map]
  congr 1
  funext event
  cases event with
  | finalizeAtExit node accepted => cases accepted <;> rfl
  | _ => rfl

theorem executedNodes_effects :
    Effect.executedNodes (effects events) = executedNodes events := by
  unfold Effect.executedNodes effects executedNodes
  rw [List.filterMap_map]
  congr 1
  funext event
  cases event <;> rfl

end Histories

/-- The links of the statics follow the batches. -/
structure Lists
    {ν : Type}
    [DecidableEq ν]
    (events : List (Event ν))
    (state : State ν)
    (batches : Batches ν) : Prop where
  follows :
    Follows (effects events) state.next state.register.first state.head
      batches
  executed :
    ∀ node, state.stage = .executed node → node ∈ executedNodes events

namespace Lists

variable
  {ν : Type} [DecidableEq ν] {events : List (Event ν)}
  {state after : State ν} {batches : Batches ν}

theorem fresh (ν : Type) [DecidableEq ν] :
    Lists [] (State.fresh ν) Batches.empty :=
  ⟨Follows.fresh, nofun⟩

/-- The link of a static that was not called is not where the chain goes on. -/
theorem head_link
    {node : ν}
    (lists : Lists events state batches)
    (fresh : node ∉ Effect.calledNodes (effects events))
    (register : Register ν)
    (link : Option ν) :
    State.head
        { state with
          register := register
          next := Function.update state.next node link } =
      state.head := by
  unfold State.head
  cases place : state.stage with
  | executed other =>
      have member := lists.executed other place
      rw [← executedNodes_effects] at member
      have different : other ≠ node := by
        rintro rfl
        exact (lists.follows.absent fresh).1 member
      exact Function.update_of_ne different link state.next
  | _ => rfl

/-- A call links a static to the register or refuses it. -/
theorem finalizeAtExit
    {node : ν}
    {result : Bool}
    (lists : Lists events state batches)
    (fresh : node ∉ calledNodes events)
    (calls : state.finalizeAtExit node = some (after, result)) :
    ∃ newer, Lists (events ++ [.finalizeAtExit node result]) after newer := by
  unfold State.finalizeAtExit at calls
  split at calls
  case isFalse =>
    cases calls
    refine ⟨batches, ?_, ?_⟩
    · rw [effects_snoc]
      exact lists.follows.refuse
    · rw [executedNodes_call]
      exact lists.executed
  case isTrue =>
    split at calls
    case isFalse => cases calls
    case isTrue =>
      cases calls
      rw [← calledNodes_effects] at fresh
      have accepts := lists.follows.accept fresh
      refine ⟨{ batches with waiting := node :: batches.waiting }, ?_, ?_⟩
      · rw [effects_snoc, lists.head_link fresh]
        exact accepts
      · rw [executedNodes_call]
        exact lists.executed

/-- The register is detached once the chain is at its end. -/
theorem detaches
    {event : Event ν}
    (lists : Lists events state batches)
    (detached : event.effect = .detached)
    (headless : state.head = none)
    (next : after.next = state.next)
    (register : after.register.first = none)
    (stage : after.stage = .loop state.register.first) :
    ∃ newer, Lists (events ++ [event]) after newer := by
  have follows := lists.follows
  rw [headless] at follows
  refine
    ⟨{ batches with waiting := [], chain := batches.waiting }, ?_, ?_⟩
  · rw [effects_snoc, detached, next, register, State.head, stage]
    exact follows.detach
  · intro node place
    rw [stage] at place
    cases place

/-- `execute_at_exit` goes on along the links. -/
theorem exit
    {event : Event ν}
    (lists : Lists events state batches)
    (distinct : (calledNodes events).Nodup)
    (exits : state.exit = some (after, event)) :
    ∃ newer, Lists (events ++ [event]) after newer := by
  unfold State.exit at exits
  have headOf : state.head =
      match state.stage with
      | .loop list => list
      | .executed node => state.next node
      | _ => none := rfl
  cases place : state.stage with
  | waiting =>
      rw [place] at exits headOf
      cases exits
      exact lists.detaches rfl headOf rfl rfl rfl
  | loop list =>
      rw [place] at exits headOf
      cases list with
      | none => cases exits
      | some node =>
          cases exits
          have follows := lists.follows
          rw [headOf] at follows
          refine ⟨{ batches with chain := batches.chain.tail }, ?_, ?_⟩
          · rw [effects_snoc]
            exact follows.execute
          · intro other executed
            obtain rfl := Stage.executed.inj executed
            rw [executedNodes_execute]
            exact List.mem_append_right _ (List.mem_singleton_self _)
  | executed node =>
      have member := lists.executed node place
      rw [← executedNodes_effects] at member
      rw [← calledNodes_effects] at distinct
      have follows := lists.follows
      rw [place] at exits headOf
      rw [headOf] at follows
      dsimp only at exits follows
      cases link : state.next node with
      | some next =>
          rw [link] at exits follows
          cases exits
          refine ⟨batches, ?_, nofun⟩
          rw [effects_snoc]
          exact (follows.unlink distinct member).silent
      | none =>
          rw [link] at exits follows
          cases exits
          refine ⟨batches, ?_, nofun⟩
          rw [effects_snoc]
          exact follows.silent
  | orElse =>
      rw [place] at exits headOf
      cases exits
      exact lists.detaches rfl headOf rfl rfl rfl

/-- Every step of a history follows the batches. -/
theorem step
    {event : Event ν}
    (lists : Lists events state batches)
    (distinct : (calledNodes (events ++ [event])).Nodup)
    (step : Step state event after) :
    ∃ newer, Lists (events ++ [event]) after newer := by
  rw [calledNodes, List.filterMap_append] at distinct
  obtain ⟨shorter, -, apart⟩ := List.nodup_append.mp distinct
  cases event with
  | finalizeAtExit node result =>
      refine lists.finalizeAtExit ?_ step
      exact fun called => apart node called node List.mem_cons_self rfl
  | _ => exact lists.exit shorter step

theorem of_run
    (run : Run Step (State.fresh ν) events state)
    (distinct : (calledNodes events).Nodup) :
    ∃ batches, Lists events state batches := by
  induction run with
  | refl => exact ⟨_, .fresh ν⟩
  | snoc event _ last inductionHypothesis =>
      have both := distinct
      rw [calledNodes, List.filterMap_append] at both
      obtain ⟨batches, lists⟩ :=
        inductionHypothesis (List.nodup_append.mp both).1
      exact lists.step distinct last

/-- The statics are executed in order. -/
theorem inOrder
    (lists : Lists events state batches)
    (distinct : (calledNodes events).Nodup) :
    Effect.InOrder (effects events) := by
  rw [← calledNodes_effects] at distinct
  exact lists.follows.ran.inOrder distinct

/-- No accepted static is executed twice, and no other is. -/
theorem of_execute
    {node : ν}
    (lists : Lists events state batches)
    (distinct : (calledNodes events).Nodup)
    (place : state.stage = .loop (some node)) :
    node ∈ acceptedNodes events ∧ node ∉ executedNodes events := by
  have chain := lists.follows.chain
  rw [State.head, place] at chain
  obtain ⟨later, same, -⟩ := Chain.some_iff.mp chain
  rw [← calledNodes_effects] at distinct
  have remains :
      node ∈ batches.chain ++ (batches.waiting ++ batches.lost) := by
    rw [same]
    exact List.mem_append_left _ List.mem_cons_self
  rw [← acceptedNodes_effects, ← executedNodes_effects]
  refine
    ⟨lists.follows.ran.shares.subset (List.mem_append_right _ remains), ?_⟩
  intro executed
  have apart := (List.nodup_append.mp (lists.follows.ran.nodup distinct)).2.2
  exact apart node executed node remains rfl

end Lists

/--
Of two statics that are executed at exit, the one that was registered later is
executed first, unless `execute_at_exit` detached the register in between.
-/
theorem exit_inOrder
    {ν : Type}
    [DecidableEq ν]
    (events : List (Event ν))
    (state : State ν)
    (run : Run Step (State.fresh ν) events state)
    (distinct : (calledNodes events).Nodup) :
    Effect.InOrder (effects events) := by
  obtain ⟨batches, lists⟩ := Lists.of_run run distinct
  exact lists.inOrder distinct

/-- Two statics register before exit, and a finalizer registers a third. -/
theorem exit_inOrder_three :
    let events : List (Event Nat) :=
      [.finalizeAtExit 0 true, .finalizeAtExit 1 true, .begin, .execute 1,
        .finalizeAtExit 2 true, .takeNext, .execute 0, .takeNext, .orElse,
        .execute 2, .takeNext, .orElse]
    ∃ state,
      Run Step (State.fresh Nat) events state ∧
        state.stage.ended ∧ executedNodes events = [1, 0, 2] ∧
          Effect.InOrder (effects events) := by
  intro events
  obtain ⟨state, run, ended⟩ :
      ∃ state, Run Step (State.fresh Nat) events state ∧ state.stage.ended :=
    ⟨_,
      .cons (show Step _ _ ⟨⟨some 0, true⟩, _, _⟩ from rfl) <|
        .cons (show Step _ _ ⟨⟨some 1, true⟩, _, _⟩ from rfl) <|
        .cons rfl <|
        .cons rfl <|
        .cons (show Step _ _ ⟨⟨some 2, true⟩, _, _⟩ from rfl) <|
        .cons rfl <|
        .cons rfl <|
        .cons rfl <|
        .cons rfl <|
        .cons rfl <|
        .cons rfl <|
        .cons rfl .refl,
      rfl⟩
  exact ⟨state, run, ended, rfl, exit_inOrder events state run (by decide)⟩

end ExitRegister

/--
Each of the thread-exit lists executes statics in their order: the one that was
registered later first, unless the list was detached in between.
-/
theorem thread_exit_inOrder
    (ν κ : Type)
    [DecidableEq ν]
    [DecidableEq κ]
    [Fintype κ] :
    (∀ (events : List (Cxa.Event ν)) state,
      Run Cxa.Step (Cxa.State.fresh ν) events state →
        (Cxa.calledNodes events).Nodup →
          Effect.InOrder (events.map Cxa.Event.effect)) ∧
    (∀ (events : List (Windows.Event ν)) state,
      Run Windows.Step (Windows.State.fresh ν) events state →
        (Windows.calledNodes events).Nodup →
          Effect.InOrder (events.map Windows.Event.effect)) ∧
    ∀ (isMain keyed : Bool) (events : List (Pthread.Event ν κ)) state,
      Run Pthread.Step (Pthread.State.fresh ν κ isMain keyed) events state →
        (Pthread.calledNodes events).Nodup →
          Effect.InOrder (events.map Pthread.Event.effect) := by
  refine ⟨?_, ?_, ?_⟩
  · intro events state run distinct
    obtain ⟨batches, inv⟩ := Cxa.inv_of_run run distinct
    exact inv.follows.ran.inOrder distinct
  · intro events state run distinct
    obtain ⟨batches, inv⟩ := Windows.inv_of_run run distinct
    exact inv.follows.ran.inOrder distinct
  · intro isMain keyed events state run distinct
    obtain ⟨batches, inv⟩ := Pthread.inv_of_run run distinct
    exact inv.follows.ran.inOrder distinct

/-- Two statics in each list; in the last a finalizer registers the second. -/
theorem thread_exit_inOrder_two :
    let cxaEvents : List (Cxa.Event Nat) :=
      [.finalizeAtThreadExit 0 true, .finalizeAtThreadExit 1 true, .exit,
        .call .executeDestroy, .execute 1, .takeNext, .execute 0]
    let windowsEvents : List (Windows.Event Nat) :=
      [.finalizeAtThreadExit 0 true, .finalizeAtThreadExit 1 true,
        .destroy .threadDetach, .execute 1, .takeNext, .execute 0]
    let pthreadEvents : List (Pthread.Event Nat Empty) :=
      [.finalizeAtThreadExit 0 true true true, .exit, .visit none, .execute 0,
        .finalizeAtThreadExit 1 true true true, .takeNext, .orElse, .execute 1]
    ((∃ state, Run Cxa.Step (Cxa.State.fresh Nat) cxaEvents state) ∧
      Cxa.executedNodes cxaEvents = [1, 0] ∧
        Effect.InOrder (cxaEvents.map Cxa.Event.effect)) ∧
    ((∃ state,
        Run Windows.Step (Windows.State.fresh Nat) windowsEvents state) ∧
      Windows.executedNodes windowsEvents = [1, 0] ∧
        Effect.InOrder (windowsEvents.map Windows.Event.effect)) ∧
    (∃ state,
        Run Pthread.Step (Pthread.State.fresh Nat Empty false false)
          pthreadEvents state) ∧
      Pthread.executedNodes pthreadEvents = [0, 1] ∧
        Effect.InOrder (pthreadEvents.map Pthread.Event.effect) := by
  intro cxaEvents windowsEvents pthreadEvents
  obtain ⟨cxaState, performed⟩ :
      ∃ state,
        runAll Cxa.State.exec (Cxa.State.fresh Nat) cxaEvents = some state :=
    ⟨_, rfl⟩
  obtain ⟨windowsState, windowsRun⟩ :
      ∃ state,
        Run Windows.Step (Windows.State.fresh Nat) windowsEvents state :=
    ⟨_,
      .cons (.finalizeAtThreadExit 0 rfl) <|
        .cons (.finalizeAtThreadExit 1 rfl) <|
        .cons (.destroy .threadDetach rfl) <|
        .cons (.advance rfl) <|
        .cons (.advance rfl) <|
        .cons (.advance rfl) .refl⟩
  obtain ⟨pthreadState, pthreadRun⟩ :
      ∃ state,
        Run Pthread.Step (Pthread.State.fresh Nat Empty false false)
          pthreadEvents state :=
    ⟨_,
      .cons (.finalizeAtThreadExit 0 true true rfl) <|
        .cons (.exit rfl rfl rfl) <|
        .cons (.visit none rfl rfl rfl) <|
        .cons (.advance rfl) <|
        .cons (.finalizeAtThreadExit 1 true true rfl) <|
        .cons (.advance rfl) <|
        .cons (.advance rfl) <|
        .cons (.advance rfl) .refl⟩
  obtain ⟨cxa, windows, pthread⟩ := thread_exit_inOrder Nat Empty
  have cxaRun : Run Cxa.Step (Cxa.State.fresh Nat) cxaEvents cxaState :=
    .of_runAll performed
  exact
    ⟨⟨⟨_, cxaRun⟩, rfl, cxa _ _ cxaRun (by decide)⟩,
      ⟨⟨_, windowsRun⟩, rfl, windows _ _ windowsRun (by decide)⟩,
      ⟨_, pthreadRun⟩, rfl, pthread false false _ _ pthreadRun (by decide)⟩

end StaticInit
