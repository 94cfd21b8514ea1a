import StaticInit.Chain
import StaticInit.Runs
import Mathlib.Data.List.Perm.Basic

namespace StaticInit.ExitRegister

/-!
# The register of program exit

`finalize_at_exit` pushes a static on the shared register; `execute_at_exit`
detaches the registered statics, executes them one by one and looks for more
until it finds the register empty.  The two mutexes make each section between
a lock and its release one step; a finalizer and any other thread may call
`finalize_at_exit` between any two steps.
-/

/-- `Register`. -/
structure Register (ν : Type) where
  first : Option ν
  registrationOpened : Bool

/-- Where `execute_at_exit` is. -/
inductive Stage (ν : Type) where
  /-- Not yet called. -/
  | waiting
  /-- At the head of the loop, with its variable `list`. -/
  | loop (list : Option ν)
  /-- After the call of `execute`, before `take_next`. -/
  | executed (node : ν)
  /-- In the closure of `or_else`, before it locks the register. -/
  | orElse
  deriving DecidableEq

/-- The statics are nodes; each keeps its `next` link itself. -/
structure State (ν : Type) where
  register : Register ν
  next : ν → Option ν
  stage : Stage ν

/-- `REGISTER` and the nodes at program start. -/
def State.fresh (ν : Type) : State ν where
  register := ⟨none, true⟩
  next := fun _ => none
  stage := .waiting

/-- `execute_at_exit` has returned. -/
def Stage.ended {ν : Type} (stage : Stage ν) : Prop :=
  stage = .loop none

/-- What happens: a call and its result, or a step of `execute_at_exit`. -/
inductive Event (ν : Type) where
  | finalizeAtExit (node : ν) (accepted : Bool)
  /-- The first lock of the register. -/
  | begin
  | execute (node : ν)
  | takeNext
  | orElse
  deriving DecidableEq

def Event.isExit {ν : Type} : Event ν → Bool
  | .finalizeAtExit .. => false
  | _ => true

section Steps

variable {ν : Type} [DecidableEq ν]

/-- `finalize_at_exit`; no value is the panic of a double registration. -/
def State.finalizeAtExit
    (state : State ν)
    (node : ν) : Option (State ν × Bool) :=
  if state.register.registrationOpened then
    if state.next node = none then
      some
        ({ state with
            register := { state.register with first := some node }
            next := Function.update state.next node state.register.first },
          true)
    else
      none
  else
    some (state, false)

/-- The next step of `execute_at_exit`. -/
def State.exit (state : State ν) : Option (State ν × Event ν) :=
  match state.stage with
  | .waiting =>
      some
        ({ state with
            register := { state.register with first := none }
            stage := .loop state.register.first },
          .begin)
  | .loop none => none
  | .loop (some node) =>
      some ({ state with stage := .executed node }, .execute node)
  | .executed node =>
      match state.next node with
      | some next =>
          some
            ({ state with
                next := Function.update state.next node none
                stage := .loop (some next) },
              .takeNext)
      | none => some ({ state with stage := .orElse }, .takeNext)
  | .orElse =>
      some
        ({ state with
            register :=
              { first := none
                registrationOpened :=
                  if state.register.first = none then
                    false
                  else
                    state.register.registrationOpened }
            stage := .loop state.register.first },
          .orElse)

/-- One step, labelled by what happens. -/
def Step (state : State ν) (event : Event ν) (after : State ν) : Prop :=
  match event with
  | .finalizeAtExit node accepted =>
      state.finalizeAtExit node = some (after, accepted)
  | event => state.exit = some (after, event)

end Steps

section Histories

variable {ν : Type}

/-- The statics for which `finalize_at_exit` was called. -/
def calledNodes (events : List (Event ν)) : List ν :=
  events.filterMap fun event =>
    match event with
    | .finalizeAtExit node _ => some node
    | _ => none

/-- The statics for which `finalize_at_exit` returned true. -/
def acceptedNodes (events : List (Event ν)) : List ν :=
  events.filterMap fun event =>
    match event with
    | .finalizeAtExit node true => some node
    | _ => none

/-- The executed statics. -/
def executedNodes (events : List (Event ν)) : List ν :=
  events.filterMap fun event =>
    match event with
    | .execute node => some node
    | _ => none

/-- How many steps `execute_at_exit` has made. -/
def exitSteps (events : List (Event ν)) : Nat :=
  events.countP Event.isExit

end Histories

section Histories

variable {ν : Type} (events : List (Event ν)) (node : ν) (result : Bool)

@[simp] theorem calledNodes_call :
    calledNodes (events ++ [.finalizeAtExit node result]) =
      calledNodes events ++ [node] :=
  List.filterMap_append

@[simp] theorem acceptedNodes_accepted :
    acceptedNodes (events ++ [.finalizeAtExit node true]) =
      acceptedNodes events ++ [node] :=
  List.filterMap_append

@[simp] theorem acceptedNodes_refused :
    acceptedNodes (events ++ [.finalizeAtExit node false]) =
      acceptedNodes events := by
  simp [acceptedNodes]

@[simp] theorem executedNodes_call :
    executedNodes (events ++ [.finalizeAtExit node result]) =
      executedNodes events := by
  simp [executedNodes]

@[simp] theorem exitSteps_call :
    exitSteps (events ++ [.finalizeAtExit node result]) =
      exitSteps events := by
  simp [exitSteps, Event.isExit]

@[simp] theorem executedNodes_execute :
    executedNodes (events ++ [.execute node]) =
      executedNodes events ++ [node] :=
  List.filterMap_append

variable {event : Event ν}

theorem calledNodes_exit (exits : event.isExit = true) :
    calledNodes (events ++ [event]) = calledNodes events := by
  cases event with
  | finalizeAtExit node result => cases exits
  | _ => simp [calledNodes]

theorem acceptedNodes_exit (exits : event.isExit = true) :
    acceptedNodes (events ++ [event]) = acceptedNodes events := by
  cases event with
  | finalizeAtExit node result => cases exits
  | _ => simp [acceptedNodes]

theorem exitSteps_exit (exits : event.isExit = true) :
    exitSteps (events ++ [event]) = exitSteps events + 1 := by
  simp [exitSteps, exits]

theorem executedNodes_exit
    (exits : event.isExit = true)
    (executes : ∀ node, event ≠ .execute node) :
    executedNodes (events ++ [event]) = executedNodes events := by
  cases event with
  | finalizeAtExit node result => cases exits
  | execute node => exact absurd rfl (executes node)
  | _ => simp [executedNodes]

end Histories

section Invariant

variable {ν : Type} [DecidableEq ν]

/-- What the register promises at some point of a history. -/
structure Correct (events : List (Event ν)) (state : State ν) : Prop where
  once : (executedNodes events).Nodup
  onlyAccepted : ∀ node ∈ executedNodes events, node ∈ acceptedNodes events
  allAccepted :
    state.stage.ended → ∀ node ∈ acceptedNodes events, node ∈ executedNodes events
  empty : state.stage.ended → state.register.first = none
  refuses :
    state.stage.ended →
      ∀ node, state.finalizeAtExit node = some (state, false)
  /-- Until it returns, `execute_at_exit` can always go on. -/
  proceeds : ¬ state.stage.ended → state.exit.isSome
  /-- It makes only so many steps. -/
  terminates : exitSteps events ≤ 3 * (acceptedNodes events).length + 1

/-- The detached statics that are still to be executed. -/
def Stage.Pending
    (next : ν → Option ν)
    (events : List (Event ν))
    (pending : List ν) : Stage ν → Prop
  | .waiting => pending = [] ∧ exitSteps events = 0
  | .loop list =>
      Chain next list pending ∧
        exitSteps events ≤ 3 * (executedNodes events).length + 1
  | .executed node =>
      Chain next (next node) pending ∧ node ∈ executedNodes events ∧
        exitSteps events + 1 ≤ 3 * (executedNodes events).length
  | .orElse =>
      pending = [] ∧ exitSteps events ≤ 3 * (executedNodes events).length

/-- The accepted statics are executed, detached or registered. -/
structure Inv
    (events : List (Event ν))
    (state : State ν)
    (pending registered : List ν) : Prop where
  chain : Chain state.next state.register.first registered
  detached : state.stage.Pending state.next events pending
  shares : (executedNodes events ++ (pending ++ registered)).Perm (acceptedNodes events)
  nodup : (acceptedNodes events).Nodup
  unlinked : ∀ node, node ∉ calledNodes events → state.next node = none
  opened :
    state.register.registrationOpened = true ∧ ¬ state.stage.ended ∨
      state.register.registrationOpened = false ∧ state.stage.ended ∧
        registered = []

omit [DecidableEq ν] in
theorem acceptedNodes_subset (events : List (Event ν)) :
    acceptedNodes events ⊆ calledNodes events := by
  intro node member
  simp only [acceptedNodes, calledNodes, List.mem_filterMap] at member ⊢
  obtain ⟨event, member, found⟩ := member
  refine ⟨event, member, ?_⟩
  cases event with
  | finalizeAtExit other result =>
      cases result with
      | true => exact found
      | false => cases found
  | _ => cases found

namespace Inv

variable
  {events : List (Event ν)} {state after : State ν}
  {pending registered : List ν}

omit [DecidableEq ν] in
/-- What was accepted is not pushed again. -/
theorem absent
    (inv : Inv events state pending registered)
    {node : ν}
    (fresh : node ∉ calledNodes events) :
    node ∉ pending ∧ node ∉ registered ∧ node ∉ executedNodes events := by
  have notAccepted : node ∉ acceptedNodes events :=
    fun member => fresh (acceptedNodes_subset events member)
  rw [← inv.shares.mem_iff, List.mem_append, List.mem_append, not_or,
    not_or] at notAccepted
  exact ⟨notAccepted.2.1, notAccepted.2.2, notAccepted.1⟩

omit [DecidableEq ν] in
/-- An executed static is neither detached nor registered. -/
theorem executed_absent
    (inv : Inv events state pending registered)
    {node : ν}
    (member : node ∈ executedNodes events) :
    node ∉ pending ∧ node ∉ registered := by
  have nodup := inv.shares.nodup_iff.mpr inv.nodup
  have apart := (List.nodup_append.mp nodup).2.2 node member
  rw [← not_or, ← List.mem_append]
  intro other
  exact apart node other rfl

/-- The invariant is what the register promises. -/
theorem correct
    (inv : Inv events state pending registered) :
    Correct events state := by
  have nodup := inv.shares.nodup_iff.mpr inv.nodup
  have lengths := inv.shares.length_eq
  rw [List.length_append] at lengths
  constructor
  · exact (List.nodup_append.mp nodup).1
  · intro node member
    exact inv.shares.mem_iff.mp (List.mem_append_left _ member)
  · intro ended node member
    rcases inv.opened with ⟨-, running⟩ | ⟨-, -, rfl⟩
    · exact absurd ended running
    · have pendingEmpty := inv.detached
      rw [Stage.ended] at ended
      rw [ended] at pendingEmpty
      obtain rfl := Chain.none_iff.mp pendingEmpty.1
      rw [← inv.shares.mem_iff] at member
      simpa using member
  · intro ended
    rcases inv.opened with ⟨-, running⟩ | ⟨-, -, rfl⟩
    · exact absurd ended running
    · exact inv.chain
  · intro ended node
    rcases inv.opened with ⟨-, running⟩ | ⟨closed, -, -⟩
    · exact absurd ended running
    · simp [State.finalizeAtExit, closed]
  · intro running
    unfold State.exit
    cases place : state.stage with
    | waiting => rfl
    | loop list =>
        cases list with
        | none => exact absurd place running
        | some node => rfl
    | executed node =>
        dsimp only
        split <;> rfl
    | orElse => rfl
  · have pendingSteps := inv.detached
    cases place : state.stage with
    | waiting =>
        rw [place] at pendingSteps
        have none := pendingSteps.2
        omega
    | loop list =>
        rw [place] at pendingSteps
        have bound := pendingSteps.2
        omega
    | executed node =>
        rw [place] at pendingSteps
        have bound := pendingSteps.2.2
        omega
    | orElse =>
        rw [place] at pendingSteps
        have bound := pendingSteps.2
        omega

/-- A call pushes a new static, or is refused. -/
theorem finalizeAtExit
    {node : ν}
    {result : Bool}
    (inv : Inv events state pending registered)
    (fresh : node ∉ calledNodes events)
    (calls : state.finalizeAtExit node = some (after, result)) :
    ∃ registered,
      Inv (events ++ [.finalizeAtExit node result]) after pending
        registered := by
  have unlinked :
      ∀ other,
        other ∉ calledNodes (events ++ [.finalizeAtExit node result]) →
          other ∉ calledNodes events ∧ other ≠ node := by
    intro other absent
    rw [calledNodes_call, List.mem_append, List.mem_singleton, not_or]
      at absent
    exact absent
  obtain ⟨notPending, notRegistered, notExecuted⟩ := inv.absent fresh
  unfold State.finalizeAtExit at calls
  rcases inv.opened with ⟨opened, running⟩ | ⟨closed, ended, empty⟩
  · rw [if_pos opened, if_pos (inv.unlinked node fresh)] at calls
    cases calls
    refine ⟨node :: registered, inv.chain.cons notRegistered, ?_, ?_, ?_, ?_,
      .inl ⟨opened, running⟩⟩
    · have detached := inv.detached
      cases place : state.stage with
      | waiting =>
          rw [place] at detached
          rwa [Stage.Pending, exitSteps_call]
      | loop list =>
          rw [place] at detached
          rw [Stage.Pending, executedNodes_call, exitSteps_call]
          exact ⟨detached.1.update _ notPending, detached.2⟩
      | executed other =>
          rw [place] at detached
          obtain ⟨chain, member, bound⟩ := detached
          have different : other ≠ node := by
            rintro rfl
            exact notExecuted member
          rw [Stage.Pending, executedNodes_call, exitSteps_call]
          dsimp only
          rw [Function.update_of_ne different]
          exact ⟨chain.update _ notPending, member, bound⟩
      | orElse =>
          rw [place] at detached
          rwa [Stage.Pending, executedNodes_call, exitSteps_call]
    · rw [executedNodes_call, acceptedNodes_accepted]
      have moved :
          (executedNodes events ++ (pending ++ node :: registered)).Perm
            (node :: (executedNodes events ++ (pending ++ registered))) := by
        rw [← List.append_assoc, ← List.append_assoc]
        exact List.perm_middle
      exact (moved.trans (inv.shares.cons node)).trans
        (List.perm_append_singleton _ _).symm
    · rw [acceptedNodes_accepted]
      apply (List.perm_append_singleton _ _).nodup_iff.mpr
      refine List.nodup_cons.mpr ⟨?_, inv.nodup⟩
      exact fun member => fresh (acceptedNodes_subset events member)
    · intro other absent
      obtain ⟨absent, different⟩ := unlinked other absent
      dsimp only
      rw [Function.update_of_ne different]
      exact inv.unlinked other absent
  · rw [closed] at calls
    cases calls
    refine ⟨registered, inv.chain, ?_, ?_, ?_, ?_,
      .inr ⟨closed, ended, empty⟩⟩
    · have detached := inv.detached
      rw [Stage.ended] at ended
      rw [ended] at detached ⊢
      rwa [Stage.Pending, executedNodes_call, exitSteps_call]
    · rw [executedNodes_call, acceptedNodes_refused]
      exact inv.shares
    · rw [acceptedNodes_refused]
      exact inv.nodup
    · exact fun other absent => inv.unlinked other (unlinked other absent).1

omit [DecidableEq ν] in
/-- A step of `execute_at_exit` that executes nothing only moves statics. -/
theorem move
    {event : Event ν}
    {pendingAfter registeredAfter : List ν}
    (inv : Inv events state pending registered)
    (exits : event.isExit = true)
    (executes : ∀ node, event ≠ .execute node)
    (same : pendingAfter ++ registeredAfter = pending ++ registered)
    (chain : Chain after.next after.register.first registeredAfter)
    (detached :
      after.stage.Pending after.next (events ++ [event]) pendingAfter)
    (unlinked : ∀ node, state.next node = none → after.next node = none)
    (opened :
      after.register.registrationOpened = true ∧ ¬ after.stage.ended ∨
        after.register.registrationOpened = false ∧ after.stage.ended ∧
          registeredAfter = []) :
    Inv (events ++ [event]) after pendingAfter registeredAfter := by
  refine ⟨chain, detached, ?_, ?_, ?_, opened⟩
  · rw [executedNodes_exit _ exits executes, acceptedNodes_exit _ exits, same]
    exact inv.shares
  · rw [acceptedNodes_exit _ exits]
    exact inv.nodup
  · rw [calledNodes_exit _ exits]
    exact fun node absent => unlinked node (inv.unlinked node absent)

omit [DecidableEq ν] in
/-- While `execute_at_exit` has not returned, the register is open. -/
theorem opened_of_running
    (inv : Inv events state pending registered)
    (running : ¬ state.stage.ended) :
    state.register.registrationOpened = true := by
  rcases inv.opened with ⟨opened, -⟩ | ⟨-, ended, -⟩
  · exact opened
  · exact absurd ended running

/-- A step of `execute_at_exit` moves statics on; the first finds one. -/
theorem exit
    {event : Event ν}
    (inv : Inv events state pending registered)
    (found : event = .begin → state.register.first ≠ none)
    (exits : state.exit = some (after, event)) :
    ∃ pending registered,
      Inv (events ++ [event]) after pending registered := by
  have detached := inv.detached
  have opened := inv.opened_of_running
  unfold State.exit at exits
  cases place : state.stage with
  | waiting =>
      rw [place] at exits detached opened
      cases exits
      obtain ⟨rfl, none⟩ := detached
      refine ⟨registered, [], inv.move rfl nofun (List.append_nil _)
        (Chain.none_iff.mpr rfl) ?_ (fun _ unlinked => unlinked) ?_⟩
      · rw [Stage.Pending, exitSteps_exit _ rfl]
        exact ⟨inv.chain, by omega⟩
      · left
        refine ⟨opened nofun, ?_⟩
        exact fun ended => found rfl (Stage.loop.inj ended)
  | loop list =>
      cases list with
      | none =>
          rw [place] at exits
          cases exits
      | some node =>
          rw [place] at exits detached opened
          cases exits
          obtain ⟨later, rfl, link⟩ := Chain.some_iff.mp detached.1
          refine ⟨later, registered, inv.chain, ?_, ?_, ?_, ?_,
            .inl ⟨opened nofun, nofun⟩⟩
          · rw [Stage.Pending, executedNodes_execute, exitSteps_exit _ rfl,
              List.length_append, List.length_singleton]
            have bound := detached.2
            exact ⟨link, by simp, by omega⟩
          · rw [executedNodes_execute, acceptedNodes_exit _ rfl,
              List.append_assoc]
            exact inv.shares
          · rw [acceptedNodes_exit _ rfl]
            exact inv.nodup
          · rw [calledNodes_exit _ rfl]
            exact inv.unlinked
  | executed node =>
      rw [place] at exits detached opened
      obtain ⟨chain, member, bound⟩ := detached
      obtain ⟨notPending, notRegistered⟩ := inv.executed_absent member
      dsimp only at exits
      cases link : state.next node with
      | some next =>
          rw [link] at exits chain
          cases exits
          refine ⟨pending, registered, inv.move rfl nofun rfl
            (inv.chain.update _ notRegistered) ?_ ?_
            (.inl ⟨opened nofun, nofun⟩)⟩
          · rw [Stage.Pending, executedNodes_exit _ rfl nofun,
              exitSteps_exit _ rfl]
            exact ⟨chain.update _ notPending, by omega⟩
          · intro other unlinked
            dsimp only
            by_cases same : other = node
            · rw [same, Function.update_self]
            · rwa [Function.update_of_ne same]
      | none =>
          rw [link] at exits chain
          cases exits
          obtain rfl := Chain.none_iff.mp chain
          refine ⟨[], registered, inv.move rfl nofun rfl inv.chain ?_
            (fun _ unlinked => unlinked) (.inl ⟨opened nofun, nofun⟩)⟩
          rw [Stage.Pending, executedNodes_exit _ rfl nofun,
            exitSteps_exit _ rfl]
          exact ⟨rfl, by omega⟩
  | orElse =>
      rw [place] at exits detached opened
      cases exits
      obtain ⟨rfl, bound⟩ := detached
      refine ⟨registered, [], inv.move rfl nofun (List.append_nil _)
        (Chain.none_iff.mpr rfl) ?_ (fun _ unlinked => unlinked) ?_⟩
      · rw [Stage.Pending, executedNodes_exit _ rfl nofun,
          exitSteps_exit _ rfl]
        exact ⟨inv.chain, by omega⟩
      · by_cases empty : state.register.first = none
        · right
          refine ⟨if_pos empty, ?_, rfl⟩
          rw [Stage.ended, empty]
        · left
          refine ⟨?_, fun ended => empty (Stage.loop.inj ended)⟩
          dsimp only
          rw [if_neg empty]
          exact opened nofun

end Inv

/-- A fresh register. -/
theorem Inv.fresh (ν : Type) [DecidableEq ν] :
    Inv [] (State.fresh ν) [] [] :=
  ⟨rfl, ⟨rfl, rfl⟩, .refl _, .nil, fun _ _ => rfl, .inl ⟨rfl, nofun⟩⟩

/--
A step keeps the invariant if no static is registered twice and the register is
not empty where `execute_at_exit` begins.
-/
theorem Inv.step
    {events : List (Event ν)}
    {event : Event ν}
    {state after : State ν}
    {pending registered : List ν}
    (inv : Inv events state pending registered)
    (distinct : (calledNodes (events ++ [event])).Nodup)
    (found : event = .begin → state.register.first ≠ none)
    (step : Step state event after) :
    ∃ pending registered,
      Inv (events ++ [event]) after pending registered := by
  cases event with
  | finalizeAtExit node result =>
      rw [calledNodes_call] at distinct
      have fresh : node ∉ calledNodes events := by
        intro member
        have apart := (List.nodup_append.mp distinct).2.2 node member node
        exact apart (List.mem_singleton_self node) rfl
      obtain ⟨registered, inv⟩ := inv.finalizeAtExit fresh step
      exact ⟨pending, registered, inv⟩
  | begin => exact inv.exit found step
  | execute node => exact inv.exit nofun step
  | takeNext => exact inv.exit nofun step
  | orElse => exact inv.exit nofun step

/-- The first step of `execute_at_exit` on an empty register keeps it open. -/
theorem not_correct_of_empty
    [Inhabited ν]
    {events earlier : List (Event ν)}
    {state : State ν}
    {pending registered : List ν}
    (inv : Inv events state pending registered)
    (waiting : state.stage = .waiting)
    (empty : state.register.first = none) :
    ∃ after, Step state .begin after ∧ ¬ Correct earlier after := by
  have opened : state.register.registrationOpened = true := by
    apply inv.opened_of_running
    rw [waiting]
    nofun
  refine ⟨⟨⟨none, state.register.registrationOpened⟩, state.next,
    .loop none⟩, ?_, ?_⟩
  · simp only [Step, State.exit, waiting, empty]
  · intro correct
    have refused := correct.refuses rfl default
    simp only [State.finalizeAtExit, opened, if_true] at refused
    split at refused <;> cases refused

/-- As long as the first lock finds a static, the invariant holds. -/
theorem inv_of_run
    {events earlier : List (Event ν)}
    {state : State ν}
    (distinct : (calledNodes events).Nodup)
    (found :
      ∀ earlier state pending registered,
        earlier ++ [.begin] <+: events →
          Run Step (State.fresh ν) earlier state →
            Inv earlier state pending registered →
              state.stage = .waiting → state.register.first ≠ none)
    (run : Run Step (State.fresh ν) earlier state)
    (leading : earlier <+: events) :
    ∃ pending registered, Inv earlier state pending registered := by
  apply run.invariant_of_prefix _ _ leading
  · exact ⟨[], [], Inv.fresh ν⟩
  rintro earlier event before after leading run ⟨pending, registered, inv⟩ step
  refine inv.step ?_ ?_ step
  · obtain ⟨later, rfl⟩ := leading
    rw [calledNodes, List.filterMap_append] at distinct
    exact (List.nodup_append.mp distinct).1
  · rintro rfl
    apply found earlier before pending registered leading run inv
    cases place : before.stage with
    | waiting => rfl
    | loop list =>
        cases list with
        | none => simp [Step, State.exit, place] at step
        | some node => simp [Step, State.exit, place] at step
    | executed node =>
        simp only [Step, State.exit, place] at step
        split at step <;> simp at step
    | orElse => simp [Step, State.exit, place] at step

/--
The register keeps its promises throughout a history exactly when it is not
empty as `execute_at_exit` locks it first.
-/
theorem correct_iff
    [Inhabited ν]
    (events : List (Event ν))
    (distinct : (calledNodes events).Nodup) :
    (∀ earlier state,
        earlier <+: events →
          Run Step (State.fresh ν) earlier state →
            Correct earlier state) ↔
      ∀ earlier state,
        earlier ++ [.begin] <+: events →
          Run Step (State.fresh ν) earlier state →
            state.stage = .waiting → state.register.first ≠ none := by
  constructor
  · intro correct
    have found :
        ∀ earlier state pending registered,
          earlier ++ [.begin] <+: events →
            Run Step (State.fresh ν) earlier state →
              Inv earlier state pending registered →
                state.stage = .waiting → state.register.first ≠ none := by
      intro earlier state pending registered leading run inv waiting empty
      obtain ⟨after, step, broken⟩ := not_correct_of_empty inv waiting empty
      exact broken (correct _ after leading (run.snoc _ step))
    intro earlier state leading run
    have before := (List.prefix_append _ _).trans leading
    obtain ⟨pending, registered, inv⟩ := inv_of_run distinct found run before
    exact found earlier state pending registered leading run inv
  · intro found earlier state leading run
    obtain ⟨pending, registered, inv⟩ :=
      inv_of_run distinct
        (fun earlier state _ _ leading run _ =>
          found earlier state leading run)
        run leading
    exact inv.correct

/-- Two statics registered before exit, a third by a finalizer. -/
theorem correct_iff_three :
    let events : List (Event Nat) :=
      [.finalizeAtExit 0 true, .finalizeAtExit 1 true, .begin, .execute 1,
        .finalizeAtExit 2 true, .takeNext, .execute 0, .takeNext, .orElse,
        .execute 2, .takeNext, .orElse, .finalizeAtExit 3 false]
    (∀ earlier state,
        earlier <+: events →
          Run Step (State.fresh Nat) earlier state →
            Correct earlier state) ↔
      ∀ earlier state,
        earlier ++ [.begin] <+: events →
          Run Step (State.fresh Nat) earlier state →
            state.stage = .waiting → state.register.first ≠ none :=
  correct_iff _ (by decide)

/-- Nothing is registered at exit: a later call is accepted and never executed. -/
theorem accepted_after_exit :
    ∃ state : State Nat,
      Run Step (State.fresh Nat) [.begin, .finalizeAtExit 0 true] state ∧
        state.stage.ended ∧
        0 ∈ acceptedNodes [.begin, .finalizeAtExit 0 true] ∧
        0 ∉ executedNodes [.begin, .finalizeAtExit (0 : Nat) true] := by
  let emptied : State Nat := ⟨⟨none, true⟩, fun _ => none, .loop none⟩
  let after : State Nat :=
    ⟨⟨some 0, true⟩, Function.update (fun _ => none) 0 none, .loop none⟩
  have begins : Step (State.fresh Nat) .begin emptied := rfl
  have accepts : Step emptied (.finalizeAtExit 0 true) after := rfl
  exact ⟨after, Run.cons begins (Run.cons accepts .refl), rfl, by decide,
    by decide⟩

end Invariant

end StaticInit.ExitRegister
