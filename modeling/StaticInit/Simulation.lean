import StaticInit.Runs

namespace StaticInit

/-!
# Simulations

The general part of the refinement of one system by another.  A system is a
step relation whose steps show a label or are silent; an execution shows the
list of its labels.  If a system can answer each step of another one by an
execution that shows the same label, it has all its traces.  A client that
takes the labels of an object as its calls forms a system with it, and a
simulation of the object is a simulation of the whole.
-/

section Executions

variable {State Action Label : Type*}

/-- Executions of a system, with the labels that they show. -/
inductive Exec (step : State → Option Label → State → Prop) :
    State → List Label → State → Prop where
  | refl {state : State} : Exec step state [] state
  | silent
      {state middle final : State}
      {trace : List Label}
      (first : step state none middle)
      (later : Exec step middle trace final) :
      Exec step state trace final
  | visible
      {state middle final : State}
      {label : Label}
      {trace : List Label}
      (first : step state (some label) middle)
      (later : Exec step middle trace final) :
      Exec step state (label :: trace) final

/-- A system of actions as its observer sees it. -/
def Observed
    (step : State → Action → State → Prop)
    (show_ : State → Action → Option Label)
    (state : State)
    (label : Option Label)
    (after : State) : Prop :=
  ∃ action, step state action after ∧ show_ state action = label

namespace Exec

variable {step : State → Option Label → State → Prop}

theorem append
    {state middle final : State}
    {earlier later : List Label}
    (first : Exec step state earlier middle)
    (second : Exec step middle later final) :
    Exec step state (earlier ++ later) final := by
  induction first with
  | refl => exact second
  | silent step _ inductionHypothesis =>
      exact .silent step (inductionHypothesis second)
  | visible step _ inductionHypothesis =>
      exact .visible step (inductionHypothesis second)

/-- One step as an execution. -/
theorem single
    {state after : State}
    {label : Option Label}
    (taken : step state label after) :
    Exec step state label.toList after := by
  cases label with
  | none => exact .silent taken .refl
  | some label => exact .visible taken .refl

/-- What every step keeps holds after an execution. -/
theorem invariant
    {holds : State → Prop}
    {state final : State}
    {trace : List Label}
    (exec : Exec step state trace final)
    (start : holds state)
    (kept :
      ∀ {state after : State} {label : Option Label},
        holds state → step state label after → holds after) :
    holds final := by
  induction exec with
  | refl => exact start
  | silent first _ inductionHypothesis =>
      exact inductionHypothesis (kept start first)
  | visible first _ inductionHypothesis =>
      exact inductionHypothesis (kept start first)

end Exec

/-- An execution is a run of the actions behind its labels. -/
theorem Exec.exists_run
    {step : State → Action → State → Prop}
    {show_ : Action → Option Label}
    {state final : State}
    {trace : List Label}
    (exec : Exec (Observed step fun _ => show_) state trace final) :
    ∃ actions,
      Run step state actions final ∧ actions.filterMap show_ = trace := by
  induction exec with
  | refl => exact ⟨[], .refl, rfl⟩
  | silent first _ inductionHypothesis =>
      obtain ⟨action, taken, hidden⟩ := first
      obtain ⟨actions, run, same⟩ := inductionHypothesis
      refine ⟨action :: actions, .cons taken run, ?_⟩
      rw [List.filterMap_cons_none hidden, same]
  | visible first _ inductionHypothesis =>
      obtain ⟨action, taken, shown⟩ := first
      obtain ⟨actions, run, same⟩ := inductionHypothesis
      refine ⟨action :: actions, .cons taken run, ?_⟩
      rw [List.filterMap_cons_some shown, same]

/-- Perform a schedule and list what is seen of it. -/
def runTrace
    (next : State → Action → Option State)
    (show_ : State → Action → Option Label) :
    State → List Action → Option (List Label × State)
  | state, [] => some ([], state)
  | state, action :: actions =>
      (next state action).bind fun after =>
        (runTrace next show_ after actions).map fun (trace, final) =>
          ((show_ state action).toList ++ trace, final)

/-- A schedule that was performed is an execution. -/
theorem Exec.of_runTrace
    {step : State → Action → State → Prop}
    {next : State → Action → Option State}
    {show_ : State → Action → Option Label}
    (steps :
      ∀ {state after : State} {action : Action},
        next state action = some after → step state action after)
    {state final : State}
    {actions : List Action}
    {trace : List Label}
    (performed :
      runTrace next show_ state actions = some (trace, final)) :
    Exec (Observed step show_) state trace final := by
  induction actions generalizing state trace with
  | nil =>
      obtain ⟨rfl, rfl⟩ := Prod.mk.inj (Option.some.inj performed)
      exact .refl
  | cons action actions inductionHypothesis =>
      obtain ⟨after, taken, rest⟩ := Option.bind_eq_some_iff.mp performed
      obtain ⟨⟨later, last⟩, found, same⟩ := Option.map_eq_some_iff.mp rest
      obtain ⟨rfl, rfl⟩ := Prod.mk.inj same
      exact (Exec.single ⟨action, steps taken, rfl⟩).append
        (inductionHypothesis found)

end Executions

section Simulations

variable {State Other Label : Type*}

/-- Each step of `step` is answered by an execution of `answer`. -/
structure Simulates
    (step : State → Option Label → State → Prop)
    (answer : Other → Option Label → Other → Prop)
    (related : State → Other → Prop) : Prop where
  answers :
    ∀ {state after : State} {other : Other} {label : Option Label},
      related state other →
        step state label after →
          ∃ next, Exec answer other label.toList next ∧ related after next

variable
  {step : State → Option Label → State → Prop}
  {answer : Other → Option Label → Other → Prop}
  {related : State → Other → Prop}

/-- Each execution is answered by one with the same trace. -/
theorem Simulates.exec
    (simulates : Simulates step answer related)
    {state final : State}
    {other : Other}
    {trace : List Label}
    (start : related state other)
    (exec : Exec step state trace final) :
    ∃ next, Exec answer other trace next ∧ related final next := by
  induction exec generalizing other with
  | refl => exact ⟨other, .refl, start⟩
  | silent first _ inductionHypothesis =>
      obtain ⟨middle, answers, continues⟩ := simulates.answers start first
      obtain ⟨next, later, ends⟩ := inductionHypothesis continues
      exact ⟨next, answers.append later, ends⟩
  | visible first _ inductionHypothesis =>
      obtain ⟨middle, answers, continues⟩ := simulates.answers start first
      obtain ⟨next, later, ends⟩ := inductionHypothesis continues
      exact ⟨next, answers.append later, ends⟩

end Simulations

section Clients

variable {Client Object Other Label Event : Type*}

/--
A client next to an object: each moves on its own, or the client makes a move
that is a visible step of the object.  What is seen is what the client shows.
-/
inductive Composed
    (client : Client → Option Label → Option Event → Client → Prop)
    (object : Object → Option Label → Object → Prop) :
    Client × Object → Option Event → Client × Object → Prop where
  | own
      {before after : Client}
      {state : Object}
      {event : Option Event}
      (moves : client before none event after) :
      Composed client object (before, state) event (after, state)
  | object
      {user : Client}
      {before after : Object}
      (moves : object before none after) :
      Composed client object (user, before) none (user, after)
  | together
      {before after : Client}
      {state next : Object}
      {label : Label}
      {event : Option Event}
      (moves : client before (some label) event after)
      (agrees : object state (some label) next) :
      Composed client object (before, state) event (after, next)

variable
  {client : Client → Option Label → Option Event → Client → Prop}
  {object : Object → Option Label → Object → Prop}
  {answer : Other → Option Label → Other → Prop}

/-- What every step of the object keeps holds of it next to its client. -/
theorem Exec.object_invariant
    {holds : Object → Prop}
    {whole final : Client × Object}
    {trace : List Event}
    (exec : Exec (Composed client object) whole trace final)
    (start : holds whole.2)
    (kept :
      ∀ {state after : Object} {label : Option Label},
        holds state → object state label after → holds after) :
    holds final.2 := by
  have next :
      ∀ {whole after : Client × Object} {event : Option Event},
        holds whole.2 → Composed client object whole event after →
          holds after.2 := by
    intro whole after event before step
    cases step with
    | own => exact before
    | object moves => exact kept before moves
    | together _ agrees => exact kept before agrees
  exact exec.invariant start next

/-- The object moves on its own next to its client. -/
theorem Exec.next_to
    {before after : Object}
    (user : Client)
    (exec : Exec object before [] after) :
    Exec (Composed client object) (user, before) [] (user, after) := by
  generalize empty : ([] : List Label) = trace at exec
  induction exec with
  | refl => exact .refl
  | silent first _ inductionHypothesis =>
      exact .silent (.object first) (inductionHypothesis empty)
  | visible => cases empty

/-- The client takes part in the one visible step of an execution. -/
theorem Exec.together
    {user moved : Client}
    {before after : Object}
    {label : Label}
    {event : Option Event}
    (moves : client user (some label) event moved)
    (exec : Exec object before [label] after) :
    Exec (Composed client object) (user, before) event.toList
      (moved, after) := by
  generalize single : [label] = trace at exec
  induction exec with
  | refl => cases single
  | silent first _ inductionHypothesis =>
      exact .silent (.object first) (inductionHypothesis single)
  | visible first later =>
      obtain ⟨rfl, rfl⟩ := List.cons.inj single
      have both := Exec.single (Composed.together moves first)
      have rest : Exec (Composed client object) (moved, _) [] (moved, _) :=
        Exec.next_to moved later
      simpa using both.append rest

/-- Two objects next to the same client. -/
def Beside
    (related : Object → Other → Prop)
    (whole : Client × Object)
    (other : Client × Other) : Prop :=
  whole.1 = other.1 ∧ related whole.2 other.2

theorem Beside.of_related
    {related : Object → Other → Prop}
    {state : Object}
    {other : Other}
    (user : Client)
    (relates : related state other) :
    Beside related (user, state) (user, other) :=
  ⟨rfl, relates⟩

/-- Next to the same client, what refines an object refines the whole. -/
theorem Simulates.composed
    {related : Object → Other → Prop}
    (simulates : Simulates object answer related) :
    Simulates (Composed client object) (Composed client answer)
      (Beside related) := by
  refine ⟨?_⟩
  rintro _ _ ⟨user, state⟩ _ ⟨rfl, relates⟩ step
  cases step with
  | own moves => exact ⟨_, .single (.own moves), rfl, relates⟩
  | object moves =>
      obtain ⟨next, answers, continues⟩ := simulates.answers relates moves
      exact ⟨_, Exec.next_to _ answers, rfl, continues⟩
  | together moves agrees =>
      obtain ⟨next, answers, continues⟩ := simulates.answers relates agrees
      exact ⟨_, Exec.together moves answers, rfl, continues⟩

end Clients

end StaticInit
