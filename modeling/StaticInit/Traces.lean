import Mathlib.Data.List.Forall2

namespace StaticInit

/-!
# Traces of operations

The general part of the comparison of implementations.  A trace is what is
seen after each of a sequence of operations.  If one implementation can answer
each operation of another one, and related states look the same, it has all
its traces.  An operation of small steps is finished by a sequence of
instructions; a rank that decreases shows that it can be finished.
-/

section Traced

variable {State Other Op Outcome Seen : Type*}

/-- What is seen after each of a sequence of operations. -/
inductive Traced
    (performs : State → Op → Outcome → State → Prop)
    (observe : Outcome → State → Seen) :
    State → List Op → List Seen → Prop where
  | nil {state : State} : Traced performs observe state [] []
  | cons
      {state middle : State}
      {op : Op}
      {outcome : Outcome}
      {ops : List Op}
      {trace : List Seen}
      (first : performs state op outcome middle)
      (later : Traced performs observe middle ops trace) :
      Traced performs observe state (op :: ops)
        (observe outcome middle :: trace)

variable {performs : State → Op → Outcome → State → Prop}
  {observe : Outcome → State → Seen}

/-- One more operation in front of a trace. -/
theorem Traced.cons_of_eq
    {state middle : State}
    {op : Op}
    {outcome : Outcome}
    {ops : List Op}
    {seen : Seen}
    {trace : List Seen}
    (first : performs state op outcome middle)
    (shows : observe outcome middle = seen)
    (later : Traced performs observe middle ops trace) :
    Traced performs observe state (op :: ops) (seen :: trace) :=
  shows ▸ .cons first later

/-- An implementation that can answer each operation has the same traces. -/
theorem Traced.answered
    {answers : Other → Op → Outcome → Other → Prop}
    {shows : Outcome → Other → Seen}
    (related : State → Other → Prop)
    (answered :
      ∀ {state after : State} {other : Other} {op : Op} {outcome : Outcome},
        related state other →
          performs state op outcome after →
            ∃ next,
              answers other op outcome next ∧ related after next ∧
                shows outcome next = observe outcome after)
    {state : State}
    {other : Other}
    {ops : List Op}
    {trace : List Seen}
    (start : related state other)
    (traced : Traced performs observe state ops trace) :
    Traced answers shows other ops trace := by
  induction traced generalizing other with
  | nil => exact .nil
  | cons first later inductionHypothesis =>
      obtain ⟨next, answer, relatedNext, same⟩ := answered start first
      rw [← same]
      exact .cons answer (inductionHypothesis relatedNext)

/-- An implementation whose operations have one outcome has one trace. -/
theorem Traced.unique
    (deterministic :
      ∀ {state first second : State} {op : Op} {one other : Outcome},
        performs state op one first → performs state op other second →
          one = other ∧ first = second)
    {state : State}
    {ops : List Op}
    {first second : List Seen}
    (traced : Traced performs observe state ops first)
    (again : Traced performs observe state ops second) :
    first = second := by
  induction traced generalizing second with
  | nil =>
      cases again
      rfl
  | cons performed later inductionHypothesis =>
      cases again with
      | cons repeated rest =>
          obtain ⟨rfl, rfl⟩ := deterministic performed repeated
          rw [inductionHypothesis rest]

/-- What the operations do not read does not show in the trace. -/
theorem Traced.ignores
    {same : Op → Op → Prop}
    (ignored :
      ∀ {state after : State} {op other : Op} {outcome : Outcome},
        same op other →
          performs state op outcome after →
            performs state other outcome after)
    {state : State}
    {ops others : List Op}
    {trace : List Seen}
    (changed : List.Forall₂ same ops others)
    (traced : Traced performs observe state ops trace) :
    Traced performs observe state others trace := by
  induction traced generalizing others with
  | nil =>
      cases changed
      exact .nil
  | cons first later inductionHypothesis =>
      cases changed with
      | cons here there =>
          exact .cons (ignored here first) (inductionHypothesis there)

end Traced

section Completion

variable {State Action Result : Type*}

/-- Instructions that go on until one returns a result. -/
inductive Completes
    (instruction : State → Action → State → Prop)
    (returned : State → Action → Option Result) :
    State → Result → State → Prop where
  | returns
      {state after : State}
      {action : Action}
      {result : Result}
      (last : instruction state action after)
      (ends : returned state action = some result) :
      Completes instruction returned state result after
  | goesOn
      {state middle after : State}
      {action : Action}
      {result : Result}
      (first : instruction state action middle)
      (open_ : returned state action = none)
      (later : Completes instruction returned middle result after) :
      Completes instruction returned state result after

variable {instruction : State → Action → State → Prop}
  {returned : State → Action → Option Result}

/-- What every end has, if the instructions stay in a set of states until then. -/
theorem Completes.ends
    (inside : State → Prop)
    (finish : Result → State → Prop)
    (each :
      ∀ {state after : State} {action : Action},
        inside state → instruction state action after →
          (∃ result,
              returned state action = some result ∧ finish result after) ∨
            returned state action = none ∧ inside after)
    {state after : State}
    {result : Result}
    (completes : Completes instruction returned state result after)
    (start : inside state) :
    finish result after := by
  induction completes with
  | returns last ends =>
      rcases each start last with ⟨found, same, holds⟩ | ⟨open_, -⟩
      · obtain rfl := Option.some.inj (same.symm.trans ends)
        exact holds
      · rw [open_] at ends
        cases ends
  | goesOn first open_ later inductionHypothesis =>
      rcases each start first with ⟨found, same, -⟩ | ⟨-, still⟩
      · rw [open_] at same
        cases same
      · exact inductionHypothesis still

/-- Instructions that decrease a rank come to an end. -/
theorem Completes.exists_of_rank
    {inside : State → Prop}
    (rank : State → Nat)
    (each :
      ∀ {state : State},
        inside state →
          ∃ action after,
            instruction state action after ∧
              ((∃ result, returned state action = some result) ∨
                returned state action = none ∧ inside after ∧
                  rank after < rank state))
    {state : State}
    (start : inside state) :
    ∃ result after, Completes instruction returned state result after := by
  induction bound : rank state using Nat.strongRecOn
    generalizing state with
  | _ size inductionHypothesis =>
      subst bound
      obtain ⟨action, after, first, ends | ⟨open_, still, smaller⟩⟩ :=
        each start
      · obtain ⟨result, ends⟩ := ends
        exact ⟨result, after, .returns first ends⟩
      · obtain ⟨result, final, completes⟩ :=
          inductionHypothesis _ smaller still rfl
        exact ⟨result, final, .goesOn first open_ completes⟩

end Completion

end StaticInit
