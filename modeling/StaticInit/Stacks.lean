import Mathlib.Logic.Relation

namespace StaticInit

/-!
# Runs of a machine with a bounded stack

A machine that calls and returns ends if every step lowers a counter in its
stack, whatever happens to the counters above it, as long as the stack does
not grow beyond a bound.
-/

/-- A stack of counters after a step and before it, outermost first. -/
inductive Lowers : List Nat → List Nat → Prop where
  /-- A counter drops, and the stack above it is replaced. -/
  | counter
      {new old : Nat}
      (smaller : new < old)
      (above replaced : List Nat) :
      Lowers (new :: above) (old :: replaced)
  | popped (old : Nat) (above : List Nat) : Lowers [] (old :: above)
  | inner
      (kept : Nat)
      {after before : List Nat}
      (lowers : Lowers after before) :
      Lowers (kept :: after) (kept :: before)

theorem Lowers.append
    {after before : List Nat}
    (lowers : Lowers after before)
    (below : List Nat) :
    Lowers (below ++ after) (below ++ before) := by
  induction below with
  | nil => exact lowers
  | cons kept below inductionHypothesis => exact .inner kept inductionHypothesis

/-- The top of the stack returns to the counter below it. -/
theorem Lowers.returned
    {new old : Nat}
    (atMost : new ≤ old)
    (top : Nat) :
    Lowers [new] [old, top] := by
  rcases Nat.lt_or_eq_of_le atMost with smaller | rfl
  · exact .counter smaller [] [top]
  · exact .inner new (.popped top [])

/-- A stack is lowered, within a bound on its height. -/
def LowersWithin (bound : Nat) (after before : List Nat) : Prop :=
  Lowers after before ∧ after.length ≤ bound

theorem acc_nil (bound : Nat) : Acc (LowersWithin bound) [] := by
  constructor
  rintro after ⟨lowers, -⟩
  cases lowers

theorem LowersWithin.acc
    {bound : Nat}
    {stack : List Nat}
    (bounded : stack.length ≤ bound) :
    Acc (LowersWithin bound) stack := by
  induction bound generalizing stack with
  | zero =>
      rw [List.length_eq_zero_iff.mp (Nat.le_zero.mp bounded)]
      exact acc_nil 0
  | succ bound above_acc =>
      cases stack with
      | nil => exact acc_nil _
      | cons counter above =>
          induction counter using Nat.strongRecOn generalizing above with
          | ind counter counter_acc =>
              have shorter := Nat.le_of_succ_le_succ bounded
              have acc := above_acc shorter
              clear bounded shorter
              induction acc with
              | intro above _ lower_acc =>
                  constructor
                  rintro after ⟨lowers, fits⟩
                  cases lowers with
                  | counter smaller => exact counter_acc _ smaller _ fits
                  | popped => exact acc_nil _
                  | inner _ lowers =>
                      exact lower_acc _
                        ⟨lowers, Nat.le_of_succ_le_succ fits⟩

section Ends

variable {State : Type} {step : State → Option State}

/-- The states that a deterministic machine runs through. -/
def Reaches (step : State → Option State) : State → State → Prop :=
  Relation.ReflTransGen fun before after => step before = some after

theorem Reaches.invariant
    {property : State → Prop}
    (kept :
      ∀ before after,
        property before → step before = some after → property after)
    {start final : State}
    (begins : property start)
    (reaches : Reaches step start final) :
    property final := by
  induction reaches with
  | refl => exact begins
  | tail _ last inductionHypothesis =>
      exact kept _ _ inductionHypothesis last

/-- A machine that lowers its bounded stack ends. -/
theorem ends_of_lowers
    {good : State → Prop}
    {levels : State → List Nat}
    {bound : Nat}
    (kept : ∀ before after, good before → step before = some after → good after)
    (bounded : ∀ state, good state → (levels state).length ≤ bound)
    (lowers :
      ∀ before after,
        good before → step before = some after →
          Lowers (levels after) (levels before))
    {start : State}
    (begins : good start) :
    ∃ final, Reaches step start final ∧ step final = none := by
  generalize measured : levels start = stack
  have acc := LowersWithin.acc (measured ▸ bounded start begins)
  induction acc generalizing start with
  | intro stack _ inductionHypothesis =>
      cases next : step start with
      | none => exact ⟨start, .refl, next⟩
      | some after =>
          have good := kept start after begins next
          have lower := lowers start after begins next
          rw [measured] at lower
          obtain ⟨final, reaches, ends⟩ :=
            inductionHypothesis (levels after) ⟨lower, bounded after good⟩
              good rfl
          exact ⟨final, .head next reaches, ends⟩

end Ends

end StaticInit
