import Mathlib.Algebra.Order.BigOperators.Group.Finset
import Mathlib.Data.Fintype.Basic

namespace StaticInit

/-!
# Runs of labelled systems and tallies over threads

The general part of every argument about interleavings in this development.
A run is a sequence of labelled steps; what holds at the start and is kept by
each step holds after every run.  A tally adds up a weight over all threads;
when one thread changes, the tally changes by the difference of its weights.
-/

section Runs

variable {State Action : Type*}

/-- A finite sequence of labelled steps. -/
inductive Run
    (step : State → Action → State → Prop)
    (initial : State) : List Action → State → Prop where
  | refl : Run step initial [] initial
  | snoc
      {actions : List Action}
      {middle final : State}
      (action : Action)
      (earlier : Run step initial actions middle)
      (last : step middle action final) :
      Run step initial (actions ++ [action]) final

variable {step : State → Action → State → Prop} {initial : State}

namespace Run

/-- What every step keeps holds at the end of a run. -/
theorem invariant
    {property : State → Prop}
    (start : property initial)
    (kept :
      ∀ {before after : State} (action : Action),
        property before → step before action after → property after)
    {actions : List Action}
    {final : State}
    (run : Run step initial actions final) :
    property final := by
  induction run with
  | refl => exact start
  | snoc action _ last inductionHypothesis =>
      exact kept action inductionHypothesis last

/-- A run may also grow at its start. -/
theorem cons
    {middle final : State}
    {actions : List Action}
    {action : Action}
    (first : step initial action middle)
    (later : Run step middle actions final) :
    Run step initial (action :: actions) final := by
  induction later with
  | refl => exact .snoc action .refl first
  | snoc last _ ends inductionHypothesis =>
      exact .snoc last inductionHypothesis ends

/-- A run may go on with another one. -/
theorem append
    {middle final : State}
    {earlier later : List Action}
    (first : Run step initial earlier middle)
    (second : Run step middle later final) :
    Run step initial (earlier ++ later) final := by
  induction second with
  | refl =>
      rw [List.append_nil]
      exact first
  | snoc action _ last inductionHypothesis =>
      rw [← List.append_assoc]
      exact .snoc action inductionHypothesis last

theorem of_nil
    {final : State}
    (run : Run step initial [] final) :
    initial = final := by
  generalize empty : ([] : List Action) = actions at run
  cases run with
  | refl => rfl
  | snoc => cases List.append_eq_nil_iff.mp empty.symm |>.2

/-- A run with a last step. -/
theorem unsnoc
    {final : State}
    {action : Action}
    {actions : List Action}
    (run : Run step initial (actions ++ [action]) final) :
    ∃ middle,
      Run step initial actions middle ∧ step middle action final := by
  generalize same : actions ++ [action] = all at run
  cases run with
  | refl => cases List.append_eq_nil_iff.mp same |>.2
  | snoc _ before last =>
      obtain ⟨rfl, lastSame⟩ := List.append_inj' same rfl
      obtain rfl := List.cons.inj lastSame |>.1
      exact ⟨_, before, last⟩

/-- A run passes through a state after each part of its actions. -/
theorem split
    {final : State}
    {earlier later : List Action}
    (run : Run step initial (earlier ++ later) final) :
    ∃ middle,
      Run step initial earlier middle ∧ Run step middle later final := by
  induction later using List.reverseRecOn generalizing final with
  | nil =>
      rw [List.append_nil] at run
      exact ⟨final, run, .refl⟩
  | append_singleton later action inductionHypothesis =>
      rw [← List.append_assoc] at run
      obtain ⟨next, before, last⟩ := run.unsnoc
      obtain ⟨middle, first, second⟩ := inductionHypothesis before
      exact ⟨middle, first, .snoc _ second last⟩

/-- A run with a first step. -/
theorem uncons
    {final : State}
    {action : Action}
    {actions : List Action}
    (run : Run step initial (action :: actions) final) :
    ∃ middle,
      step initial action middle ∧ Run step middle actions final := by
  obtain ⟨middle, first, later⟩ :=
    (show Run step initial ([action] ++ actions) final from run).split
  obtain ⟨start, before, last⟩ :=
    (show Run step initial ([] ++ [action]) middle from first).unsnoc
  obtain rfl := before.of_nil
  exact ⟨middle, last, later⟩

/-- A deterministic system ends where its actions lead. -/
theorem unique
    {actions : List Action}
    {first second : State}
    (run : Run step initial actions first)
    (again : Run step initial actions second)
    (deterministic :
      ∀ {before one other : State} (action : Action),
        step before action one → step before action other → one = other) :
    first = second := by
  induction run generalizing second with
  | refl => exact again.of_nil
  | snoc action _ last inductionHypothesis =>
      obtain ⟨middle, before, ends⟩ := again.unsnoc
      obtain rfl := inductionHypothesis before
      exact deterministic action last ends

/-- A run of one system is a run of any system that allows its actions. -/
theorem mono
    {wider : State → Action → State → Prop}
    {actions : List Action}
    {final : State}
    (allowed :
      ∀ action ∈ actions, ∀ before after,
        step before action after → wider before action after)
    (run : Run step initial actions final) :
    Run wider initial actions final := by
  induction run with
  | refl => exact .refl
  | snoc action _ last inductionHypothesis =>
      apply Run.snoc action
      · apply inductionHypothesis
        intro earlier member
        exact allowed earlier (List.mem_append_left _ member)
      · exact allowed action (List.mem_append_right _ (by simp)) _ _ last

/-- What the steps of a given history keep holds at each point of the history. -/
theorem invariant_of_prefix
    {property : List Action → State → Prop}
    {history : List Action}
    (start : property [] initial)
    (kept :
      ∀ earlier action before after,
        earlier ++ [action] <+: history →
          Run step initial earlier before →
            property earlier before →
              step before action after →
                property (earlier ++ [action]) after)
    {earlier : List Action}
    {final : State}
    (run : Run step initial earlier final)
    (leading : earlier <+: history) :
    property earlier final := by
  induction run with
  | refl => exact start
  | snoc action before last inductionHypothesis =>
      have shorter := (List.prefix_append _ _).trans leading
      exact kept _ action _ _ leading before (inductionHypothesis shorter) last

/-- A system that always goes on, but only so often, comes to an end. -/
theorem completes
    (good : List Action → State → Prop)
    (done : State → Prop)
    (own : Action → Bool)
    (bound : Nat)
    (few :
      ∀ {history : List Action} {state : State},
        good history state → history.countP own ≤ bound)
    (each :
      ∀ {history : List Action} {state : State},
        good history state →
          done state ∨
            ∃ action after,
              own action = true ∧ step state action after ∧
                good (history ++ [action]) after)
    {history : List Action}
    {state : State}
    (start : good history state) :
    ∃ later final,
      Run step state later final ∧ (∀ action ∈ later, own action = true) ∧
        good (history ++ later) final ∧ done final := by
  induction left : bound - history.countP own
    generalizing history state with
  | zero =>
      rcases each start with ends | ⟨action, after, owns, -, next⟩
      · exact ⟨[], state, .refl, nofun, by rwa [List.append_nil], ends⟩
      · have many := few next
        rw [List.countP_append, List.countP_singleton, if_pos owns] at many
        omega
  | succ left inductionHypothesis =>
      rcases each start with ends | ⟨action, after, owns, first, next⟩
      · exact ⟨[], state, .refl, nofun, by rwa [List.append_nil], ends⟩
      · have counted :
            (history ++ [action]).countP own = history.countP own + 1 := by
          rw [List.countP_append, List.countP_singleton, if_pos owns]
        obtain ⟨later, final, run, allOwn, holds, ends⟩ :=
          inductionHypothesis next (by omega)
        refine ⟨action :: later, final, .cons first run, ?_, ?_, ends⟩
        · exact List.forall_mem_cons.mpr ⟨owns, allOwn⟩
        · rwa [List.append_assoc] at holds

/-- A system that can always come to have less to do can come to an end. -/
theorem descends
    {good done : State → Prop}
    {weight : State → Nat}
    (each :
      ∀ {state : State},
        good state →
          done state ∨
            ∃ actions after,
              Run step state actions after ∧ good after ∧
                weight after < weight state)
    {state : State}
    (start : good state) :
    ∃ actions final, Run step state actions final ∧ good final ∧ done final := by
  induction left : weight state using Nat.strong_induction_on
    generalizing state with
  | _ left inductionHypothesis =>
      rcases each start with ends | ⟨actions, after, run, next, less⟩
      · exact ⟨[], state, .refl, start, ends⟩
      · rw [left] at less
        obtain ⟨later, final, rest, holds, ends⟩ :=
          inductionHypothesis _ less next rfl
        exact ⟨actions ++ later, final, run.append rest, holds, ends⟩

end Run

/-- Perform actions of a deterministic system, if each can be performed. -/
def runAll
    (exec : State → Action → Option State)
    (state : State) : List Action → Option State
  | [] => some state
  | action :: rest => (exec state action).bind fun next => runAll exec next rest

/-- Performed actions are a run. -/
theorem Run.of_runAll
    {exec : State → Action → Option State}
    {final : State}
    {actions : List Action}
    (performed : runAll exec initial actions = some final) :
    Run (fun before action after => exec before action = some after)
      initial actions final := by
  induction actions generalizing initial with
  | nil =>
      obtain rfl := Option.some.inj performed
      exact .refl
  | cons action rest inductionHypothesis =>
      obtain ⟨next, executed, later⟩ := Option.bind_eq_some_iff.mp performed
      exact .cons executed (inductionHypothesis later)

end Runs

section Marks

variable {State Action Mark : Type*}

/-- The last mark in a history. -/
def lastMark (mark : Action → Option Mark) (actions : List Action) :
    Option Mark :=
  actions.foldl (fun last action => (mark action).or last) none

@[simp] theorem lastMark_nil (mark : Action → Option Mark) :
    lastMark mark [] = none :=
  rfl

@[simp] theorem lastMark_snoc
    (mark : Action → Option Mark)
    (actions : List Action)
    (action : Action) :
    lastMark mark (actions ++ [action]) =
      (mark action).or (lastMark mark actions) := by
  rw [lastMark, List.foldl_append]
  rfl

/-- Since the last mark of a run there was a state with the property. -/
inductive SinceMark
    (step : State → Action → State → Prop)
    (initial : State)
    (mark : Action → Option Mark)
    (property : State → Prop) : List Action → State → Prop where
  | now
      {actions : List Action}
      {state : State}
      (run : Run step initial actions state)
      (holds : property state) :
      SinceMark step initial mark property actions state
  | later
      {actions : List Action}
      {middle final : State}
      (action : Action)
      (earlier : SinceMark step initial mark property actions middle)
      (silent : mark action = none)
      (last : step middle action final) :
      SinceMark step initial mark property (actions ++ [action]) final

end Marks

section Tally

variable {ι : Type*} [Fintype ι] {α M : Type*} [AddCommMonoid M]

/-- The sum of a weight over a family. -/
def tally (weight : α → M) (family : ι → α) : M :=
  ∑ index, weight (family index)

/-- A tally of something positive has a positive member. -/
theorem exists_weight_ne_zero
    {weight : α → M}
    {family : ι → α}
    (positive : tally weight family ≠ 0) :
    ∃ index, weight (family index) ≠ 0 := by
  by_contra none
  push Not at none
  exact positive (Finset.sum_eq_zero fun index _ => none index)

/-- An additive image of a tally is the tally of the images. -/
theorem map_tally
    {N : Type*}
    [AddCommMonoid N]
    (image : M →+ N)
    (weight : α → M)
    (family : ι → α) :
    image (tally weight family) =
      tally (fun member => image (weight member)) family :=
  map_sum image _ _

/-- Equal weights make equal tallies. -/
theorem tally_congr
    {first second : α → M}
    (same : ∀ member, first member = second member)
    (family : ι → α) :
    tally first family = tally second family :=
  Finset.sum_congr rfl fun index _ => same (family index)

/-- Lighter members make a lighter tally. -/
theorem tally_mono
    {first second : α → Nat}
    (lighter : ∀ member, first member ≤ second member)
    (family : ι → α) :
    tally first family ≤ tally second family :=
  Finset.sum_le_sum fun index _ => lighter (family index)

variable [DecidableEq ι]

/-- The sum of a weight over all members of a family but one. -/
def tallyOthers
    (weight : α → M)
    (family : ι → α)
    (index : ι) : M :=
  ∑ other ∈ Finset.univ.erase index, weight (family other)

/-- A tally is one member and the others. -/
theorem tally_eq_add_others
    (weight : α → M)
    (family : ι → α)
    (index : ι) :
    tally weight family =
      weight (family index) + tallyOthers weight family index :=
  (Finset.add_sum_erase Finset.univ
    (fun other => weight (family other)) (Finset.mem_univ index)).symm

/-- The others do not see a change of the one. -/
@[simp] theorem tallyOthers_update
    (weight : α → M)
    (family : ι → α)
    (index : ι)
    (value : α) :
    tallyOthers weight (Function.update family index value) index =
      tallyOthers weight family index := by
  apply Finset.sum_congr rfl
  intro other member
  rw [Function.update_of_ne (Finset.ne_of_mem_erase member)]

/-- Changing one member exchanges its weight next to the others. -/
theorem tally_update
    (weight : α → M)
    (family : ι → α)
    (index : ι)
    (value : α) :
    tally weight (Function.update family index value) =
      weight value + tallyOthers weight family index := by
  rw [tally_eq_add_others weight _ index, Function.update_self,
    tallyOthers_update]

/-- What holds of each weight and is kept by sums holds of the others. -/
theorem tallyOthers_induction
    {property : M → Prop}
    (weight : α → M)
    (family : ι → α)
    (index : ι)
    (zero : property 0)
    (add :
      ∀ first second,
        property first → property second → property (first + second))
    (each : ∀ member, property (weight member)) :
    property (tallyOthers weight family index) :=
  Finset.sum_induction _ property add zero fun other _ =>
    each (family other)

/-- Equal weights of the others. -/
theorem tallyOthers_congr
    {first second : α → M}
    (same : ∀ member, first member = second member)
    (family : ι → α)
    (index : ι) :
    tallyOthers first family index = tallyOthers second family index :=
  Finset.sum_congr rfl fun other _ => same (family other)

/-- An additive image of what the others weigh. -/
theorem map_tallyOthers
    {N : Type*}
    [AddCommMonoid N]
    (image : M →+ N)
    (weight : α → M)
    (family : ι → α)
    (index : ι) :
    image (tallyOthers weight family index) =
      tallyOthers (fun member => image (weight member)) family index :=
  map_sum image _ _

/-- If the others weigh something, one of them does. -/
theorem exists_other_weight_ne_zero
    {weight : α → M}
    {family : ι → α}
    {index : ι}
    (positive : tallyOthers weight family index ≠ 0) :
    ∃ other, other ≠ index ∧ weight (family other) ≠ 0 := by
  obtain ⟨other, member, weighs⟩ :=
    Finset.exists_ne_zero_of_sum_ne_zero positive
  exact ⟨other, Finset.ne_of_mem_erase member, weighs⟩

/-- Gaining a weight for each chosen member adds it that many times. -/
theorem tally_gained
    (weight : α → M)
    {family changed : ι → α}
    {chosen : Finset ι}
    {gain : M}
    (gained :
      ∀ index ∈ chosen,
        weight (changed index) = weight (family index) + gain)
    (kept :
      ∀ index, index ∉ chosen → changed index = family index) :
    tally weight changed = tally weight family + chosen.card • gain := by
  have split :
      ∀ index,
        weight (changed index) =
          weight (family index) + if index ∈ chosen then gain else 0 := by
    intro index
    by_cases member : index ∈ chosen
    · simp [member, gained index member]
    · simp [member, kept index member]
  unfold tally
  simp [split, Finset.sum_add_distrib]

section Ordered

variable [PartialOrder M] [IsOrderedAddMonoid M]

/-- A member weighs at most as much as all but another one. -/
theorem weight_le_tallyOthers
    {weight : α → M}
    (nonneg : ∀ member, 0 ≤ weight member)
    (family : ι → α)
    {index other : ι}
    (different : other ≠ index) :
    weight (family other) ≤ tallyOthers weight family index := by
  have member : other ∈ Finset.univ.erase index :=
    Finset.mem_erase.mpr ⟨different, Finset.mem_univ other⟩
  unfold tallyOthers
  rw [← Finset.add_sum_erase _ (fun other => weight (family other)) member]
  exact le_add_of_nonneg_right
    (Finset.sum_nonneg fun other _ => nonneg (family other))

end Ordered

end Tally

end StaticInit
