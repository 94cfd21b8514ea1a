import StaticInit.ExitSequentializer.Order
import StaticInit.LazySequentializer.Exit
import StaticInit.LazySequentializer.Lockers
import StaticInit.LazySequentializer.Registration

namespace StaticInit.ProgramExit

/-!
# All finalizable statics of a program

Any number of statics, each driven by its own sequentializer and accessed by
any number of threads, share the register of program exit: the registration
function of each static is `finalize_at_exit`, and `execute_at_exit` calls
`finalize_callback` of one static after the other.  A finalizer that panics
ends the program.
-/

/-- The statics and the register. -/
structure Program (ν ι : Type) where
  static : ν → Lazily.State ι
  register : ExitRegister.State ν

/-- A program before its first access. -/
def Program.fresh (ν ι : Type) : Program ν ι where
  static := fun _ => .fresh ι
  register := .fresh ν

/-- What happens in a program. -/
inductive Event (ν ι : Type) where
  | static (node : ν) (event : Lazily.Event ι)
  | exit (event : ExitRegister.Event ν)

/-- What a static does on its own, without the register. -/
def ownEvent {ι : Type} : Lazily.Event ι → Bool
  | .returned _ .reg _ => false
  | .panicked _ .reg => false
  | .panicked _ .finalize => false
  | .reach => false
  | _ => true

section Steps

variable {ν ι : Type} [DecidableEq ν] [DecidableEq ι]

/-- Replace one static. -/
def Program.setStatic
    (program : Program ν ι)
    (node : ν)
    (state : Lazily.State ι) : Program ν ι :=
  { program with static := Function.update program.static node state }

/-- One step of a program. -/
inductive Step
    (tolerance : ν → GeneratorTolerance)
    (program : Program ν ι) : Event ν ι → Program ν ι → Prop where
  /-- `finalize_at_exit` returns. -/
  | registers
      {node : ν}
      {actor : ι}
      {value : Bool}
      {state : Lazily.State ι}
      {register : ExitRegister.State ν}
      (returns :
        Lazily.State.Step (tolerance node) (program.static node)
          (.returned actor .reg value) state)
      (registered :
        program.register.finalizeAtExit node = some (register, value)) :
      Step tolerance program (.static node (.returned actor .reg value))
        { program.setStatic node state with register := register }
  /-- The assertion of `finalize_at_exit` fails. -/
  | rejects
      {node : ν}
      {actor : ι}
      {state : Lazily.State ι}
      (panics :
        Lazily.State.Step (tolerance node) (program.static node)
          (.panicked actor .reg) state)
      (twice : program.register.finalizeAtExit node = none) :
      Step tolerance program (.static node (.panicked actor .reg))
        (program.setStatic node state)
  | steps
      {node : ν}
      {event : Lazily.Event ι}
      {state : Lazily.State ι}
      (step :
        Lazily.State.Step (tolerance node) (program.static node) event state)
      (own : ownEvent event = true) :
      Step tolerance program (.static node event)
        (program.setStatic node state)
  /-- `execute_at_exit` calls `finalize_callback`. -/
  | executes
      {node : ν}
      {register : ExitRegister.State ν}
      (exits : program.register.exit = some (register, .execute node)) :
      Step tolerance program (.exit (.execute node))
        { program.setStatic node (program.static node).reach with
          register := register }
  /-- `execute_at_exit` goes on once `finalize_callback` has returned. -/
  | walks
      {event : ExitRegister.Event ν}
      {register : ExitRegister.State ν}
      (exits : program.register.exit = some (register, event))
      (walks : ∀ node, event ≠ .execute node)
      (returned :
        ∀ node, program.register.stage = .executed node →
          (program.static node).exit = .returned) :
      Step tolerance program (.exit event)
        { program with register := register }

end Steps

section Histories

variable {ν ι : Type} [DecidableEq ν]

/-- What a static takes part in. -/
def Event.seenBy (node : ν) : Event ν ι → Option (Lazily.Event ι)
  | .static other event => if other = node then some event else none
  | .exit (.execute other) => if other = node then some .reach else none
  | .exit _ => none

omit [DecidableEq ν] in
/-- What the register takes part in. -/
def Event.seenByRegister : Event ν ι → Option (ExitRegister.Event ν)
  | .static node (.returned _ .reg value) => some (.finalizeAtExit node value)
  | .static _ _ => none
  | .exit event => some event

def staticEvents (node : ν) (events : List (Event ν ι)) :
    List (Lazily.Event ι) :=
  events.filterMap (Event.seenBy node)

def registerEvents (events : List (Event ν ι)) :
    List (ExitRegister.Event ν) :=
  events.filterMap Event.seenByRegister

/-- The static whose finalizer is called. -/
def Event.finalizes : Event ν ι → Option ν
  | .static node (.call _ .finalize) => some node
  | _ => none

/-- The statics whose finalizer was called. -/
def finalizedNodes (events : List (Event ν ι)) : List ν :=
  events.filterMap Event.finalizes

/-- `execute_at_exit` takes what is registered. -/
def Event.detaches : Event ν ι → Bool
  | .exit .begin => true
  | .exit .orElse => true
  | _ => false

end Histories

section Projections

variable {ν ι : Type} [DecidableEq ν] {events : List (Event ν ι)}
  {event : Event ν ι} {node : ν}

theorem seenBy_self (event : Lazily.Event ι) :
    (Event.static node event).seenBy node = some event :=
  if_pos rfl

theorem seenBy_other
    {other : ν}
    (event : Lazily.Event ι)
    (different : other ≠ node) :
    (Event.static node event).seenBy other = none :=
  if_neg (Ne.symm different)

/-- Only the exit pass reaches a static from outside. -/
theorem event_of_seenBy
    {seen : Lazily.Event ι}
    (sees : event.seenBy node = some seen)
    (own : seen ≠ .reach) :
    event = .static node seen := by
  unfold Event.seenBy at sees
  split at sees
  case h_1 =>
    obtain ⟨rfl, same⟩ := Option.ite_none_right_eq_some.mp sees
    rw [Option.some.inj same]
  case h_2 =>
    obtain ⟨-, same⟩ := Option.ite_none_right_eq_some.mp sees
    exact absurd (Option.some.inj same).symm own
  case h_3 => cases sees

theorem staticEvents_snoc_some
    {seen : Lazily.Event ι}
    (sees : event.seenBy node = some seen) :
    staticEvents node (events ++ [event]) =
      staticEvents node events ++ [seen] := by
  rw [staticEvents, List.filterMap_append, List.filterMap_cons_some sees]
  rfl

theorem staticEvents_snoc_none
    (unseen : event.seenBy node = none) :
    staticEvents node (events ++ [event]) = staticEvents node events := by
  rw [staticEvents, List.filterMap_append, List.filterMap_cons_none unseen]
  exact List.append_nil _

omit [DecidableEq ν] in
theorem registerEvents_snoc_some
    {seen : ExitRegister.Event ν}
    (sees : event.seenByRegister = some seen) :
    registerEvents (events ++ [event]) = registerEvents events ++ [seen] := by
  rw [registerEvents, List.filterMap_append, List.filterMap_cons_some sees]
  rfl

omit [DecidableEq ν] in
theorem registerEvents_snoc_none
    (unseen : event.seenByRegister = none) :
    registerEvents (events ++ [event]) = registerEvents events := by
  rw [registerEvents, List.filterMap_append, List.filterMap_cons_none unseen]
  exact List.append_nil _

omit [DecidableEq ν] in
/-- The register takes no part in what a static does on its own. -/
theorem seenByRegister_own
    {own : Lazily.Event ι}
    (owns : ownEvent own = true) :
    (Event.static node own).seenByRegister = none := by
  cases own with
  | returned actor call value =>
      cases call with
      | reg => cases owns
      | _ => rfl
  | _ => rfl

/-- What a static takes part in only grows. -/
theorem staticEvents_subrun (node : ν) (event : Event ν ι) :
    staticEvents node events <+: staticEvents node (events ++ [event]) := by
  rw [staticEvents, staticEvents, List.filterMap_append]
  exact List.prefix_append _ _

theorem endsReg_le_snoc (node : ν) (event : Event ν ι) :
    (staticEvents node events).countP Lazily.Event.endsReg ≤
      (staticEvents node (events ++ [event])).countP Lazily.Event.endsReg :=
  (staticEvents_subrun node event).sublist.countP_le

/-- An accepted static stays accepted. -/
theorem accepted_snoc
    (event : Event ν ι)
    (accepted :
      (Lazily.summary (staticEvents node events)).accepted = true) :
    (Lazily.summary (staticEvents node (events ++ [event]))).accepted =
      true := by
  cases sees : event.seenBy node with
  | none =>
      rw [staticEvents_snoc_none sees]
      exact accepted
  | some seen =>
      rw [staticEvents_snoc_some sees, Lazily.summary_append]
      unfold Lazily.Summary.add
      split
      case h_4 => exact Bool.or_eq_true_iff.mpr (.inl accepted)
      all_goals exact accepted

/-- The finalizer was not called before, if it was not called later. -/
theorem finalizeCalls_snoc (node : ν) (event : Event ν ι) :
    (Lazily.summary (staticEvents node events)).finalizeCalls ≤
      (Lazily.summary
        (staticEvents node (events ++ [event]))).finalizeCalls := by
  cases sees : event.seenBy node with
  | none => rw [staticEvents_snoc_none sees]
  | some seen =>
      rw [staticEvents_snoc_some sees, Lazily.summary_append]
      unfold Lazily.Summary.add
      split
      case h_3 => exact Nat.le_succ _
      all_goals exact Nat.le_refl _

omit [DecidableEq ν] in
theorem finalizes_eq
    {other : ν}
    (finalizes : event.finalizes = some other) :
    ∃ actor, event = .static other (.call actor .finalize) := by
  unfold Event.finalizes at finalizes
  split at finalizes
  case h_1 node actor =>
    obtain rfl := Option.some.inj finalizes
    exact ⟨actor, rfl⟩
  case h_2 => cases finalizes

omit [DecidableEq ν] in
theorem finalizedNodes_snoc_none
    (unseen : event.finalizes = none) :
    finalizedNodes (events ++ [event]) = finalizedNodes events := by
  rw [finalizedNodes, List.filterMap_append, List.filterMap_cons_none unseen]
  exact List.append_nil _

omit [DecidableEq ν] in
theorem finalizedNodes_snoc_some
    (sees : event.finalizes = some node) :
    finalizedNodes (events ++ [event]) = finalizedNodes events ++ [node] := by
  rw [finalizedNodes, List.filterMap_append, List.filterMap_cons_some sees]
  rfl

end Projections

section Invariant

variable {ν ι : Type} [DecidableEq ν] [DecidableEq ι]
  {tolerance : ν → GeneratorTolerance} {events : List (Event ν ι)}
  {program after : Program ν ι}

/-- Each static and the register make runs of their own, in step. -/
structure Inv
    (tolerance : ν → GeneratorTolerance)
    (events : List (Event ν ι))
    (program : Program ν ι) : Prop where
  static :
    ∀ node,
      Run (Lazily.State.Step (tolerance node)) (Lazily.State.fresh ι)
        (staticEvents node events) (program.static node)
  register :
    Run ExitRegister.Step (ExitRegister.State.fresh ν)
      (registerEvents events) program.register
  called :
    ∀ node,
      (ExitRegister.calledNodes (registerEvents events)).count node ≤
        (staticEvents node events).countP Lazily.Event.endsReg
  accepted :
    ∀ node ∈ ExitRegister.acceptedNodes (registerEvents events),
      (Lazily.summary (staticEvents node events)).accepted = true
  pending :
    ∀ node, node ∉ ExitRegister.executedNodes (registerEvents events) →
      (program.static node).exit = .pending
  passing :
    ∀ node, (program.static node).exit.isPassing = true →
      program.register.stage = .executed node
  finalized :
    (finalizedNodes events).Sublist
      (ExitRegister.executedNodes (registerEvents events))
  current :
    ∀ node, program.register.stage = .executed node →
      ∃ past,
        ExitRegister.executedNodes (registerEvents events) = past ++ [node] ∧
          ((Lazily.summary (staticEvents node events)).finalizeCalls = 0 →
            (finalizedNodes events).Sublist past)

omit [DecidableEq ι] in
/-- Where `execute_at_exit` calls `execute`. -/
theorem exit_execute
    {state register : ExitRegister.State ν}
    {node : ν}
    (exits : state.exit = some (register, .execute node)) :
    state.stage = .loop (some node) ∧
      register = { state with stage := .executed node } := by
  unfold ExitRegister.State.exit at exits
  split at exits
  case h_3 place =>
    cases exits
    exact ⟨place, rfl⟩
  case h_4 => split at exits <;> cases exits
  all_goals cases exits

omit [DecidableEq ι] in
/-- The other steps of `execute_at_exit` lead to the head of the loop. -/
theorem exit_walks
    {state register : ExitRegister.State ν}
    {event : ExitRegister.Event ν}
    (exits : state.exit = some (register, event))
    (walks : ∀ node, event ≠ .execute node) :
    event.isExit = true ∧ ∀ node, register.stage ≠ .executed node := by
  unfold ExitRegister.State.exit at exits
  split at exits
  case h_2 => cases exits
  case h_3 node _ =>
    cases exits
    exact absurd rfl (walks node)
  case h_4 =>
    split at exits
    all_goals
      cases exits
      exact ⟨rfl, nofun⟩
  all_goals
    cases exits
    exact ⟨rfl, nofun⟩

namespace Inv

theorem fresh (tolerance : ν → GeneratorTolerance) :
    Inv tolerance [] (Program.fresh ν ι) where
  static := fun _ => .refl
  register := .refl
  called := fun _ => Nat.le_refl 0
  accepted := nofun
  pending := fun _ _ => rfl
  passing := nofun
  finalized := .slnil
  current := nofun

/-- No static is registered twice. -/
theorem distinct
    (inv : Inv tolerance events program) :
    (ExitRegister.calledNodes (registerEvents events)).Nodup := by
  rw [List.nodup_iff_count_le_one]
  intro node
  exact (inv.called node).trans (Lazily.State.endsReg_le (inv.static node))

/-- The static of an event makes its step, and the others none. -/
theorem static_step
    {node : ν}
    {event : Event ν ι}
    {seen : Lazily.Event ι}
    {state : Lazily.State ι}
    (inv : Inv tolerance events program)
    (sees : event.seenBy node = some seen)
    (unseen : ∀ other, other ≠ node → event.seenBy other = none)
    (step :
      Lazily.State.Step (tolerance node) (program.static node) seen state)
    (other : ν) :
    Run (Lazily.State.Step (tolerance other)) (Lazily.State.fresh ι)
      (staticEvents other (events ++ [event]))
      ((program.setStatic node state).static other) := by
  unfold Program.setStatic
  by_cases same : other = node
  · subst same
    rw [staticEvents_snoc_some sees]
    dsimp only
    rw [Function.update_self]
    exact .snoc _ (inv.static other) step
  · rw [staticEvents_snoc_none (unseen other same)]
    dsimp only
    rw [Function.update_of_ne same]
    exact inv.static other

/-- The finalizer of a static starts where `execute_at_exit` is. -/
theorem of_finalize
    {node : ν}
    {actor : ι}
    {state : Lazily.State ι}
    (inv : Inv tolerance events program)
    (step :
      Lazily.State.Step (tolerance node) (program.static node)
        (.call actor .finalize) state) :
    program.register.stage = .executed node ∧
      (Lazily.summary (staticEvents node events)).finalizeCalls = 0 := by
  have lazily := Lazily.State.Inv.of_run (inv.static node)
  obtain ⟨passes, first⟩ := lazily.finalizing_of_finalize step
  exact ⟨inv.passing node passes, first⟩

/-- An event of one static, while the register stays at its stage. -/
theorem acts
    {node : ν}
    {event : Lazily.Event ι}
    {state : Lazily.State ι}
    {register : ExitRegister.State ν}
    (inv : Inv tolerance events program)
    (step :
      Lazily.State.Step (tolerance node) (program.static node) event state)
    (other : event ≠ .reach)
    (run :
      Run ExitRegister.Step (ExitRegister.State.fresh ν)
        (registerEvents (events ++ [.static node event])) register)
    (stage : register.stage = program.register.stage)
    (executed :
      ExitRegister.executedNodes
          (registerEvents (events ++ [.static node event])) =
        ExitRegister.executedNodes (registerEvents events))
    (called :
      ∀ other,
        (ExitRegister.calledNodes
            (registerEvents (events ++ [.static node event]))).count other ≤
          (staticEvents other (events ++ [.static node event])).countP
            Lazily.Event.endsReg)
    (accepted :
      ∀ other ∈
        ExitRegister.acceptedNodes
          (registerEvents (events ++ [.static node event])),
        (Lazily.summary
          (staticEvents other
            (events ++ [.static node event]))).accepted = true) :
    Inv tolerance (events ++ [.static node event])
      { program.setStatic node state with register := register } := by
  have sees : (Event.static node event).seenBy node = some event :=
    seenBy_self event
  have lazily := Lazily.State.Inv.of_run (inv.static node)
  have moved := lazily.exit_of_step step other
  refine
    { static := inv.static_step sees (fun _ => seenBy_other event) step
      register := run
      called := called
      accepted := accepted
      pending := ?_
      passing := ?_
      finalized := ?_
      current := ?_ }
  · intro other absent
    rw [executed] at absent
    have before := inv.pending other absent
    by_cases same : other = node
    · subst same
      simp only [Program.setStatic, Function.update_self]
      obtain same | ⟨passes, -⟩ := moved
      · exact same.trans before
      · rw [before] at passes
        cases passes
    · simp only [Program.setStatic, Function.update_of_ne same]
      exact before
  · intro other passes
    rw [stage]
    by_cases same : other = node
    · subst same
      simp only [Program.setStatic, Function.update_self] at passes
      obtain same | ⟨before, -⟩ := moved
      · exact inv.passing other (same ▸ passes)
      · exact inv.passing other before
    · simp only [Program.setStatic, Function.update_of_ne same] at passes
      exact inv.passing other passes
  · rw [executed]
    cases finalizes : (Event.static node event).finalizes with
    | none =>
        rw [finalizedNodes_snoc_none finalizes]
        exact inv.finalized
    | some finalized =>
        rw [finalizedNodes_snoc_some finalizes]
        obtain ⟨actor, same⟩ := finalizes_eq finalizes
        obtain ⟨rfl, rfl⟩ := Event.static.inj same
        obtain ⟨place, first⟩ := inv.of_finalize step
        obtain ⟨past, whole, sublist⟩ := inv.current node place
        rw [whole]
        exact (sublist first).append_right [node]
  · intro other place
    rw [stage] at place
    obtain ⟨past, whole, sublist⟩ := inv.current other place
    rw [executed]
    refine ⟨past, whole, fun first => ?_⟩
    have before :=
      Nat.le_zero.mp
        ((finalizeCalls_snoc other (.static node event)).trans_eq first)
    cases finalizes : (Event.static node event).finalizes with
    | none =>
        rw [finalizedNodes_snoc_none finalizes]
        exact sublist before
    | some finalized =>
        obtain ⟨actor, same⟩ := finalizes_eq finalizes
        obtain ⟨rfl, rfl⟩ := Event.static.inj same
        obtain ⟨placed, -⟩ := inv.of_finalize step
        obtain rfl := ExitRegister.Stage.executed.inj (place.symm.trans placed)
        rw [staticEvents_snoc_some sees, Lazily.summary_append] at first
        cases first

/-- A static that the register does not know has no link. -/
theorem finalizeAtExit_ne_none
    {node : ν}
    (inv : Inv tolerance events program)
    (fresh : node ∉ ExitRegister.calledNodes (registerEvents events)) :
    program.register.finalizeAtExit node ≠ none := by
  obtain ⟨batches, lists⟩ :=
    ExitRegister.Lists.of_run inv.register inv.distinct
  rw [← ExitRegister.calledNodes_effects] at fresh
  have unlinked := lists.follows.unlinked node fresh
  unfold ExitRegister.State.finalizeAtExit
  rw [if_pos unlinked]
  split
  case isTrue => nofun
  case isFalse => nofun

/-- Where `reg` of a static ends the register was not called for it. -/
theorem uncalled
    {node : ν}
    {event : Lazily.Event ι}
    {state : Lazily.State ι}
    (inv : Inv tolerance events program)
    (step :
      Lazily.State.Step (tolerance node) (program.static node) event state)
    (ends : event.endsReg = true) :
    node ∉ ExitRegister.calledNodes (registerEvents events) := by
  have bound := Lazily.State.endsReg_le (.snoc event (inv.static node) step)
  rw [List.countP_append, List.countP_singleton, if_pos ends] at bound
  have called := inv.called node
  exact List.count_eq_zero.mp (by omega)

/-- `finalize_at_exit` leaves the stage. -/
theorem stage_of_finalizeAtExit
    {state register : ExitRegister.State ν}
    {node : ν}
    {value : Bool}
    (registered : state.finalizeAtExit node = some (register, value)) :
    register.stage = state.stage := by
  unfold ExitRegister.State.finalizeAtExit at registered
  split at registered
  case isTrue =>
    split at registered
    case isTrue =>
      obtain ⟨rfl, -⟩ := Prod.mk.inj (Option.some.inj registered)
      rfl
    case isFalse => cases registered
  case isFalse =>
    obtain ⟨rfl, -⟩ := Prod.mk.inj (Option.some.inj registered)
    rfl

/-- `finalize_at_exit` returns to a static. -/
theorem registers
    {node : ν}
    {actor : ι}
    {value : Bool}
    {state : Lazily.State ι}
    {register : ExitRegister.State ν}
    (inv : Inv tolerance events program)
    (returns :
      Lazily.State.Step (tolerance node) (program.static node)
        (.returned actor .reg value) state)
    (registered :
      program.register.finalizeAtExit node = some (register, value)) :
    Inv tolerance (events ++ [.static node (.returned actor .reg value)])
      { program.setStatic node state with register := register } := by
  have sees :
      (Event.static node (.returned actor .reg value)).seenByRegister =
        some (.finalizeAtExit node value) := rfl
  refine inv.acts returns nofun ?_ (stage_of_finalizeAtExit registered) ?_ ?_ ?_
  · rw [registerEvents_snoc_some sees]
    exact .snoc _ inv.register registered
  · rw [registerEvents_snoc_some sees, ExitRegister.executedNodes_call]
  · intro other
    rw [registerEvents_snoc_some sees, ExitRegister.calledNodes_call,
      List.count_append]
    have called := inv.called other
    by_cases same : other = node
    · subst same
      rw [staticEvents_snoc_some (seenBy_self _), List.countP_append]
      simpa [Lazily.Event.endsReg] using called
    · rw [staticEvents_snoc_none (seenBy_other _ same)]
      simpa [Ne.symm same] using called
  · intro other accepted
    rw [registerEvents_snoc_some sees] at accepted
    cases value with
    | true =>
        rw [ExitRegister.acceptedNodes_accepted, List.mem_append,
          List.mem_singleton] at accepted
        obtain before | rfl := accepted
        · exact accepted_snoc _ (inv.accepted other before)
        · rw [staticEvents_snoc_some (seenBy_self _), Lazily.summary_append]
          exact Bool.or_true _
    | false =>
        rw [ExitRegister.acceptedNodes_refused] at accepted
        exact accepted_snoc _ (inv.accepted other accepted)

/-- A static moves on its own. -/
theorem steps
    {node : ν}
    {event : Lazily.Event ι}
    {state : Lazily.State ι}
    (inv : Inv tolerance events program)
    (step :
      Lazily.State.Step (tolerance node) (program.static node) event state)
    (own : ownEvent event = true) :
    Inv tolerance (events ++ [.static node event])
      (program.setStatic node state) := by
  have unseen :
      registerEvents (events ++ [.static node event]) = registerEvents events :=
    registerEvents_snoc_none (seenByRegister_own own)
  have other : event ≠ .reach := by
    rintro rfl
    cases own
  refine inv.acts step other ?_ rfl ?_ ?_ ?_
  · rw [unseen]
    exact inv.register
  · rw [unseen]
  · intro other
    rw [unseen]
    exact (inv.called other).trans (endsReg_le_snoc other _)
  · intro other accepted
    rw [unseen] at accepted
    exact accepted_snoc _ (inv.accepted other accepted)

/-- `execute_at_exit` comes to a static that waits for it. -/
theorem reaches
    {node : ν}
    (inv : Inv tolerance events program)
    (place : program.register.stage = .loop (some node)) :
    Lazily.State.Step (tolerance node) (program.static node) .reach
      (program.static node).reach := by
  obtain ⟨batches, lists⟩ :=
    ExitRegister.Lists.of_run inv.register inv.distinct
  obtain ⟨accepted, first⟩ := lists.of_execute inv.distinct place
  have lazily := Lazily.State.ExitInv.of_run (inv.static node)
  have listed := lazily.listed.trans (inv.accepted node accepted)
  exact if_pos ⟨listed, inv.pending node first⟩

theorem executes
    {node : ν}
    {register : ExitRegister.State ν}
    (inv : Inv tolerance events program)
    (exits : program.register.exit = some (register, .execute node)) :
    Inv tolerance (events ++ [.exit (.execute node)])
      { program.setStatic node (program.static node).reach with
        register := register } := by
  obtain ⟨place, rfl⟩ := exit_execute exits
  have sees : (Event.exit (.execute node) : Event ν ι).seenBy node = some .reach :=
    if_pos rfl
  have unseen (other : ν) (different : other ≠ node) :
      (Event.exit (.execute node) : Event ν ι).seenBy other = none :=
    if_neg (Ne.symm different)
  have shown :
      registerEvents (events ++ [.exit (.execute node)]) =
        registerEvents events ++ [.execute node] :=
    registerEvents_snoc_some rfl
  have quiet :
      finalizedNodes (events ++ [.exit (.execute node)]) =
        finalizedNodes events :=
    finalizedNodes_snoc_none rfl
  refine
    { static := inv.static_step sees unseen (inv.reaches place)
      register := ?_
      called := ?_
      accepted := ?_
      pending := ?_
      passing := ?_
      finalized := ?_
      current := ?_ }
  · rw [shown]
    exact .snoc _ inv.register exits
  · intro other
    rw [shown, ExitRegister.calledNodes_exit _ rfl]
    exact (inv.called other).trans (endsReg_le_snoc other _)
  · intro other accepted
    rw [shown, ExitRegister.acceptedNodes_exit _ rfl] at accepted
    exact accepted_snoc _ (inv.accepted other accepted)
  · intro other absent
    rw [shown, ExitRegister.executedNodes_execute, List.mem_append,
      List.mem_singleton, not_or] at absent
    simp only [Program.setStatic, Function.update_of_ne absent.2]
    exact inv.pending other absent.1
  · intro other passes
    by_cases same : other = node
    · rw [same]
    · simp only [Program.setStatic, Function.update_of_ne same] at passes
      cases place.symm.trans (inv.passing other passes)
  · rw [quiet, shown, ExitRegister.executedNodes_execute]
    exact inv.finalized.trans (List.sublist_append_left _ _)
  · intro other placed
    obtain rfl := ExitRegister.Stage.executed.inj placed
    rw [quiet, shown, ExitRegister.executedNodes_execute]
    exact ⟨_, rfl, fun _ => inv.finalized⟩

/-- `execute_at_exit` goes on. -/
theorem walks
    {event : ExitRegister.Event ν}
    {register : ExitRegister.State ν}
    (inv : Inv tolerance events program)
    (exits : program.register.exit = some (register, event))
    (walks : ∀ node, event ≠ .execute node)
    (returned :
      ∀ node, program.register.stage = .executed node →
        (program.static node).exit = .returned) :
    Inv tolerance (events ++ [.exit event])
      { program with register := register } := by
  obtain ⟨isExit, left⟩ := exit_walks exits walks
  have unseen (node : ν) : (Event.exit event : Event ν ι).seenBy node = none := by
    cases event with
    | execute other => exact absurd rfl (walks other)
    | _ => rfl
  have shown :
      registerEvents (events ++ [.exit event]) =
        registerEvents events ++ [event] :=
    registerEvents_snoc_some rfl
  have quiet :
      finalizedNodes (events ++ [.exit event]) = finalizedNodes events :=
    finalizedNodes_snoc_none rfl
  refine
    { static := ?_
      register := ?_
      called := ?_
      accepted := ?_
      pending := ?_
      passing := ?_
      finalized := ?_
      current := fun node place => absurd place (left node) }
  · intro node
    rw [staticEvents_snoc_none (unseen node)]
    exact inv.static node
  · rw [shown]
    apply Run.snoc _ inv.register
    cases event with
    | finalizeAtExit other accepted => cases isExit
    | _ => exact exits
  · intro node
    rw [shown, ExitRegister.calledNodes_exit _ isExit]
    exact (inv.called node).trans (endsReg_le_snoc node _)
  · intro node accepted
    rw [shown, ExitRegister.acceptedNodes_exit _ isExit] at accepted
    exact accepted_snoc _ (inv.accepted node accepted)
  · intro node absent
    rw [shown, ExitRegister.executedNodes_exit _ isExit walks] at absent
    exact inv.pending node absent
  · intro node passes
    have gone := returned node (inv.passing node passes)
    dsimp only at passes
    rw [gone] at passes
    cases passes
  · rw [quiet, shown, ExitRegister.executedNodes_exit _ isExit walks]
    exact inv.finalized

/-- Every step of a program, and no registration is rejected. -/
theorem step
    {event : Event ν ι}
    (inv : Inv tolerance events program)
    (step : Step tolerance program event after) :
    Inv tolerance (events ++ [event]) after ∧
      ∀ node actor, event ≠ .static node (.panicked actor .reg) := by
  cases step with
  | registers returns registered =>
      exact ⟨inv.registers returns registered, nofun⟩
  | rejects panics twice =>
      exact absurd twice (inv.finalizeAtExit_ne_none (inv.uncalled panics rfl))
  | steps step own =>
      refine ⟨inv.steps step own, ?_⟩
      rintro node actor same
      obtain ⟨-, rfl⟩ := Event.static.inj same
      cases own
  | executes exits => exact ⟨inv.executes exits, nofun⟩
  | walks exits others returned =>
      exact ⟨inv.walks exits others returned, nofun⟩

theorem of_run
    (run : Run (Step tolerance) (Program.fresh ν ι) events program) :
    Inv tolerance events program := by
  induction run with
  | refl => exact .fresh tolerance
  | snoc event _ last inductionHypothesis =>
      exact (inductionHypothesis.step last).1

/-- A static whose finalizer was called was accepted. -/
theorem accepted_of_finalized
    {node : ν}
    (inv : Inv tolerance events program)
    (executed : node ∈ ExitRegister.executedNodes (registerEvents events)) :
    (Lazily.summary (staticEvents node events)).accepted = true := by
  obtain ⟨batches, lists⟩ :=
    ExitRegister.Lists.of_run inv.register inv.distinct
  rw [← ExitRegister.executedNodes_effects] at executed
  have accepted := lists.follows.ran.accepted executed
  rw [ExitRegister.acceptedNodes_effects] at accepted
  exact inv.accepted node accepted

/-- No finalizer is called twice. -/
theorem finalized_nodup
    (inv : Inv tolerance events program) :
    (ExitRegister.executedNodes (registerEvents events)).Nodup := by
  have distinct := inv.distinct
  obtain ⟨batches, lists⟩ := ExitRegister.Lists.of_run inv.register distinct
  rw [← ExitRegister.calledNodes_effects] at distinct
  rw [← ExitRegister.executedNodes_effects]
  exact lists.follows.ran.once distinct

end Inv

end Invariant

section Histories

variable {ν ι : Type} [DecidableEq ν] {events : List (Event ν ι)} {node : ν}

omit [DecidableEq ν] in
/-- The register is detached where `execute_at_exit` takes what is registered. -/
theorem detached_mem_iff :
    .detached ∈ ExitRegister.effects (registerEvents events) ↔
      events.any Event.detaches = true := by
  induction events with
  | nil => simp [ExitRegister.effects, registerEvents]
  | cons event events inductionHypothesis =>
      unfold ExitRegister.effects registerEvents at inductionHypothesis ⊢
      rw [List.any_cons, Bool.or_eq_true, ← inductionHypothesis]
      cases event with
      | static node event =>
          cases event with
          | returned actor call value =>
              cases call with
              | _ =>
                  simp [Event.seenByRegister, Event.detaches,
                    ExitRegister.Event.effect]
          | _ => simp [Event.seenByRegister, Event.detaches]
      | exit event =>
          cases event with
          | _ =>
              simp [Event.seenByRegister, Event.detaches,
                ExitRegister.Event.effect]

/-- Where a static is accepted its registration returned true. -/
theorem exists_returned
    (accepted :
      (Lazily.summary (staticEvents node events)).accepted = true) :
    ∃ actor, .static node (.returned actor .reg true) ∈ events := by
  induction events using List.reverseRecOn with
  | nil => cases accepted
  | append_singleton events event inductionHypothesis =>
      by_cases before :
          (Lazily.summary (staticEvents node events)).accepted = true
      · obtain ⟨actor, member⟩ := inductionHypothesis before
        exact ⟨actor, List.mem_append_left _ member⟩
      cases sees : event.seenBy node with
      | none =>
          rw [staticEvents_snoc_none sees] at accepted
          exact absurd accepted before
      | some seen =>
          rw [staticEvents_snoc_some sees, Lazily.summary_append] at accepted
          unfold Lazily.Summary.add at accepted
          split at accepted
          case h_4 actor value =>
            obtain rfl := (Bool.or_eq_true_iff.mp accepted).resolve_left before
            obtain rfl := event_of_seenBy sees nofun
            exact ⟨actor, List.mem_append_right _ List.mem_cons_self⟩
          all_goals exact absurd accepted before

end Histories

section Promises

variable {ν ι : Type} [DecidableEq ν] [DecidableEq ι]

/-- What a program promises of its statics, in a history. -/
structure Promises (events : List (Event ν ι)) : Prop where
  registeredOnce : (ExitRegister.calledNodes (registerEvents events)).Nodup
  /-- The assertion of `finalize_at_exit` never fails. -/
  registers : ∀ node actor, .static node (.panicked actor .reg) ∉ events
  finalizedOnce : (finalizedNodes events).Nodup
  /-- Whenever a finalizer starts. -/
  finalizes :
    ∀ earlier later node actor,
      events = earlier ++ .static node (.call actor .finalize) :: later →
        (Lazily.summary (staticEvents node earlier)).accepted = true ∧
          (Lazily.summary (staticEvents node earlier)).completions = 1
  /-- The static that was registered later is finalized first. -/
  inOrder :
    ∀ first second firstActor secondActor earlier between later,
      events =
          earlier ++ .static first (.returned firstActor .reg true) ::
            (between ++
              .static second (.returned secondActor .reg true) :: later) →
        first ∈ finalizedNodes events →
          second ∈ finalizedNodes events →
            (if between.any Event.detaches then
              [first, second]
            else
              [second, first]).Sublist (finalizedNodes events)
  /-- So is what is registered once the generator of another static started. -/
  nested :
    ∀ first second firstActor secondActor earlier between later,
      events =
          earlier ++ .static first (.call firstActor .init) ::
            (between ++
              .static second (.returned secondActor .reg true) :: later) →
        first ∈ finalizedNodes events →
          second ∈ finalizedNodes events →
            ∃ registrar registered registering,
              earlier =
                  registered ++
                    .static first (.returned registrar .reg true) ::
                      registering ∧
                (if (registering ++ between).any Event.detaches then
                  [first, second]
                else
                  [second, first]).Sublist (finalizedNodes events)

variable {tolerance : ν → GeneratorTolerance} {events : List (Event ν ι)}
  {program : Program ν ι}

/-- The history before an event, and the step that the event made. -/
theorem before_event
    {earlier later : List (Event ν ι)}
    {event : Event ν ι}
    (run :
      Run (Step tolerance) (Program.fresh ν ι) (earlier ++ event :: later)
        program) :
    ∃ before after,
      Inv tolerance earlier before ∧ Step tolerance before event after := by
  obtain ⟨before, first, rest⟩ := run.split
  obtain ⟨after, step, -⟩ := rest.uncons
  exact ⟨before, after, .of_run first, step⟩

/-- A user call but a registration is a step of the static alone. -/
theorem step_of_call
    {before after : Program ν ι}
    {node : ν}
    {actor : ι}
    {call : UserCall}
    (step : Step tolerance before (.static node (.call actor call)) after) :
    ∃ state,
      Lazily.State.Step (tolerance node) (before.static node)
        (.call actor call) state := by
  cases step with
  | steps step => exact ⟨_, step⟩

/-- A finalizer starts once its static was accepted and generated. -/
theorem finalizes_of_run
    {earlier later : List (Event ν ι)}
    {node : ν}
    {actor : ι}
    (run :
      Run (Step tolerance) (Program.fresh ν ι)
        (earlier ++ .static node (.call actor .finalize) :: later) program) :
    (Lazily.summary (staticEvents node earlier)).accepted = true ∧
      (Lazily.summary (staticEvents node earlier)).completions = 1 := by
  obtain ⟨before, after, inv, step⟩ := before_event run
  obtain ⟨state, step⟩ := step_of_call step
  obtain ⟨place, -⟩ := inv.of_finalize step
  obtain ⟨past, whole, -⟩ := inv.current node place
  refine ⟨inv.accepted_of_finalized ?_, ?_⟩
  · rw [whole]
    exact List.mem_append_right _ List.mem_cons_self
  · exact (Lazily.State.Inv.of_run (inv.static node)).completed_of_finalize step

/-- Two statics are finalized in the order of their registrations. -/
theorem inOrder_of_run
    {first second : ν}
    {firstActor secondActor : ι}
    {earlier between later : List (Event ν ι)}
    (run : Run (Step tolerance) (Program.fresh ν ι) events program)
    (whole :
      events =
        earlier ++ .static first (.returned firstActor .reg true) ::
          (between ++
            .static second (.returned secondActor .reg true) :: later))
    (firstFinalized : first ∈ finalizedNodes events)
    (secondFinalized : second ∈ finalizedNodes events) :
    (if between.any Event.detaches then
      [first, second]
    else
      [second, first]).Sublist (finalizedNodes events) := by
  have inv := Inv.of_run run
  obtain ⟨batches, lists⟩ :=
    ExitRegister.Lists.of_run inv.register inv.distinct
  have shown :
      ExitRegister.effects (registerEvents events) =
        ExitRegister.effects (registerEvents earlier) ++
          .called first true ::
            (ExitRegister.effects (registerEvents between) ++
              .called second true ::
                ExitRegister.effects (registerEvents later)) := by
    rw [whole]
    simp [ExitRegister.effects, registerEvents, Event.seenByRegister,
      ExitRegister.Event.effect]
  have executed := ExitRegister.executedNodes_effects (registerEvents events)
  have firstExecuted := inv.finalized.subset firstFinalized
  have secondExecuted := inv.finalized.subset secondFinalized
  rw [← executed] at firstExecuted secondExecuted
  have pair :=
    lists.inOrder inv.distinct first second _ _ _ shown firstExecuted
      secondExecuted
  rw [executed, if_congr detached_mem_iff rfl rfl] at pair
  have nodup := inv.finalized_nodup
  split at pair
  case isTrue detached =>
    rw [if_pos detached]
    exact pair_sublist_of_sublist pair inv.finalized nodup firstFinalized
      secondFinalized
  case isFalse attached =>
    rw [if_neg attached]
    exact pair_sublist_of_sublist pair inv.finalized nodup secondFinalized
      firstFinalized

/-- Where the generator of a static starts its registration is over. -/
theorem returned_before_init
    {node : ν}
    {actor registrar : ι}
    {value : Bool}
    {earlier later : List (Event ν ι)}
    (run :
      Run (Step tolerance) (Program.fresh ν ι)
        (earlier ++ .static node (.call actor .init) :: later) program)
    (returned :
      .static node (.returned registrar .reg value) ∈
        earlier ++ .static node (.call actor .init) :: later) :
    .static node (.returned registrar .reg value) ∈ earlier := by
  obtain ⟨before, after, inv, step⟩ := before_event run
  obtain ⟨state, step⟩ := step_of_call step
  have ended := Lazily.State.endsReg_of_init (inv.static node) step
  have bound := Lazily.State.endsReg_le ((Inv.of_run run).static node)
  rw [staticEvents, List.filterMap_append,
    List.filterMap_cons_some (seenBy_self _), List.countP_append,
    List.countP_cons] at bound
  rw [List.mem_append, List.mem_cons] at returned
  obtain early | same | late := returned
  · exact early
  · cases same
  · have seen :
        .returned registrar .reg value ∈
          later.filterMap (Event.seenBy node) :=
      List.mem_filterMap.mpr ⟨_, late, seenBy_self _⟩
    have positive :
        0 < (later.filterMap (Event.seenBy node)).countP
          Lazily.Event.endsReg :=
      List.countP_pos_iff.mpr ⟨_, seen, rfl⟩
    unfold staticEvents at ended
    omega

/--
What is registered after the generator of a static started was registered
after that static.
-/
theorem nested_of_run
    {first second : ν}
    {firstActor secondActor : ι}
    {earlier between later : List (Event ν ι)}
    (run : Run (Step tolerance) (Program.fresh ν ι) events program)
    (whole :
      events =
        earlier ++ .static first (.call firstActor .init) ::
          (between ++
            .static second (.returned secondActor .reg true) :: later))
    (firstFinalized : first ∈ finalizedNodes events)
    (secondFinalized : second ∈ finalizedNodes events) :
    ∃ registrar registered registering,
      earlier =
          registered ++
            .static first (.returned registrar .reg true) :: registering ∧
        (if (registering ++ between).any Event.detaches then
          [first, second]
        else
          [second, first]).Sublist (finalizedNodes events) := by
  have inv := Inv.of_run run
  obtain ⟨registrar, returned⟩ :=
    exists_returned
      (inv.accepted_of_finalized (inv.finalized.subset firstFinalized))
  have before := returned_before_init (whole ▸ run) (whole ▸ returned)
  obtain ⟨registered, registering, rfl⟩ := List.append_of_mem before
  have same :
      events =
        registered ++ .static first (.returned registrar .reg true) ::
          ((registering ++ .static first (.call firstActor .init) :: between) ++
            .static second (.returned secondActor .reg true) :: later) := by
    simp [whole]
  have ordered := inOrder_of_run run same firstFinalized secondFinalized
  -- the start of a generator is no detachment
  have detaches :
      (registering ++ .static first (.call firstActor .init) :: between).any
          Event.detaches =
        (registering ++ between).any Event.detaches := by
    simp [Event.detaches]
  rw [detaches] at ordered
  exact ⟨registrar, registered, registering, rfl, ordered⟩

/-- The promises hold of every history of every program. -/
theorem promises_of_run
    (events : List (Event ν ι))
    (program : Program ν ι)
    (run : Run (Step tolerance) (Program.fresh ν ι) events program) :
    Promises events := by
  have inv := Inv.of_run run
  constructor
  case registeredOnce => exact inv.distinct
  case registers =>
    intro node actor member
    obtain ⟨earlier, later, rfl⟩ := List.append_of_mem member
    obtain ⟨before, after, inv, step⟩ := before_event run
    exact (inv.step step).2 node actor rfl
  case finalizedOnce => exact inv.finalized.nodup inv.finalized_nodup
  case finalizes =>
    rintro earlier later node actor rfl
    exact finalizes_of_run run
  case inOrder =>
    intro first second firstActor secondActor earlier between later
    exact inOrder_of_run run
  case nested =>
    intro first second firstActor secondActor earlier between later
    exact nested_of_run run

/-- The generator of a static initializes another one, which is finalized first. -/
theorem promises_of_run_nested :
    let events : List (Event Bool Unit) :=
      [.static false (.acquire () .init), .static false (.call () .reg),
        .static false (.returned () .reg true), .static false (.call () .init),
        .static true (.acquire () .init), .static true (.call () .reg),
        .static true (.returned () .reg true), .static true (.call () .init),
        .static true (.returned () .init true), .static true (.release ()),
        .static false (.returned () .init true), .static false (.release ()),
        .exit .begin, .exit (.execute true), .static true (.resume ()),
        .static true (.call () .finalize),
        .static true (.returned () .finalize true), .static true (.release ()),
        .exit .takeNext, .exit (.execute false), .static false (.resume ()),
        .static false (.call () .finalize)]
    (∃ program : Program Bool Unit,
      Run (Step fun _ => ⟨true, false⟩) (Program.fresh Bool Unit) events
          program ∧
        program.register.stage = .executed false) ∧
      finalizedNodes events = [true, false] ∧ Promises events := by
  intro events
  obtain ⟨program, run, stage⟩ :
      ∃ program,
        Run (Step fun _ => ⟨true, false⟩) (Program.fresh Bool Unit) events
            program ∧
          program.register.stage = .executed false :=
    ⟨_,
      .cons (.steps rfl rfl) <|
        .cons (.steps rfl rfl) <|
        .cons (.registers rfl rfl) <|
        .cons (.steps rfl rfl) <|
        .cons (.steps rfl rfl) <|
        .cons (.steps rfl rfl) <|
        .cons (.registers rfl rfl) <|
        .cons (.steps rfl rfl) <|
        .cons (.steps rfl rfl) <|
        .cons (.steps rfl rfl) <|
        .cons (.steps rfl rfl) <|
        .cons (.steps rfl rfl) <|
        .cons (.walks rfl nofun nofun) <|
        .cons (.executes rfl) <|
        .cons (.steps rfl rfl) <|
        .cons (.steps rfl rfl) <|
        .cons (.steps rfl rfl) <|
        .cons (.steps rfl rfl) <|
        .cons (.walks rfl nofun (by rintro _ ⟨⟩; rfl)) <|
        .cons (.executes rfl) <|
        .cons (.steps rfl rfl) <|
        .cons (.steps rfl rfl) .refl,
      rfl⟩
  exact ⟨⟨program, run, stage⟩, rfl, promises_of_run events program run⟩

end Promises

end StaticInit.ProgramExit
