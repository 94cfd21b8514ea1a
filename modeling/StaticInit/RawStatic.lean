import Mathlib.Algebra.Group.Int.Defs
import Mathlib.Data.List.Basic

namespace StaticInit.RawStatic

/-!
# The order checker of raw statics

In debug mode each raw static keeps a status, and two globals keep the
priority of the initializer or of the drop that runs.  Every access is checked
against them.  A schedule is an order in which the generated initializers and
droppers of a family may run; the accesses they make are arbitrary.
-/

section Source

inductive InitMode where
  | const
  | lazy
  | lesserLazy
  | programConstructor (priority : UInt16)
  deriving Repr, DecidableEq

inductive FinalyMode where
  | none
  | drop
  | finalize
  | programDestructor (priority : UInt16)
  deriving Repr, DecidableEq

/-- `StaticInfo`, without the name and the place that the messages print. -/
structure StaticInfo where
  initMode : InitMode
  dropMode : FinalyMode
  deriving Repr, DecidableEq

/-- `i32::MIN`, the priority when nothing runs. -/
def i32Min : Int :=
  -2 ^ 31

/-- `priority as i32`. -/
def asI32 (priority : UInt16) : Int :=
  priority.toNat

/-- The panics of `check_access`, with the priority they print. -/
inductive Panic where
  | beforeInitialized (prio : Int)
  | afterDestroyed (prio : Int)
  | notSequencedBeforeDrop (prio : Int)
  | unexpectedFromDrop (prio : Int)
  | notSequencedAfterInit (prio : Int)
  | unexpectedFromInit (prio : Int)
  deriving Repr, DecidableEq

/-- The two panics that ask to report a bug of the library. -/
def Panic.isUnexpected : Panic → Bool
  | .unexpectedFromDrop _ => true
  | .unexpectedFromInit _ => true
  | _ => false

/-- The comparison of `check_access` with the drop that runs. -/
def checkDrop (mode : FinalyMode) (dropPrio : Int) : Option Panic :=
  match mode with
  | .programDestructor prio =>
      match compare dropPrio (asI32 prio) with
      | .eq => some (.notSequencedBeforeDrop dropPrio)
      | .gt => some (.unexpectedFromDrop dropPrio)
      | .lt => none
  | _ => none

/-- The comparison of `check_access` with the initializer that runs. -/
def checkInit (mode : InitMode) (initPrio : Int) : Option Panic :=
  match mode with
  | .programConstructor prio =>
      match compare initPrio (asI32 prio) with
      | .eq => some (.notSequencedAfterInit initPrio)
      | .gt => some (.unexpectedFromInit initPrio)
      | .lt => none
  | _ => none

def checkAccess
    (info : StaticInfo)
    (status initPrio dropPrio : Int) : Option Panic :=
  if status = 0 then
    some (.beforeInitialized initPrio)
  else if status = 2 then
    some (.afterDestroyed dropPrio)
  else
    match checkDrop info.dropMode dropPrio with
    | some panic => some panic
    | none => checkInit info.initMode initPrio

end Source

variable {ι : Type} [DecidableEq ι]

/-- The statuses of the statics, `CUR_INIT_PRIO` and `CUR_DROP_PRIO`. -/
structure Checker (ι : Type) where
  status : ι → Int
  curInitPrio : Int
  curDropPrio : Int

/-- `uninit` for a static with an initializer, else `from`. -/
def Checker.start (family : ι → StaticInfo) : Checker ι where
  status target :=
    match (family target).initMode with
    | .programConstructor _ => 0
    | _ => 1
  curInitPrio := i32Min
  curDropPrio := i32Min

/-- The verdict on an access. -/
def Checker.check
    (family : ι → StaticInfo)
    (checker : Checker ι)
    (target : ι) : Option Panic :=
  checkAccess (family target) (checker.status target)
    checker.curInitPrio checker.curDropPrio

/-- Access some statics until an access panics. -/
def Checker.accessAll
    (family : ι → StaticInfo)
    (checker : Checker ι) : List ι → List (ι × Option Panic)
  | [] => []
  | target :: targets =>
      (target, checker.check family target) ::
        if (checker.check family target).isNone then
          checker.accessAll family targets
        else
          []

/-- Whether no access of some code panicked. -/
def completed (verdicts : List (ι × Option Panic)) : Bool :=
  verdicts.all fun verdict => verdict.2.isNone

/-- `__set_init_prio`. -/
def Checker.setInitPrio (checker : Checker ι) (prio : Int) : Checker ι :=
  { checker with curInitPrio := prio }

def Checker.setDropPrio (checker : Checker ι) (prio : Int) : Checker ι :=
  { checker with curDropPrio := prio }

def Checker.setStatus
    (checker : Checker ι)
    (target : ι)
    (status : Int) : Checker ι :=
  { checker with status := Function.update checker.status target status }

/-- The generated initializer, whose expression makes the accesses. -/
def initializer
    (family : ι → StaticInfo)
    (checker : Checker ι)
    (priority : UInt16)
    (target : ι)
    (accesses : List ι) : List (ι × Option Panic) × Option (Checker ι) :=
  let checker := checker.setInitPrio (asI32 priority)
  let verdicts := checker.accessAll family accesses
  if completed verdicts then
    (verdicts, some ((checker.setStatus target 1).setInitPrio i32Min))
  else
    (verdicts, none)

/-- `Static::drop`, where dropping the value makes the accesses. -/
def drop
    (family : ι → StaticInfo)
    (checker : Checker ι)
    (target : ι)
    (accesses : List ι) : List (ι × Option Panic) × Option (Checker ι) :=
  match (family target).dropMode with
  | .programDestructor prio =>
      let checker := checker.setDropPrio (asI32 prio)
      let verdicts := checker.accessAll family accesses
      if completed verdicts then
        (verdicts, some ((checker.setDropPrio i32Min).setStatus target 2))
      else
        (verdicts, none)
  | _ =>
      let verdicts := checker.accessAll family accesses
      if completed verdicts then
        (verdicts, some (checker.setStatus target 2))
      else
        (verdicts, none)

/-- A generated function that runs before or after `main`. -/
inductive Step (ι : Type) where
  | construct (target : ι)
  | destroy (target : ι)
  deriving Repr, DecidableEq

/-- Run a generated function; a const static has no initializer. -/
def Step.perform
    (family : ι → StaticInfo)
    (accesses : Step ι → List ι)
    (checker : Checker ι)
    (step : Step ι) : List (ι × Option Panic) × Option (Checker ι) :=
  match step with
  | .construct target =>
      match (family target).initMode with
      | .programConstructor priority =>
          initializer family checker priority target (accesses step)
      | _ => ([], some checker)
  | .destroy target => RawStatic.drop family checker target (accesses step)

/-- An access made by a generated function. -/
structure Access (ι : Type) where
  step : Step ι
  target : ι
  verdict : Option Panic
  deriving Repr, DecidableEq

/-- The accesses made until the first panic. -/
def run
    (family : ι → StaticInfo)
    (accesses : Step ι → List ι)
    (checker : Checker ι) : List (Step ι) → List (Access ι)
  | [] => []
  | step :: steps =>
      let (verdicts, next) := step.perform family accesses checker
      verdicts.map (fun verdict => ⟨step, verdict.1, verdict.2⟩) ++
        match next with
        | some checker => run family accesses checker steps
        | none => []

section Orders

omit [DecidableEq ι]

/-- The init priority of a static that is initialized dynamically. -/
def StaticInfo.initPriority (info : StaticInfo) : Option UInt16 :=
  match info.initMode with
  | .programConstructor priority => some priority
  | _ => none

/-- The drop priority of a static that is dropped dynamically. -/
def StaticInfo.dropPriority (info : StaticInfo) : Option UInt16 :=
  match info.dropMode with
  | .programDestructor priority => some priority
  | _ => none

theorem StaticInfo.initPriority_eq_some
    {info : StaticInfo}
    {priority : UInt16} :
    info.initPriority = some priority ↔
      info.initMode = .programConstructor priority := by
  unfold initPriority
  cases info.initMode <;> simp

theorem StaticInfo.dropPriority_eq_some
    {info : StaticInfo}
    {priority : UInt16} :
    info.dropPriority = some priority ↔
      info.dropMode = .programDestructor priority := by
  unfold dropPriority
  cases info.dropMode <;> simp

/-- The priority of a generated function. -/
def Step.priority (family : ι → StaticInfo) : Step ι → Option UInt16
  | .construct target => (family target).initPriority
  | .destroy target => (family target).dropPriority

/-- The first function may run before the second one. -/
def MayPrecede (family : ι → StaticInfo) : Step ι → Step ι → Prop
  | .construct first, .construct second =>
      ∀ high ∈ (family first).initPriority,
        ∀ low ∈ (family second).initPriority, low ≤ high
  | .construct _, .destroy _ => True
  | .destroy _, .construct _ => False
  | .destroy first, .destroy second =>
      ∀ low ∈ (family first).dropPriority,
        ∀ high ∈ (family second).dropPriority, low ≤ high

instance (family : ι → StaticInfo) : DecidableRel (MayPrecede family)
  | .construct first, .construct second =>
      decidable_of_iff
        ((family first).initPriority.all fun high =>
          (family second).initPriority.all fun low => low ≤ high)
        (by simp [MayPrecede, Option.all_eq_true])
  | .construct _, .destroy _ => .isTrue trivial
  | .destroy _, .construct _ => .isFalse id
  | .destroy first, .destroy second =>
      decidable_of_iff
        ((family first).dropPriority.all fun low =>
          (family second).dropPriority.all fun high => low ≤ high)
        (by simp [MayPrecede, Option.all_eq_true])

/--
An order of the generated functions: the initializers by decreasing init
priority, then the droppers by increasing drop priority.
-/
structure Schedule (family : ι → StaticInfo) where
  steps : List (Step ι)
  generated : ∀ step, step ∈ steps ↔ (step.priority family).isSome
  once : steps.Nodup
  ordered : steps.Pairwise (MayPrecede family)

/-- The static is not sequenced before the function that accesses it. -/
def Unsequenced (family : ι → StaticInfo) : Step ι → ι → Prop
  | .construct target, accessed =>
      ∃ prio ∈ (family target).initPriority,
        ∃ other ∈ (family accessed).initPriority, other ≤ prio
  | .destroy target, accessed =>
      ∃ prio ∈ (family target).dropPriority,
        ∃ other ∈ (family accessed).dropPriority, other ≤ prio

end Orders

section Checks

theorem i32Min_lt (priority : UInt16) : i32Min < asI32 priority := by
  have nonneg : 0 ≤ asI32 priority := Int.natCast_nonneg _
  have negative : i32Min < 0 := by decide
  omega

@[simp] theorem asI32_le {first second : UInt16} :
    asI32 first ≤ asI32 second ↔ first ≤ second := by
  rw [asI32, asI32, Int.ofNat_le, UInt16.le_iff_toNat_le]

/-- A sound verdict: it panics as expected, and never unexpectedly. -/
def Sound (verdict : Option Panic) (expected : Prop) : Prop :=
  (verdict.isSome = true ↔ expected) ∧
    ∀ panic ∈ verdict, panic.isUnexpected = false

theorem sound_none {expected : Prop} (fine : ¬ expected) :
    Sound none expected :=
  ⟨iff_of_false Bool.false_ne_true fine, fun _ given => nomatch given⟩

theorem sound_some
    {panic : Panic}
    {expected : Prop}
    (wanted : expected)
    (known : panic.isUnexpected = false) :
    Sound (some panic) expected :=
  ⟨iff_of_true rfl wanted, fun _ given => Option.some.inj given ▸ known⟩

/-- While no drop runs, the drop mode does not matter. -/
@[simp] theorem checkDrop_i32Min (mode : FinalyMode) :
    checkDrop mode i32Min = none := by
  cases mode with
  | programDestructor priority =>
      rw [checkDrop, Int.compare_eq_lt.mpr (i32Min_lt priority)]
  | _ => rfl

/-- While no initializer runs, the init mode does not matter. -/
@[simp] theorem checkInit_i32Min (mode : InitMode) :
    checkInit mode i32Min = none := by
  cases mode with
  | programConstructor priority =>
      rw [checkInit, Int.compare_eq_lt.mpr (i32Min_lt priority)]
  | _ => rfl

theorem Sound.congr
    {verdict : Option Panic}
    {expected other : Prop}
    (sound : Sound verdict expected)
    (same : expected ↔ other) :
    Sound verdict other :=
  ⟨sound.1.trans same, sound.2⟩

/-- The comparison with a priority that is not lower than the running one. -/
theorem compare_sound
    {prio other : UInt16}
    {onEqual onGreater : Panic}
    (notLower : prio ≤ other)
    (known : onEqual.isUnexpected = false) :
    Sound
      (match compare (asI32 prio) (asI32 other) with
        | .eq => some onEqual
        | .gt => some onGreater
        | .lt => none)
      (other ≤ prio) := by
  have notLess := asI32_le.mpr notLower
  cases order : compare (asI32 prio) (asI32 other) with
  | eq =>
      have same := Int.compare_eq_eq.mp order
      exact sound_some (asI32_le.mp (Int.le_of_eq same.symm)) known
  | lt =>
      have less := Int.compare_eq_lt.mp order
      refine sound_none fun lower => ?_
      have := asI32_le.mpr lower
      omega
  | gt =>
      have greater := Int.compare_eq_gt.mp order
      omega

/-- An initialized static, accessed by an initializer. -/
theorem checkInit_sound
    {info : StaticInfo}
    {prio : UInt16}
    (notLower : ∀ other ∈ info.initPriority, prio ≤ other) :
    Sound (checkInit info.initMode (asI32 prio))
      (∃ other ∈ info.initPriority, other ≤ prio) := by
  unfold checkInit
  unfold StaticInfo.initPriority at *
  cases mode : info.initMode with
  | programConstructor other =>
      rw [mode] at notLower
      exact (compare_sound (notLower other rfl) rfl).congr (by simp)
  | _ => exact sound_none (by simp)

/-- A static that is alive, accessed by a dropper. -/
theorem checkDrop_sound
    {info : StaticInfo}
    {prio : UInt16}
    (notLower : ∀ other ∈ info.dropPriority, prio ≤ other) :
    Sound (checkDrop info.dropMode (asI32 prio))
      (∃ other ∈ info.dropPriority, other ≤ prio) := by
  unfold checkDrop
  unfold StaticInfo.dropPriority at *
  cases mode : info.dropMode with
  | programDestructor other =>
      rw [mode] at notLower
      exact (compare_sound (notLower other rfl) rfl).congr (by simp)
  | _ => exact sound_none (by simp)

end Checks

section Statuses

variable {family : ι → StaticInfo} {done : List (Step ι)} {checker : Checker ι}

/-- The status of a static after some generated functions have run. -/
def statusAfter
    (family : ι → StaticInfo)
    (done : List (Step ι))
    (target : ι) : Int :=
  if .destroy target ∈ done then
    2
  else if .construct target ∈ done ∨ (family target).initPriority = none then
    1
  else
    0

/-- The checker after some generated functions have run. -/
def Checker.after
    (family : ι → StaticInfo)
    (done : List (Step ι)) : Checker ι where
  status := statusAfter family done
  curInitPrio := i32Min
  curDropPrio := i32Min

theorem start_eq_after : Checker.start family = .after family [] := by
  unfold Checker.start Checker.after
  congr
  funext target
  unfold statusAfter StaticInfo.initPriority
  cases (family target).initMode <;> simp

/-- The checker while a generated function runs. -/
def Checker.during
    (family : ι → StaticInfo)
    (done : List (Step ι))
    (step : Step ι) : Checker ι :=
  match step with
  | .construct target =>
      match (family target).initPriority with
      | some prio => (Checker.after family done).setInitPrio (asI32 prio)
      | none => .after family done
  | .destroy target =>
      match (family target).dropPriority with
      | some prio => (Checker.after family done).setDropPrio (asI32 prio)
      | none => .after family done

theorem update_constructed
    {target : ι}
    (alive : .destroy target ∉ done) :
    Function.update (statusAfter family done) target 1 =
      statusAfter family (done ++ [.construct target]) := by
  funext other
  by_cases same : other = target
  · subst same
    simp [statusAfter, alive]
  · rw [Function.update_of_ne same]
    simp [statusAfter, same]

theorem update_destroyed (target : ι) :
    Function.update (statusAfter family done) target 2 =
      statusAfter family (done ++ [.destroy target]) := by
  funext other
  by_cases same : other = target
  · subst same
    simp [statusAfter]
  · rw [Function.update_of_ne same]
    simp [statusAfter, same]

/-- A generated function makes its accesses, and then it is done. -/
theorem perform_eq
    {accesses : Step ι → List ι}
    {step : Step ι}
    (generated : (step.priority family).isSome)
    (alive :
      ∀ target, step = .construct target → .destroy target ∉ done) :
    step.perform family accesses (.after family done) =
      let verdicts :=
        (Checker.during family done step).accessAll family (accesses step)
      (verdicts,
        if completed verdicts then
          some (.after family (done ++ [step]))
        else
          none) := by
  obtain ⟨prio, found⟩ := Option.isSome_iff_exists.mp generated
  cases step with
  | construct target =>
      have updated :
          Function.update (statusAfter family done) target 1 = _ :=
        update_constructed (alive target rfl)
      have mode := StaticInfo.initPriority_eq_some.mp found
      have found : (family target).initPriority = some prio := found
      simp only [Step.perform, mode, initializer, Checker.during, found]
      split
      case isTrue =>
        simp [Checker.setStatus, Checker.setInitPrio, Checker.after, updated]
      case isFalse => rfl
  | destroy target =>
      have updated :
          Function.update (statusAfter family done) target 2 = _ :=
        update_destroyed target
      have mode := StaticInfo.dropPriority_eq_some.mp found
      have found : (family target).dropPriority = some prio := found
      simp only [Step.perform, RawStatic.drop, mode, Checker.during, found]
      split
      case isTrue =>
        simp [Checker.setStatus, Checker.setDropPrio, Checker.after, updated]
      case isFalse => rfl

end Statuses

section Verdicts

variable {family : ι → StaticInfo} {done rest : List (Step ι)} {step : Step ι}

omit [DecidableEq ι] in
/-- What the order says about the functions that ran before a given one. -/
theorem Schedule.precede
    (schedule : Schedule family)
    (split : schedule.steps = done ++ step :: rest)
    {other : Step ι}
    (member : other ∈ done) :
    MayPrecede family other step := by
  have ordered := split ▸ schedule.ordered
  exact (List.pairwise_append.mp ordered).2.2 other member step
    List.mem_cons_self

omit [DecidableEq ι] in
/-- What the order says about the functions still to run. -/
theorem Schedule.follow
    (schedule : Schedule family)
    (split : schedule.steps = done ++ step :: rest)
    {other : Step ι}
    (generated : (other.priority family).isSome)
    (waiting : other ∉ done) :
    other = step ∨ MayPrecede family step other := by
  have ordered := split ▸ schedule.ordered
  have member := (schedule.generated other).mpr generated
  rw [split] at member
  rcases List.mem_append.mp member with early | late
  · exact absurd early waiting
  · rcases List.mem_cons.mp late with same | later
    · exact .inl same
    · exact .inr
        ((List.pairwise_cons.mp (List.pairwise_append.mp ordered).2.1).1
          other later)

omit [DecidableEq ι] in
theorem Schedule.priority_of_split
    (schedule : Schedule family)
    (split : schedule.steps = done ++ step :: rest) :
    (step.priority family).isSome :=
  (schedule.generated step).mp (by simp [split])

/-- An access made by an initializer. -/
theorem check_construct_sound
    {owner : ι}
    (schedule : Schedule family)
    (split : schedule.steps = done ++ .construct owner :: rest)
    (target : ι) :
    Sound
      ((Checker.during family done (.construct owner)).check family target)
      (Unsequenced family (.construct owner) target) := by
  obtain ⟨prio, found⟩ :=
    Option.isSome_iff_exists.mp (schedule.priority_of_split split)
  have found : (family owner).initPriority = some prio := found
  have alive : Step.destroy target ∉ done :=
    fun member => schedule.precede split member
  have expected :
      Unsequenced family (.construct owner) target ↔
        ∃ other ∈ (family target).initPriority, other ≤ prio := by
    simp [Unsequenced, found]
  simp only [Checker.check, Checker.during, found, Checker.setInitPrio,
    Checker.after, statusAfter, if_neg alive]
  by_cases known :
    Step.construct target ∈ done ∨ (family target).initPriority = none
  case pos =>
    simp only [if_pos known, checkAccess, checkDrop_i32Min]
    refine (checkInit_sound fun other given => ?_).congr expected.symm
    rcases known with early | const
    · exact schedule.precede split early other given prio found
    · rw [const] at given
      cases given
  case neg =>
    simp only [if_neg known]
    refine sound_some (expected.mpr ?_) rfl
    obtain ⟨waiting, dynamic⟩ := not_or.mp known
    obtain ⟨other, given⟩ := Option.ne_none_iff_exists'.mp dynamic
    refine ⟨other, given, ?_⟩
    have generated : ((Step.construct target).priority family).isSome :=
      Option.isSome_iff_exists.mpr ⟨other, given⟩
    rcases schedule.follow split generated waiting with same | later
    · obtain rfl := Step.construct.inj same
      rw [found] at given
      exact Option.some.inj given ▸ UInt16.le_refl _
    · exact later prio found other given

/-- An access made by a dropper. -/
theorem check_destroy_sound
    {owner : ι}
    (schedule : Schedule family)
    (split : schedule.steps = done ++ .destroy owner :: rest)
    (target : ι) :
    Sound
      ((Checker.during family done (.destroy owner)).check family target)
      (Unsequenced family (.destroy owner) target) := by
  obtain ⟨prio, found⟩ :=
    Option.isSome_iff_exists.mp (schedule.priority_of_split split)
  have found : (family owner).dropPriority = some prio := found
  have expected :
      Unsequenced family (.destroy owner) target ↔
        ∃ other ∈ (family target).dropPriority, other ≤ prio := by
    simp [Unsequenced, found]
  simp only [Checker.check, Checker.during, found, Checker.setDropPrio,
    Checker.after, statusAfter]
  by_cases gone : Step.destroy target ∈ done
  case pos =>
    simp only [if_pos gone]
    refine sound_some (expected.mpr ?_) rfl
    have generated : ((Step.destroy target).priority family).isSome :=
      (schedule.generated _).mp (by simp [split, gone])
    obtain ⟨other, given⟩ := Option.isSome_iff_exists.mp generated
    exact ⟨other, given, schedule.precede split gone other given prio found⟩
  case neg =>
    have known :
        Step.construct target ∈ done ∨
          (family target).initPriority = none := by
      by_contra unknown
      obtain ⟨waiting, dynamic⟩ := not_or.mp unknown
      have generated : ((Step.construct target).priority family).isSome :=
        Option.isSome_iff_ne_none.mpr dynamic
      rcases schedule.follow split generated waiting with same | later
      · cases same
      · exact later
    have living :
        Sound (checkDrop (family target).dropMode (asI32 prio))
          (Unsequenced family (.destroy owner) target) := by
      refine (checkDrop_sound fun other given => ?_).congr expected.symm
      have generated : ((Step.destroy target).priority family).isSome :=
        Option.isSome_iff_exists.mpr ⟨other, given⟩
      rcases schedule.follow split generated gone with same | later
      · obtain rfl := Step.destroy.inj same
        rw [Option.mem_def, found] at given
        exact Option.some.inj given ▸ UInt16.le_refl _
      · exact later prio found other given
    simp only [if_neg gone, if_pos known, checkAccess]
    cases verdict : checkDrop (family target).dropMode (asI32 prio) with
    | some panic => simpa [verdict] using living
    | none => simpa [verdict] using living

theorem check_sound
    (schedule : Schedule family)
    (split : schedule.steps = done ++ step :: rest)
    (target : ι) :
    Sound ((Checker.during family done step).check family target)
      (Unsequenced family step target) := by
  cases step with
  | construct owner => exact check_construct_sound schedule split target
  | destroy owner => exact check_destroy_sound schedule split target

end Verdicts

section Runs

variable {family : ι → StaticInfo} {checker : Checker ι}
  {accesses : Step ι → List ι}

omit [DecidableEq ι] in
/-- The verdicts given are those of the checker. -/
theorem verdict_of_mem
    {targets : List ι}
    {verdict : ι × Option Panic}
    (member : verdict ∈ checker.accessAll family targets) :
    verdict.1 ∈ targets ∧ verdict.2 = checker.check family verdict.1 := by
  induction targets with
  | nil => cases member
  | cons target targets inductionHypothesis =>
      rcases List.mem_cons.mp member with rfl | later
      · exact ⟨List.mem_cons_self, rfl⟩
      · split at later
        case isTrue =>
          obtain ⟨known, checked⟩ := inductionHypothesis later
          exact ⟨List.mem_cons_of_mem _ known, checked⟩
        case isFalse => cases later

omit [DecidableEq ι] in
/-- Some code completes exactly if the checker passes all of its accesses. -/
theorem completed_iff (targets : List ι) :
    completed (checker.accessAll family targets) = true ↔
      ∀ target ∈ targets, (checker.check family target).isSome = false := by
  induction targets with
  | nil => simp [completed, Checker.accessAll]
  | cons target targets inductionHypothesis =>
      cases verdict : checker.check family target with
      | none =>
          simp only [completed] at inductionHypothesis
          simp [completed, Checker.accessAll, verdict, inductionHypothesis]
      | some panic => simp [completed, Checker.accessAll, verdict]

omit [DecidableEq ι] in
theorem not_completed_iff (targets : List ι) :
    completed (checker.accessAll family targets) = false ↔
      ∃ verdict ∈ checker.accessAll family targets,
        verdict.2.isSome = true := by
  simp [completed, Option.isSome_iff_ne_none]

/-- Whether an access of a run panics. -/
def Panics
    (family : ι → StaticInfo)
    (accesses : Step ι → List ι)
    (schedule : Schedule family) : Prop :=
  ∃ access ∈ run family accesses (.start family) schedule.steps,
    access.verdict.isSome = true

/-- What a generated function and the rest of its schedule access. -/
theorem run_cons
    (schedule : Schedule family)
    {done rest : List (Step ι)}
    {step : Step ι}
    (split : schedule.steps = done ++ step :: rest) :
    run family accesses (.after family done) (step :: rest) =
      ((Checker.during family done step).accessAll family
          (accesses step)).map
          (fun verdict => ⟨step, verdict.1, verdict.2⟩) ++
        if
          completed
            ((Checker.during family done step).accessAll family
              (accesses step))
        then
          run family accesses (.after family (done ++ [step])) rest
        else
          [] := by
  have alive : ∀ target, step = .construct target → .destroy target ∉ done := by
    rintro target rfl member
    exact schedule.precede split member
  rw [run, perform_eq (schedule.priority_of_split split) alive]
  cases completes :
      completed
        ((Checker.during family done step).accessAll family
          (accesses step)) <;>
    simp only [completes, if_true, Bool.false_eq_true, if_false]

/-- Every verdict given in the rest of a schedule is sound. -/
theorem run_sound
    (schedule : Schedule family)
    {done rest : List (Step ι)}
    (split : schedule.steps = done ++ rest) :
    ∀ access ∈ run family accesses (.after family done) rest,
      Sound access.verdict
        (Unsequenced family access.step access.target) := by
  induction rest generalizing done with
  | nil => simp [run]
  | cons step rest inductionHypothesis =>
      have later := inductionHypothesis (split.trans (List.append_cons ..))
      intro access member
      rw [run_cons schedule split] at member
      rcases List.mem_append.mp member with now | after
      · obtain ⟨verdict, given, rfl⟩ := List.mem_map.mp now
        rw [(verdict_of_mem given).2]
        exact check_sound schedule split verdict.1
      · split at after
        case isTrue => exact later access after
        case isFalse => cases after

/-- The rest of a schedule panics exactly if it makes an unsequenced access. -/
theorem run_panics_iff
    (schedule : Schedule family)
    {done rest : List (Step ι)}
    (split : schedule.steps = done ++ rest) :
    (∃ access ∈ run family accesses (.after family done) rest,
        access.verdict.isSome = true) ↔
      ∃ step ∈ rest, ∃ target ∈ accesses step,
        Unsequenced family step target := by
  induction rest generalizing done with
  | nil => simp [run]
  | cons step rest inductionHypothesis =>
      have later := inductionHypothesis (split.trans (List.append_cons ..))
      have sound := check_sound schedule split
      rw [run_cons schedule split]
      cases completes :
          completed
            ((Checker.during family done step).accessAll family
              (accesses step)) with
      | true =>
          have passes := (completed_iff _).mp completes
          have quiet :
              ∀ target ∈ accesses step, ¬ Unsequenced family step target := by
            intro target member unsequenced
            have passed := passes target member
            rw [(sound target).1.mpr unsequenced] at passed
            cases passed
          have silent :
              ∀ verdict ∈
                (Checker.during family done step).accessAll family
                  (accesses step),
                verdict.2.isSome = false := by
            simpa [completed] using completes
          rw [if_pos rfl]
          constructor
          · rintro ⟨access, member, panicked⟩
            rcases List.mem_append.mp member with now | after
            · obtain ⟨verdict, given, rfl⟩ := List.mem_map.mp now
              rw [silent verdict given] at panicked
              cases panicked
            · obtain ⟨next, waiting, found⟩ :=
                later.mp ⟨access, after, panicked⟩
              exact ⟨next, List.mem_cons_of_mem _ waiting, found⟩
          · rintro ⟨next, member, target, accessed, unsequenced⟩
            rcases List.mem_cons.mp member with rfl | waiting
            · exact absurd unsequenced (quiet target accessed)
            · obtain ⟨access, after, panicked⟩ :=
                later.mpr ⟨next, waiting, target, accessed, unsequenced⟩
              exact ⟨access, List.mem_append_right _ after, panicked⟩
      | false =>
          obtain ⟨verdict, given, panicked⟩ :=
            (not_completed_iff _).mp completes
          obtain ⟨member, checked⟩ := verdict_of_mem given
          rw [checked] at panicked
          apply iff_of_true
          · refine ⟨⟨step, verdict.1, verdict.2⟩, ?_, checked ▸ panicked⟩
            exact List.mem_append_left _ (List.mem_map.mpr ⟨verdict, given, rfl⟩)
          · exact ⟨step, List.mem_cons_self, verdict.1, member,
              (sound verdict.1).1.mp panicked⟩

/--
An access made by an initializer or a dropper panics exactly if its target is
not sequenced before, by their priorities, and no access panics unexpectedly;
so every order of the same family panics or none does.
-/
theorem order_checker_exact
    (family : ι → StaticInfo)
    (accesses : Step ι → List ι)
    (schedule : Schedule family) :
    (∀ access ∈ run family accesses (.start family) schedule.steps,
        (access.verdict.isSome = true ↔
            Unsequenced family access.step access.target) ∧
          ∀ panic ∈ access.verdict, panic.isUnexpected = false) ∧
      ∀ other : Schedule family,
        Panics family accesses schedule ↔ Panics family accesses other := by
  have panics (order : Schedule family) :
      Panics family accesses order ↔
        ∃ step, (step.priority family).isSome ∧ ∃ target ∈ accesses step,
          Unsequenced family step target := by
    rw [Panics, start_eq_after, run_panics_iff order (List.nil_append _).symm]
    simp only [order.generated]
  constructor
  · rw [start_eq_after]
    exact run_sound schedule (List.nil_append _).symm
  · intro other
    rw [panics schedule, panics other]

/--
Two initializers of one priority, the second of which accesses the static of
the first; in the other order the status gives the panic.
-/
theorem order_checker_exact_ties :
    let family : Fin 4 → StaticInfo := fun target =>
      [⟨.programConstructor 20, .programDestructor 5⟩,
        ⟨.programConstructor 10, .none⟩,
        ⟨.programConstructor 10, .programDestructor 5⟩,
        ⟨.const, .programDestructor 7⟩][target]
    let accesses : Step (Fin 4) → List (Fin 4) := fun step =>
      if step = .construct 1 then
        [0, 3]
      else if step = .construct 2 then
        [0, 1]
      else
        []
    ∃ schedule other : Schedule family,
      run family accesses (.start family) schedule.steps =
          [⟨.construct 1, 0, none⟩, ⟨.construct 1, 3, none⟩,
            ⟨.construct 2, 0, none⟩,
            ⟨.construct 2, 1, some (.notSequencedAfterInit 10)⟩] ∧
        run family accesses (.start family) other.steps =
            [⟨.construct 2, 0, none⟩,
              ⟨.construct 2, 1, some (.beforeInitialized 10)⟩] ∧
          (∀ access ∈ run family accesses (.start family) schedule.steps,
              (access.verdict.isSome = true ↔
                  Unsequenced family access.step access.target) ∧
                ∀ panic ∈ access.verdict, panic.isUnexpected = false) ∧
            (Panics family accesses schedule ↔
              Panics family accesses other) := by
  intro family accesses
  let schedule : Schedule family :=
    { steps :=
        [.construct 0, .construct 1, .construct 2, .destroy 0, .destroy 2,
          .destroy 3]
      generated := by rintro (target | target) <;> revert target <;> decide
      once := by decide
      ordered := by decide }
  let other : Schedule family :=
    { steps :=
        [.construct 0, .construct 2, .construct 1, .destroy 2, .destroy 0,
          .destroy 3]
      generated := by rintro (target | target) <;> revert target <;> decide
      once := by decide
      ordered := by decide }
  obtain ⟨verdicts, panics⟩ := order_checker_exact family accesses schedule
  exact ⟨schedule, other, by decide, by decide, verdicts, panics other⟩

/-- A value dropped with priority 20 accesses a static dropped with priority 10. -/
example :
    let family : Fin 2 → StaticInfo :=
      fun target => ⟨.const, .programDestructor [10, 20][target]⟩
    run family (fun step => if step = .destroy 1 then [0] else [])
        (.start family) [.destroy 0, .destroy 1] =
      [⟨.destroy 1, 0, some (.afterDestroyed 20)⟩] := by
  decide

end Runs

end StaticInit.RawStatic
