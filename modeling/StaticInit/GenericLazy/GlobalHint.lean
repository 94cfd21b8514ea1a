import StaticInit.LazySequentializer.Execution
import StaticInit.Runs

namespace StaticInit.GlobalHint

/-!
# The hint that all lesser lazies are initialized

Before `main`, constructors run in decreasing priority.  The macro gives each
lesser lazy a constructor of priority 1 that calls its `init`, and
`mark_inited` of priority 0 sets the hint.  A panic that escapes from a
constructor ends the program: no state follows it.
-/

/-- The lesser lazies that are not mutable. -/
inductive LesserType where
  | lesserLazy
  | lesserLazyFinalize
  deriving Repr, DecidableEq

/-- A static as the macro declares it. -/
structure Declaration where
  type : LesserType
  tolerance : GeneratorTolerance
  deriving Repr, DecidableEq

/-- The accessors of `@deref_global`. -/
inductive Accessor where
  | get
  | tryGet
  | init
  deriving Repr, DecidableEq

/--
The outcomes of an access before the program exits: the register is open and
accepts the static, and the generator may panic.
-/
def beforeExit (panics : Bool) : Outcomes
  | .init => if panics then .panicked else .returned true
  | _ => .returned true

namespace Declaration

def policy (declaration : Declaration) : LazyPolicy :=
  match declaration.type with
  | .lesserLazy => InitializedChecker declaration.tolerance
  | .lesserLazyFinalize =>
      InitializedSoftFinalizedChecker true declaration.tolerance

def initialization (declaration : Declaration) (phase : Phase) : GuardCode :=
  match declaration.type with
  | .lesserLazy => lazyInitializationOnly
  | .lesserLazyFinalize => lazyInitialization declaration.tolerance phase

/-- `GenericLazy::init`. -/
def init
    (declaration : Declaration)
    (panics : Bool)
    (static : Static) : Static × Ending :=
  if declaration.policy.shallInit static.phase then
    (declaration.initialization static.phase).execute (beforeExit panics)
      static
  else
    (static, .done)

/-- An access that sees the hint, and whether it panics. -/
def access
    (declaration : Declaration)
    (hint : Bool)
    (accessor : Accessor)
    (panics : Bool)
    (static : Static) : Static × Bool :=
  match accessor with
  | .get =>
      if hint then
        (static, false)
      else
        match declaration.init panics static with
        | (after, .done) =>
            (after, !declaration.policy.postInitIsAccessible after.phase)
        | (after, _) => (after, true)
  | .tryGet => (static, false)
  | .init =>
      match declaration.init panics static with
      | (after, .done) => (after, false)
      | (after, _) => (after, true)

/-- The exit pass calls `finalize_callback` of a registered static. -/
def finalize
    (declaration : Declaration)
    (panics : Bool)
    (static : Static) : Static :=
  match declaration.type with
  | .lesserLazy => static
  | .lesserLazyFinalize =>
      static.finalizeCallback fun _ =>
        if panics then .panicked else .returned true

end Declaration

/-- The statics of a program and its constructors. -/
structure State (ι : Type) where
  statics : ι → Static
  /-- The priority of the constructors that run now. -/
  priority : Nat
  /-- The constructor of the static has run. -/
  constructed : ι → Bool
  /-- `LAZY_INIT_ENSURED`. -/
  hint : Bool

/-- The program before its first constructor; priorities are `u16`. -/
def State.fresh (ι : Type) : State ι where
  statics := fun _ => .fresh
  priority := 65535
  constructed := fun _ => false
  hint := false

inductive Event (ι : Type) where
  /-- An access, whose panic its caller may catch. -/
  | access (index : ι) (accessor : Accessor) (panics caught : Bool)
  /-- The constructor of a static. -/
  | construct (index : ι) (panics : Bool)
  /-- The constructors of a lower priority start. -/
  | descend (priority : Nat)
  | markInited
  /-- The exit pass reaches a static. -/
  | finalize (index : ι) (panics : Bool)
  deriving DecidableEq

section Steps

variable
  {ι : Type} [DecidableEq ι] [Fintype ι] (declarations : ι → Declaration)

/-- What happens next, if it can and the program goes on. -/
def State.exec (state : State ι) : Event ι → Option (State ι)
  | .access index accessor panics caught =>
      let accessed :=
        (declarations index).access state.hint accessor panics
          (state.statics index)
      if accessed.2 && !caught then
        none
      else
        some
          { state with
            statics := Function.update state.statics index accessed.1 }
  | .construct index panics =>
      if state.priority = 1 ∧ state.constructed index = false then
        match (declarations index).init panics (state.statics index) with
        | (after, .done) =>
            some
              { state with
                statics := Function.update state.statics index after
                constructed := Function.update state.constructed index true }
        | _ => none
      else
        none
  | .descend priority =>
      if priority < state.priority ∧
          (0 < priority ∨
            state.priority = 1 ∧ ∀ index, state.constructed index = true) then
        some { state with priority := priority }
      else
        none
  | .markInited =>
      if state.priority = 0 ∧ state.hint = false then
        some { state with hint := true }
      else
        none
  | .finalize index panics =>
      if state.hint then
        some
          { state with
            statics :=
              Function.update state.statics index
                ((declarations index).finalize panics (state.statics index)) }
      else
        none

/-- One step of the program. -/
def Step (state : State ι) (event : Event ι) (after : State ι) : Prop :=
  state.exec declarations event = some after

/-- An access runs the generator of a static, which panics. -/
def Event.generatorPanics
    (state : State ι)
    (index : ι) : Event ι → Prop
  | .access other accessor panics _ =>
      other = index ∧
        (accessor = .get ∧ state.hint = false ∨ accessor = .init) ∧
          panics = true ∧
            (declarations index).policy.shallInit
                (state.statics index).phase =
              true
  | _ => False

end Steps

section Declaration

variable
  {declaration : Declaration} {panics : Bool} {static after : Static}
  {ending : Ending}

theorem Declaration.shallInit_policy (declaration : Declaration) :
    declaration.policy.shallInit = declaration.tolerance.shallInit := by
  unfold policy
  split
  case h_1 => rfl
  case h_2 => rfl

/-- The phase of a static is true, and its registration was accepted. -/
structure Declaration.Sound
    (declaration : Declaration)
    (static : Static) : Prop extends static.Sound where
  registered :
    declaration.type = .lesserLazyFinalize →
      static.phase.isEmpty = false →
        static.phase.intersects .registered = true

/-- No access will initialize the static, and none did. -/
def Declaration.Spoiled
    (declaration : Declaration)
    (static : Static) : Prop :=
  declaration.tolerance.initFailure = false ∧
    static.phase.isEmpty = false ∧
      static.phase.intersects .initialized = false

/-- What an attempt to initialize a static leaves. -/
structure Declaration.Generated
    (declaration : Declaration)
    (panics : Bool)
    (after : Static)
    (ending : Ending) : Prop where
  sound : declaration.Sound after
  initialized : after.phase.intersects .initialized = !panics
  tried : after.phase.isEmpty = false
  done : panics = false → ending = .done
  unwound : panics = true → ending = .unwound

/-- The generator of a registered static is run. -/
theorem Declaration.Generated.of_generate
    {phase : Phase}
    (empty : static.generated = false)
    (untouched : static.finalized = false)
    (notInitialized : phase.intersects .initialized = false)
    (notFinalized :
      phase.intersects (.finalized ||| .finalizationPanicked) = false)
    (registered : phase.intersects .registered = true)
    (executed :
      (generate declaration.tolerance phase).execute (beforeExit panics)
          static =
        (after, ending)) :
    declaration.Generated panics after ending := by
  have attempted : Static.Attempted True after ending :=
    Static.generate_attempted empty untouched notInitialized notFinalized
      executed
  unfold generate GuardCode.execute beforeExit at executed
  cases panics with
  | false =>
      obtain ⟨rfl, rfl⟩ := Prod.mk.inj executed
      have initialized :=
        Phase.generated_initialized declaration.tolerance phase
      refine ⟨⟨attempted.sound, ?_⟩, initialized, ?_, fun _ => rfl,
        Bool.noConfusion⟩
      · intro _ _
        refine Eq.trans ?_ registered
        exact Phase.intersects_generated declaration.tolerance phase rfl rfl
      · exact Phase.not_isEmpty_of_intersects initialized
  | true =>
      obtain ⟨rfl, rfl⟩ := Prod.mk.inj executed
      refine ⟨⟨attempted.sound, ?_⟩, ?_, ?_, Bool.noConfusion, fun _ => rfl⟩
      · intro _ _
        refine Eq.trans ?_ registered
        exact Phase.intersects_generatorPanicked declaration.tolerance phase
          rfl rfl
      · exact Phase.generatorPanicked_notInitialized declaration.tolerance
          notInitialized
      · exact Phase.not_isEmpty_of_intersects
          (Phase.generatorPanicked_panicked declaration.tolerance phase)

/-- An access that shall initialize the static runs its generator. -/
theorem Declaration.Sound.init
    (sound : declaration.Sound static)
    (shallInit : declaration.policy.shallInit static.phase = true)
    (executed : declaration.init panics static = (after, ending)) :
    declaration.Generated panics after ending := by
  unfold Declaration.init at executed
  rw [if_pos shallInit] at executed
  rw [Declaration.shallInit_policy] at shallInit
  have notInitialized :=
    GeneratorTolerance.notInitialized_of_shallInit shallInit
  have notFinalized := sound.not_finalized notInitialized
  have empty := sound.generated.trans notInitialized
  have untouched := sound.finalized.trans notFinalized
  unfold Declaration.initialization at executed
  split at executed
  case h_1 lesser =>
    have attempted := sound.lazyInitializationOnly shallInit executed
    have unregistered :
        ∀ {other : Static}, other.Sound → declaration.Sound other := by
      refine fun sound => ⟨sound, ?_⟩
      intro finalize
      cases lesser.symm.trans finalize
    unfold lazyInitializationOnly GuardCode.execute beforeExit at executed
    cases panics with
    | false =>
        obtain ⟨rfl, rfl⟩ := Prod.mk.inj executed
        have initialized :
            (Phase.empty ||| .initialized).intersects .initialized = true :=
          rfl
        exact ⟨unregistered attempted.sound, initialized, rfl, fun _ => rfl,
          Bool.noConfusion⟩
    | true =>
        obtain ⟨rfl, rfl⟩ := Prod.mk.inj executed
        have notInitialized :
            (Phase.empty ||| .initializationPanicked |||
                .initializationSkiped).intersects .initialized =
              false :=
          rfl
        exact ⟨unregistered attempted.sound, notInitialized, rfl,
          Bool.noConfusion, fun _ => rfl⟩
  case h_2 finalize =>
    cases first : static.phase.isEmpty with
    | true =>
        rw [(Phase.isEmpty_iff static.phase).mp first,
          lazyInitialization_empty] at executed
        refine .of_generate ?_ ?_ ?_ ?_ ?_ executed
        · exact empty
        · exact untouched
        · rfl
        · rfl
        · rfl
    | false =>
        have registered := sound.registered finalize first
        rw [lazyInitialization_retried notFinalized notInitialized
          (GeneratorTolerance.tolerant_of_shallInit shallInit first) first,
          lazyInitializationRegistered, if_pos registered] at executed
        exact .of_generate empty untouched notInitialized
          notFinalized registered executed

/-- A static that shall not be initialized is initialized or spoiled. -/
theorem Declaration.settled_of_not_shallInit
    (never : declaration.policy.shallInit static.phase = false) :
    static.phase.intersects .initialized = true ∨
      declaration.Spoiled static := by
  rw [Declaration.shallInit_policy, GeneratorTolerance.shallInit] at never
  split at never
  case isTrue => exact .inl (Bool.not_inj never)
  case isFalse strict =>
    cases initialized : static.phase.intersects .initialized with
    | true => exact .inl rfl
    | false =>
        exact .inr ⟨Bool.eq_false_of_not_eq_true strict, never, initialized⟩

theorem Declaration.Spoiled.not_shallInit
    (spoiled : declaration.Spoiled static) :
    declaration.policy.shallInit static.phase = false := by
  rw [Declaration.shallInit_policy, GeneratorTolerance.shallInit,
    spoiled.left, if_neg Bool.false_ne_true]
  exact spoiled.right.left

/-- A call of `init` that returns leaves a settled static. -/
theorem Declaration.Sound.settled_of_init
    (sound : declaration.Sound static)
    (executed : declaration.init panics static = (after, .done)) :
    after.phase.intersects .initialized = true ∨
      declaration.Spoiled after := by
  cases shallInit : declaration.policy.shallInit static.phase with
  | true =>
      have generated := sound.init shallInit executed
      cases panics with
      | false => exact .inl generated.initialized
      | true => cases generated.unwound rfl
  | false =>
      unfold Declaration.init at executed
      rw [shallInit] at executed
      obtain ⟨rfl, -⟩ := Prod.mk.inj executed
      exact Declaration.settled_of_not_shallInit shallInit

/-- What a step may do to a static. -/
structure Declaration.Moves
    (declaration : Declaration)
    (generatorPanics : Prop)
    (before after : Static) : Prop where
  sound : declaration.Sound after
  initialized :
    before.phase.intersects .initialized = true →
      after.phase.intersects .initialized = true
  spoiled :
    declaration.Spoiled after ↔
      declaration.Spoiled before ∨
        declaration.tolerance.initFailure = false ∧ generatorPanics

theorem Declaration.Moves.refl
    {generatorPanics : Prop}
    (sound : declaration.Sound static)
    (quiet : ¬ generatorPanics) :
    declaration.Moves generatorPanics static static where
  sound := sound
  initialized := id
  spoiled :=
    ⟨.inl, fun spoiled => spoiled.resolve_right fun both => quiet both.right⟩

/-- A call of `init` moves the static. -/
theorem Declaration.Sound.init_moves
    (sound : declaration.Sound static)
    (executed : declaration.init panics static = (after, ending)) :
    declaration.Moves
      (panics = true ∧ declaration.policy.shallInit static.phase = true)
      static after := by
  cases shallInit : declaration.policy.shallInit static.phase with
  | false =>
      unfold Declaration.init at executed
      rw [shallInit] at executed
      obtain ⟨rfl, -⟩ := Prod.mk.inj executed
      exact .refl sound nofun
  | true =>
      have generated := sound.init shallInit executed
      refine ⟨generated.sound, ?_, ?_⟩
      · intro initialized
        rw [Declaration.shallInit_policy,
          GeneratorTolerance.not_shallInit initialized] at shallInit
        cases shallInit
      · constructor
        · rintro ⟨strict, -, absent⟩
          rw [generated.initialized, Bool.not_eq_false'] at absent
          exact .inr ⟨strict, absent, rfl⟩
        · rintro (spoiled | ⟨strict, panicked, -⟩)
          · cases spoiled.not_shallInit.symm.trans shallInit
          · refine ⟨strict, generated.tried, ?_⟩
            rw [generated.initialized, panicked, Bool.not_true]

/-- The exit pass moves the static. -/
theorem Declaration.Sound.finalize_moves
    (sound : declaration.Sound static) :
    declaration.Moves False static (declaration.finalize panics static) := by
  unfold Declaration.finalize
  split
  case h_1 => exact .refl sound id
  case h_2 =>
    cases initialized : static.phase.intersects .initialized with
    | false =>
        have absent := Bool.eq_false_iff.mp initialized
        unfold Static.finalizeCallback
        rw [if_neg absent]
        exact .refl sound id
    | true =>
        have kept : ∀ {outcomes : Outcomes},
            (static.finalizeCallback outcomes).phase.intersects .initialized =
              true :=
          Static.finalizeCallback_kept initialized
        refine ⟨⟨sound.finalizeCallback, ?_⟩, fun _ => kept, ?_⟩
        · intro finalize _
          exact Static.finalizeCallback_kept (sound.registered finalize
            (Phase.not_isEmpty_of_intersects initialized))
        · constructor
          · rintro ⟨-, -, absent⟩
            cases absent.symm.trans kept
          · rintro (⟨-, -, absent⟩ | ⟨-, never⟩)
            · cases absent.symm.trans initialized
            · exact never.elim

theorem Declaration.Moves.congr
    {generatorPanics other : Prop}
    (moves : declaration.Moves generatorPanics static after)
    (same : generatorPanics ↔ other) :
    declaration.Moves other static after where
  sound := moves.sound
  initialized := moves.initialized
  spoiled := moves.spoiled.trans (or_congr_right (and_congr_right' same))

/-- An access moves the static. -/
theorem Declaration.Sound.access_moves
    {hint panicked : Bool}
    {accessor : Accessor}
    (sound : declaration.Sound static)
    (accessed :
      declaration.access hint accessor panics static = (after, panicked)) :
    declaration.Moves
      ((accessor = .get ∧ hint = false ∨ accessor = .init) ∧
        panics = true ∧ declaration.policy.shallInit static.phase = true)
      static after := by
  have initMoves :
      (declaration.init panics static).1 = after →
        declaration.Moves
          (panics = true ∧
            declaration.policy.shallInit static.phase = true)
          static after := by
    rintro rfl
    exact sound.init_moves rfl
  unfold Declaration.access at accessed
  cases accessor with
  | get =>
      cases hint with
      | true =>
          obtain ⟨rfl, -⟩ := Prod.mk.inj accessed
          refine .refl sound ?_
          rintro ⟨⟨-, ⟨⟩⟩ | ⟨⟨⟩⟩, -⟩
      | false =>
          refine (initMoves ?_).congr
            (and_iff_right (.inl ⟨rfl, rfl⟩)).symm
          dsimp only at accessed
          split at accessed
          case isTrue never => cases never
          case isFalse =>
            split at accessed
            case h_1 ran =>
              rw [ran]
              exact (Prod.mk.inj accessed).left
            case h_2 ran =>
              rw [ran]
              exact (Prod.mk.inj accessed).left
  | tryGet =>
      obtain ⟨rfl, -⟩ := Prod.mk.inj accessed
      refine .refl sound ?_
      rintro ⟨⟨⟨⟩, -⟩ | ⟨⟨⟩⟩, -⟩
  | init =>
      refine (initMoves ?_).congr (and_iff_right (.inr rfl)).symm
      dsimp only at accessed
      split at accessed
      case h_1 ran =>
        rw [ran]
        exact (Prod.mk.inj accessed).left
      case h_2 ran =>
        rw [ran]
        exact (Prod.mk.inj accessed).left

end Declaration

section Runs

variable
  {ι : Type} [DecidableEq ι] [Fintype ι] {declarations : ι → Declaration}
  {state after : State ι}

omit [Fintype ι] in
/-- A step that updates one static moves each static. -/
theorem moves_of_update
    (generatorPanics : ι → Prop)
    {index : ι}
    {static : Static}
    (sound : ∀ other, (declarations other).Sound (state.statics other))
    (quiet : ∀ other, generatorPanics other → index = other)
    (moves :
      (declarations index).Moves (generatorPanics index)
        (state.statics index) static)
    (other : ι) :
    (declarations other).Moves (generatorPanics other) (state.statics other)
      (Function.update state.statics index static other) := by
  by_cases same : other = index
  · subst same
    rw [Function.update_self]
    exact moves
  · rw [Function.update_of_ne same]
    exact .refl (sound other) fun panics => same (quiet other panics).symm

/-- Every step moves each static. -/
theorem moves_of_step
    {event : Event ι}
    (sound : ∀ index, (declarations index).Sound (state.statics index))
    (step : Step declarations state event after)
    (index : ι) :
    (declarations index).Moves
      (event.generatorPanics declarations state index)
      (state.statics index) (after.statics index) := by
  unfold Step State.exec at step
  cases event with
  | access other accessor panics caught =>
      dsimp only at step
      split at step
      case isTrue => cases step
      case isFalse =>
        obtain rfl := Option.some.inj step
        refine
          moves_of_update
            (fun index =>
              Event.generatorPanics declarations state index
                (.access other accessor panics caught))
            sound (fun _ both => both.left) ?_ index
        exact ((sound other).access_moves rfl).congr (and_iff_right rfl).symm
  | construct other panics =>
      dsimp only at step
      split at step
      case isFalse => cases step
      case isTrue =>
        split at step
        case h_2 => cases step
        case h_1 static constructed =>
          obtain rfl := Option.some.inj step
          refine moves_of_update (fun _ => False) sound (fun _ => False.elim)
            ?_ index
          refine ((sound other).init_moves constructed).congr
            (iff_of_false ?_ id)
          rintro ⟨panicked, shallInit⟩
          cases ((sound other).init shallInit constructed).unwound panicked
  | descend priority =>
      dsimp only at step
      split at step
      case isFalse => cases step
      case isTrue =>
        obtain rfl := Option.some.inj step
        exact .refl (sound index) id
  | markInited =>
      dsimp only at step
      split at step
      case isFalse => cases step
      case isTrue =>
        obtain rfl := Option.some.inj step
        exact .refl (sound index) id
  | finalize other panics =>
      dsimp only at step
      split at step
      case isFalse => cases step
      case isTrue =>
        obtain rfl := Option.some.inj step
        exact moves_of_update (fun _ => False) sound (fun _ => False.elim)
          (sound other).finalize_moves index

variable (declarations) in
omit [DecidableEq ι] [Fintype ι] in
/-- What holds while the constructors run. -/
structure Inv (state : State ι) : Prop where
  sound : ∀ index, (declarations index).Sound (state.statics index)
  settled :
    ∀ index, state.constructed index = true →
      (state.statics index).phase.intersects .initialized = true ∨
        (declarations index).Spoiled (state.statics index)
  lowest : state.priority = 0 → ∀ index, state.constructed index = true
  hinted : state.hint = true → state.priority = 0

omit [DecidableEq ι] [Fintype ι] in
theorem Inv.fresh : Inv declarations (State.fresh ι) where
  sound := fun _ => ⟨.fresh, fun _ tried => by cases tried⟩
  settled := nofun
  lowest := nofun
  hinted := nofun

/-- Every step of the constructors keeps the invariant. -/
theorem Inv.step
    {event : Event ι}
    (inv : Inv declarations state)
    (step : Step declarations state event after) :
    Inv declarations after := by
  have moves := moves_of_step inv.sound step
  have sound := fun index => (moves index).sound
  have settled :
      ∀ index, state.constructed index = true →
        (after.statics index).phase.intersects .initialized = true ∨
          (declarations index).Spoiled (after.statics index) := by
    intro index constructed
    rcases inv.settled index constructed with initialized | spoiled
    · exact .inl ((moves index).initialized initialized)
    · exact .inr ((moves index).spoiled.mpr (.inl spoiled))
  unfold Step State.exec at step
  cases event with
  | access =>
      dsimp only at step
      split at step
      case isTrue => cases step
      case isFalse =>
        obtain rfl := Option.some.inj step
        exact ⟨sound, settled, inv.lowest, inv.hinted⟩
  | construct other panics =>
      dsimp only at step
      split at step
      case isFalse => cases step
      case isTrue first =>
        split at step
        case h_2 => cases step
        case h_1 static constructed =>
          obtain rfl := Option.some.inj step
          refine ⟨sound, ?_, ?_, inv.hinted⟩
          · intro index was
            by_cases same : index = other
            · subst same
              dsimp only
              rw [Function.update_self]
              exact (inv.sound index).settled_of_init constructed
            · dsimp only at was
              rw [Function.update_of_ne same] at was
              exact settled index was
          · intro lowest
            cases first.left.symm.trans lowest
  | descend priority =>
      dsimp only at step
      split at step
      case isFalse => cases step
      case isTrue allowed =>
        obtain rfl := Option.some.inj step
        refine ⟨sound, settled, ?_, ?_⟩
        · rintro (rfl : priority = 0)
          exact (allowed.right.resolve_left (Nat.lt_irrefl 0)).right
        · intro hinted
          have lowest := inv.hinted hinted
          omega
  | markInited =>
      dsimp only at step
      split at step
      case isFalse => cases step
      case isTrue lowest =>
        obtain rfl := Option.some.inj step
        exact ⟨sound, settled, inv.lowest, fun _ => lowest.left⟩
  | finalize =>
      dsimp only at step
      split at step
      case isFalse => cases step
      case isTrue =>
        obtain rfl := Option.some.inj step
        exact ⟨sound, settled, inv.lowest, inv.hinted⟩

theorem inv_of_run
    {events : List (Event ι)}
    (run : Run (Step declarations) (State.fresh ι) events state) :
    Inv declarations state :=
  run.invariant .fresh fun _ inv step => inv.step step

variable (declarations) in
/-- An access of the history runs the generator of a static, which panics. -/
def GeneratorPanicked (events : List (Event ι)) (index : ι) : Prop :=
  ∃ earlier event before,
    earlier ++ [event] <+: events ∧
      Run (Step declarations) (State.fresh ι) earlier before ∧
        event.generatorPanics declarations before index

theorem step_unique
    {event : Event ι}
    {other : State ι}
    (step : Step declarations state event after)
    (again : Step declarations state event other) :
    after = other :=
  Option.some.inj (step.symm.trans again)

/-- A static is spoiled by an access whose generator panics, and only so. -/
theorem spoiled_iff
    {events : List (Event ι)}
    (run : Run (Step declarations) (State.fresh ι) events state)
    (index : ι) :
    (declarations index).Spoiled (state.statics index) ↔
      (declarations index).tolerance.initFailure = false ∧
        GeneratorPanicked declarations events index := by
  induction run with
  | refl =>
      refine iff_of_false ?_ ?_
      · rintro ⟨-, tried, -⟩
        cases tried
      · rintro ⟨-, earlier, event, -, leading, -⟩
        cases List.append_eq_nil_iff.mp (List.prefix_nil.mp leading) |>.2
  | @snoc actions middle final event earlier last inductionHypothesis =>
      have moves := moves_of_step (inv_of_run earlier).sound last index
      rw [moves.spoiled, inductionHypothesis, ← and_or_left]
      refine and_congr_right fun _ => ?_
      constructor
      · rintro (⟨leading, other, before, shorter, rest⟩ | panics)
        · exact ⟨leading, other, before,
            shorter.trans (List.prefix_append _ _), rest⟩
        · exact ⟨actions, event, middle, List.prefix_rfl, earlier, panics⟩
      · rintro ⟨leading, other, before, shorter, ran, panics⟩
        rcases List.prefix_concat_iff.mp shorter with same | inside
        · obtain ⟨rfl, lastSame⟩ := List.append_inj' same rfl
          obtain rfl := List.cons.inj lastSame |>.1
          obtain rfl := earlier.unique ran fun _ => step_unique
          exact .inr panics
        · exact .inl ⟨leading, other, before, inside, ran, panics⟩

/--
When the hint is set, all statics are initialized exactly if no static that
tolerates no failure had a generator panic in an access.
-/
theorem hint_sound_iff
    {events : List (Event ι)}
    (run : Run (Step declarations) (State.fresh ι) events state)
    (hinted : state.hint = true) :
    (∀ index,
        (state.statics index).phase.intersects .initialized = true ∧
          (state.statics index).generated = true) ↔
      ∀ index,
        (declarations index).tolerance.initFailure = false →
          ¬ GeneratorPanicked declarations events index := by
  have inv := inv_of_run run
  have all := inv.lowest (inv.hinted hinted)
  refine forall_congr' fun index => ?_
  have spoiled := spoiled_iff run index
  have generated := (inv.sound index).generated
  constructor
  · rintro ⟨initialized, -⟩ strict panicked
    obtain ⟨-, -, absent⟩ := spoiled.mpr ⟨strict, panicked⟩
    cases absent.symm.trans initialized
  · intro quiet
    rcases inv.settled index (all index) with initialized | broken
    · exact ⟨initialized, generated.trans initialized⟩
    · obtain ⟨strict, panicked⟩ := spoiled.mp broken
      exact absurd panicked (quiet strict)

/-- Two statics, the one that tolerates a panic survives one. -/
theorem hint_sound_iff_retried :
    let declarations : Bool → Declaration :=
      fun tolerant => ⟨.lesserLazyFinalize, ⟨tolerant, false⟩⟩
    let events : List (Event Bool) :=
      [.access true .get true true, .access false .init false false,
        .descend 1, .construct false false, .construct true false,
        .descend 0, .markInited]
    ∃ state,
      Run (Step declarations) (State.fresh Bool) events state ∧
        state.hint = true ∧
          ((∀ index,
              (state.statics index).phase.intersects .initialized = true ∧
                (state.statics index).generated = true) ↔
            ∀ index,
              (declarations index).tolerance.initFailure = false →
                ¬ GeneratorPanicked declarations events index) := by
  intro declarations events
  obtain ⟨state, performed, hinted⟩ :
      ∃ state : State Bool,
        runAll
            (State.exec fun tolerant =>
              ⟨.lesserLazyFinalize, ⟨tolerant, false⟩⟩)
            (State.fresh Bool) events =
          some state ∧
        state.hint = true :=
    ⟨_, rfl, rfl⟩
  have run : Run (Step declarations) (State.fresh Bool) events state :=
    .of_runAll performed
  exact ⟨state, run, hinted, hint_sound_iff run hinted⟩

/--
A static that tolerates no failure is accessed by an early constructor, its
generator panics and the panic is caught: `init` of its own constructor
returns, and the hint is set.
-/
theorem hint_without_value :
    ¬ ∀ (declarations : Fin 1 → Declaration)
        (events : List (Event (Fin 1)))
        (state : State (Fin 1)),
        Run (Step declarations) (State.fresh (Fin 1)) events state →
          state.hint = true →
            ∀ index,
              (state.statics index).phase.intersects .initialized = true := by
  intro claim
  have performed :
      ∃ state,
        runAll
            (State.exec fun _ => ⟨.lesserLazy, ⟨false, false⟩⟩)
            (State.fresh (Fin 1))
            [.access 0 .get true true, .descend 1, .construct 0 false,
              .descend 0, .markInited] =
          some state ∧
        state.hint = true ∧
          (state.statics 0).phase.intersects .initialized = false :=
    ⟨_, rfl, rfl, by decide⟩
  obtain ⟨state, performed, hinted, absent⟩ := performed
  have initialized := claim _ _ state (.of_runAll performed) hinted 0
  cases absent.symm.trans initialized

end Runs

end StaticInit.GlobalHint
