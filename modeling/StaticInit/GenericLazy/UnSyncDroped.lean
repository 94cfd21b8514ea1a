import StaticInit.LazySequentializer.CallSites
import StaticInit.LazySequentializer.Initialization
import StaticInit.PhaseLocker.UnSync

namespace StaticInit.UnSyncDroped

/-!
# The drop of a thread-local lazy

An access to a `UnSyncLazyDroped` takes no lock once the static is initialized:
it looks at the phase in the cell.  User code runs while the thread holds a
write guard (the registration, the generator, the drop of the value) and may
access the same static again; what the guard will leave is in the guard alone.
-/

/-- A static, its target and how it is compiled. -/
structure Declaration where
  tolerance : GeneratorTolerance
  /-- `cxa_thread_at_exit`: the policy assumes that registrations succeed. -/
  regAlways : Bool
  debugAssertions : Bool
  deriving Repr, DecidableEq

inductive Access where
  | get
  | deref
  | tryGet
  | init
  deriving Repr, DecidableEq

/-- What an access gives. -/
inductive Result where
  | reference
  | error (phase : Phase)
  /-- The phase that `init` returns. -/
  | phase (phase : Phase)
  | panicked
  deriving Repr, DecidableEq

/-- A function that may hold the write guard. -/
inductive Function where
  | access (access : Access)
  | finalizeCallback
  deriving Repr, DecidableEq

/-- A function that has called user code under its write guard. -/
structure Frame where
  function : Function
  call : UserCall
  /-- It holds the phase for a panic. -/
  guard : UnSync.WriteGuard
  onSuccess : Phase
  next : Bool → GuardCode

/-- The static and the functions that hold its guard, the innermost first. -/
structure State where
  cell : U32
  frames : List Frame
  /-- Its node is in the register of the thread. -/
  listed : Bool
  /-- The drop of the value has begun. -/
  begun : Bool

/-- A static before its first access. -/
def State.fresh : State where
  cell := Phase.empty.bits
  frames := []
  listed := false
  begun := false

namespace Declaration

/-- `InitializedHardFinalizedTLChecker`. -/
def policy (declaration : Declaration) : LazyPolicy :=
  InitializedHardFinalizedChecker declaration.regAlways declaration.tolerance

/-- The debug assertion of `post_init_is_accessible`, where it is made. -/
def asserts (declaration : Declaration) (phase : Phase) : Bool :=
  if declaration.tolerance.initFailure &&
      (declaration.regAlways ||
        declaration.tolerance.finalRegistrationFailure) then
    !declaration.regAlways || phase.intersects .registered
  else
    true

/-- `check_access` and `post_init_check_access`. -/
def checkAccess (accessible : Phase → Bool) (phase : Phase) : Result :=
  if accessible phase then .reference else .error phase

def postInitCheckAccess
    (declaration : Declaration)
    (phase : Phase) : Result :=
  if declaration.debugAssertions && !declaration.asserts phase then
    .panicked
  else
    checkAccess declaration.policy.postInitIsAccessible phase

/-- `unwrap`. -/
def Result.unwrap : Result → Result
  | .error _ => .panicked
  | result => result

/-- What an access does with the phase that `GenericLazy::init` returns. -/
def conclude
    (declaration : Declaration)
    (access : Access)
    (phase : Phase) : Result :=
  match access with
  | .init => .phase phase
  | _ => Result.unwrap (declaration.postInitCheckAccess phase)

/-- What a function gives when it releases its guard. -/
def release
    (declaration : Declaration)
    (function : Function)
    (phase : Phase) : Option Result :=
  match function with
  | .access access => some (declaration.conclude access phase)
  | .finalizeCallback => none

/-- Go on under the write guard until user code is called. -/
def proceed
    (declaration : Declaration)
    (function : Function)
    (state : State)
    (guard : UnSync.WriteGuard) : GuardCode → State × Option Result
  | .done =>
      ({ state with cell := UnSync.dropWrite guard },
        declaration.release function guard.phase)
  | .setPhase phase next => declaration.proceed function state ⟨phase⟩ next
  | .transition call onSuccess onPanic next =>
      ({ state with
          frames := ⟨function, call, ⟨onPanic⟩, onSuccess, next⟩ :: state.frames
          begun := state.begun || call == .finalize },
        none)
  | .failed _ =>
      ({ state with cell := UnSync.dropWrite guard }, some .panicked)

/-- `GenericLazy::try_get`. -/
def tryGet (declaration : Declaration) (state : State) : Result :=
  checkAccess declaration.policy.isAccessible (UnSync.phase state.cell)

/-- The closure of `init`. -/
def how (declaration : Declaration) (phase : Phase) : LockNature :=
  if declaration.policy.shallInit phase then .write else .none

/-- An access; no result while it calls user code. -/
def access
    (declaration : Declaration)
    (access : Access)
    (state : State) : State × Option Result :=
  match access with
  | .tryGet => (state, some (declaration.tryGet state))
  | _ =>
      match UnSync.lock state.cell declaration.how with
      | .ok (cell, .none phase) =>
          ({ state with cell := cell },
            some (declaration.conclude access phase))
      | .ok (cell, .write guard) =>
          declaration.proceed (.access access) { state with cell := cell } guard
            (lazyInitialization declaration.tolerance guard.phase)
      | .ok (cell, .read _) =>
          ({ state with cell := UnSync.dropRead cell },
            some (declaration.conclude access (UnSync.phase cell)))
      -- with `debug_mode` it is the closure that panics
      | .error _ => (state, some .panicked)

/-- `finalize_callback`. -/
def finalizeCallback
    (declaration : Declaration)
    (state : State) : State × Option Result :=
  match UnSync.lock state.cell CallSite.finalizeHow with
  | .ok (cell, .write guard) =>
      declaration.proceed .finalizeCallback { state with cell := cell } guard
        (StaticInit.finalizeCallback guard.phase)
  | .ok (cell, _) => ({ state with cell := cell }, none)
  | .error _ => (state, some .panicked)

/-- The user code of a frame returns. -/
def resume
    (declaration : Declaration)
    (state : State)
    (frame : Frame)
    (rest : List Frame)
    (value : Bool) : State × Option Result :=
  declaration.proceed frame.function
    { state with
      frames := rest
      listed := state.listed || (frame.call == .reg && value) }
    ⟨frame.onSuccess⟩ (frame.next value)

end Declaration

/-- The user code of a frame panics, and the guard is dropped. -/
def State.unwind (state : State) (frame : Frame) (rest : List Frame) : State :=
  { state with cell := UnSync.dropWrite frame.guard, frames := rest }

/-- What happens, with what an access gives in this step. -/
inductive Event where
  | access (access : Access) (given : Option Result)
  /-- The thread exits and reaches the node of the static. -/
  | finalizeCallback (given : Option Result)
  /-- The innermost user code returns. -/
  | returned (value : Bool) (given : Option Result)
  /-- The innermost user code panics, and so does the function that called it. -/
  | panicked
  deriving DecidableEq

/-- One step; user code makes any accesses at any time. -/
inductive Step (declaration : Declaration) : State → Event → State → Prop where
  | access
      {state after : State}
      {given : Option Result}
      (access : Access)
      (accesses : declaration.access access state = (after, given)) :
      Step declaration state (.access access given) after
  | finalizeCallback
      {state after : State}
      {given : Option Result}
      (listed : state.listed = true)
      (finalizes :
        declaration.finalizeCallback { state with listed := false } =
          (after, given)) :
      Step declaration state (.finalizeCallback given) after
  | returned
      {state after : State}
      {given : Option Result}
      {frame : Frame}
      {rest : List Frame}
      (value : Bool)
      (innermost : state.frames = frame :: rest)
      (resumes :
        declaration.resume state frame rest value = (after, given)) :
      Step declaration state (.returned value given) after
  | panicked
      {state : State}
      {frame : Frame}
      {rest : List Frame}
      (innermost : state.frames = frame :: rest) :
      Step declaration state .panicked (state.unwind frame rest)

/-- The value is being dropped. -/
def State.dropping (state : State) : Bool :=
  state.frames.any fun frame => frame.call == .finalize

/-- Once the drop of the value has begun, no access gives a reference. -/
structure DropSafe
    (declaration : Declaration)
    (events : List Event) : Prop where
  refused :
    ∀ earlier access given before,
      earlier ++ [.access access given] <+: events →
        Run (Step declaration) State.fresh earlier before →
          before.begun = true → access ≠ .init →
            given = some .panicked ∨ ∃ phase, given = some (.error phase)
  /-- Nor does an access that called user code before. -/
  returned :
    ∀ earlier value given before,
      earlier ++ [.returned value given] <+: events →
        Run (Step declaration) State.fresh earlier before →
          before.begun = true → given ≠ some .reference

/-- The drop code makes no access to the static. -/
def Unobserved
    (declaration : Declaration)
    (events : List Event) : Prop :=
  ∀ earlier access given before,
    earlier ++ [.access access given] <+: events →
      Run (Step declaration) State.fresh earlier before →
        access ≠ .init → before.dropping = false

section Cells

open LockWord (view)

variable {phase : Phase} {cell : U32} {how : Phase → LockNature}

theorem phase_bits (phase : Phase) : UnSync.phase phase.bits = phase :=
  Phase.fromBitsTruncate_bits phase

theorem phase_locked (phase : Phase) :
    UnSync.phase (phase.bits ||| lockedBit) = phase := by
  have none : Phase.fromBitsTruncate lockedBit = .empty := rfl
  rw [UnSync.phase, Phase.fromBitsTruncate_or, Phase.fromBitsTruncate_bits,
    none, Phase.or_empty]

/-- A lock that is not asked for is not taken. -/
theorem lock_none
    (none : how (UnSync.phase cell) = .none) :
    UnSync.lock cell how = .ok (cell, .none (UnSync.phase cell)) := by
  rw [UnSync.lock, none]

theorem lock_free
    (write : how phase = .write) :
    UnSync.lock phase.bits how =
      .ok (phase.bits ||| lockedBit, .write ⟨phase⟩) := by
  have writable : phase.bits &&& (lockedBit ||| readerBits) = 0 := by
    rw [UnSync.writable_iff, Sync.readerCount, LockWord.view_bits]
    exact ⟨rfl, rfl⟩
  rw [UnSync.lock, phase_bits, write]
  dsimp only
  have found : UnSync.WriteGuard.new (phase.bits ||| lockedBit) = ⟨phase⟩ :=
    congrArg UnSync.WriteGuard.mk (phase_locked phase)
  rw [writable, beq_self_eq_true, if_pos rfl, found]

theorem lock_locked
    (write : how phase = .write) :
    UnSync.lock (phase.bits ||| lockedBit) how =
      .error .mutableWhileBorrowed := by
  have borrowed :
      (phase.bits ||| lockedBit) &&& (lockedBit ||| readerBits) ≠ 0 := by
    intro writable
    have unlocked := (UnSync.writable_iff.mp writable).1
    rw [LockWord.view_or, LockWord.view_lockedBit] at unlocked
    simp at unlocked
  rw [UnSync.lock, phase_locked, write]
  exact if_neg fun same => borrowed (beq_iff_eq.mp same)

end Cells

/-- What the thread is doing with the static. -/
inductive Inv (declaration : Declaration) : State → Prop where
  | idle
      (phase : Phase)
      (listed begun : Bool)
      (registered : listed = true → phase.intersects .registered = true)
      (closed :
        begun = true →
          phase.intersects .initialized = true ∧ phase.notFinalized = false) :
      Inv declaration ⟨phase.bits, [], listed, begun⟩
  | registering (access : Access) :
      Inv declaration
        ⟨Phase.empty.bits ||| lockedBit,
          [⟨.access access, .reg,
            ⟨.registrationPanicked ||| .initializationSkiped⟩, .empty,
            fun accepted =>
              lazyInitializationRegistered declaration.tolerance
                (.registration accepted)⟩],
          false, false⟩
  | generating
      (access : Access)
      (phase panic success : Phase)
      (listed : Bool)
      (shallInit : declaration.tolerance.shallInit phase = true)
      (registered :
        listed = true →
          panic.intersects .registered = true ∧
            success.intersects .registered = true) :
      Inv declaration
        ⟨phase.bits ||| lockedBit,
          [⟨.access access, .init, ⟨panic⟩, success, fun _ => .done⟩],
          listed, false⟩
  | dropping
      (phase panic success : Phase)
      (initialized : phase.intersects .initialized = true)
      (notFinalized : phase.notFinalized = true)
      (registered : phase.intersects .registered = true)
      (panicked :
        panic.intersects .initialized = true ∧ panic.notFinalized = false)
      (succeeded :
        success.intersects .initialized = true ∧
          success.notFinalized = false) :
      Inv declaration
        ⟨phase.bits ||| lockedBit,
          [⟨.finalizeCallback, .finalize, ⟨panic⟩, success, fun _ => .done⟩],
          false, true⟩

namespace Inv

variable
  {declaration : Declaration} {state after : State} {event : Event}
  {given : Option Result}

/-- The rest of an initialization once its registration is settled. -/
theorem registered
    {access : Access}
    {phase next : Phase}
    {listed : Bool}
    {guard : UnSync.WriteGuard}
    (shallInit : declaration.tolerance.shallInit phase = true)
    (registered : listed = true → next.intersects .registered = true) :
    Inv declaration
      (declaration.proceed (.access access)
        ⟨phase.bits ||| lockedBit, [], listed, false⟩ guard
        (lazyInitializationRegistered declaration.tolerance next)).1 := by
  have generates :
      Inv declaration
        (declaration.proceed (.access access)
          ⟨phase.bits ||| lockedBit, [], listed, false⟩ guard
          (generate declaration.tolerance next)).1 := by
    refine .generating access phase _ _ listed shallInit ?_
    intro isListed
    rw [Phase.intersects_generatorPanicked _ next rfl rfl,
      Phase.intersects_generated _ next rfl rfl]
    exact ⟨registered isListed, registered isListed⟩
  unfold lazyInitializationRegistered
  split
  case isTrue => exact generates
  case isFalse =>
    split
    case isTrue => exact generates
    case isFalse =>
      refine .idle (next ||| .initializationSkiped) listed false ?_ nofun
      intro isListed
      rw [Phase.intersects_or, registered isListed]
      rfl

/-- The whole initialization of a static that is not initialized. -/
theorem initialization
    {access : Access}
    {phase : Phase}
    {listed : Bool}
    (shallInit : declaration.tolerance.shallInit phase = true)
    (registered : listed = true → phase.intersects .registered = true) :
    Inv declaration
      (declaration.proceed (.access access)
        ⟨phase.bits ||| lockedBit, [], listed, false⟩ ⟨phase⟩
        (lazyInitialization declaration.tolerance phase)).1 := by
  have stays :
      Inv declaration ⟨phase.bits, [], listed, false⟩ :=
    .idle phase listed false registered nofun
  unfold lazyInitialization GuardCode.assert
  split
  case isFalse => exact stays
  case isTrue =>
    split
    case isFalse => exact stays
    case isTrue =>
      split
      case isFalse => exact Inv.registered shallInit registered
      case isTrue =>
        split
        case isFalse => exact stays
        case isTrue empty =>
          obtain rfl := (Phase.isEmpty_iff phase).mp empty
          cases listed with
          | true => cases registered rfl
          | false => exact .registering access

/-- An access that may initialize the static. -/
theorem lock
    {access : Access}
    (inv : Inv declaration state)
    (locks : access ≠ .tryGet) :
    Inv declaration (declaration.access access state).1 := by
  have goes :
      ∀ phase,
        (declaration.how phase = .write ∧
            declaration.tolerance.shallInit phase = true) ∨
          declaration.how phase = .none := by
    intro phase
    unfold Declaration.how
    split
    case isTrue shallInit => exact .inl ⟨rfl, shallInit⟩
    case isFalse => exact .inr rfl
  unfold Declaration.access
  split
  case h_1 => exact absurd rfl locks
  case h_2 =>
    cases inv with
    | idle phase listed begun registered closed =>
        dsimp only
        rcases goes phase with ⟨write, shallInit⟩ | none
        · rw [lock_free write]
          cases begun with
          | false => exact initialization shallInit registered
          | true =>
              rw [GeneratorTolerance.not_shallInit (closed rfl).1] at shallInit
              cases shallInit
        · rw [lock_none ((congrArg declaration.how (phase_bits phase)).trans
            none)]
          exact .idle phase listed begun registered closed
    | registering access =>
        dsimp only
        rcases goes .empty with ⟨write, -⟩ | none
        · rw [lock_locked write]
          exact .registering access
        · rw [lock_none ((congrArg declaration.how (phase_locked .empty)).trans
            none)]
          exact .registering access
    | generating access phase panic success listed shallInit registered =>
        dsimp only
        rcases goes phase with ⟨write, -⟩ | none
        · rw [lock_locked write]
          exact .generating access phase panic success listed shallInit
            registered
        · rw [lock_none ((congrArg declaration.how (phase_locked phase)).trans
            none)]
          exact .generating access phase panic success listed shallInit
            registered
    | dropping phase panic success initialized notFinalized registered panicked
        succeeded =>
        dsimp only
        rcases goes phase with ⟨-, shallInit⟩ | none
        · rw [GeneratorTolerance.not_shallInit initialized] at shallInit
          cases shallInit
        · rw [lock_none ((congrArg declaration.how (phase_locked phase)).trans
            none)]
          exact .dropping phase panic success initialized notFinalized
            registered panicked succeeded

/-- The thread exits and reaches the node. -/
theorem finalizeCallback
    (inv : Inv declaration state)
    (listed : state.listed = true) :
    Inv declaration
      (declaration.finalizeCallback { state with listed := false }).1 := by
  have goes :
      ∀ phase,
        (CallSite.finalizeHow phase = .write ∧
            phase.intersects .initialized = true) ∨
          CallSite.finalizeHow phase = .none := by
    intro phase
    unfold CallSite.finalizeHow
    split
    case isTrue initialized => exact .inl ⟨rfl, initialized⟩
    case isFalse => exact .inr rfl
  unfold Declaration.finalizeCallback
  cases inv with
  | idle phase isListed begun registered closed =>
      have registered := registered listed
      dsimp only
      rcases goes phase with ⟨write, initialized⟩ | none
      · rw [lock_free write]
        dsimp only
        unfold StaticInit.finalizeCallback GuardCode.assert
        split
        case isFalse => exact .idle phase false begun nofun closed
        case isTrue opened =>
          have notFinalized : phase.notFinalized = true := by
            unfold Phase.notFinalized Phase.intersects
            rw [opened]
            rfl
          have kept :
              ∀ flag : Phase,
                (phase ||| flag).intersects .initialized = true := by
            intro flag
            rw [Phase.intersects_or, initialized, Bool.true_or]
          have closes :
              ∀ flag : Phase,
                flag.notFinalized = false →
                  (phase ||| flag).notFinalized = false := by
            intro flag finalizes
            unfold Phase.notFinalized at finalizes ⊢
            rw [Bool.not_eq_false'] at finalizes ⊢
            rw [Phase.intersects_or, finalizes, Bool.or_true]
          have begins : (begun || UserCall.finalize == UserCall.finalize) = true :=
            Bool.or_true begun
          unfold lazyFinalization Declaration.proceed
          dsimp only
          rw [begins]
          exact .dropping phase _ _ initialized notFinalized registered
            ⟨kept _, closes _ rfl⟩ ⟨kept _, closes _ rfl⟩
      · rw [lock_none ((congrArg CallSite.finalizeHow (phase_bits phase)).trans
          none)]
        exact .idle phase false begun nofun closed
  | registering access => cases listed
  | generating access phase panic success isListed shallInit registered =>
      dsimp only
      rcases goes phase with ⟨-, initialized⟩ | none
      · rw [GeneratorTolerance.notInitialized_of_shallInit shallInit]
          at initialized
        cases initialized
      · rw [lock_none ((congrArg CallSite.finalizeHow (phase_locked phase)).trans
          none)]
        exact .generating access phase panic success false shallInit nofun
  | dropping => cases listed

/-- User code returns, and the function that called it goes on. -/
theorem resume
    {frame : Frame}
    {rest : List Frame}
    (inv : Inv declaration state)
    (innermost : state.frames = frame :: rest)
    (value : Bool) :
    Inv declaration (declaration.resume state frame rest value).1 := by
  unfold Declaration.resume
  cases inv with
  | idle => cases innermost
  | registering access =>
      cases innermost
      refine Inv.registered ?_ ?_
      · unfold GeneratorTolerance.shallInit
        split
        case isTrue => rfl
        case isFalse => rfl
      · intro accepted
        cases value with
        | true => rfl
        | false => cases accepted
  | generating access phase panic success listed shallInit registered =>
      cases innermost
      refine .idle success _ false ?_ nofun
      intro isListed
      exact (registered ((Bool.or_false listed).symm.trans isListed)).2
  | dropping phase panic success initialized notFinalized registered panicked
      succeeded =>
      cases innermost
      exact .idle success _ true nofun fun _ => succeeded

/-- User code panics. -/
theorem unwind
    {frame : Frame}
    {rest : List Frame}
    (inv : Inv declaration state)
    (innermost : state.frames = frame :: rest) :
    Inv declaration (state.unwind frame rest) := by
  cases inv with
  | idle => cases innermost
  | registering access =>
      cases innermost
      exact .idle _ false false nofun nofun
  | generating access phase panic success listed shallInit registered =>
      cases innermost
      exact .idle panic listed false (fun isListed => (registered isListed).1)
        nofun
  | dropping phase panic success initialized notFinalized registered panicked
      succeeded =>
      cases innermost
      exact .idle panic false true nofun fun _ => panicked

theorem step
    (inv : Inv declaration state)
    (step : Step declaration state event after) :
    Inv declaration after := by
  cases step with
  | access access accesses =>
      by_cases reads : access = .tryGet
      · subst reads
        obtain ⟨rfl, -⟩ := Prod.mk.inj accesses
        exact inv
      · have kept := inv.lock reads
        rw [accesses] at kept
        exact kept
  | finalizeCallback listed finalizes =>
      have kept := inv.finalizeCallback listed
      rw [finalizes] at kept
      exact kept
  | returned value innermost resumes =>
      have kept := inv.resume innermost value
      rw [resumes] at kept
      exact kept
  | panicked innermost => exact inv.unwind innermost

/-- During the drop every access gives a reference. -/
theorem reference_of_dropping
    {access : Access}
    (inv : Inv declaration state)
    (dropping : state.dropping = true)
    (gives : access ≠ .init)
    (accesses : declaration.access access state = (after, given)) :
    given = some .reference := by
  cases inv with
  | idle => cases dropping
  | registering => cases dropping
  | generating => cases dropping
  | dropping phase panic success initialized notFinalized registered =>
      have accessible : declaration.policy.isAccessible phase = true := by
        refine Bool.and_eq_true_iff.mpr ⟨initialized, ?_⟩
        exact notFinalized
      have postInit : declaration.policy.postInitIsAccessible phase = true := by
        unfold Declaration.policy InitializedHardFinalizedChecker
        dsimp only
        rw [initialized, notFinalized]
        split
        case isTrue => rfl
        case isFalse => rfl
      have asserts : declaration.asserts phase = true := by
        unfold Declaration.asserts
        rw [registered, Bool.or_true]
        split
        case isTrue => rfl
        case isFalse => rfl
      have referenced :
          declaration.postInitCheckAccess phase = .reference := by
        unfold Declaration.postInitCheckAccess Declaration.checkAccess
        rw [asserts, postInit, Bool.not_true, Bool.and_false]
        rfl
      have how : declaration.how phase = .none := by
        unfold Declaration.how
        have shallNot : declaration.policy.shallInit phase = false :=
          GeneratorTolerance.not_shallInit initialized
        rw [shallNot]
        rfl
      unfold Declaration.access at accesses
      split at accesses
      case h_1 =>
        obtain ⟨-, rfl⟩ := Prod.mk.inj accesses
        unfold Declaration.tryGet Declaration.checkAccess
        dsimp only
        rw [phase_locked, accessible]
        rfl
      case h_2 =>
        dsimp only at accesses
        rw [lock_none ((congrArg declaration.how (phase_locked phase)).trans
          how), phase_locked] at accesses
        obtain ⟨-, rfl⟩ := Prod.mk.inj accesses
        unfold Declaration.conclude
        split
        case h_1 => exact absurd rfl gives
        case h_2 =>
          rw [referenced]
          rfl

/-- After the drop no access gives a reference. -/
theorem refused_of_begun
    {access : Access}
    (inv : Inv declaration state)
    (begun : state.begun = true)
    (finished : state.dropping = false)
    (gives : access ≠ .init)
    (accesses : declaration.access access state = (after, given)) :
    given = some .panicked ∨ ∃ phase, given = some (.error phase) := by
  cases inv with
  | registering => cases begun
  | generating => cases begun
  | dropping => cases finished
  | idle phase listed isBegun registered closed =>
      obtain ⟨initialized, finalized⟩ := closed begun
      have inaccessible : declaration.policy.isAccessible phase = false := by
        change (phase.intersects .initialized && phase.notFinalized) = false
        rw [finalized, Bool.and_false]
      have postInit : declaration.policy.postInitIsAccessible phase = false := by
        unfold Declaration.policy InitializedHardFinalizedChecker
        dsimp only
        rw [finalized, Bool.and_false]
        split
        case isTrue => rfl
        case isFalse => rfl
      have how : declaration.how phase = .none := by
        unfold Declaration.how
        have shallNot : declaration.policy.shallInit phase = false :=
          GeneratorTolerance.not_shallInit initialized
        rw [shallNot]
        rfl
      unfold Declaration.access at accesses
      split at accesses
      case h_1 =>
        obtain ⟨-, rfl⟩ := Prod.mk.inj accesses
        unfold Declaration.tryGet Declaration.checkAccess
        dsimp only
        rw [phase_bits, inaccessible]
        exact .inr ⟨phase, rfl⟩
      case h_2 =>
        dsimp only at accesses
        rw [lock_none ((congrArg declaration.how (phase_bits phase)).trans how),
          phase_bits] at accesses
        obtain ⟨-, rfl⟩ := Prod.mk.inj accesses
        left
        unfold Declaration.conclude Declaration.postInitCheckAccess
          Declaration.checkAccess
        rw [postInit]
        split
        case h_1 => exact absurd rfl gives
        case h_2 =>
          split
          case isTrue => rfl
          case isFalse => rfl

theorem begun_of_dropping
    (inv : Inv declaration state)
    (dropping : state.dropping = true) :
    state.begun = true := by
  cases inv with
  | dropping => rfl
  | _ => cases dropping

/-- After the drop has begun, no access is left that called user code. -/
theorem silent_of_begun
    {frame : Frame}
    {rest : List Frame}
    {value : Bool}
    (inv : Inv declaration state)
    (begun : state.begun = true)
    (innermost : state.frames = frame :: rest)
    (resumes : declaration.resume state frame rest value = (after, given)) :
    given ≠ some .reference := by
  cases inv with
  | idle => cases innermost
  | registering => cases begun
  | generating => cases begun
  | dropping =>
      cases innermost
      obtain ⟨-, rfl⟩ := Prod.mk.inj resumes
      exact nofun

end Inv

section Runs

variable
  {declaration : Declaration} {events : List Event}
  {state before after : State}

theorem inv_of_run
    (run : Run (Step declaration) State.fresh events state) :
    Inv declaration state :=
  run.invariant (.idle .empty false false nofun nofun)
    fun _ inv step => inv.step step

/-- The event determines the step. -/
theorem step_unique
    {event : Event}
    (first : Step declaration before event state)
    (second : Step declaration before event after) :
    state = after := by
  cases first with
  | access access accesses =>
      cases second with
      | access _ again => exact (Prod.mk.inj (accesses.symm.trans again)).1
  | finalizeCallback listed finalizes =>
      cases second with
      | finalizeCallback _ again =>
          exact (Prod.mk.inj (finalizes.symm.trans again)).1
  | returned value innermost resumes =>
      cases second with
      | returned _ same again =>
          cases innermost.symm.trans same
          exact (Prod.mk.inj (resumes.symm.trans again)).1
  | panicked innermost =>
      cases second with
      | panicked same =>
          cases innermost.symm.trans same
          rfl

/-- An event of a history is a step from the state before it. -/
theorem step_of_prefix
    {earlier : List Event}
    {event : Event}
    (run : Run (Step declaration) State.fresh events state)
    (leading : earlier ++ [event] <+: events)
    (ran : Run (Step declaration) State.fresh earlier before) :
    ∃ after, Step declaration before event after := by
  obtain ⟨later, rfl⟩ := leading
  obtain ⟨after, whole, -⟩ := run.split
  obtain ⟨middle, again, step⟩ := whole.unsnoc
  obtain rfl := ran.unique again fun _ => step_unique
  exact ⟨after, step⟩

/-- No access gives a reference once the drop has begun, if the drop makes none. -/
theorem drop_safe_iff
    (declaration : Declaration)
    (events : List Event)
    (state : State)
    (run : Run (Step declaration) State.fresh events state) :
    DropSafe declaration events ↔ Unobserved declaration events := by
  constructor
  · intro safe earlier access given before leading ran gives
    by_contra dropping
    have dropping := Bool.eq_true_of_not_eq_false dropping
    have inv := inv_of_run ran
    have refused :=
      safe.refused earlier access given before leading ran
        (inv.begun_of_dropping dropping) gives
    obtain ⟨after, step⟩ := step_of_prefix run leading ran
    cases step with
    | access _ accesses =>
        rw [inv.reference_of_dropping dropping gives accesses] at refused
        rcases refused with panicked | ⟨phase, error⟩
        · cases panicked
        · cases error
  · intro unobserved
    constructor
    case refused =>
      intro earlier access given before leading ran begun gives
      have finished := unobserved earlier access given before leading ran gives
      obtain ⟨after, step⟩ := step_of_prefix run leading ran
      cases step with
      | access _ accesses =>
          exact (inv_of_run ran).refused_of_begun begun finished gives accesses
    case returned =>
      intro earlier value given before leading ran begun
      obtain ⟨after, step⟩ := step_of_prefix run leading ran
      cases step with
      | returned _ innermost resumes =>
          exact (inv_of_run ran).silent_of_begun begun innermost resumes

/-- The value is generated, and `try_get` in its drop code gives a reference. -/
theorem observed_while_dropping :
    ∃ (events : List Event) (state : State),
      Run (Step ⟨⟨true, false⟩, true, true⟩) State.fresh events state ∧
        ¬ DropSafe ⟨⟨true, false⟩, true, true⟩ events := by
  have ran :
      Run (Step ⟨⟨true, false⟩, true, true⟩) State.fresh
        [.access .get none, .returned true none,
          .returned true (some .reference), .finalizeCallback none]
        ⟨(Phase.registered ||| .initialized).bits ||| lockedBit,
          [⟨.finalizeCallback, .finalize,
            ⟨.registered ||| .initialized ||| .finalizationPanicked⟩,
            .registered ||| .initialized ||| .finalized, fun _ => .done⟩],
          false, true⟩ := by
    refine Run.cons (Step.access .get rfl) ?_
    refine Run.cons (Step.returned true rfl rfl) ?_
    refine Run.cons (Step.returned true rfl rfl) ?_
    exact Run.cons (Step.finalizeCallback rfl rfl) .refl
  refine ⟨_, _, .snoc (.access .tryGet (some .reference)) ran
    (.access .tryGet rfl), ?_⟩
  intro safe
  have refused :=
    safe.refused _ .tryGet _ _ (List.prefix_refl _) ran rfl nofun
  rcases refused with panicked | ⟨phase, error⟩
  · cases panicked
  · cases error

/-- The drop code returns, and later accesses are refused. -/
theorem drop_safe_iff_unobserved :
    let events : List Event :=
      [.access .deref none, .returned true none,
        .returned true (some .reference), .finalizeCallback none,
        .returned true none, .access .get (some .panicked),
        .access .tryGet
          (some (.error (.registered ||| .initialized ||| .finalized)))]
    Run (Step ⟨⟨false, true⟩, false, true⟩) State.fresh events
        ⟨(Phase.registered ||| .initialized ||| .finalized).bits, [], false,
          true⟩ ∧
      (DropSafe ⟨⟨false, true⟩, false, true⟩ events ↔
        Unobserved ⟨⟨false, true⟩, false, true⟩ events) := by
  intro events
  have run :
      Run (Step ⟨⟨false, true⟩, false, true⟩) State.fresh events
        ⟨(Phase.registered ||| .initialized ||| .finalized).bits, [], false,
          true⟩ := by
    refine Run.cons (Step.access .deref rfl) ?_
    refine Run.cons (Step.returned true rfl rfl) ?_
    refine Run.cons (Step.returned true rfl rfl) ?_
    refine Run.cons (Step.finalizeCallback rfl rfl) ?_
    refine Run.cons (Step.returned true rfl rfl) ?_
    refine Run.cons (Step.access .get rfl) ?_
    exact Run.cons (Step.access .tryGet rfl) .refl
  exact ⟨run, drop_safe_iff _ _ _ run⟩

end Runs

end StaticInit.UnSyncDroped
