import StaticInit.LazySequentializer.System

namespace StaticInit.Lazily

/-!
# Exactly-once initialization and registration

The phase of a static tells what was called before.  `Settled` is this for a
published phase; `Progress` for each place of the code under the write guard,
whose guard phase is settled whenever the code may be left.
-/

/-- What has happened to the static so far. -/
structure Summary where
  regCalls : Nat := 0
  initCalls : Nat := 0
  finalizeCalls : Nat := 0
  /-- Generator runs that returned; their value was written. -/
  completions : Nat := 0
  /-- A call of `reg` returned true. -/
  accepted : Bool := false
  deriving DecidableEq

namespace Summary

variable {ι : Type}

/-- Take one more event into account. -/
def add (past : Summary) : Event ι → Summary
  | .call _ .reg => { past with regCalls := past.regCalls + 1 }
  | .call _ .init => { past with initCalls := past.initCalls + 1 }
  | .call _ .finalize =>
      { past with finalizeCalls := past.finalizeCalls + 1 }
  | .returned _ .reg value =>
      { past with accepted := past.accepted || value }
  | .returned _ .init _ =>
      { past with completions := past.completions + 1 }
  | _ => past

end Summary

/-- The summary of a history. -/
def summary {ι : Type} (events : List (Event ι)) : Summary :=
  events.foldl Summary.add {}

@[simp] theorem summary_append
    {ι : Type}
    (events : List (Event ι))
    (event : Event ι) :
    summary (events ++ [event]) = (summary events).add event :=
  List.foldl_concat ..

/-- What a phase that is or may be published says about the past. -/
structure Settled
    (tolerance : GeneratorTolerance)
    (past : Summary)
    (phase : Phase) : Prop where
  untouched :
    phase.isEmpty = true → past.regCalls = 0 ∧ past.initCalls = 0
  registered : phase.isEmpty = false → past.regCalls = 1
  accepted : past.accepted = phase.intersects .registered
  completed :
    past.completions = if phase.intersects .initialized then 1 else 0
  once : tolerance.initFailure = false → past.initCalls ≤ 1
  finalized :
    phase.intersects (.finalized ||| .finalizationPanicked) = true →
      phase.intersects .initialized = true ∧ 0 < past.finalizeCalls

/-- Nothing was called. -/
structure Untouched (past : Summary) : Prop where
  regCalls : past.regCalls = 0
  initCalls : past.initCalls = 0
  completions : past.completions = 0
  accepted : past.accepted = false

/-- The registration is settled with `registrationFinished`. -/
structure Registered
    (past : Summary)
    (registrationFinished : Phase) : Prop where
  regCalls : past.regCalls = 1
  completions : past.completions = 0
  accepted : past.accepted = registrationFinished.intersects .registered
  notInitialized :
    registrationFinished.intersects .initialized = false
  notFinalized :
    registrationFinished.intersects (.finalized ||| .finalizationPanicked) =
      false

/-- The generator may be run. -/
structure Ready
    (tolerance : GeneratorTolerance)
    (past : Summary)
    (registrationFinished : Phase) : Prop extends
    Registered past registrationFinished where
  allowed :
    registrationFinished.intersects .registered = true ∨
      tolerance.finalRegistrationFailure = true

/-- What the code under the write guard knows of the past. -/
inductive Progress
    {ι : Type}
    (tolerance : GeneratorTolerance)
    (past : Summary)
    (holder : Holder ι) : Prop where
  | done
      (code : holder.code = .done)
      (idle : holder.calling = false)
      (settled : Settled tolerance past holder.guard)
  | skip
      (phase : Phase)
      (code : holder.code = .setPhase phase .done)
      (idle : holder.calling = false)
      (settled : Settled tolerance past phase)
  | register
      (code : holder.code = StaticInit.register tolerance)
      (idle : holder.calling = false)
      (untouched : Untouched past)
  | registering
      (code : holder.code = StaticInit.register tolerance)
      (calling : holder.calling = true)
      (guard :
        holder.guard = .registrationPanicked ||| .initializationSkiped)
      (regCalls : past.regCalls = 1)
      (initCalls : past.initCalls = 0)
      (completions : past.completions = 0)
      (accepted : past.accepted = false)
  | generate
      (phase : Phase)
      (code : holder.code = StaticInit.generate tolerance phase)
      (idle : holder.calling = false)
      (ready : Ready tolerance past phase)
      (first : tolerance.initFailure = false → past.initCalls = 0)
  | generating
      (phase : Phase)
      (code : holder.code = StaticInit.generate tolerance phase)
      (calling : holder.calling = true)
      (guard : holder.guard = phase.generatorPanicked tolerance)
      (ready : Ready tolerance past phase)
      (once : tolerance.initFailure = false → past.initCalls = 1)
  | finalize
      (phase : Phase)
      (code : holder.code = lazyFinalization phase)
      (idle : holder.calling = false)
      (task : holder.task = .finalize)
      (settled : Settled tolerance past phase)
      (initialized : phase.intersects .initialized = true)
      (first : past.finalizeCalls = 0)
  | finalizing
      (phase : Phase)
      (code : holder.code = lazyFinalization phase)
      (calling : holder.calling = true)
      (task : holder.task = .finalize)
      (guard : holder.guard = phase ||| .finalizationPanicked)
      (settled : Settled tolerance past phase)
      (initialized : phase.intersects .initialized = true)
      (once : past.finalizeCalls = 1)

section Settled

variable
  {tolerance : GeneratorTolerance} {past : Summary} {phase : Phase}

/-- The empty phase is settled at the start. -/
theorem Settled.empty : Settled tolerance {} .empty where
  untouched := fun _ => ⟨rfl, rfl⟩
  registered := nofun
  accepted := rfl
  completed := rfl
  once := fun _ => Nat.zero_le 1
  finalized := nofun

/-- A generator that returned leaves a settled phase. -/
theorem Settled.generated
    {ι : Type}
    {actor : ι}
    {value : Bool}
    (ready : Ready tolerance past phase)
    (once : tolerance.initFailure = false → past.initCalls = 1) :
    Settled tolerance (past.add (.returned actor .init value))
      (phase.generated tolerance) := by
  have initialized := Phase.generated_initialized tolerance phase
  constructor
  · intro empty
    rw [Phase.not_isEmpty_of_intersects initialized] at empty
    cases empty
  · exact fun _ => ready.regCalls
  · rw [Phase.intersects_generated tolerance phase rfl rfl]
    exact ready.accepted
  · rw [initialized]
    exact congrArg (· + 1) ready.completions
  · exact fun strict => (once strict).le
  · intro finalized
    rw [Phase.intersects_generated tolerance phase rfl rfl,
      ready.notFinalized] at finalized
    cases finalized

/-- A generator that panicked leaves a settled phase. -/
theorem Settled.generatorPanicked
    (ready : Ready tolerance past phase)
    (once : tolerance.initFailure = false → past.initCalls = 1) :
    Settled tolerance past (phase.generatorPanicked tolerance) := by
  constructor
  · intro empty
    rw [Phase.not_isEmpty_of_intersects
      (Phase.generatorPanicked_panicked tolerance phase)] at empty
    cases empty
  · exact fun _ => ready.regCalls
  · rw [Phase.intersects_generatorPanicked tolerance phase rfl rfl]
    exact ready.accepted
  · rw [Phase.generatorPanicked_notInitialized tolerance ready.notInitialized]
    exact ready.completions
  · exact fun strict => (once strict).le
  · intro finalized
    rw [Phase.intersects_generatorPanicked tolerance phase rfl rfl,
      ready.notFinalized] at finalized
    cases finalized

/-- A finalized phase stays settled. -/
theorem Settled.finalize
    {flag : Phase}
    (settled : Settled tolerance past phase)
    (initialized : phase.intersects .initialized = true)
    (called : 0 < past.finalizeCalls)
    (notRegistered : flag.intersects .registered = false) :
    Settled tolerance past (phase ||| flag) := by
  have kept : (phase ||| flag).intersects .initialized = true := by
    rw [Phase.intersects_or, initialized, Bool.true_or]
  constructor
  · intro empty
    rw [Phase.not_isEmpty_of_intersects kept] at empty
    cases empty
  · exact fun _ =>
      settled.registered (Phase.not_isEmpty_of_intersects initialized)
  · rw [Phase.intersects_or, notRegistered, Bool.or_false]
    exact settled.accepted
  · rw [kept]
    rw [settled.completed, initialized]
  · exact settled.once
  · exact fun _ => ⟨kept, called⟩

/-- The call of the finalizer leaves its phase settled. -/
theorem Settled.finalizing
    {ι : Type}
    (actor : ι)
    (settled : Settled tolerance past phase) :
    Settled tolerance (past.add (.call actor .finalize)) phase where
  untouched := settled.untouched
  registered := settled.registered
  accepted := settled.accepted
  completed := settled.completed
  once := settled.once
  finalized := fun finalized =>
    ⟨(settled.finalized finalized).left, Nat.succ_pos _⟩

/-- A refused registration that is not tolerated skips the generator. -/
theorem Settled.skip
    (registered : Registered past phase)
    (once : tolerance.initFailure = false → past.initCalls ≤ 1) :
    Settled tolerance past (phase ||| .initializationSkiped) := by
  have skipped :
      (phase ||| .initializationSkiped).intersects .initializationSkiped =
        true := by
    rw [Phase.intersects_or]
    exact Bool.or_true _
  have notInitialized :
      (phase ||| .initializationSkiped).intersects .initialized = false := by
    rw [Phase.intersects_or, registered.notInitialized]
    rfl
  constructor
  · intro empty
    rw [Phase.not_isEmpty_of_intersects skipped] at empty
    cases empty
  · exact fun _ => registered.regCalls
  · rw [Phase.intersects_or]
    exact registered.accepted.trans (Bool.or_false _).symm
  · rw [notInitialized]
    exact registered.completions
  · exact once
  · intro finalized
    rw [Phase.intersects_or, registered.notFinalized] at finalized
    cases finalized

/-- Untouched statics have the empty phase. -/
theorem Settled.untouched_iff
    (settled : Settled tolerance past phase)
    (empty : phase.isEmpty = true) :
    Untouched past := by
  obtain ⟨regCalls, initCalls⟩ := settled.untouched empty
  obtain rfl := (Phase.isEmpty_iff phase).mp empty
  exact ⟨regCalls, initCalls, settled.completed, settled.accepted⟩

end Settled

section Progress

variable
  {ι : Type} {tolerance : GeneratorTolerance} {past : Summary}
  {holder after : Holder ι}

/-- The code once the registration is settled. -/
theorem Progress.registered
    {phase : Phase}
    (registered : Registered past phase)
    (first : tolerance.initFailure = false → past.initCalls = 0)
    (code : holder.code = lazyInitializationRegistered tolerance phase)
    (idle : holder.calling = false) :
    Progress tolerance past holder := by
  unfold lazyInitializationRegistered at code
  split at code
  case isTrue isRegistered =>
    exact .generate phase code idle ⟨registered, .inl isRegistered⟩ first
  case isFalse =>
    split at code
    case isTrue tolerated =>
      exact .generate phase code idle ⟨registered, .inr tolerated⟩ first
    case isFalse =>
      refine .skip _ code idle (Settled.skip registered ?_)
      intro strict
      rw [first strict]
      exact Nat.zero_le 1

/-- `lazy_initialization` starts with code that fits the past. -/
theorem Progress.lazyInitialization
    {phase : Phase}
    (settled : Settled tolerance past phase)
    (shallInit : tolerance.shallInit phase = true)
    (code : holder.code = StaticInit.lazyInitialization tolerance phase)
    (idle : holder.calling = false) :
    Progress tolerance past holder := by
  have notInitialized :=
    GeneratorTolerance.notInitialized_of_shallInit shallInit
  have notFinalized :
      phase.intersects (.finalized ||| .finalizationPanicked) = false := by
    by_contra finalized
    have initialized :=
      (settled.finalized (Bool.eq_true_of_not_eq_false finalized)).left
    cases notInitialized.symm.trans initialized
  cases empty : phase.isEmpty with
  | true =>
      obtain rfl := (Phase.isEmpty_iff phase).mp empty
      exact .register (code.trans (lazyInitialization_empty tolerance)) idle
        (settled.untouched_iff empty)
  | false =>
      have tolerant :=
        GeneratorTolerance.tolerant_of_shallInit shallInit empty
      rw [lazyInitialization_retried notFinalized notInitialized tolerant
        empty] at code
      refine Progress.registered ?_ ?_ code idle
      · refine ⟨settled.registered empty, ?_, settled.accepted,
          notInitialized, notFinalized⟩
        rw [settled.completed, notInitialized]
        rfl
      · intro strict
        rw [tolerant] at strict
        cases strict

/-- An access starts with code that fits the past. -/
theorem Progress.enter
    {access : Access}
    {phase : Phase}
    {task : Task}
    {code : GuardCode}
    {actor : ι}
    (settled : Settled tolerance past phase)
    (enters : access.enter tolerance phase = some (task, code)) :
    Progress tolerance past ⟨actor, task, phase, code, false⟩ := by
  cases shallInit : tolerance.shallInit phase with
  | true =>
      have initializes :
          code = StaticInit.lazyInitialization tolerance phase := by
        cases access with
        | _ =>
            simp only [Access.enter, shallInit, if_true] at enters
            cases enters
            rfl
      exact .lazyInitialization settled shallInit initializes rfl
  | false =>
      have waits : code = .done := by
        cases access with
        | initThenWriteGuard =>
            simp only [Access.enter, shallInit] at enters
            cases enters
            rfl
        | tryInitThenWriteGuard =>
            simp only [Access.enter, shallInit] at enters
            cases enters
            rfl
        | _ =>
            simp only [Access.enter, shallInit] at enters
            cases enters
      exact .done waits rfl settled

/-- A user call keeps the progress. -/
theorem Progress.start
    {call : UserCall}
    (actor : ι)
    (progress : Progress tolerance past holder)
    (starts : holder.start call = some after) :
    Progress tolerance (past.add (.call actor call)) after := by
  obtain ⟨idle, onSuccess, onPanic, next, transition, rfl⟩ :=
    Holder.start_eq starts
  cases progress with
  | done code => cases code.symm.trans transition
  | skip phase code => cases code.symm.trans transition
  | register code _ untouched =>
      obtain ⟨rfl, rfl, rfl, rfl⟩ :=
        GuardCode.transition.inj (code.symm.trans transition)
      exact .registering code rfl rfl (congrArg (· + 1) untouched.regCalls)
        untouched.initCalls untouched.completions untouched.accepted
  | generate phase code _ ready first =>
      obtain ⟨rfl, rfl, rfl, rfl⟩ :=
        GuardCode.transition.inj (code.symm.trans transition)
      exact .generating phase code rfl rfl
        { regCalls := ready.regCalls
          completions := ready.completions
          accepted := ready.accepted
          notInitialized := ready.notInitialized
          notFinalized := ready.notFinalized
          allowed := ready.allowed }
        fun strict => congrArg (· + 1) (first strict)
  | finalize phase code _ task settled initialized first =>
      obtain ⟨rfl, rfl, rfl, rfl⟩ :=
        GuardCode.transition.inj (code.symm.trans transition)
      exact .finalizing phase code rfl task rfl (settled.finalizing actor)
        initialized (congrArg (· + 1) first)
  | registering _ calling => cases idle.symm.trans calling
  | generating _ _ calling => cases idle.symm.trans calling
  | finalizing _ _ calling => cases idle.symm.trans calling

/-- A user call that returns keeps the progress. -/
theorem Progress.finish
    {call : UserCall}
    {value : Bool}
    (actor : ι)
    (progress : Progress tolerance past holder)
    (finishes : holder.finish call value = some after) :
    Progress tolerance (past.add (.returned actor call value)) after := by
  obtain ⟨running, onSuccess, onPanic, next, transition, rfl⟩ :=
    Holder.finish_eq finishes
  cases progress with
  | done code => cases code.symm.trans transition
  | skip phase code => cases code.symm.trans transition
  | register _ idle => cases idle.symm.trans running
  | generate _ _ idle => cases idle.symm.trans running
  | finalize _ _ idle => cases idle.symm.trans running
  | registering code _ _ regCalls initCalls completions accepted =>
      obtain ⟨rfl, rfl, rfl, rfl⟩ :=
        GuardCode.transition.inj (code.symm.trans transition)
      have registered :
          Registered (past.add (.returned actor .reg value))
            (.registration value) := by
        cases value with
        | true => exact ⟨regCalls, completions, Bool.or_true _, rfl, rfl⟩
        | false =>
            exact ⟨regCalls, completions,
              (Bool.or_false _).trans accepted, rfl, rfl⟩
      exact .registered registered (fun _ => initCalls) rfl rfl
  | generating phase code _ _ ready once =>
      obtain ⟨rfl, rfl, rfl, rfl⟩ :=
        GuardCode.transition.inj (code.symm.trans transition)
      exact .done rfl rfl (Settled.generated ready once)
  | finalizing phase code _ _ _ settled initialized once =>
      obtain ⟨rfl, rfl, rfl, rfl⟩ :=
        GuardCode.transition.inj (code.symm.trans transition)
      exact .done rfl rfl
        (settled.finalize initialized (once ▸ Nat.one_pos) rfl)

/-- A user call that panics leaves a settled phase. -/
theorem Progress.panic
    {call : UserCall}
    (progress : Progress tolerance past holder)
    (running : holder.isCalling call = true) :
    Settled tolerance past holder.guard := by
  obtain ⟨running, onSuccess, onPanic, next, transition⟩ :=
    Holder.isCalling_eq running
  cases progress with
  | done code => cases code.symm.trans transition
  | skip phase code => cases code.symm.trans transition
  | register _ idle => cases idle.symm.trans running
  | generate _ _ idle => cases idle.symm.trans running
  | finalize _ _ idle => cases idle.symm.trans running
  | registering _ _ guard regCalls initCalls completions accepted =>
      rw [guard]
      constructor
      · exact nofun
      · exact fun _ => regCalls
      · exact accepted
      · exact completions
      · exact fun _ => initCalls.trans_le (Nat.zero_le 1)
      · exact nofun
  | generating phase _ _ guard ready once =>
      rw [guard]
      exact .generatorPanicked ready once
  | finalizing phase _ _ _ guard settled initialized once =>
      rw [guard]
      exact settled.finalize initialized (once ▸ Nat.one_pos) rfl

/-- Setting the phase keeps the progress. -/
theorem Progress.setPhase
    (progress : Progress tolerance past holder)
    (sets : holder.setPhase = some after) :
    Progress tolerance past after := by
  obtain ⟨phase, next, set, rfl⟩ := Holder.setPhase_eq sets
  cases progress with
  | skip phase code idle settled =>
      obtain ⟨rfl, rfl⟩ := GuardCode.setPhase.inj (code.symm.trans set)
      exact .done rfl idle settled
  | done code => cases code.symm.trans set
  | register code => cases code.symm.trans set
  | registering code => cases code.symm.trans set
  | generate _ code => cases code.symm.trans set
  | generating _ code => cases code.symm.trans set
  | finalize _ code => cases code.symm.trans set
  | finalizing _ code => cases code.symm.trans set

/-- A guard that is dropped shows a settled phase. -/
theorem Progress.release
    (progress : Progress tolerance past holder)
    (finished : holder.isDone = true) :
    Settled tolerance past holder.guard := by
  have done := Holder.isDone_eq finished
  cases progress with
  | done _ _ settled => exact settled
  | skip _ code => cases code.symm.trans done
  | register code => cases code.symm.trans done
  | registering code => cases code.symm.trans done
  | generate _ code => cases code.symm.trans done
  | generating _ code => cases code.symm.trans done
  | finalize _ code => cases code.symm.trans done
  | finalizing _ code => cases code.symm.trans done

/-- No assertion fails. -/
theorem Progress.no_failure
    {assertion : DebugAssertion}
    (progress : Progress tolerance past holder) :
    holder.fails ≠ some assertion := by
  intro fails
  have failed := Holder.fails_eq fails
  cases progress with
  | done code => cases code.symm.trans failed
  | skip _ code => cases code.symm.trans failed
  | register code => cases code.symm.trans failed
  | registering code => cases code.symm.trans failed
  | generate _ code => cases code.symm.trans failed
  | generating _ code => cases code.symm.trans failed
  | finalize _ code => cases code.symm.trans failed
  | finalizing _ code => cases code.symm.trans failed

/-- A generator that starts is ready. -/
theorem Progress.start_init
    (progress : Progress tolerance past holder)
    (starts : holder.start .init = some after) :
    ∃ phase, Ready tolerance past phase := by
  obtain ⟨idle, onSuccess, onPanic, next, transition, -⟩ :=
    Holder.start_eq starts
  cases progress with
  | generate phase _ _ ready => exact ⟨phase, ready⟩
  | done code => cases code.symm.trans transition
  | skip _ code => cases code.symm.trans transition
  | register code =>
      cases (GuardCode.transition.inj (code.symm.trans transition)).left
  | finalize _ code =>
      cases (GuardCode.transition.inj (code.symm.trans transition)).left
  | registering _ calling => cases idle.symm.trans calling
  | generating _ _ calling => cases idle.symm.trans calling
  | finalizing _ _ calling => cases idle.symm.trans calling

/-- Only `finalize_callback` calls the finalizer, and once. -/
theorem Progress.start_finalize
    (progress : Progress tolerance past holder)
    (starts : holder.start .finalize = some after) :
    holder.task = .finalize ∧ past.finalizeCalls = 0 := by
  obtain ⟨idle, onSuccess, onPanic, next, transition, -⟩ :=
    Holder.start_eq starts
  cases progress with
  | finalize _ _ _ task _ _ first => exact ⟨task, first⟩
  | done code => cases code.symm.trans transition
  | skip _ code => cases code.symm.trans transition
  | register code =>
      cases (GuardCode.transition.inj (code.symm.trans transition)).left
  | generate _ code =>
      cases (GuardCode.transition.inj (code.symm.trans transition)).left
  | registering _ calling => cases idle.symm.trans calling
  | generating _ _ calling => cases idle.symm.trans calling
  | finalizing _ _ calling => cases idle.symm.trans calling

end Progress

section Bounds

variable {ι : Type} {tolerance : GeneratorTolerance} {past : Summary}

theorem Summary.completions_add
    (past : Summary)
    (event : Event ι) :
    past.completions ≤ (past.add event).completions := by
  unfold add
  split
  case h_5 => exact Nat.le_succ _
  all_goals exact le_rfl

theorem Settled.completions_le
    {phase : Phase}
    (settled : Settled tolerance past phase) :
    past.completions ≤ 1 := by
  rw [settled.completed]
  split
  case isTrue => exact le_rfl
  case isFalse => exact Nat.zero_le 1

theorem Settled.regCalls_le
    {phase : Phase}
    (settled : Settled tolerance past phase) :
    past.regCalls ≤ 1 := by
  cases empty : phase.isEmpty with
  | true => exact (settled.untouched empty).left.trans_le (Nat.zero_le 1)
  | false => exact (settled.registered empty).le

/-- The bounds that hold at every moment. -/
structure Bounded
    (tolerance : GeneratorTolerance)
    (past : Summary) : Prop where
  regCalls : past.regCalls ≤ 1
  completions : past.completions ≤ 1
  initCalls : tolerance.initFailure = false → past.initCalls ≤ 1

theorem Settled.bounded
    {phase : Phase}
    (settled : Settled tolerance past phase) :
    Bounded tolerance past :=
  ⟨settled.regCalls_le, settled.completions_le, settled.once⟩

theorem Progress.bounded
    {holder : Holder ι}
    (progress : Progress tolerance past holder) :
    Bounded tolerance past := by
  cases progress with
  | done _ _ settled => exact settled.bounded
  | skip _ _ _ settled => exact settled.bounded
  | finalize _ _ _ _ settled => exact settled.bounded
  | finalizing _ _ _ _ _ settled => exact settled.bounded
  | register _ _ untouched =>
      exact ⟨untouched.regCalls.trans_le (Nat.zero_le 1),
        untouched.completions.trans_le (Nat.zero_le 1),
        fun _ => untouched.initCalls.trans_le (Nat.zero_le 1)⟩
  | registering _ _ _ regCalls initCalls completions =>
      exact ⟨regCalls.le, completions.trans_le (Nat.zero_le 1),
        fun _ => initCalls.trans_le (Nat.zero_le 1)⟩
  | generate _ _ _ ready first =>
      exact ⟨ready.regCalls.le, ready.completions.trans_le (Nat.zero_le 1),
        fun strict => (first strict).trans_le (Nat.zero_le 1)⟩
  | generating _ _ _ _ ready once =>
      exact ⟨ready.regCalls.le, ready.completions.trans_le (Nat.zero_le 1),
        fun strict => (once strict).le⟩

end Bounds

namespace State

variable {ι : Type} [DecidableEq ι] {tolerance : GeneratorTolerance}

omit [DecidableEq ι] in
/-- What a state knows of the past. -/
structure Inv
    (tolerance : GeneratorTolerance)
    (past : Summary)
    (state : State ι) : Prop where
  unheld : state.holder = none → Settled tolerance past state.phase
  held :
    ∀ holder, state.holder = some holder → Progress tolerance past holder
  initialized :
    state.phase.intersects .initialized = true → past.completions = 1
  written : 0 < past.completions → state.written = true
  finalizing :
    ∀ holder, state.holder = some holder →
      holder.task = .finalize → state.exit = .finalizing
  early :
    state.exit = .pending ∨ state.exit = .waiting → past.finalizeCalls = 0
  finalizedOnce : past.finalizeCalls ≤ 1

section Inv

variable {past : Summary} {state after : State ι}

omit [DecidableEq ι] in
theorem Inv.fresh : Inv tolerance {} (State.fresh ι) where
  unheld := fun _ => .empty
  held := nofun
  initialized := fun initialized =>
    absurd initialized (Bool.eq_false_iff.mp (Phase.not_empty_intersects _))
  written := nofun
  finalizing := nofun
  early := fun _ => rfl
  finalizedOnce := Nat.zero_le 1

omit [DecidableEq ι] in
theorem Inv.bounded
    (inv : Inv tolerance past state) :
    Bounded tolerance past := by
  cases held : state.holder with
  | none => exact (inv.unheld held).bounded
  | some holder => exact (inv.held holder held).bounded

omit [DecidableEq ι] in
/-- The code under the write guard moves on. -/
theorem Inv.move
    {holder next : Holder ι}
    {written listed : Bool}
    (event : Event ι)
    (inv : Inv tolerance past state)
    (held : state.holder = some holder)
    (task : next.task = holder.task)
    (progress : Progress tolerance (past.add event) next)
    (writes : 0 < (past.add event).completions → written = true)
    (finalizes :
      (past.add event).finalizeCalls = past.finalizeCalls ∨
        holder.task = .finalize ∧ (past.add event).finalizeCalls = 1) :
    Inv tolerance (past.add event)
      { state with
        holder := some next
        written := written
        listed := listed } where
  unheld := nofun
  held := by
    intro _ same
    obtain rfl := Option.some.inj same
    exact progress
  initialized := by
    intro initialized
    have before := inv.initialized initialized
    have grown := past.completions_add event
    have bound := progress.bounded.completions
    omega
  written := writes
  finalizing := by
    intro _ same finalize
    obtain rfl := Option.some.inj same
    exact inv.finalizing holder held (task ▸ finalize)
  early := by
    intro early
    rcases finalizes with same | ⟨finalize, -⟩
    · rw [same]
      exact inv.early early
    · have finalizing := inv.finalizing holder held finalize
      rw [finalizing] at early
      rcases early with early | early
      · cases early
      · cases early
  finalizedOnce := by
    rcases finalizes with same | ⟨-, once⟩
    · rw [same]
      exact inv.finalizedOnce
    · exact once.le

omit [DecidableEq ι] in
/-- A dropped guard does not make `finalize_callback` wait. -/
theorem waiting_of_publish
    {holder : Holder ι}
    (waiting : (state.publish holder).exit = .waiting) :
    state.exit = .waiting := by
  unfold State.publish at waiting
  dsimp only at waiting
  split at waiting
  case isTrue => cases waiting
  case isFalse => exact waiting

omit [DecidableEq ι] in
/-- A settled guard may be dropped. -/
theorem Inv.publish
    {holder : Holder ι}
    (inv : Inv tolerance past state)
    (settled : Settled tolerance past holder.guard) :
    Inv tolerance past (state.publish holder) where
  unheld := fun _ => settled
  held := nofun
  initialized := by
    intro initialized
    rw [settled.completed]
    exact if_pos initialized
  written := inv.written
  finalizing := nofun
  early := by
    intro early
    unfold State.publish at early
    dsimp only at early
    split at early
    case isTrue => rcases early with early | early <;> cases early
    case isFalse => exact inv.early early
  finalizedOnce := inv.finalizedOnce

omit [DecidableEq ι] in
/-- `finalize_callback` looks at the phase. -/
theorem Inv.reach
    (inv : Inv tolerance past state)
    (pending : state.exit = .pending) :
    Inv tolerance past state.reach := by
  have idle : ∀ holder, state.holder = some holder → holder.task ≠ .finalize := by
    intro holder held finalize
    have finalizing := inv.finalizing holder held finalize
    rw [pending] at finalizing
    cases finalizing
  have none := inv.early (.inl pending)
  unfold State.reach
  split
  case isTrue =>
    exact
      { inv with
        finalizing := fun holder held finalize =>
          absurd finalize (idle holder held)
        early := fun _ => none }
  case isFalse =>
    exact
      { inv with
        finalizing := fun holder held finalize =>
          absurd finalize (idle holder held)
        early := fun _ => none }

omit [DecidableEq ι] in
/-- The assertion of `finalize_callback` holds. -/
theorem Inv.finalizeCallback_eq
    (inv : Inv tolerance past state)
    (waiting : state.exit = .waiting)
    (free : state.holder = none) :
    finalizeCallback state.phase = lazyFinalization state.phase := by
  have first := inv.early (.inr waiting)
  have notFinalized :
      (state.phase &&& (.finalized ||| .finalizationPanicked)).isEmpty =
        true := by
    by_contra finalized
    have found :
        state.phase.intersects (.finalized ||| .finalizationPanicked) =
          true := by
      rw [Phase.intersects, Bool.eq_false_of_not_eq_true finalized,
        Bool.not_false]
    have called := ((inv.unheld free).finalized found).right
    omega
  exact if_pos notFinalized

omit [DecidableEq ι] in
/-- `finalize_callback` gets the write lock. -/
theorem Inv.resume
    (actor : ι)
    (inv : Inv tolerance past state)
    (waiting : state.exit = .waiting)
    (free : state.holder = none) :
    Inv tolerance past (state.resume actor) := by
  have settled := inv.unheld free
  have first := inv.early (.inr waiting)
  unfold State.resume
  split
  case isTrue initialized =>
    have progress :
        Progress tolerance past
          ⟨actor, .finalize, state.phase, finalizeCallback state.phase,
            false⟩ :=
      .finalize state.phase (inv.finalizeCallback_eq waiting free) rfl rfl
        settled initialized first
    exact
      { inv with
        unheld := nofun
        held := by
          intro _ same
          obtain rfl := Option.some.inj same
          exact progress
        finalizing := fun _ _ _ => rfl
        early := by
          intro early
          rcases early with early | early <;> cases early }
  case isFalse =>
    exact
      { inv with
        finalizing := by
          intro holder held
          rw [free] at held
          cases held
        early := fun _ => first }

/-- Every step keeps what the state knows. -/
theorem Inv.step
    {event : Event ι}
    (inv : Inv tolerance past state)
    (step : Step tolerance state event after) :
    Inv tolerance (past.add event) after := by
  cases effect_of_step step with
  | acquire actor access task code free enters =>
      exact
        { inv with
          unheld := nofun
          held := by
            intro _ same
            obtain rfl := Option.some.inj same
            exact .enter (inv.unheld free) enters
          finalizing := by
            intro _ same finalize
            obtain rfl := Option.some.inj same
            cases Access.enter_task enters finalize }
  | call call holder next held starts =>
      have progress := inv.held holder held
      have task : next.task = holder.task := by
        obtain ⟨-, _, _, _, -, rfl⟩ := Holder.start_eq starts
        rfl
      refine inv.move _ held task (progress.start _ starts) ?_ ?_
      · cases call with
        | _ => exact inv.written
      · cases call with
        | reg => exact .inl rfl
        | init => exact .inl rfl
        | finalize =>
            obtain ⟨finalize, first⟩ := progress.start_finalize starts
            exact .inr ⟨finalize, congrArg (· + 1) first⟩
  | returned call value holder next held finishes =>
      have progress := inv.held holder held
      have task : next.task = holder.task := by
        obtain ⟨-, _, _, _, -, rfl⟩ := Holder.finish_eq finishes
        rfl
      refine inv.move _ held task (progress.finish _ finishes) ?_ ?_
      · intro completed
        cases call with
        | init => exact Bool.or_true _
        | reg => exact Bool.or_eq_true_iff.mpr (.inl (inv.written completed))
        | finalize =>
            exact Bool.or_eq_true_iff.mpr (.inl (inv.written completed))
      · cases call with
        | _ => exact .inl rfl
  | panicked call holder held running =>
      exact inv.publish ((inv.held holder held).panic running)
  | setPhase holder next held sets =>
      have task : next.task = holder.task := by
        obtain ⟨_, _, -, rfl⟩ := Holder.setPhase_eq sets
        rfl
      exact inv.move (.setPhase holder.actor) held task
        ((inv.held holder held).setPhase sets) inv.written (.inl rfl)
  | release holder held finished =>
      exact inv.publish ((inv.held holder held).release finished)
  | failed assertion holder held fails =>
      exact absurd fails (inv.held holder held).no_failure
  | reach listed pending => exact inv.reach pending
  | resume actor waiting free => exact inv.resume actor waiting free

/-- Every run keeps what the state knows. -/
theorem Inv.run
    {events : List (Event ι)}
    (inv : Inv tolerance past state)
    (run : Run (Step tolerance) state events after) :
    Inv tolerance (events.foldl Summary.add past) after := by
  induction run with
  | refl => exact inv
  | snoc event _ last inductionHypothesis =>
      rw [List.foldl_concat]
      exact inductionHypothesis.step last

/-- What a state knows after a run from a fresh static. -/
theorem Inv.of_run
    {events : List (Event ι)}
    (run : Run (Step tolerance) (State.fresh ι) events state) :
    Inv tolerance (summary events) state :=
  Inv.fresh.run run

/-- A published `INITIALIZED` is kept by a step. -/
theorem Inv.keeps
    {event : Event ι}
    (inv : Inv tolerance past state)
    (step : Step tolerance state event after)
    (initialized : state.phase.intersects .initialized = true) :
    after.phase.intersects .initialized = true := by
  have published :
      ∀ {guard : Phase}, Settled tolerance past guard →
        guard.intersects .initialized = true := by
    intro guard settled
    have completed := settled.completed
    rw [inv.initialized initialized] at completed
    by_contra absent
    rw [if_neg absent] at completed
    cases completed
  cases effect_of_step step with
  | acquire => exact initialized
  | call => exact initialized
  | returned => exact initialized
  | setPhase => exact initialized
  | panicked call holder held running =>
      exact published ((inv.held holder held).panic running)
  | release holder held finished =>
      exact published ((inv.held holder held).release finished)
  | failed assertion holder held fails =>
      exact absurd fails (inv.held holder held).no_failure
  | reach =>
      unfold State.reach
      split
      case isTrue => exact initialized
      case isFalse => exact initialized
  | resume =>
      unfold State.resume
      split
      case isTrue => exact initialized
      case isFalse => exact initialized

/-- A published `INITIALIZED` never disappears. -/
theorem Inv.keeps_run
    {events : List (Event ι)}
    (inv : Inv tolerance past state)
    (run : Run (Step tolerance) state events after)
    (initialized : state.phase.intersects .initialized = true) :
    after.phase.intersects .initialized = true := by
  induction run with
  | refl => exact initialized
  | snoc event earlier last inductionHypothesis =>
      exact (inv.run earlier).keeps last inductionHypothesis

end Inv

omit [DecidableEq ι] in
/-- Exactly-once initialization and registration, for a run. -/
structure InitializedOnce
    [DecidableEq ι]
    (tolerance : GeneratorTolerance)
    (events : List (Event ι))
    (state : State ι) : Prop where
  registration : (summary events).regCalls ≤ 1
  completion : (summary events).completions ≤ 1
  intolerant :
    tolerance.initFailure = false → (summary events).initCalls ≤ 1
  /-- Whenever the generator starts. -/
  starts :
    ∀ earlier later actor,
      events = earlier ++ .call actor .init :: later →
        (summary earlier).regCalls = 1 ∧
          (summary earlier).completions = 0 ∧
            ((summary earlier).accepted = true ∨
              tolerance.finalRegistrationFailure = true)
  written : state.phase.intersects .initialized = true → state.written = true
  /-- `INITIALIZED` never disappears. -/
  stays :
    ∀ later after,
      Run (Step tolerance) state later after →
        state.phase.intersects .initialized = true →
          after.phase.intersects .initialized = true
  /-- No debug assertion fails. -/
  assertions : ∀ actor assertion, Event.failed actor assertion ∉ events

/-- A finalizable static is registered and initialized exactly once. -/
theorem initialized_once
    (tolerance : GeneratorTolerance)
    {events : List (Event ι)}
    {state : State ι}
    (run : Run (Step tolerance) (State.fresh ι) events state) :
    InitializedOnce tolerance events state := by
  have inv := Inv.of_run run
  obtain ⟨registration, completion, intolerant⟩ := inv.bounded
  refine ⟨registration, completion, intolerant, ?_, ?_, ?_, ?_⟩
  · rintro earlier later actor rfl
    obtain ⟨before, first, rest⟩ := run.split
    obtain ⟨next, step, -⟩ := rest.uncons
    cases effect_of_step step with
    | call _ holder moved held starts =>
        obtain ⟨phase, ready⟩ :=
          ((Inv.of_run first).held holder held).start_init starts
        refine ⟨ready.regCalls, ready.completions, ?_⟩
        exact ready.allowed.imp_left ready.accepted.trans
  · intro initialized
    exact inv.written ((inv.initialized initialized).symm ▸ Nat.one_pos)
  · intro later after continues
    exact inv.keeps_run continues
  · intro actor assertion member
    obtain ⟨earlier, later, rfl⟩ := List.append_of_mem member
    obtain ⟨before, first, rest⟩ := run.split
    obtain ⟨next, step, -⟩ := rest.uncons
    cases effect_of_step step with
    | failed _ holder held fails =>
        exact ((Inv.of_run first).held holder held).no_failure fails

/-- A retried initialization: the generator panics in the first access. -/
theorem initialized_once_retried :
    InitializedOnce ⟨true, false⟩
      [.acquire 0 .init, .call 0 .reg, .returned 0 .reg true,
        .call 0 .init, .panicked 0 .init,
        .acquire 1 .tryInitThenReadGuard, .call 1 .init,
        .returned 1 .init true, .release 1,
        .reach, .resume 0, .call 0 .finalize,
        .returned 0 .finalize true, .release 0]
      ({ phase := .registered ||| .initialized ||| .finalized
         written := true
         holder := none
         listed := true
         exit := .returned } : State (Fin 2)) :=
  initialized_once ⟨true, false⟩ (.of_runAll rfl)

end State

end StaticInit.Lazily
