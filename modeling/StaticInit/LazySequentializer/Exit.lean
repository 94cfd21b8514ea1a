import StaticInit.LazySequentializer.Once

namespace StaticInit.Lazily

/-!
# The exit pass and a racing initialization

The exit pass calls `finalize_callback` once.  It looks at the published phase
once, and returns if that phase lacks `INITIALIZED`: also when the thread that
initializes the static holds the write lock, and also when a later access
will initialize it.
-/

/-- What a holder of the write lock does with the published phase. -/
def Holder.Fits
    {ι : Type}
    (tolerance : GeneratorTolerance)
    (past : Summary)
    (phase : Phase)
    (holder : Holder ι) : Prop :=
  match holder.task with
  | .initializing => tolerance.shallInit phase = true
  | .write =>
      tolerance.shallInit phase = false ∧
        holder.guard = phase ∧ holder.code = .done
  | .finalize =>
      holder.calling = false ∧ (∃ cur, holder.code = lazyFinalization cur) ∨
        past.finalizeCalls = 1

section Fits

variable
  {ι : Type} {tolerance : GeneratorTolerance} {past : Summary} {phase : Phase}
  {holder after : Holder ι}

/-- An access that gets the write lock fits. -/
theorem Holder.Fits.enter
    {access : Access}
    {task : Task}
    {code : GuardCode}
    (actor : ι)
    (enters : access.enter tolerance phase = some (task, code)) :
    Holder.Fits tolerance past phase ⟨actor, task, phase, code, false⟩ := by
  cases shallInit : tolerance.shallInit phase with
  | true =>
      have initializes : task = .initializing := by
        cases access with
        | _ =>
            simp only [Access.enter, shallInit, if_true] at enters
            cases enters
            rfl
      subst initializes
      exact shallInit
  | false =>
      have writes : task = .write ∧ code = .done := by
        cases access with
        | initThenWriteGuard =>
            simp only [Access.enter, shallInit] at enters
            cases enters
            exact ⟨rfl, rfl⟩
        | tryInitThenWriteGuard =>
            simp only [Access.enter, shallInit] at enters
            cases enters
            exact ⟨rfl, rfl⟩
        | _ =>
            simp only [Access.enter, shallInit] at enters
            cases enters
      obtain ⟨rfl, rfl⟩ := writes
      exact ⟨shallInit, rfl, rfl⟩

/-- A user call keeps the fit. -/
theorem Holder.Fits.start
    {call : UserCall}
    (actor : ι)
    (fits : holder.Fits tolerance past phase)
    (progress : Progress tolerance past holder)
    (starts : holder.start call = some after) :
    after.Fits tolerance (past.add (.call actor call)) phase := by
  have first := fun finalize : call = .finalize =>
    (progress.start_finalize (finalize ▸ starts)).right
  obtain ⟨idle, onSuccess, onPanic, next, transition, rfl⟩ :=
    Holder.start_eq starts
  unfold Holder.Fits at fits ⊢
  cases task : holder.task with
  | initializing =>
      simp only [task] at fits ⊢
      exact fits
  | write =>
      simp only [task] at fits
      cases fits.right.right.symm.trans transition
  | finalize =>
      simp only [task] at fits ⊢
      right
      rcases fits with ⟨-, cur, code⟩ | once
      · obtain ⟨rfl, -⟩ :=
          GuardCode.transition.inj (code.symm.trans transition)
        exact congrArg (· + 1) (first rfl)
      · cases call with
        | reg => exact once
        | init => exact once
        | finalize => cases once.symm.trans (first rfl)

/-- A user call that returns keeps the fit. -/
theorem Holder.Fits.finish
    {call : UserCall}
    {value : Bool}
    (actor : ι)
    (fits : holder.Fits tolerance past phase)
    (finishes : holder.finish call value = some after) :
    after.Fits tolerance (past.add (.returned actor call value)) phase := by
  obtain ⟨running, onSuccess, onPanic, next, transition, rfl⟩ :=
    Holder.finish_eq finishes
  unfold Holder.Fits at fits ⊢
  cases task : holder.task with
  | initializing =>
      simp only [task] at fits ⊢
      exact fits
  | write =>
      simp only [task] at fits
      cases fits.right.right.symm.trans transition
  | finalize =>
      simp only [task] at fits ⊢
      right
      rcases fits with ⟨idle, -⟩ | once
      · cases idle.symm.trans running
      · cases call with
        | _ => exact once

/-- Setting the phase keeps the fit. -/
theorem Holder.Fits.setPhase
    (fits : holder.Fits tolerance past phase)
    (sets : holder.setPhase = some after) :
    after.Fits tolerance past phase := by
  obtain ⟨set, next, code, rfl⟩ := Holder.setPhase_eq sets
  unfold Holder.Fits at fits ⊢
  cases task : holder.task with
  | initializing =>
      simp only [task] at fits ⊢
      exact fits
  | write =>
      simp only [task] at fits
      cases fits.right.right.symm.trans code
  | finalize =>
      simp only [task] at fits ⊢
      right
      rcases fits with ⟨-, cur, finalizes⟩ | once
      · cases finalizes.symm.trans code
      · exact once

/-- `finalize_callback` gives the lock back once the finalizer was called. -/
theorem Holder.Fits.finalized
    (fits : holder.Fits tolerance past phase)
    (task : holder.task = .finalize)
    (left : holder.calling = true ∨ holder.isDone = true) :
    past.finalizeCalls = 1 := by
  unfold Holder.Fits at fits
  rw [task] at fits
  rcases fits with ⟨idle, cur, code⟩ | once
  · rcases left with calling | finished
    · cases idle.symm.trans calling
    · cases code.symm.trans (Holder.isDone_eq finished)
  · exact once

end Fits

namespace State

variable {ι : Type} [DecidableEq ι] {tolerance : GeneratorTolerance}

omit [DecidableEq ι] in
/-- What a state knows of the past and of the exit pass. -/
structure ExitInv
    (tolerance : GeneratorTolerance)
    (past : Summary)
    (state : State ι) : Prop extends Inv tolerance past state where
  listed : state.listed = past.accepted
  fits :
    ∀ holder, state.holder = some holder →
      holder.Fits tolerance past state.phase
  waiting :
    state.exit = .waiting → state.phase.intersects .initialized = true

omit [DecidableEq ι] in
/-- The exit pass is over for the static: finalized, or never initialized. -/
def Passed
    (tolerance : GeneratorTolerance)
    (past : Summary)
    (state : State ι) : Prop :=
  state.exit = .returned →
    past.finalizeCalls = 1 ∨
      tolerance.shallInit state.phase = false ∧
        state.phase.intersects .initialized = false

section ExitInv

variable {past : Summary} {state after : State ι}

omit [DecidableEq ι] in
theorem ExitInv.fresh : ExitInv tolerance {} (State.fresh ι) where
  toInv := .fresh
  listed := rfl
  fits := nofun
  waiting := nofun

/-- Every step keeps what the state knows of the exit pass. -/
theorem ExitInv.step
    {event : Event ι}
    (inv : ExitInv tolerance past state)
    (step : Step tolerance state event after) :
    ExitInv tolerance (past.add event) after := by
  have kept := inv.toInv.step step
  have keeps := inv.toInv.keeps step
  cases effect_of_step step with
  | acquire actor access task code free enters =>
      refine ⟨kept, inv.listed, ?_, inv.waiting⟩
      intro _ same
      obtain rfl := Option.some.inj same
      exact .enter actor enters
  | call call holder next held starts =>
      refine ⟨kept, ?_, ?_, inv.waiting⟩
      · cases call with
        | _ => exact inv.listed
      · intro _ same
        obtain rfl := Option.some.inj same
        exact (inv.fits holder held).start _ (inv.held holder held) starts
  | returned call value holder next held finishes =>
      refine ⟨kept, ?_, ?_, inv.waiting⟩
      · cases call with
        | reg => exact congrArg (· || value) inv.listed
        | init => exact (Bool.or_false _).trans inv.listed
        | finalize => exact (Bool.or_false _).trans inv.listed
      · intro _ same
        obtain rfl := Option.some.inj same
        exact (inv.fits holder held).finish _ finishes
  | panicked call holder held running =>
      refine ⟨kept, inv.listed, nofun, ?_⟩
      exact fun waiting => keeps (inv.waiting (waiting_of_publish waiting))
  | setPhase holder next held sets =>
      refine ⟨kept, inv.listed, ?_, inv.waiting⟩
      intro _ same
      obtain rfl := Option.some.inj same
      exact (inv.fits holder held).setPhase sets
  | release holder held finished =>
      refine ⟨kept, inv.listed, nofun, ?_⟩
      exact fun waiting => keeps (inv.waiting (waiting_of_publish waiting))
  | failed assertion holder held fails =>
      exact absurd fails (inv.held holder held).no_failure
  | reach listed pending =>
      rw [reach_eq] at kept keeps ⊢
      refine ⟨kept, inv.listed, inv.fits, ?_⟩
      intro waiting
      dsimp only at waiting
      split at waiting
      case isTrue initialized => exact initialized
      case isFalse => cases waiting
  | resume actor waiting free =>
      have initialized := inv.waiting waiting
      have resumed : state.resume actor = _ := if_pos initialized
      rw [resumed] at kept ⊢
      refine ⟨kept, inv.listed, ?_, fun _ => initialized⟩
      intro _ same
      obtain rfl := Option.some.inj same
      exact .inl ⟨rfl, state.phase,
        inv.toInv.finalizeCallback_eq waiting free⟩

/-- What a state knows after a run from a fresh static. -/
theorem ExitInv.of_run
    {events : List (Event ι)}
    (run : Run (Step tolerance) (State.fresh ι) events state) :
    ExitInv tolerance (summary events) state := by
  induction run with
  | refl => exact .fresh
  | snoc event _ last inductionHypothesis =>
      rw [summary_append]
      exact inductionHypothesis.step last

omit [DecidableEq ι] in
/-- A guard that is dropped does not reopen the exit pass. -/
theorem Passed.publish
    {holder : Holder ι}
    (inv : ExitInv tolerance past state)
    (passed : Passed tolerance past state)
    (held : state.holder = some holder)
    (left : holder.calling = true ∨ holder.isDone = true) :
    Passed tolerance past (state.publish holder) := by
  have fits := inv.fits holder held
  intro returned
  cases task : holder.task with
  | finalize => exact .inl (fits.finalized task left)
  | initializing =>
      unfold Holder.Fits at fits
      simp only [task] at fits
      simp only [State.publish, task] at returned
      refine .inl ((passed returned).resolve_right ?_)
      rintro ⟨never, -⟩
      cases fits.symm.trans never
  | write =>
      unfold Holder.Fits at fits
      simp only [task] at fits
      simp only [State.publish, task] at returned
      simp only [State.publish, fits.right.left]
      exact passed returned

/-- A step keeps the exit pass over, if it looks at a phase that is final. -/
theorem Passed.step
    {event : Event ι}
    (inv : ExitInv tolerance past state)
    (passed : Passed tolerance past state)
    (step : Step tolerance state event after)
    (final : event = .reach → tolerance.shallInit state.phase = false) :
    Passed tolerance (past.add event) after := by
  cases effect_of_step step with
  | acquire => exact passed
  | setPhase => exact passed
  | call call holder next held starts =>
      cases call with
      | reg => exact passed
      | init => exact passed
      | finalize =>
          have progress := inv.held holder held
          have finalizing :=
            inv.finalizing holder held (progress.start_finalize starts).left
          intro returned
          cases finalizing.symm.trans returned
  | returned call value holder next held finishes =>
      cases call with
      | _ => exact passed
  | panicked call holder held running =>
      exact .publish inv passed held (.inl (Holder.isCalling_eq running).left)
  | release holder held finished =>
      exact .publish inv passed held (.inr finished)
  | failed assertion holder held fails =>
      exact absurd fails (inv.held holder held).no_failure
  | reach =>
      unfold State.reach
      split
      case isTrue => exact nofun
      case isFalse absent =>
        exact fun _ => .inr ⟨final rfl, Bool.eq_false_of_not_eq_true absent⟩
  | resume actor waiting free =>
      unfold State.resume
      split
      case isTrue => exact nofun
      case isFalse absent => exact absurd (inv.waiting waiting) absent

/-- An access was made to a static with a node. -/
theorem nonempty_of_listed
    {events : List (Event ι)}
    (run : Run (Step tolerance) (State.fresh ι) events state) :
    state.listed = true → Nonempty ι := by
  induction run with
  | refl => exact nofun
  | snoc event earlier last inductionHypothesis =>
      intro listed
      cases effect_of_step last with
      | acquire actor => exact ⟨actor⟩
      | call _ holder => exact ⟨holder.actor⟩
      | returned _ _ holder => exact ⟨holder.actor⟩
      | panicked _ holder => exact ⟨holder.actor⟩
      | setPhase holder => exact ⟨holder.actor⟩
      | release holder => exact ⟨holder.actor⟩
      | failed _ holder => exact ⟨holder.actor⟩
      | resume actor => exact ⟨actor⟩
      | reach before => exact inductionHypothesis before

/-- A retry initializes a registered static. -/
theorem run_of_retry
    (state : State ι)
    (actor : ι)
    (free : state.holder = none)
    (shallInit : tolerance.shallInit state.phase = true)
    (generates :
      lazyInitialization tolerance state.phase =
        generate tolerance state.phase) :
    Run (Step tolerance) state
      [.acquire actor .init, .call actor .init, .returned actor .init true,
        .release actor]
      { state with
        phase := state.phase.generated tolerance
        written := true } := by
  apply Run.of_runAll
  simp [runAll, exec, free, Access.enter, shallInit, generates, heldBy,
    Option.filter, Holder.start, Holder.finish, Holder.isDone, generate,
    publish]

end ExitInv

omit [DecidableEq ι] in
/-- A thread runs the code of an initialization. -/
def isInitializing (state : State ι) : Bool :=
  state.holder.any fun holder => holder.task = .initializing

/-- The exit pass finalizes what was initialized and registered, once. -/
structure FinalizedOnce
    (tolerance : GeneratorTolerance)
    (events : List (Event ι))
    (state : State ι) : Prop where
  atMostOnce : (summary events).finalizeCalls ≤ 1
  finalized :
    state.exit = .returned →
      state.phase.intersects .initialized = true →
        state.phase.intersects .registered = true →
          (summary events).finalizeCalls = 1
  /-- `finalize_callback` waits for an initialization in progress. -/
  waits :
    ∀ earlier later before,
      events = earlier ++ .reach :: later →
        Run (Step tolerance) (State.fresh ι) earlier before →
          before.isInitializing = true → before.reach.exit ≠ .returned

/-- The exit pass looks at phases that shall not be initialized only. -/
def ReachedFinal
    (tolerance : GeneratorTolerance)
    (events : List (Event ι)) : Prop :=
  ∀ earlier later (before : State ι),
    events = earlier ++ .reach :: later →
      Run (Step tolerance) (State.fresh ι) earlier before →
        tolerance.shallInit before.phase = false

/-- The exit pass is over once it looked at a final phase. -/
theorem Passed.of_run
    {events : List (Event ι)}
    {state : State ι}
    (final : ReachedFinal tolerance events)
    (run : Run (Step tolerance) (State.fresh ι) events state) :
    Passed tolerance (summary events) state := by
  induction run with
  | refl => exact nofun
  | @snoc actions _ _ event earlier last inductionHypothesis =>
      rw [summary_append]
      have before : ReachedFinal tolerance actions := by
        rintro leading later middle rfl
        exact final leading (later ++ [event]) middle (by simp)
      refine (inductionHypothesis before).step (.of_run earlier) last ?_
      rintro rfl
      exact final actions [] _ rfl earlier

/-- If the exit pass looks at a final phase, it finalizes as it should. -/
theorem finalizedOnce_of_final
    {events : List (Event ι)}
    {state : State ι}
    (final : ReachedFinal tolerance events)
    (run : Run (Step tolerance) (State.fresh ι) events state) :
    FinalizedOnce tolerance events state := by
  refine ⟨(ExitInv.of_run run).finalizedOnce, ?_, ?_⟩
  · intro returned initialized registered
    refine (Passed.of_run final run returned).resolve_right ?_
    rintro ⟨-, absent⟩
    cases initialized.symm.trans absent
  · intro earlier later before same ran initializing
    have never := final earlier later before same ran
    obtain ⟨holder, held, task⟩ := (Option.any_eq_true ..).mp initializing
    have fits := (ExitInv.of_run ran).fits holder held
    unfold Holder.Fits at fits
    rw [of_decide_eq_true task] at fits
    cases fits.symm.trans never

/-- If it looks at another phase, it may leave the static behind. -/
theorem not_finalizedOnce
    {earlier : List (Event ι)}
    {before : State ι}
    (ran : Run (Step tolerance) (State.fresh ι) earlier before)
    (listed : before.listed = true)
    (pending : before.exit = .pending)
    (shallInit : tolerance.shallInit before.phase = true) :
    ∃ later after,
      Run (Step tolerance) (State.fresh ι) (earlier ++ .reach :: later) after ∧
        ¬ FinalizedOnce tolerance (earlier ++ .reach :: later) after := by
  have inv := ExitInv.of_run ran
  have absent := GeneratorTolerance.notInitialized_of_shallInit shallInit
  have returned : before.reach = { before with exit := .returned } := by
    rw [reach_eq, absent]
    rfl
  have reached : Step tolerance before .reach before.reach :=
    if_pos ⟨listed, pending⟩
  cases held : before.holder with
  | some holder =>
      -- The thread that initializes the static has the lock.
      refine ⟨[], before.reach, .snoc .reach ran reached, ?_⟩
      intro once
      have fits := inv.fits holder held
      unfold Holder.Fits at fits
      cases task : holder.task with
      | initializing =>
          refine once.waits earlier [] before rfl ran ?_ ?_
          · rw [isInitializing, held]
            exact decide_eq_true task
          · rw [returned]
      | write =>
          simp only [task] at fits
          cases fits.left.symm.trans shallInit
      | finalize =>
          have finalizing := inv.finalizing holder held task
          cases pending.symm.trans finalizing
  | none =>
      -- A later access tries again.
      have settled := inv.unheld held
      obtain ⟨actor⟩ := nonempty_of_listed ran listed
      have registered : before.phase.intersects .registered = true :=
        settled.accepted.symm.trans (inv.listed.symm.trans listed)
      have tried := Phase.not_isEmpty_of_intersects registered
      have tolerant :=
        GeneratorTolerance.tolerant_of_shallInit shallInit tried
      have notFinalized :
          before.phase.intersects (.finalized ||| .finalizationPanicked) =
            false := by
        by_contra finalized
        have initialized :=
          (settled.finalized (Bool.eq_true_of_not_eq_false finalized)).left
        cases initialized.symm.trans absent
      have generates :
          lazyInitialization tolerance before.phase =
            generate tolerance before.phase := by
        rw [lazyInitialization_retried notFinalized absent tolerant tried]
        exact if_pos registered
      have retry :=
        run_of_retry before.reach actor
          (by rw [returned]; exact held)
          (by rw [returned]; exact shallInit)
          (by rw [returned]; exact generates)
      refine ⟨_, _, ran.append (.cons reached retry), ?_⟩
      intro once
      have finalized := once.finalized (by rw [returned]) ?_ ?_
      · have none := inv.early (.inl pending)
        simp [summary, List.foldl_append, Summary.add] at finalized none
        omega
      · exact Phase.generated_initialized tolerance _
      · dsimp only
        rw [Phase.intersects_generated tolerance _ rfl rfl, returned]
        exact registered

/--
The exit pass finalizes every static that gets initialized, exactly when it
looks at a phase that shall not be initialized any more.
-/
theorem finalized_once_iff
    (ι : Type)
    [DecidableEq ι]
    (tolerance : GeneratorTolerance) :
    (∀ (events : List (Event ι)) (state : State ι),
        Run (Step tolerance) (State.fresh ι) events state →
          ReachedFinal tolerance events →
            FinalizedOnce tolerance events state) ∧
      ∀ (earlier : List (Event ι)) (before : State ι),
        Run (Step tolerance) (State.fresh ι) earlier before →
          before.listed = true →
            before.exit = .pending →
              tolerance.shallInit before.phase = true →
                ∃ later after,
                  Run (Step tolerance) (State.fresh ι)
                      (earlier ++ .reach :: later) after ∧
                    ¬ FinalizedOnce tolerance
                      (earlier ++ .reach :: later) after :=
  ⟨fun _ _ run final => finalizedOnce_of_final final run,
    fun _ _ ran listed pending shallInit =>
      not_finalizedOnce ran listed pending shallInit⟩

/--
The node is reached while the generator runs: `finalize_callback` returns at
once, and the value is never finalized.
-/
theorem finalizer_missed :
    ¬ ∀ (tolerance : GeneratorTolerance)
        (events : List (Event (Fin 1)))
        (state : State (Fin 1)),
        Run (Step tolerance) (State.fresh (Fin 1)) events state →
          FinalizedOnce tolerance events state := by
  intro claim
  have run :
      Run (Step ⟨false, false⟩) (State.fresh (Fin 1))
        [.acquire 0 .init, .call 0 .reg, .returned 0 .reg true,
          .call 0 .init, .reach, .returned 0 .init true, .release 0]
        { phase := .registered ||| .initialized
          written := true
          holder := none
          listed := true
          exit := .returned } :=
    .of_runAll rfl
  have once := claim _ _ _ run
  cases once.finalized rfl rfl rfl

end State

end StaticInit.Lazily
