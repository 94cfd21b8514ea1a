import StaticInit.LazySequentializer.Once

namespace StaticInit.Lazily

/-!
# One registration, one pass

A static calls its registration function at most once, and the call is over
before the generator starts.  Only the exit pass moves a static out of the
stage `pending`, and only while it is at this static the finalizer starts.
-/

section Registration

variable {ι : Type}

/-- A call of `reg` returned or panicked. -/
def Event.endsReg : Event ι → Bool
  | .returned _ .reg _ => true
  | .panicked _ .reg => true
  | _ => false

/-- The exit pass is at this static. -/
def ExitStage.isPassing : ExitStage → Bool
  | .waiting => true
  | .finalizing => true
  | _ => false

/-- A call of `reg` is running. -/
def State.registering (state : State ι) : Bool :=
  state.holder.any fun holder => holder.isCalling .reg

namespace Holder

variable {holder after : Holder ι} {call other : UserCall}

theorem isCalling_of_idle
    (idle : holder.calling = false) :
    holder.isCalling call = false := by
  unfold isCalling
  split
  case h_1 => rw [idle, Bool.and_false]
  case h_2 => rfl

theorem isCalling_start
    (starts : holder.start call = some after) :
    holder.isCalling other = false ∧
      after.isCalling other = decide (call = other) := by
  obtain ⟨idle, onSuccess, onPanic, next, code, rfl⟩ := start_eq starts
  refine ⟨isCalling_of_idle idle, ?_⟩
  simp only [isCalling, code, Bool.and_true]

theorem isCalling_finish
    {value : Bool}
    (finishes : holder.finish call value = some after) :
    holder.isCalling other = decide (call = other) ∧
      after.isCalling other = false := by
  obtain ⟨running, onSuccess, onPanic, next, code, rfl⟩ :=
    finish_eq finishes
  refine ⟨?_, isCalling_of_idle rfl⟩
  simp only [isCalling, code, running, Bool.and_true]

/-- Only one call is running. -/
theorem isCalling_running
    (running : holder.isCalling call = true) :
    holder.isCalling other = decide (call = other) := by
  obtain ⟨running, onSuccess, onPanic, next, code⟩ := isCalling_eq running
  simp only [isCalling, code, running, Bool.and_true]

end Holder

/-- No call is running where a phase is set. -/
theorem Progress.idle_of_setPhase
    {tolerance : GeneratorTolerance}
    {past : Summary}
    {holder after : Holder ι}
    (progress : Progress tolerance past holder)
    (sets : holder.setPhase = some after) :
    holder.calling = false ∧ after.calling = false := by
  obtain ⟨phase, next, set, rfl⟩ := Holder.setPhase_eq sets
  rw [and_self]
  cases progress with
  | done _ idle => exact idle
  | skip _ _ idle => exact idle
  | register _ idle => exact idle
  | generate _ _ idle => exact idle
  | finalize _ _ idle => exact idle
  | registering code => cases code.symm.trans set
  | generating _ code => cases code.symm.trans set
  | finalizing _ code => cases code.symm.trans set

end Registration

namespace State

variable {ι : Type} [DecidableEq ι] {tolerance : GeneratorTolerance}
  {past : Summary} {state after : State ι} {event : Event ι}
  {events : List (Event ι)}

omit [DecidableEq ι] in
theorem registering_of_holder
    {holder : Holder ι}
    (held : state.holder = some holder) :
    state.registering = holder.isCalling .reg := by
  rw [registering, held, Option.any_some]

omit [DecidableEq ι] in
theorem registering_of_free
    (free : state.holder = none) :
    state.registering = false := by
  rw [registering, free, Option.any_none]

/-- Each call of `reg` is running or has ended. -/
theorem Inv.regCalls_step
    (inv : Inv tolerance past state)
    (step : Step tolerance state event after) :
    (past.add event).regCalls + state.registering.toNat =
      past.regCalls + event.endsReg.toNat + after.registering.toNat := by
  cases effect_of_step step with
  | acquire actor access task code free enters =>
      rw [registering_of_free free, registering_of_holder rfl,
        Holder.isCalling_of_idle rfl]
      rfl
  | call call holder next held starts =>
      obtain ⟨idle, running⟩ := Holder.isCalling_start starts
      rw [registering_of_holder held, idle, registering_of_holder rfl, running]
      cases call with
      | _ => rfl
  | returned call value holder next held finishes =>
      obtain ⟨running, idle⟩ := Holder.isCalling_finish finishes
      rw [registering_of_holder held, running, registering_of_holder rfl, idle]
      cases call with
      | _ => rfl
  | panicked call holder held running =>
      rw [registering_of_holder held, Holder.isCalling_running running,
        registering_of_free rfl]
      cases call with
      | _ => rfl
  | setPhase holder next held sets =>
      obtain ⟨idle, stays⟩ := (inv.held holder held).idle_of_setPhase sets
      rw [registering_of_holder held, Holder.isCalling_of_idle idle,
        registering_of_holder rfl, Holder.isCalling_of_idle stays]
      rfl
  | release holder held finished =>
      rw [registering_of_holder held, registering_of_free rfl]
      rw [Holder.isCalling, Holder.isDone_eq finished]
      rfl
  | failed assertion holder held fails =>
      exact absurd fails (inv.held holder held).no_failure
  | reach listed pending =>
      rw [reach_eq]
      rfl
  | resume actor waiting free =>
      rw [registering_of_free free]
      unfold State.resume
      split
      case isTrue =>
        rw [registering_of_holder rfl, Holder.isCalling_of_idle rfl]
        rfl
      case isFalse =>
        have left : State.registering { state with exit := .returned } = false :=
          registering_of_free free
        rw [left]
        rfl

/-- Each call of `reg` in a history is running or has ended. -/
theorem regCalls_eq
    (run : Run (Step tolerance) (State.fresh ι) events state) :
    (summary events).regCalls =
      events.countP Event.endsReg + state.registering.toNat := by
  induction run with
  | refl => rfl
  | @snoc events before after event run last inductionHypothesis =>
      have counted := (Inv.of_run run).regCalls_step last
      rw [summary_append, List.countP_append, List.countP_singleton]
      cases ends : event.endsReg with
      | true =>
          rw [ends, Bool.toNat_true] at counted
          rw [if_pos rfl]
          omega
      | false =>
          rw [ends, Bool.toNat_false] at counted
          rw [if_neg Bool.false_ne_true]
          omega

/-- At most one call of `reg` ends. -/
theorem endsReg_le
    (run : Run (Step tolerance) (State.fresh ι) events state) :
    events.countP Event.endsReg ≤ 1 := by
  have counted := regCalls_eq run
  have bound := (Inv.of_run run).bounded.regCalls
  omega

/-- Where the generator starts the call of `reg` is over. -/
theorem endsReg_of_init
    {actor : ι}
    (run : Run (Step tolerance) (State.fresh ι) events state)
    (step : Step tolerance state (.call actor .init) after) :
    events.countP Event.endsReg = 1 := by
  have inv := Inv.of_run run
  have counted := regCalls_eq run
  cases effect_of_step step with
  | call _ holder next held starts =>
      obtain ⟨phase, ready⟩ := (inv.held holder held).start_init starts
      rw [registering_of_holder held, (Holder.isCalling_start starts).1,
        ready.regCalls] at counted
      exact counted.symm

/-- The finalizer starts while the exit pass is at the static. -/
theorem Inv.finalizing_of_finalize
    {actor : ι}
    (inv : Inv tolerance past state)
    (step : Step tolerance state (.call actor .finalize) after) :
    state.exit.isPassing = true ∧ past.finalizeCalls = 0 := by
  cases effect_of_step step with
  | call _ holder next held starts =>
      obtain ⟨task, first⟩ := (inv.held holder held).start_finalize starts
      rw [inv.finalizing holder held task]
      exact ⟨rfl, first⟩

omit [DecidableEq ι] in
/-- A guard that is dropped lets the exit pass go on, if it is at this static. -/
theorem Inv.exit_of_publish
    {holder : Holder ι}
    (inv : Inv tolerance past state)
    (held : state.holder = some holder) :
    (state.publish holder).exit = state.exit ∨
      state.exit = .finalizing ∧ (state.publish holder).exit = .returned := by
  unfold State.publish
  dsimp only
  split
  case isTrue task => exact .inr ⟨inv.finalizing holder held task, rfl⟩
  case isFalse => exact .inl rfl

/-- Only the exit pass comes to a static; the others let it go on at most. -/
theorem Inv.exit_of_step
    (inv : Inv tolerance past state)
    (step : Step tolerance state event after)
    (other : event ≠ .reach) :
    after.exit = state.exit ∨
      state.exit.isPassing = true ∧ after.exit ≠ .pending := by
  have publishes {holder : Holder ι} (held : state.holder = some holder) :
      (state.publish holder).exit = state.exit ∨
        state.exit.isPassing = true ∧
          (state.publish holder).exit ≠ .pending := by
    refine (inv.exit_of_publish held).imp_right ?_
    rintro ⟨finalizing, returned⟩
    rw [finalizing, returned]
    exact ⟨rfl, nofun⟩
  cases effect_of_step step with
  | acquire => exact .inl rfl
  | call => exact .inl rfl
  | returned => exact .inl rfl
  | setPhase => exact .inl rfl
  | panicked call holder held => exact publishes held
  | release holder held => exact publishes held
  | failed assertion holder held => exact publishes held
  | reach => exact absurd rfl other
  | resume actor waiting =>
      refine .inr ⟨by rw [waiting]; rfl, ?_⟩
      unfold State.resume
      split
      case isTrue => nofun
      case isFalse => nofun

end State

end StaticInit.Lazily
