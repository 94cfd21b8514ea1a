import StaticInit.PhaseLocker.Sync.Exclusion

namespace StaticInit.Sync

/-!
# The phase of the futex locker

The phase bits of the word change only when a write guard is released or
converted, from its `init_phase` to its `on_unlock` phase.  So the phases that
the word shows over a run are the `on_unlock` phases of the released guards,
in the order of their release.
-/

open LockWord (view)

section PhaseBits

/-- Adding reader units does not reach the phase bits. -/
theorem phase_add_units
    {units : U32}
    (whole : BitVec.setWidth 8 units = 0#8)
    (word : U32) :
    (view (word + units)).phase = (view word).phase := by
  apply Phase.ext
  change BitVec.setWidth 8 (word + units) = BitVec.setWidth 8 word
  rw [BitVec.setWidth_add _ _ (by decide), whole, BitVec.add_zero]

theorem fromBitsTruncate_or_lockedBit (word : U32) :
    Phase.fromBitsTruncate (word ||| lockedBit) =
      Phase.fromBitsTruncate word :=
  congrArg LockWord.phase (view_or_lockedBit word)

theorem fromBitsTruncate_add_readerUnity (word : U32) :
    Phase.fromBitsTruncate (word + readerUnity) =
      Phase.fromBitsTruncate word :=
  phase_add_units rfl word

/-- Subtracting reader units does not reach the phase bits. -/
theorem phase_sub_units
    {units : U32}
    (whole : BitVec.setWidth 8 units = 0#8)
    (word : U32) :
    (view (word - units)).phase = (view word).phase := by
  have back := phase_add_units whole (word - units)
  rw [BitVec.sub_add_cancel] at back
  exact back.symm

theorem setWidth_wakeUnits
    {count : Nat}
    (bounded : count ≤ 2 ^ 20) :
    BitVec.setWidth 8 (wakeUnits count) = 0#8 := by
  apply BitVec.eq_of_toNat_eq
  rw [BitVec.toNat_setWidth, toNat_wakeUnits bounded]
  exact Nat.mul_mod_left _ _

theorem phase_wakeMask
    {toUnactivate : U32}
    (only : toUnactivate = 0 ∨ toUnactivate = lockedBit)
    (converting : Bool)
    (word : U32) :
    (view (word ^^^ wakeMask toUnactivate converting)).phase =
      (view word).phase := by
  rcases only with rfl | rfl <;> cases converting <;> simp [wakeMask]

/-- An instruction leaves the phase bits as they are. -/
def Instr.KeepsPhase (word : U32) : Instr → Prop
  | .fetch update _ => (view (update word)).phase = (view word).phase
  | .exchange _ cur new _ _ => (view new).phase = (view cur).phase
  | _ => True

theorem State.Outcome.phase_kept
    {ι : Type}
    {state : State ι}
    {instr : Instr}
    {word : U32}
    {writerCount : BitVec 32}
    {fairness : BitVec 16}
    {next : Next}
    (outcome : state.Outcome instr word writerCount fairness next)
    (keeps : instr.KeepsPhase state.word) :
    (view word).phase = (view state.word).phase := by
  cases outcome with
  | fetch update next => exact keeps
  | exchanged same =>
      rw [same]
      exact keeps
  | notExchanged failed => rfl
  | counted update next => rfl
  | fairness update next => rfl
  | waited same => rfl
  | notWaited => rfl

/-- Only the code of a write guard's release or conversion changes the phase. -/
theorem Pc.keepsPhase
    {backend : Backend}
    {word : U32}
    {pc : Pc}
    (relies : pc.Relies word)
    (owns : pc.ownedLocks = []) :
    (pc.instr backend).KeepsPhase word := by
  cases pc with
  | optimistic call =>
      change (Call.optimistic call).KeepsPhase word
      unfold Call.optimistic
      cases call.how call.hint with
      | none => rfl
      | write => simp [Instr.KeepsPhase]
      | read => exact phase_add_units rfl _
  | secondWrite call cur =>
      cases call <;> simp [Pc.instr, Call.secondWrite, Instr.KeepsPhase]
  | secondRead call cur => exact phase_add_units rfl cur
  | slowWrite closures spinWait cur => simp [Pc.instr, Instr.KeepsPhase]
  | slowWhileReaders closures spinWait cur => simp [Pc.instr, Instr.KeepsPhase]
  | slowRead closures spinWait cur => exact phase_add_units rfl cur
  | setWriteWaiter closures spinWait cur => simp [Pc.instr, Instr.KeepsPhase]
  | setReadWaiter closures spinWait cur => simp [Pc.instr, Instr.KeepsPhase]
  | waitReadersCas closures spinWait cur =>
      change (view ((cur ||| writeWaiterBit) &&& ~~~lockedBit)).phase = _
      rw [view_and_not_lockedBit, view_or_writeWaiterBit]
  | writerOr closures =>
      change (view (word ||| writeWaiterBit)).phase = _
      rw [view_or_writeWaiterBit]
  | dropLockCas lock next => cases owns
  | dropLockXor lock next => cases owns
  | convertXor lock cur converter => cases owns
  | dropReadSub lock next => exact phase_sub_units rfl word
  | transferXor preference cur next =>
      change (view (word ^^^ (writeWaiterBit ||| lockedBit))).phase = _
      simp
  | transferAnd preference next =>
      change (view (word &&& ~~~lockedBit)).phase = _
      rw [view_and_not_lockedBit]
  | wakeXor toUnactivate waker =>
      cases waker with
      | converting converter =>
          exact phase_wakeMask (.inl relies.2.1) true word
      | releasing next => exact phase_wakeMask relies.2 false word
  | wakeOr count waker =>
      change (view (word ||| readWaiterBit)).phase = _
      rw [view_or_readWaiterBit]
  | wakeSub count waker => exact phase_sub_units (setWidth_wakeUnits relies) word
  | cloneCas guard spinWait cur => exact phase_add_units rfl cur
  | cloneSetWaiter guard spinWait cur => simp [Pc.instr, Instr.KeepsPhase]
  | _ => first | rfl | trivial

end PhaseBits

/-- The write guard that the next instruction releases or converts. -/
def Pc.released (word : U32) : Pc → Option Lock
  | .dropLockCas lock _ =>
      if word = lock.initPhase.bits ||| lockedBit then some lock else none
  | .dropLockXor lock _ => some lock
  | .convertXor lock _ _ => some lock
  | _ => none

namespace State

variable {ι : Type} [DecidableEq ι] [Fintype ι]

/-- The write guard that an action releases or converts. -/
def released (state : State ι) : Action ι → Option Lock
  | .run actor _ => (state.thread actor).pc.released state.word
  | _ => none

/-- The write guards that a schedule releases or converts, in order. -/
def releasedAll
    (backend : Backend)
    (state : State ι) :
    List (Action ι) → List Lock
  | [] => []
  | action :: actions =>
      match state.exec backend action with
      | some (.ok after) =>
          (state.released action).toList ++ after.releasedAll backend actions
      | _ => []

/-- The phase that the word shows. -/
def phase (state : State ι) : Phase :=
  Phase.fromBitsTruncate state.word

/-- What a released guard does to the phase. -/
def PhaseStep (before after : Phase) : Option Lock → Prop
  | some lock => before = lock.initPhase ∧ after = lock.onUnlock
  | none => after = before

omit [DecidableEq ι] [Fintype ι] in
/-- The fast release of a write guard. -/
theorem phaseStep_dropLockCas
    {state : State ι}
    {lock : Lock}
    {next : After}
    {backend : Backend}
    {word : U32}
    {writerCount : BitVec 32}
    {fairness : BitVec 16}
    {ends : Next}
    (relies : (Pc.dropLockCas lock next).Relies state.word)
    (outcome :
      state.Outcome ((Pc.dropLockCas lock next).instr backend)
        word writerCount fairness ends) :
    PhaseStep state.phase (Phase.fromBitsTruncate word)
      ((Pc.dropLockCas lock next).released state.word) := by
  rw [Pc.released]
  cases outcome with
  | exchanged same =>
      rw [if_pos same]
      exact ⟨relies.symm, Phase.fromBitsTruncate_bits lock.onUnlock⟩
  | notExchanged failed =>
      rw [if_neg fun same => absurd (failed same) Bool.false_ne_true]
      exact rfl

/-- A step releases a guard from its first phase to its last one, or keeps the phase. -/
theorem Inv.phase_step
    {backend : Backend}
    {state after : State ι}
    {action : Action ι}
    (inv : state.Inv)
    (step : State.Step backend state action after) :
    PhaseStep state.phase after.phase (state.released action) := by
  unfold State.Step at step
  cases action with
  | start actor op =>
      rw [State.exec, Option.map_eq_some_iff] at step
      obtain ⟨thread, -, same⟩ := step
      obtain rfl := Except.ok.inj same
      exact rfl
  | run actor spurious =>
      obtain ⟨word, writerCount, fairness, next, outcome, finishes⟩ :=
        runInstr_outcome step
      obtain ⟨thread, -, rfl⟩ := finish_ok finishes.symm
      have relies := (inv.relies actor).1
      change PhaseStep state.phase (Phase.fromBitsTruncate word)
        ((state.thread actor).pc.released state.word)
      cases place : (state.thread actor).pc with
      | dropLockCas lock next =>
          rw [place] at outcome relies
          exact phaseStep_dropLockCas relies outcome
      | dropLockXor lock next =>
          rw [place] at outcome relies
          cases outcome with
          | fetch =>
              refine ⟨relies.symm, ?_⟩
              exact congrArg LockWord.phase
                (view_releaseMask state.word lock relies)
      | convertXor lock cur converter =>
          rw [place] at outcome relies
          cases outcome with
          | fetch =>
              refine ⟨relies.1.symm, ?_⟩
              change (view (state.word ^^^ lock.convertMask cur)).phase = _
              simp [Lock.convertMask, relies.2]
      | _ =>
          rw [place] at outcome relies
          exact outcome.phase_kept (Pc.keepsPhase relies rfl)
  | wake actor picked =>
      rcases wakeInstr_outcome step with
        ⟨next, -, -, finishes⟩ | ⟨next, -, -, finishes⟩
      · obtain ⟨thread, -, rfl⟩ := finish_ok finishes.symm
        exact rfl
      · obtain ⟨thread, -, rfl⟩ := finish_ok finishes.symm
        exact rfl
  | interrupt actor =>
      rw [State.exec, Option.map_eq_some_iff] at step
      obtain ⟨pc, -, same⟩ := step
      obtain rfl := Except.ok.inj same
      exact rfl

/-- A schedule that ran was performed. -/
theorem execAll_of_run
    {backend : Backend}
    {initial final : State ι}
    {actions : List (Action ι)}
    (run : Run (State.Step backend) initial actions final) :
    initial.execAll backend actions = some (.ok final) := by
  induction run with
  | refl => rfl
  | snoc action earlier last inductionHypothesis =>
      rw [execAll_append inductionHypothesis]
      unfold execAll
      rw [last]
      rfl

/-- The guards released by a longer schedule. -/
theorem releasedAll_append
    {backend : Backend}
    {initial middle : State ι}
    {earlier : List (Action ι)}
    (later : List (Action ι))
    (performed : initial.execAll backend earlier = some (.ok middle)) :
    initial.releasedAll backend (earlier ++ later) =
      initial.releasedAll backend earlier ++
        middle.releasedAll backend later := by
  induction earlier generalizing initial with
  | nil =>
      obtain rfl := Except.ok.inj (Option.some.inj performed)
      rfl
  | cons action actions inductionHypothesis =>
      unfold execAll at performed
      split at performed
      case h_1 after executed =>
        simp only [List.cons_append, releasedAll, executed,
          inductionHypothesis performed, List.append_assoc]
      case h_2 failed => exact absurd performed (failed middle)

/-- The phases shown over a run are those the released guards leave behind. -/
theorem phase_history
    {backend : Backend}
    {phase : Phase}
    {actions : List (Action ι)}
    {state : State ι}
    (run : Run (State.Step backend) (State.init ι phase) actions state) :
    ((State.init ι phase).releasedAll backend actions).map Lock.initPhase ++
        [state.phase] =
      phase ::
        ((State.init ι phase).releasedAll backend actions).map
          Lock.onUnlock := by
  induction run with
  | refl =>
      exact congrArg (fun shown => [shown])
        (Phase.fromBitsTruncate_bits phase)
  | @snoc actions middle final action earlier last inductionHypothesis =>
      have inv : middle.Inv := Reachable.inv ⟨phase, actions, earlier⟩
      have step := inv.phase_step last
      rw [releasedAll_append [action] (execAll_of_run earlier)]
      have single :
          middle.releasedAll backend [action] =
            (middle.released action).toList := by
        simp only [releasedAll, show middle.exec backend action = _ from last,
          List.append_nil]
      rw [single]
      cases released : middle.released action with
      | none =>
          rw [released] at step
          rw [show final.phase = middle.phase from step]
          simpa using inductionHypothesis
      | some lock =>
          rw [released] at step
          obtain ⟨from_, to_⟩ := step
          rw [from_] at inductionHypothesis
          simp only [Option.toList_some, List.map_append, List.map_cons,
            List.map_nil, to_]
          rw [inductionHypothesis, List.cons_append]

omit [DecidableEq ι] in
/-- An alive read lock shows the phase of the word. -/
theorem Inv.readLock_phase
    {state : State ι}
    (inv : state.Inv)
    {actor : ι}
    {lock : ReadLock}
    (alive : lock ∈ (state.thread actor).aliveReadLocks) :
    lock.initPhase = state.phase := by
  have relies := inv.relies actor
  rcases List.mem_append.mp alive with inside | outside
  · have relies := relies.1
    cases place : (state.thread actor).pc with
    | dropReadSub guard next =>
        rw [place] at inside relies
        obtain rfl := List.mem_singleton.mp inside
        exact relies
    | cloneLoad guard spinWait =>
        rw [place] at inside relies
        obtain rfl := List.mem_singleton.mp inside
        exact relies
    | cloneCas guard spinWait cur =>
        rw [place] at inside relies
        obtain rfl := List.mem_singleton.mp inside
        exact relies.1
    | cloneReadLoad guard spinWait =>
        rw [place] at inside relies
        obtain rfl := List.mem_singleton.mp inside
        exact relies
    | cloneSetWaiter guard spinWait cur =>
        rw [place] at inside relies
        obtain rfl := List.mem_singleton.mp inside
        exact relies
    | cloneWait guard cur =>
        rw [place] at inside relies
        obtain rfl := List.mem_singleton.mp inside
        exact relies
    | parkedClone guard =>
        rw [place] at inside relies
        obtain rfl := List.mem_singleton.mp inside
        exact relies
    | cloneWoken guard =>
        rw [place] at inside relies
        obtain rfl := List.mem_singleton.mp inside
        exact relies
    | _ =>
        rw [place] at inside
        exact absurd inside List.not_mem_nil
  · exact relies.2.2 lock outside

/--
The phase changes only in the step that releases or converts a write guard,
from the guard's `init_phase` to its `on_unlock` phase; so the phases shown
over a run are the `on_unlock` phases in the order of release; and an alive
read lock reports the phase shown.
-/
theorem phase_transitions
    {backend : Backend}
    {phase : Phase}
    {actions : List (Action ι)}
    {state : State ι}
    (run : Run (State.Step backend) (State.init ι phase) actions state) :
    (∀ action after,
        State.Step backend state action after →
          PhaseStep state.phase after.phase (state.released action)) ∧
      ((State.init ι phase).releasedAll backend actions).map
            Lock.initPhase ++ [state.phase] =
          phase ::
            ((State.init ι phase).releasedAll backend actions).map
              Lock.onUnlock ∧
        ∀ actor, ∀ lock ∈ (state.thread actor).aliveReadLocks,
          lock.initPhase = state.phase := by
  have inv : state.Inv := Reachable.inv ⟨phase, actions, run⟩
  exact ⟨fun _ _ step => inv.phase_step step, phase_history run,
    fun _ _ alive => inv.readLock_phase alive⟩

/-- A write guard that sets a phase and is dropped leaves that phase. -/
theorem phase_transitions_initialized :
    let actions : List (Action (Fin 1)) :=
      [.start 0 (.lock ⟨fun _ => .write, fun _ => .write⟩ .empty),
        .run 0 false, .start 0 (.setPhase 0 .initialized),
        .start 0 (.dropLock 0), .run 0 false]
    ∃ state,
      Run (State.Step .linux) (State.init (Fin 1) .empty) actions state ∧
        ((State.init (Fin 1) .empty).releasedAll .linux actions).map
              Lock.initPhase ++ [state.phase] =
          [Phase.empty, Phase.initialized] := by
  intro actions
  obtain ⟨state, run, released⟩ :
      ∃ state,
        Run (State.Step .linux) (State.init (Fin 1) .empty) actions state ∧
          ((State.init (Fin 1) .empty).releasedAll .linux actions).map
              Lock.onUnlock = [Phase.initialized] :=
    ⟨_, run_of_execAll rfl, rfl⟩
  exact ⟨state, run, by rw [(phase_transitions run).2.1, released]⟩

end State

end StaticInit.Sync
