import StaticInit.PhaseLocker.Sync.Quiescence

namespace StaticInit.Sync

/-!
# Threads that wait inside `clone`

A thread that finds the reader field full waits inside `clone` as a reader,
and its own guard stays counted.  As long as it waits, the lock is never
handed over, so only a call of `wake_readers` that had begun before can wake
it.
-/

open LockWord (view)

/-- Waiting inside `clone`. -/
def Pc.parkedInClone : Pc → Bool
  | .parkedClone _ => true
  | _ => false

/-- Inside `wake_readers`, before its wake. -/
def Pc.beforeWakeReaders : Pc → Bool
  | .wakeXor .. => true
  | .wakeFairness _ => true
  | .wakeCall _ => true
  | _ => false

namespace Pc

theorem parkedAsReader_of_parkedInClone
    {pc : Pc}
    (waiting : pc.parkedInClone = true) :
    pc.parkedAsReader = true := by
  cases pc with
  | parkedClone guard => rfl
  | _ => cases waiting

theorem parked_of_parkedInClone
    {pc : Pc}
    (waiting : pc.parkedInClone = true) :
    pc.parked = true := by
  rw [parked, parkedAsReader_of_parkedInClone waiting, Bool.or_true]

theorem not_beforeWake_of_parked
    {pc : Pc}
    (parked : pc.parked = true) :
    pc.beforeWakeReaders = false := by
  cases pc with
  | parkedWriter closures => rfl
  | parkedReader closures => rfl
  | parkedClone guard => rfl
  | _ => cases parked

end Pc

namespace State

variable {ι : Type} [DecidableEq ι] [Fintype ι]

/--
A thread waits inside `clone`, all others are outside the locker or wait
inside `clone` too, and the guards left are read guards of waiting threads.
-/
structure Stranded (state : State ι) : Prop where
  waiting : ∃ actor, (state.thread actor).pc.parkedInClone = true
  others :
    ∀ actor,
      (state.thread actor).pc = .idle ∨
        (state.thread actor).pc.parkedInClone = true
  noLock : ∀ actor, (state.thread actor).locks = []
  guards :
    ∀ actor,
      (state.thread actor).readLocks ≠ [] →
        (state.thread actor).pc.parkedInClone = true

/--
No thread is left waiting inside `clone` without a wake: a thread that starts
to wait finds a call of `wake_readers` that has not yet made its wake, and a
wake of as many readers as one wake may pick picks all that wait in `clone`.
-/
def Sheltering (state : State ι) : Action ι → Prop
  | .run actor _ =>
      ∀ guard,
        (state.thread actor).pc = .cloneWait guard state.word →
          ∃ other, (state.thread other).pc.beforeWakeReaders = true
  | .wake _ picked =>
      picked.length = maxWakedReaders →
        ∀ other,
          (state.thread other).pc.parkedInClone = true → other ∈ picked
  | _ => True

/-- Where threads wait inside `clone`, a wake of readers is due. -/
def Sheltered (state : State ι) : Prop :=
  ∀ actor,
    (state.thread actor).pc.parkedInClone = true →
      ∃ other, (state.thread other).pc.beforeWakeReaders = true

/-- A step after which its thread is parked is a futex wait on the word. -/
theorem step_parks
    {backend : Backend}
    {state after : State ι}
    {action : Action ι}
    (step : State.Step backend state action after)
    (parked : (after.thread action.actor).pc.parked = true) :
    ∃ spurious failed,
      action = .run action.actor spurious ∧
        (state.thread action.actor).pc.instr backend =
          .wait state.word (after.thread action.actor).pc failed := by
  have notAwake : (after.thread action.actor).pc.parked ≠ false := by
    rw [parked]
    exact Bool.noConfusion
  unfold State.Step at step
  cases action with
  | start actor op =>
      rw [State.exec, Option.map_eq_some_iff] at step
      obtain ⟨thread, starts, same⟩ := step
      obtain rfl := Except.ok.inj same
      refine absurd ?_ notAwake
      simpa [setThread, Action.actor] using Thread.start_awake starts
  | run actor spurious =>
      have parksByWait :
          ((state.thread actor).pc.instr backend).ParksByWait :=
        Pc.parksByWait _
      obtain ⟨word, writerCount, fairness, next, outcome, finishes⟩ :=
        runInstr_outcome step
      obtain ⟨thread, continues, rfl⟩ := finish_ok finishes.symm
      have impossible (awake : next.Awake) : False := by
        apply notAwake
        simpa [setThread, Action.actor] using
          Thread.continue_awake continues awake
      generalize instr : (state.thread actor).pc.instr backend = performed
        at outcome parksByWait
      cases outcome with
      | fetch update next => exact (impossible (parksByWait _)).elim
      | exchanged same => exact (impossible parksByWait.1).elim
      | notExchanged failed => exact (impossible (parksByWait.2 _)).elim
      | counted update next => exact (impossible (parksByWait _)).elim
      | fairness update next => exact (impossible (parksByWait _)).elim
      | notWaited => exact (impossible parksByWait).elim
      | @waited value parked failed same =>
          obtain rfl := Except.ok.inj continues
          refine ⟨spurious, failed, rfl, ?_⟩
          rw [Action.actor, setThread_self, instr, same]
  | wake actor picked =>
      have parksByWait :
          ((state.thread actor).pc.instr backend).ParksByWait :=
        Pc.parksByWait _
      refine absurd ?_ notAwake
      rcases wakeInstr_outcome step with
        ⟨next, instr, -, finishes⟩ | ⟨next, instr, -, finishes⟩
      · obtain ⟨thread, continues, rfl⟩ := finish_ok finishes.symm
        rw [instr] at parksByWait
        simpa [setThread, Action.actor] using
          Thread.continue_awake continues (parksByWait _)
      · obtain ⟨thread, continues, rfl⟩ := finish_ok finishes.symm
        rw [instr] at parksByWait
        simpa [setThread, Action.actor] using
          Thread.continue_awake continues (parksByWait _)
  | interrupt actor =>
      rw [State.exec, Option.map_eq_some_iff] at step
      obtain ⟨pc, interrupts, same⟩ := step
      obtain rfl := Except.ok.inj same
      refine absurd ?_ notAwake
      simpa [setThread, Action.actor] using (Pc.interrupted_awake interrupts).2

/-- A step after which its thread waits inside `clone`. -/
theorem step_parksInClone
    {backend : Backend}
    {state after : State ι}
    {action : Action ι}
    (step : State.Step backend state action after)
    (waiting : (after.thread action.actor).pc.parkedInClone = true) :
    ∃ spurious guard,
      action = .run action.actor spurious ∧
        (state.thread action.actor).pc = .cloneWait guard state.word := by
  obtain ⟨spurious, failed, runs, waits⟩ :=
    step_parks step (Pc.parked_of_parkedInClone waiting)
  rcases Pc.waits_cases waits with
    ⟨closures, -, parked⟩ | ⟨closures, -, parked⟩ | ⟨guard, place, -⟩
  · rw [parked] at waiting
    cases waiting
  · rw [parked] at waiting
    cases waiting
  · exact ⟨spurious, guard, runs, place⟩

/-- Another thread than the actor stays, or was parked and is not any more. -/
theorem step_other_parked
    {backend : Backend}
    {state after : State ι}
    {action : Action ι}
    {other : ι}
    (step : State.Step backend state action after)
    (different : other ≠ action.actor) :
    after.thread other = state.thread other ∨
      (state.thread other).pc.parked = true ∧
        (after.thread other).pc.parked = false :=
  (step_other step different).imp_right Woken.was_parked

/-- A thread before its wake of readers goes on to it. -/
theorem beforeWake_step
    {backend : Backend}
    {state after : State ι}
    {action : Action ι}
    (step : State.Step backend state action after)
    (waking : (state.thread action.actor).pc.beforeWakeReaders = true)
    (sheltering : state.Sheltering action) :
    (after.thread action.actor).pc.beforeWakeReaders = true ∨
      ∀ other, (after.thread other).pc.parkedInClone = false := by
  unfold State.Step at step
  cases action with
  | start actor op =>
      rw [State.exec, Option.map_eq_some_iff] at step
      obtain ⟨thread, starts, -⟩ := step
      have waking : (state.thread actor).pc.beforeWakeReaders = true := waking
      rw [(Thread.start_cases starts).1] at waking
      cases waking
  | run actor spurious =>
      left
      obtain ⟨word, writerCount, fairness, next, outcome, finishes⟩ :=
        runInstr_outcome step
      obtain ⟨thread, continues, rfl⟩ := finish_ok finishes.symm
      have waking : (state.thread actor).pc.beforeWakeReaders = true := waking
      have goesOn : next.At Pc.beforeWakeReaders := by
        generalize (state.thread actor).pc = pc at outcome waking
        cases pc with
        | wakeXor toUnactivate waker =>
            cases outcome with
            | fetch =>
                exact Next.assert_at (Next.assert_at (Next.assert_at rfl))
        | wakeFairness waker =>
            cases outcome with
            | fairness => rfl
        | wakeCall waker => cases outcome
        | _ => cases waking
      simpa [setThread, Action.actor] using
        Thread.continue_at continues goesOn
  | wake actor picked =>
      right
      have waking : (state.thread actor).pc.beforeWakeReaders = true := waking
      rcases wakeInstr_outcome step with
        ⟨next, instr, -, -⟩ | ⟨next, instr, canWake, finishes⟩
      · obtain ⟨preference, cur, resumed, place⟩ := Pc.wakesWriter_cases instr
        rw [place] at waking
        cases waking
      obtain ⟨thread, -, rfl⟩ := finish_ok finishes.symm
      intro other
      by_contra waiting
      rw [Bool.not_eq_false] at waiting
      have different : other ≠ actor := by
        rintro rfl
        obtain ⟨spurious, failed, runs, -⟩ :=
          step_parks step (Pc.parked_of_parkedInClone waiting)
        cases runs
      rw [setThread_other thread different] at waiting
      have picked : other ∈ picked := by
        by_contra absent
        have kept :
            (state.wakePicked Pc.wokenReader picked).thread other =
              state.thread other :=
          if_neg absent
        rw [kept] at waiting
        rcases Nat.lt_or_eq_of_le canWake.2.2.1 with less | all
        · have left := canWake.nobody_left less absent
          rw [Pc.wokenReader_isSome (Pc.parkedAsReader_of_parkedInClone waiting)]
            at left
          cases left
        · exact absent (sheltering all other waiting)
      have woken := wakePicked_woken canWake picked
      have awake := (Pc.wokenReader_cases woken).2
      rw [Pc.parked_of_parkedInClone waiting] at awake
      cases awake
  | interrupt actor =>
      rw [State.exec, Option.map_eq_some_iff] at step
      obtain ⟨pc, interrupts, -⟩ := step
      have silent :=
        Pc.not_beforeWake_of_parked (Pc.interrupted_awake interrupts).1
      have waking : (state.thread actor).pc.beforeWakeReaders = true := waking
      rw [silent] at waking
      cases waking

/-- A step that leaves no thread waiting without a wake keeps it so. -/
theorem Sheltered.step
    {backend : Backend}
    {state after : State ι}
    {action : Action ι}
    (sheltered : state.Sheltered)
    (step : State.Step backend state action after)
    (sheltering : state.Sheltering action) :
    after.Sheltered := by
  intro waiting parked
  -- A waker other than the actor stays where it is.
  have stays
      {other : ι}
      (waking : (state.thread other).pc.beforeWakeReaders = true)
      (different : other ≠ action.actor) :
      ∃ waker, (after.thread waker).pc.beforeWakeReaders = true := by
    rcases step_other_parked step different with kept | ⟨wasParked, -⟩
    · exact ⟨other, by rwa [kept]⟩
    · rw [Pc.not_beforeWake_of_parked wasParked] at waking
      cases waking
  by_cases arrives : waiting = action.actor
  · subst arrives
    obtain ⟨spurious, guard, runs, place⟩ := step_parksInClone step parked
    rw [runs] at sheltering
    obtain ⟨other, waking⟩ := sheltering guard place
    apply stays waking
    rintro rfl
    rw [place] at waking
    cases waking
  have wasParked : (state.thread waiting).pc.parkedInClone = true := by
    rcases step_other_parked step arrives with kept | ⟨-, awake⟩
    · rwa [kept] at parked
    · rw [Pc.parked_of_parkedInClone parked] at awake
      cases awake
  obtain ⟨other, waking⟩ := sheltered waiting wasParked
  by_cases acts : other = action.actor
  · subst acts
    rcases beforeWake_step step waking sheltering with goesOn | nobody
    · exact ⟨_, goesOn⟩
    · rw [nobody waiting] at parked
      cases parked
  · exact stays waking acts

omit [DecidableEq ι] [Fintype ι] in
/-- Where a wake of readers is due, nobody is stranded. -/
theorem Sheltered.not_stranded
    {state : State ι}
    (sheltered : state.Sheltered) :
    ¬ state.Stranded := by
  intro stranded
  obtain ⟨actor, waiting⟩ := stranded.waiting
  obtain ⟨other, waking⟩ := sheltered actor waiting
  rcases stranded.others other with idle | parked
  · rw [idle] at waking
    cases waking
  · rw [Pc.not_beforeWake_of_parked (Pc.parked_of_parkedInClone parked)]
      at waking
    cases waking

/--
A run in which no thread is left waiting inside `clone` without a wake never
strands a thread.
-/
theorem clone_not_stranded
    {backend : Backend}
    {phase : Phase}
    {actions : List (Action ι)}
    {state : State ι}
    (run :
      Run
        (fun before action after =>
          State.Step backend before action after ∧ before.Sheltering action)
        (State.init ι phase) actions state) :
    ¬ state.Stranded := by
  have sheltered : state.Sheltered :=
    run.invariant
      (fun _ parked => nomatch parked)
      (fun _ before step => before.step step.1 step.2)
  exact sheltered.not_stranded

/-- A run in which a guard is cloned at once. -/
theorem clone_not_stranded_cloned :
    let read : UserOp := .lock ⟨fun _ => .read, fun _ => .read⟩ .empty
    ∃ state : State (Fin 1),
      Run
          (fun before action after =>
            State.Step .linux before action after ∧ before.Sheltering action)
          (State.init (Fin 1) Phase.empty)
          [.start 0 read, .run 0 false, .start 0 (.clone 0), .run 0 false,
            .run 0 false]
          state ∧
        (state.thread 0).readLocks.length = 2 ∧ ¬ state.Stranded := by
  intro read
  let allowed (before : State (Fin 1)) (action : Action (Fin 1))
      (after : State (Fin 1)) : Prop :=
    State.Step .linux before action after ∧ before.Sheltering action
  obtain ⟨state, run, two⟩ :
      ∃ state,
        Run allowed (State.init (Fin 1) Phase.empty)
            [.start 0 read, .run 0 false, .start 0 (.clone 0), .run 0 false,
              .run 0 false]
            state ∧
          (state.thread 0).readLocks.length = 2 := by
    refine ⟨_, .cons ⟨rfl, trivial⟩ (.cons ⟨rfl, ?_⟩ (.cons ⟨rfl, trivial⟩
      (.cons ⟨rfl, ?_⟩ (.cons ⟨rfl, ?_⟩ .refl)))), rfl⟩
    all_goals exact fun guard place => nomatch place
  exact ⟨state, run, two, clone_not_stranded run⟩

/-- A word without lock bit and write waiters, with so many readers. -/
def sharedWord (readWaiter : Bool) (count : Nat) : U32 :=
  LockWord.pack
    ⟨false, readWaiter, false, BitVec.ofNat 21 count, Phase.empty⟩

theorem readerCount_sharedWord
    (readWaiter : Bool)
    {count : Nat}
    (fits : count < 2 ^ 21) :
    readerCount (sharedWord readWaiter count) = count := by
  rw [readerCount, sharedWord, LockWord.view_pack, BitVec.toNat_ofNat]
  exact Nat.mod_eq_of_lt fits

theorem sharedWord_add
    (readWaiter : Bool)
    {count : Nat}
    (room : count + 1 < 2 ^ 21) :
    sharedWord readWaiter count + readerUnity =
      sharedWord readWaiter (count + 1) := by
  have counted := readerCount_sharedWord readWaiter (by omega : count < 2 ^ 21)
  rw [← LockWord.view_inj, LockWord.view_add_readerUnity]
  · simp [sharedWord, BitVec.ofNat_add]
  · change readerCount _ + 1 < 2 ^ 21
    rwa [counted]

theorem sharedWord_sub
    (readWaiter : Bool)
    {count : Nat}
    (room : count + 1 < 2 ^ 21) :
    sharedWord readWaiter (count + 1) - readerUnity =
      sharedWord readWaiter count := by
  rw [← sharedWord_add readWaiter room, BitVec.add_sub_cancel]

/-- While there is room, a thread outside the locker clones its first guard. -/
theorem clone_once
    {backend : Backend}
    {state : State ι}
    {actor : ι}
    {guard : ReadLock}
    {others : List ReadLock}
    (outside : state.thread actor = ⟨.idle, [], guard :: others⟩)
    (room : hasReadersMax state.word = false) :
    Run (State.Step backend) state
      [.start actor (.clone 0), .run actor false, .run actor false]
      ({ state with word := state.word + readerUnity }.setThread actor
        ⟨.idle, [], guard :: .new state.word :: others⟩) := by
  apply run_of_execAll
  simp [execAll, exec, runInstr, outside, Thread.start, Pc.instr,
    Instr.load, finish, Thread.continue, Except.map, cloneLoop, room,
    setThread, Result.locks, Result.readLocks]

/-- A thread outside the locker clones its first guard again and again. -/
theorem clone_many
    {backend : Backend}
    {state : State ι}
    {actor : ι}
    {guards : List ReadLock}
    {readWaiter : Bool}
    {count : Nat}
    (clones : Nat)
    (outside : state.thread actor = ⟨.idle, [], guards⟩)
    (some : guards ≠ [])
    (word : state.word = sharedWord readWaiter count)
    (room : count + clones < 2 ^ 20) :
    ∃ actions more,
      more.length = guards.length + clones ∧
        Run (State.Step backend) state actions
          ({ state with
              word := sharedWord readWaiter (count + clones) }.setThread
            actor ⟨.idle, [], more⟩) := by
  induction clones with
  | zero =>
      refine ⟨[], guards, rfl, ?_⟩
      have same :
          ({ state with
              word := sharedWord readWaiter (count + 0) }.setThread
            actor ⟨.idle, [], guards⟩) = state := by
        rw [Nat.add_zero, ← word, ← outside]
        simp [setThread]
      rw [same]
      exact .refl
  | succ clones inductionHypothesis =>
      obtain ⟨actions, more, length, run⟩ := inductionHypothesis (by omega)
      obtain ⟨guard, others, rfl⟩ : ∃ guard others, more = guard :: others := by
        apply List.exists_cons_of_length_pos
        have := List.length_pos_of_ne_nil some
        omega
      let before : State ι :=
        { state with
          word := sharedWord readWaiter (count + clones) }.setThread
            actor ⟨.idle, [], guard :: others⟩
      have notFull : hasReadersMax before.word = false := by
        rw [← Bool.not_eq_true, hasReadersMax_iff]
        change readerCount (sharedWord readWaiter (count + clones)) % _ ≠ _
        rw [readerCount_sharedWord readWaiter (by omega)]
        omega
      have again : Run (State.Step backend) before _ _ :=
        clone_once (setThread_self _ _ _) notFull
      refine
        ⟨actions ++ [.start actor (.clone 0), .run actor false,
            .run actor false],
          guard :: .new before.word :: others, ?_, ?_⟩
      · simp only [List.length_cons] at length ⊢
        omega
      · have joined :
            ({ before with word := before.word + readerUnity }.setThread
                actor ⟨.idle, [], guard :: .new before.word :: others⟩) =
              ({ state with
                  word :=
                    sharedWord readWaiter (count + (clones + 1)) }.setThread
                actor ⟨.idle, [], guard :: .new before.word :: others⟩) := by
          have added :=
            sharedWord_add readWaiter (by omega : count + clones + 1 < 2 ^ 21)
          simp only [before, setThread, Function.update_idem, added,
            ← Nat.add_assoc]
        rw [joined] at again
        exact run.append again

/-- The drop of a read guard that is not the last one transfers nothing. -/
theorem drop_once
    {backend : Backend}
    {state : State ι}
    {actor : ι}
    {guard : ReadLock}
    {others : List ReadLock}
    (outside : state.thread actor = ⟨.idle, [], guard :: others⟩)
    (notLast : hasOneReader state.word = false) :
    Run (State.Step backend) state
      [.start actor (.dropReadLock 0), .run actor false]
      ({ state with word := state.word - readerUnity }.setThread actor
        ⟨.idle, [], others⟩) := by
  apply run_of_execAll
  simp [execAll, exec, runInstr, outside, Thread.start, Pc.instr,
    Instr.fetchSub, finish, Thread.continue, Except.map, readDropped,
    notLast, After.resume, setThread, Result.locks, Result.readLocks]

/-- A thread outside the locker drops its guards, none of which is the last. -/
theorem drop_many
    {backend : Backend}
    {state : State ι}
    {actor : ι}
    {guards : List ReadLock}
    {readWaiter : Bool}
    {count : Nat}
    (outside : state.thread actor = ⟨.idle, [], guards⟩)
    (word : state.word = sharedWord readWaiter (count + guards.length))
    (notLast : 0 < count)
    (fits : count + guards.length < 2 ^ 21) :
    ∃ actions,
      Run (State.Step backend) state actions
        ({ state with word := sharedWord readWaiter count }.setThread
          actor .outside) := by
  induction guards generalizing state with
  | nil =>
      refine ⟨[], ?_⟩
      have same :
          ({ state with word := sharedWord readWaiter count }.setThread
            actor .outside) = state := by
        rw [List.length_nil, Nat.add_zero] at word
        rw [← word, Thread.outside, ← outside]
        simp [setThread]
      rw [same]
      exact .refl
  | cons guard others inductionHypothesis =>
      rw [List.length_cons] at word fits
      have many : hasOneReader state.word = false := by
        rw [← Bool.not_eq_true, hasOneReader_iff, word,
          readerCount_sharedWord readWaiter fits]
        omega
      have first : Run (State.Step backend) state _ _ :=
        drop_once outside many
      let dropped : State ι :=
        { state with word := state.word - readerUnity }.setThread actor
          ⟨.idle, [], others⟩
      have left :
          dropped.word = sharedWord readWaiter (count + others.length) := by
        change state.word - readerUnity = _
        rw [word, ← Nat.add_assoc]
        exact sharedWord_sub readWaiter (by omega)
      have outsideAgain : dropped.thread actor = ⟨.idle, [], others⟩ :=
        setThread_self _ _ _
      obtain ⟨actions, later⟩ :=
        inductionHypothesis outsideAgain left (by omega)
      refine
        ⟨[.start actor (.dropReadLock 0), .run actor false] ++ actions,
          first.append ?_⟩
      simpa [dropped, setThread] using later

/-- Two threads outside the locker with a read guard each. -/
theorem two_readers (backend : Backend) :
    ∃ (actions : List (Action (Fin 2))) (state : State (Fin 2)),
      Run (State.Step backend) (State.init (Fin 2) Phase.empty)
          actions state ∧
        state.word = sharedWord false 2 ∧
        state.thread 0 = ⟨.idle, [], [⟨Phase.empty⟩]⟩ ∧
        state.thread 1 = ⟨.idle, [], [⟨Phase.empty⟩]⟩ := by
  let read : UserOp := .lock ⟨fun _ => .read, fun _ => .read⟩ .empty
  obtain ⟨state, performed, shown⟩ :
      ∃ state : State (Fin 2),
        (State.init (Fin 2) Phase.empty).execAll backend
            [.start 0 read, .run 0 false, .start 1 read, .run 1 false,
              .run 1 false] =
            some (.ok state) ∧
          state.word = sharedWord false 2 ∧
          state.thread 0 = ⟨.idle, [], [⟨Phase.empty⟩]⟩ ∧
          state.thread 1 = ⟨.idle, [], [⟨Phase.empty⟩]⟩ :=
    ⟨_, rfl, rfl, rfl, rfl⟩
  exact ⟨_, state, run_of_execAll performed, shown⟩

theorem sharedWord_wait (count : Nat) :
    sharedWord false count ||| readWaiterBit = sharedWord true count := by
  rw [← LockWord.view_inj, view_or_readWaiterBit]
  simp [sharedWord]

/-- A clone that finds the reader field full spins, and waits at last. -/
theorem clone_parks
    {backend : Backend}
    {state : State ι}
    {actor : ι}
    {guard : ReadLock}
    (outside : state.thread actor = ⟨.idle, [], [guard]⟩)
    (word : state.word = sharedWord false (2 ^ 20 - 1)) :
    Run (State.Step backend) state
      (.start actor (.clone 0) :: List.replicate 13 (.run actor false))
      ({ state with word := sharedWord true (2 ^ 20 - 1) }.setThread actor
        ⟨.parkedClone guard, [], []⟩) := by
  have full : hasReadersMax state.word = true := by
    rw [hasReadersMax_iff, word, readerCount_sharedWord false (by decide)]
    rfl
  have nobodyWaits : state.word &&& readWaiterBit = 0 := by
    rw [← beq_iff_eq, readWaiterBit_eq_iff, word, sharedWord,
      LockWord.view_pack]
  rw [← sharedWord_wait, ← word]
  apply run_of_execAll
  simp [execAll, exec, runInstr, outside, Thread.start, Pc.instr, Instr.load,
    finish, Thread.continue, Except.map, cloneLoop, cloneFull, SpinWait.spin,
    SpinWait.new, full, nobodyWaits, setThread]

/--
One thread owns a guard and the other one all that the reader field has room
for.  The first one clones its guard and waits; the second one drops its
guards, and nobody wakes the first one although there is room again.
-/
theorem clone_strands_a_thread :
    ∃ (actions : List (Action (Fin 2))) (state : State (Fin 2)),
      Run (State.Step .linux) (State.init (Fin 2) Phase.empty)
          actions state ∧
        state.Stranded ∧
        state.thread 1 = .outside ∧
        state.word = sharedWord true 1 := by
  obtain ⟨_, reading, locks, word, first, second⟩ := two_readers .linux
  obtain ⟨_, more, length, clones⟩ :=
    clone_many (2 ^ 20 - 3) second (List.cons_ne_nil _ _) word (by decide)
  let full : State (Fin 2) :=
    { reading with
      word := sharedWord false (2 + (2 ^ 20 - 3)) }.setThread 1
        ⟨.idle, [], more⟩
  have firstKept : full.thread 0 = ⟨.idle, [], [⟨Phase.empty⟩]⟩ := by
    rw [← first]
    exact setThread_other _ Fin.zero_ne_one
  have parks : Run (State.Step .linux) full _ _ := clone_parks firstKept rfl
  let parked : State (Fin 2) :=
    { full with word := sharedWord true (2 ^ 20 - 1) }.setThread 0
      ⟨.parkedClone ⟨Phase.empty⟩, [], []⟩
  have secondKept : parked.thread 1 = ⟨.idle, [], more⟩ := by
    have kept : parked.thread 1 = full.thread 1 :=
      setThread_other _ Fin.zero_ne_one.symm
    rw [kept]
    exact setThread_self _ _ _
  have counted : parked.word = sharedWord true (1 + more.length) := by
    rw [length]
    rfl
  obtain ⟨_, drops⟩ :=
    drop_many secondKept counted Nat.one_pos (by rw [length]; decide)
  refine ⟨_, _, ((locks.append clones).append parks).append drops, ?_⟩
  have firstThread :
      ({ parked with word := sharedWord true 1 }.setThread 1
          .outside).thread 0 =
        ⟨.parkedClone ⟨Phase.empty⟩, [], []⟩ :=
    setThread_other _ Fin.zero_ne_one
  have secondThread :
      ({ parked with word := sharedWord true 1 }.setThread 1
          .outside).thread 1 = .outside :=
    setThread_self _ _ _
  refine ⟨?_, secondThread, rfl⟩
  constructor
  · exact ⟨0, by rw [firstThread]; rfl⟩
  · refine Fin.forall_fin_two.mpr ⟨.inr ?_, .inl ?_⟩
    · rw [firstThread]
      rfl
    · rw [secondThread]
      rfl
  · refine Fin.forall_fin_two.mpr ⟨?_, ?_⟩
    · rw [firstThread]
    · rw [secondThread]
      rfl
  · refine Fin.forall_fin_two.mpr ⟨?_, ?_⟩
    · intro
      rw [firstThread]
      rfl
    · intro owns
      rw [secondThread] at owns
      exact absurd rfl owns

end State

end StaticInit.Sync
