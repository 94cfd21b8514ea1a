import StaticInit.PhaseLocker.Sync.Waiters

namespace StaticInit.Sync

/-!
# No lost wake-up

As long as a thread is parked, its waiter bit is set or a wake is on its way;
and as long as a waiter bit is set, the lock is held or being handed over.  So
when everything has come to rest, a parked thread waits for a guard that a
parked thread holds, and if there is no guard, no waiter bit is left.
-/

open LockWord (view)

/-- `get_phase_unique`; no value is the panic of its `unwrap`. -/
def getPhaseUnique (word : U32) : Option Phase :=
  Phase.fromBits word

theorem Thread.continue_at
    {place : Pc → Bool}
    {thread continued : Thread}
    {next : Next}
    (continues : thread.continue next = .ok continued)
    (ends : next.At place) :
    place continued.pc = true := by
  cases next with
  | goto pc =>
      obtain rfl := Except.ok.inj continues
      exact ends
  | ret result => exact ends.elim
  | panic assertion => cases continues

theorem Thread.continue_awake
    {thread continued : Thread}
    {next : Next}
    (continues : thread.continue next = .ok continued)
    (awake : next.Awake) :
    continued.pc.parked = false := by
  cases next with
  | goto pc =>
      obtain rfl := Except.ok.inj continues
      exact awake
  | ret result =>
      obtain rfl := Except.ok.inj continues
      rfl
  | panic assertion => cases continues

theorem Thread.start_awake
    {thread started : Thread}
    {op : UserOp}
    (starts : thread.start op = some started) :
    started.pc.parked = false := by
  obtain ⟨idle, change⟩ := Thread.start_cases starts
  rcases change with
    ⟨call, rfl⟩ | ⟨index, lock, pc, -, rfl | rfl, rfl⟩ |
      ⟨index, lock, pc, -, rfl | rfl, rfl⟩ | ⟨index, lock, phase, -, rfl⟩
  case inr.inr.inr => rw [idle]; rfl
  all_goals rfl

/-- A place of a parked thread sends no signal. -/
theorem Pc.parked_silent
    {pc : Pc}
    (parked : pc.parked = true) :
    pc.signalsWriter = false ∧ pc.signalsReaders = false := by
  cases pc with
  | parkedWriter closures => exact ⟨rfl, rfl⟩
  | parkedReader closures => exact ⟨rfl, rfl⟩
  | parkedClone guard => exact ⟨rfl, rfl⟩
  | _ => cases parked

theorem Pc.interrupted_awake
    {pc after : Pc}
    (interrupts : pc.interrupted = some after) :
    pc.parked = true ∧ after.parked = false := by
  cases pc with
  | parkedWriter closures =>
      obtain rfl := Option.some.inj interrupts
      exact ⟨rfl, rfl⟩
  | parkedReader closures =>
      obtain rfl := Option.some.inj interrupts
      exact ⟨rfl, rfl⟩
  | parkedClone guard =>
      obtain rfl := Option.some.inj interrupts
      exact ⟨rfl, rfl⟩
  | _ => cases interrupts

/-- A wake picks threads parked as writers and sets them on to ask for the next. -/
theorem Pc.wokenWriter_cases
    {pc after : Pc}
    (wakes : pc.wokenWriter = some after) :
    pc.parkedAsWriter = true ∧ after.parked = false ∧
      after.signalsWriter = true := by
  cases pc with
  | parkedWriter closures =>
      obtain rfl := Option.some.inj wakes
      exact ⟨rfl, rfl, rfl⟩
  | _ => cases wakes

theorem Pc.wokenReader_cases
    {pc after : Pc}
    (wakes : pc.wokenReader = some after) :
    pc.parkedAsReader = true ∧ after.parked = false := by
  cases pc with
  | parkedReader closures =>
      obtain rfl := Option.some.inj wakes
      exact ⟨rfl, rfl⟩
  | parkedClone guard =>
      obtain rfl := Option.some.inj wakes
      exact ⟨rfl, rfl⟩
  | _ => cases wakes

theorem Pc.wokenWriter_isSome
    {pc : Pc}
    (parked : pc.parkedAsWriter = true) :
    pc.wokenWriter.isSome = true := by
  cases pc with
  | parkedWriter closures => rfl
  | _ => cases parked

theorem Pc.wokenReader_isSome
    {pc : Pc}
    (parked : pc.parkedAsReader = true) :
    pc.wokenReader.isSome = true := by
  cases pc with
  | parkedReader closures => rfl
  | parkedClone guard => rfl
  | _ => cases parked

namespace State

/-- A woken thread was parked and is not any more. -/
theorem Woken.was_parked
    {before after : Thread}
    (woken : Woken before after) :
    before.pc.parked = true ∧ after.pc.parked = false := by
  obtain ⟨pc, wakes | wakes, rfl⟩ := woken
  · obtain ⟨parked, awake, -⟩ := Pc.wokenWriter_cases wakes
    exact ⟨by rw [Pc.parked, parked, Bool.true_or], awake⟩
  · obtain ⟨parked, awake⟩ := Pc.wokenReader_cases wakes
    exact ⟨by rw [Pc.parked, parked, Bool.or_true], awake⟩

variable {ι : Type} [DecidableEq ι] [Fintype ι]

/-- Parked threads have their bit set, or a signal to them is on its way. -/
def Heard
    (parked signals : Pc → Bool)
    (bit : U32 → Bool)
    (state : State ι) : Prop :=
  ∀ actor,
    parked (state.thread actor).pc = true →
      bit state.word = true ∨
        ∃ other, signals (state.thread other).pc = true

/-- What a step does about a waiter bit and the signals of its thread. -/
structure Answers
    (parked signals : Pc → Bool)
    (bit : U32 → Bool)
    (state after : State ι)
    (actor : ι) : Prop where
  arrives :
    parked (after.thread actor).pc = true → bit after.word = true
  moves :
    bit state.word = true →
      bit after.word = true ∨ signals (after.thread actor).pc = true
  signals :
    signals (state.thread actor).pc = true →
      bit after.word = true ∨
        (∃ other, signals (after.thread other).pc = true) ∨
        ∀ other, parked (after.thread other).pc = false

omit [DecidableEq ι] [Fintype ι] in
/-- A step that answers its signals keeps parked threads heard. -/
theorem Heard.step
    {parked signals : Pc → Bool}
    {bit : U32 → Bool}
    {state after : State ι}
    {actor : ι}
    (heard : state.Heard parked signals bit)
    (answers : Answers parked signals bit state after actor)
    (others :
      ∀ other ≠ actor,
        after.thread other = state.thread other ∨
          parked (after.thread other).pc = false ∧
            signals (state.thread other).pc = false) :
    after.Heard parked signals bit := by
  intro waiting isParked
  by_cases same : waiting = actor
  · subst same
    exact .inl (answers.arrives isParked)
  have wasParked : parked (state.thread waiting).pc = true := by
    rcases others waiting same with kept | ⟨awake, -⟩
    · rwa [kept] at isParked
    · rw [awake] at isParked
      cases isParked
  rcases heard waiting wasParked with set | ⟨other, signalling⟩
  · exact (answers.moves set).imp_right fun signalling => ⟨actor, signalling⟩
  · by_cases sender : other = actor
    · subst sender
      rcases answers.signals signalling with set | sent | nobody
      · exact .inl set
      · exact .inr sent
      · rw [nobody waiting] at isParked
        cases isParked
    · rcases others other sender with kept | ⟨-, silent⟩
      · exact .inr ⟨other, by rwa [kept]⟩
      · rw [silent] at signalling
        cases signalling

omit [DecidableEq ι] [Fintype ι] in
/-- A step at a place without signals that does not change the word. -/
theorem Answers.of_silent
    {parked signals : Pc → Bool}
    {bit : U32 → Bool}
    {state after : State ι}
    {actor : ι}
    (same : after.word = state.word)
    (awake : parked (after.thread actor).pc = false)
    (silent : signals (state.thread actor).pc = false) :
    Answers parked signals bit state after actor := by
  constructor
  · intro isParked
    rw [awake] at isParked
    cases isParked
  · intro set
    rw [same]
    exact .inl set
  · intro signalling
    rw [silent] at signalling
    cases signalling

/-- Parked writers are heard over this step. -/
abbrev AnswersWriters (state after : State ι) (actor : ι) : Prop :=
  Answers Pc.parkedAsWriter Pc.signalsWriter
    (fun word => (view word).writeWaiter) state after actor

/-- Parked readers are heard over this step. -/
abbrev AnswersReaders (state after : State ι) (actor : ι) : Prop :=
  Answers Pc.parkedAsReader Pc.signalsReaders
    (fun word => (view word).readWaiter) state after actor

end State

theorem Pc.not_parked_iff (pc : Pc) :
    pc.parked = false ↔
      pc.parkedAsWriter = false ∧ pc.parkedAsReader = false := by
  rw [Pc.parked, Bool.or_eq_false_iff]

theorem Pc.not_both {pc : Pc} (writer : pc.parkedAsWriter = true) :
    pc.parkedAsReader = false := by
  cases pc with
  | parkedWriter closures => rfl
  | _ => cases writer

/-- A thread parked as a writer is counted in `writer_count`. -/
theorem Pc.counted_of_parkedAsWriter
    {pc : Pc}
    (parked : pc.parkedAsWriter = true) :
    pc.share.counted = 1 := by
  cases pc with
  | parkedWriter closures => rfl
  | _ => cases parked

theorem Pc.wakesWriter_cases
    {backend : Backend}
    {pc : Pc}
    {next : Bool → Next}
    (wakes : pc.instr backend = .wakeOneWriter next) :
    ∃ preference cur after, pc = .transferWake preference cur after := by
  cases pc with
  | optimistic call =>
      rw [Pc.instr, Call.optimistic] at wakes
      split at wakes <;> cases wakes
  | secondWrite call cur => cases call <;> cases wakes
  | transferWake preference cur after => exact ⟨preference, cur, after, rfl⟩
  | _ => cases wakes

theorem Pc.wakesReaders_cases
    {backend : Backend}
    {pc : Pc}
    {next : Nat → Next}
    (wakes : pc.instr backend = .wakeReaders next) :
    ∃ waker, pc = .wakeCall waker ∧ next = wakeCounted waker := by
  cases pc with
  | optimistic call =>
      rw [Pc.instr, Call.optimistic] at wakes
      split at wakes <;> cases wakes
  | secondWrite call cur => cases call <;> cases wakes
  | wakeCall waker =>
      cases wakes
      exact ⟨waker, rfl, rfl⟩
  | _ => cases wakes

namespace State

variable {ι : Type} [DecidableEq ι] [Fintype ι]

/-- When a thread and no other is counted, no other thread is parked as a writer. -/
theorem Inv.nobody_parked
    {state : State ι}
    {actor other : ι}
    (inv : state.Inv)
    (counted : (state.thread actor).pc.share.counted = 1)
    (alone : state.writerCount ≤ 1)
    (different : other ≠ actor) :
    (state.thread other).pc.parkedAsWriter = false := by
  by_contra parked
  rw [Bool.not_eq_false] at parked
  have total := inv.counted
  rw [state.total_eq_add_rest actor, Share.counted_add, counted] at total
  have others : (state.thread other).share.counted ≤
      (state.rest actor).counted :=
    (state.share_le_rest different).2.2.2.2.2
  have waits : 1 ≤ (state.thread other).share.counted := by
    rw [Thread.share, Share.counted_add, Pc.counted_of_parkedAsWriter parked]
    exact Nat.le_add_right 1 _
  have few : state.writerCount.toNat ≤ 1 := alone
  omega

/-- What the place of a thread counts is in the word. -/
theorem Inv.units_le
    {state : State ι}
    (inv : state.Inv)
    (actor : ι) :
    (state.thread actor).pc.share.units ≤ readerCount state.word := by
  rw [(inv.ledgerOf actor).readers, Share.units_add]
  exact Nat.le_add_right _ _

/-- An atomic instruction answers the signals of its thread to writers. -/
theorem answersWriters_run
    {backend : Backend}
    {state after : State ι}
    {actor : ι}
    {spurious : Bool}
    (inv : state.Inv)
    (runs :
      state.runInstr actor spurious ((state.thread actor).pc.instr backend) =
        some (.ok after)) :
    AnswersWriters state after actor := by
  obtain ⟨word, writerCount, fairness, next, outcome, finishes⟩ :=
    runInstr_outcome runs
  obtain ⟨thread, continues, rfl⟩ := finish_ok finishes.symm
  have relies := (inv.relies actor).1
  have moves := Pc.waitersMove relies (inv.units_le actor) outcome
  have arrives :
      thread.pc.parkedAsWriter = true → (view word).writeWaiter = true := by
    intro parked
    rcases Pc.parks_cases relies outcome with
      awake | ⟨-, set⟩ | ⟨reader, -⟩
    · have awake := Thread.continue_awake continues awake
      rw [((Pc.not_parked_iff _).mp awake).1] at parked
      cases parked
    · exact set
    · have reader := Thread.continue_at continues reader
      rw [Pc.not_both parked] at reader
      cases reader
  constructor
  · intro parked
    simp only [setThread, Function.update_self] at parked
    exact arrives parked
  · intro set
    simp only [setThread, Function.update_self]
    exact (moves.writeWaiter set).imp_right (Thread.continue_at continues)
  · intro signalling
    rcases Pc.signalsWriter_run signalling outcome with
      set | sent | ⟨counted, alone⟩
    · exact .inl set
    · refine .inr (.inl ⟨actor, ?_⟩)
      simp only [setThread, Function.update_self]
      exact Thread.continue_at continues sent
    · by_cases parked : thread.pc.parkedAsWriter = true
      · exact .inl (arrives parked)
      · refine .inr (.inr fun other => ?_)
        by_cases same : other = actor
        · subst same
          simpa [setThread] using parked
        · rw [setThread_other thread same]
          exact inv.nobody_parked counted alone same

/-- An atomic instruction answers the signals of its thread to readers. -/
theorem answersReaders_run
    {backend : Backend}
    {tolerance : GeneratorTolerance}
    {state after : State ι}
    {actor : ι}
    {spurious : Bool}
    (inv : state.Inv)
    (calm : (state.thread actor).Calm tolerance state.word)
    (runs :
      state.runInstr actor spurious ((state.thread actor).pc.instr backend) =
        some (.ok after)) :
    AnswersReaders state after actor := by
  obtain ⟨word, writerCount, fairness, next, outcome, finishes⟩ :=
    runInstr_outcome runs
  obtain ⟨thread, continues, rfl⟩ := finish_ok finishes.symm
  have relies := (inv.relies actor).1
  have moves := Pc.waitersMove relies (inv.units_le actor) outcome
  constructor
  · intro parked
    simp only [setThread, Function.update_self] at parked
    rcases Pc.parks relies calm.pc outcome with
      awake | ⟨writer, -⟩ | ⟨-, set⟩
    · have awake := Thread.continue_awake continues awake
      rw [((Pc.not_parked_iff _).mp awake).2] at parked
      cases parked
    · have writer := Thread.continue_at continues writer
      rw [Pc.not_both writer] at parked
      cases parked
    · exact set
  · intro set
    simp only [setThread, Function.update_self]
    exact (moves.readWaiter set).imp_right (Thread.continue_at continues)
  · intro signalling
    rcases Pc.signalsReaders_run signalling outcome with set | sent
    · exact .inl set
    · refine .inr (.inl ⟨actor, ?_⟩)
      simp only [setThread, Function.update_self]
      exact Thread.continue_at continues sent

omit [DecidableEq ι] [Fintype ι] in
/-- A wake that picked less than it could leaves nobody parked. -/
theorem CanWake.nobody_left
    {state : State ι}
    {woken : Pc → Option Pc}
    {limit : Nat}
    {picked : List ι}
    {other : ι}
    (canWake : state.CanWake woken limit picked)
    (less : picked.length < limit)
    (absent : other ∉ picked) :
    (woken (state.thread other).pc).isSome = false := by
  by_contra parked
  rw [Bool.not_eq_false] at parked
  exact absent (canWake.2.2.2 less other parked)

omit [Fintype ι] in
/-- A picked thread goes on at the place after its wait. -/
theorem wakePicked_woken
    {state : State ι}
    {woken : Pc → Option Pc}
    {limit : Nat}
    {picked : List ι}
    {other : ι}
    (canWake : state.CanWake woken limit picked)
    (member : other ∈ picked) :
    woken (state.thread other).pc =
      some ((state.wakePicked woken picked).thread other).pc := by
  obtain ⟨pc, wakes⟩ := Option.isSome_iff_exists.mp (canWake.2.1 other member)
  simp only [wakePicked, if_pos member, wakeThread, wakes]

omit [Fintype ι] in
/-- A wake of a writer answers the signals of its thread. -/
theorem answers_wakeWriter
    {state : State ι}
    {actor : ι}
    {picked : List ι}
    {thread : Thread}
    (canWake : state.CanWake Pc.wokenWriter 1 picked)
    (outside : actor ∉ picked)
    (awake : thread.pc.parked = false) :
    AnswersWriters state
      ((state.wakePicked Pc.wokenWriter picked).setThread actor thread)
      actor := by
  rw [Pc.not_parked_iff] at awake
  constructor
  · intro parked
    simp only [setThread, Function.update_self, awake.1] at parked
    cases parked
  · exact .inl
  · intro signalling
    cases picked with
    | nil =>
        refine .inr (.inr fun other => ?_)
        by_cases same : other = actor
        · subst same
          simpa [setThread] using awake.1
        · have absent : other ∉ ([] : List ι) := List.not_mem_nil
          have left := canWake.nobody_left Nat.one_pos absent
          rw [setThread_other thread same]
          by_contra parked
          simp only [wakePicked, if_neg absent, Bool.not_eq_false] at parked
          rw [Pc.wokenWriter_isSome parked] at left
          cases left
    | cons first others =>
        have member : first ∈ first :: others := List.mem_cons_self
        have different : first ≠ actor := by
          rintro rfl
          exact outside member
        have wakes := wakePicked_woken canWake member
        refine .inr (.inl ⟨first, ?_⟩)
        rw [setThread_other thread different]
        exact (Pc.wokenWriter_cases wakes).2.2

omit [Fintype ι] in
/-- A wake of readers answers the signals of its thread. -/
theorem answers_wakeReaders
    {state : State ι}
    {actor : ι}
    {picked : List ι}
    {thread : Thread}
    (canWake : state.CanWake Pc.wokenReader maxWakedReaders picked)
    (full : picked.length = maxWakedReaders →
      thread.pc.signalsReaders = true)
    (awake : thread.pc.parked = false) :
    AnswersReaders state
      ((state.wakePicked Pc.wokenReader picked).setThread actor thread)
      actor := by
  rw [Pc.not_parked_iff] at awake
  constructor
  · intro parked
    simp only [setThread, Function.update_self, awake.2] at parked
    cases parked
  · exact .inl
  · intro signalling
    rcases Nat.lt_or_eq_of_le canWake.2.2.1 with less | all
    · refine .inr (.inr fun other => ?_)
      by_cases same : other = actor
      · subst same
        simpa [setThread] using awake.2
      rw [setThread_other thread same]
      by_cases member : other ∈ picked
      · have woken := wakePicked_woken canWake member
        exact ((Pc.not_parked_iff _).mp (Pc.wokenReader_cases woken).2).2
      · have left := canWake.nobody_left less member
        by_contra parked
        simp only [wakePicked, if_neg member, Bool.not_eq_false] at parked
        rw [Pc.wokenReader_isSome parked] at left
        cases left
    · refine .inr (.inl ⟨actor, ?_⟩)
      simpa [setThread] using full all

/-- A wake answers the signals of its thread. -/
theorem answers_wake
    {backend : Backend}
    {state after : State ι}
    {actor : ι}
    {picked : List ι}
    (runs :
      state.wakeInstr actor picked ((state.thread actor).pc.instr backend) =
        some (.ok after)) :
    AnswersWriters state after actor ∧ AnswersReaders state after actor := by
  have parksByWait :
      ((state.thread actor).pc.instr backend).ParksByWait :=
    Pc.parksByWait _
  rcases wakeInstr_outcome runs with
    ⟨next, instr, canWake, finishes⟩ | ⟨next, instr, canWake, finishes⟩
  · obtain ⟨thread, continues, rfl⟩ := finish_ok finishes.symm
    rw [instr] at parksByWait
    have awake := Thread.continue_awake continues (parksByWait _)
    have running := wokenWriter_none_of_wake instr
    obtain ⟨preference, cur, resumed, place⟩ := Pc.wakesWriter_cases instr
    refine ⟨answers_wakeWriter canWake (wakePicked_actor canWake running)
      awake, ?_⟩
    apply Answers.of_silent
    · rfl
    · simpa [setThread] using ((Pc.not_parked_iff _).mp awake).2
    · rw [place]
      rfl
  · obtain ⟨thread, continues, rfl⟩ := finish_ok finishes.symm
    rw [instr] at parksByWait
    have awake := Thread.continue_awake continues (parksByWait _)
    obtain ⟨waker, place, rfl⟩ := Pc.wakesReaders_cases instr
    constructor
    · apply Answers.of_silent
      · rfl
      · simpa [setThread] using ((Pc.not_parked_iff _).mp awake).1
      · rw [place]
        rfl
    · refine answers_wakeReaders canWake ?_ awake
      intro all
      apply Thread.continue_at continues
      rw [wakeCounted, if_pos all]
      rfl

omit [Fintype ι] in
/-- A thread without signals goes on to a place where it is not parked. -/
theorem answers_setThread
    {state : State ι}
    {actor : ι}
    {thread : Thread}
    (awake : thread.pc.parked = false)
    (silent :
      (state.thread actor).pc.signalsWriter = false ∧
        (state.thread actor).pc.signalsReaders = false) :
    AnswersWriters state (state.setThread actor thread) actor ∧
      AnswersReaders state (state.setThread actor thread) actor := by
  rw [Pc.not_parked_iff] at awake
  constructor
  · apply Answers.of_silent
    · rfl
    · simpa [setThread] using awake.1
    · exact silent.1
  · apply Answers.of_silent
    · rfl
    · simpa [setThread] using awake.2
    · exact silent.2

/-- Every step answers the signals of its thread to writers. -/
theorem answersWriters
    {backend : Backend}
    {state after : State ι}
    {action : Action ι}
    (inv : state.Inv)
    (step : State.Step backend state action after) :
    AnswersWriters state after action.actor := by
  unfold State.Step at step
  cases action with
  | start actor op =>
      rw [State.exec, Option.map_eq_some_iff] at step
      obtain ⟨thread, starts, same⟩ := step
      obtain rfl := Except.ok.inj same
      have idle := (Thread.start_cases starts).1
      refine (answers_setThread (Thread.start_awake starts) ?_).1
      rw [idle]
      exact ⟨rfl, rfl⟩
  | run actor spurious => exact answersWriters_run inv step
  | wake actor picked => exact (answers_wake step).1
  | interrupt actor =>
      rw [State.exec, Option.map_eq_some_iff] at step
      obtain ⟨pc, interrupts, same⟩ := step
      obtain rfl := Except.ok.inj same
      obtain ⟨parked, awake⟩ := Pc.interrupted_awake interrupts
      exact (answers_setThread awake (Pc.parked_silent parked)).1

/-- Parked writers have the write waiter bit set, or a wake is on its way. -/
abbrev HeardWriters (state : State ι) : Prop :=
  state.Heard Pc.parkedAsWriter Pc.signalsWriter
    (fun word => (view word).writeWaiter)

/-- Every step keeps parked writers heard. -/
theorem HeardWriters.keeps
    {backend : Backend}
    {state after : State ι}
    {action : Action ι}
    (inv : state.Inv)
    (heard : state.HeardWriters)
    (step : State.Step backend state action after) :
    after.HeardWriters := by
  apply Heard.step heard (answersWriters inv step)
  intro other different
  refine (step_other step different).imp_right fun woken => ?_
  obtain ⟨was, awake⟩ := woken.was_parked
  exact ⟨((Pc.not_parked_iff _).mp awake).1, (Pc.parked_silent was).1⟩

/-- The threads share a locker whose waiters all are going to be woken. -/
structure Heeded
    (tolerance : GeneratorTolerance)
    (state : State ι) : Prop where
  inv : state.Inv
  calm : ∀ actor, (state.thread actor).Calm tolerance state.word
  writers :
    state.Heard Pc.parkedAsWriter Pc.signalsWriter
      (fun word => (view word).writeWaiter)
  readers :
    state.Heard Pc.parkedAsReader Pc.signalsReaders
      (fun word => (view word).readWaiter)
  held :
    0 < state.total.held ∨
      readWaiterCount state.word + writeWaiterCount state.word = 0

/-- Every step of the crate answers the signals of its thread to readers. -/
theorem Heeded.answersReaders
    {backend : Backend}
    {tolerance : GeneratorTolerance}
    {state after : State ι}
    {action : Action ι}
    (heeded : state.Heeded tolerance)
    (step : State.Step backend state action after) :
    AnswersReaders state after action.actor := by
  unfold State.Step at step
  cases action with
  | start actor op =>
      rw [State.exec, Option.map_eq_some_iff] at step
      obtain ⟨thread, starts, same⟩ := step
      obtain rfl := Except.ok.inj same
      have idle := (Thread.start_cases starts).1
      refine (answers_setThread (Thread.start_awake starts) ?_).2
      rw [idle]
      exact ⟨rfl, rfl⟩
  | run actor spurious =>
      exact answersReaders_run heeded.inv (heeded.calm actor) step
  | wake actor picked => exact (answers_wake step).2
  | interrupt actor =>
      rw [State.exec, Option.map_eq_some_iff] at step
      obtain ⟨pc, interrupts, same⟩ := step
      obtain rfl := Except.ok.inj same
      obtain ⟨parked, awake⟩ := Pc.interrupted_awake interrupts
      exact (answers_setThread awake (Pc.parked_silent parked)).2

/-- The total after one thread changed. -/
theorem total_setThread
    {state : State ι}
    {actor : ι}
    {thread : Thread}
    {traded : Share}
    (share :
      thread.share =
        traded +
          guardShare (state.thread actor).locks
            (state.thread actor).readLocks) :
    (state.setThread actor thread).total = traded + state.rest actor := by
  rw [total, setThread, tally_update, share, rest, add_assoc]

omit [DecidableEq ι] [Fintype ι] in
/-- A trade keeps something held, or there are no waiters to begin with. -/
theorem Outcome.quiet
    {state : State ι}
    {instr : Instr}
    {word : U32}
    {writerCount : BitVec 32}
    {fairness : BitVec 16}
    {next : Next}
    {share rest : Share}
    {flawed : Prop}
    {thread continued : Thread}
    (outcome : state.Outcome instr word writerCount fairness next)
    (fits : instr.Fits state.word state.writerCount share rest flawed)
    (continues : thread.continue next = .ok continued) :
    0 < (next.share + rest).held ∨ (share + rest).held = 0 ∨
      readWaiterCount word + writeWaiterCount word = 0 := by
  have quiet :
      next.Fits state.word word share rest flawed →
        0 < (next.share + rest).held ∨ (share + rest).held = 0 ∨
          readWaiterCount word + writeWaiterCount word = 0 := by
    intro fits
    cases next with
    | goto pc => exact fits.1.quiet
    | ret result => exact fits.1.quiet
    | panic assertion => cases continues
  cases outcome with
  | fetch update next => exact quiet fits
  | exchanged same => exact quiet (fits.1 same)
  | notExchanged failed => exact quiet fits.2
  | fairness update next => exact quiet (fits state.fairness)
  | waited same => exact quiet (fits.1 same)
  | notWaited => exact quiet fits.2
  | counted update after =>
      dsimp only [Instr.Fits] at fits
      cases ends : after state.writerCount with
      | goto pc =>
          rw [ends] at fits
          have same := fits.2.1
          rw [Share.mk.injEq] at same
          have before := Share.numbers_add share rest
          have traded := Share.numbers_add pc.share rest
          change 0 < (pc.share + rest).held ∨ _
          omega
      | ret result =>
          rw [ends] at fits
          exact fits.elim
      | panic assertion =>
          rw [ends] at continues
          cases continues

omit [DecidableEq ι] [Fintype ι] in
/-- No instruction sets a waiter bit in a word that nobody holds. -/
theorem Outcome.stays_free
    {backend : Backend}
    {tolerance : GeneratorTolerance}
    {state : State ι}
    {pc : Pc}
    {word : U32}
    {writerCount : BitVec 32}
    {fairness : BitVec 16}
    {next : Next}
    (outcome :
      state.Outcome (pc.instr backend) word writerCount fairness next)
    (calm : pc.Calm tolerance state.word)
    (relies : pc.Relies state.word)
    (nothing : pc.share.held = 0)
    (free : ¬ Busy state.word) :
    SameWaiters state.word word := by
  cases touches : pc.touchesWaiters with
  | false =>
      apply outcome.same_waiters
      apply Pc.keepsWaiters touches relies
      rw [Share.held] at nothing
      omega
  | true =>
      cases pc with
      | setWriteWaiter closures spinWait cur =>
          cases outcome with
          | exchanged same => exact absurd (same ▸ calm.2) free
          | notExchanged failed => exact ⟨rfl, rfl⟩
      | setReadWaiter closures spinWait cur =>
          cases outcome with
          | exchanged same => exact absurd (same ▸ calm.2) free
          | notExchanged failed => exact ⟨rfl, rfl⟩
      | waitReadersCas closures spinWait cur => cases nothing
      | writerOr closures => cases nothing
      | transferXor preference cur next => cases nothing
      | wakeOr count waker => simp [Pc.share, Share.held] at nothing
      | cloneSetWaiter guard spinWait cur => cases nothing
      | wakeXor toUnactivate waker =>
          cases waker with
          | converting converter => cases nothing
          | releasing next =>
              simp only [Pc.share, Waker.share] at nothing
              split at nothing <;> cases nothing
      | _ => cases touches

omit [DecidableEq ι] in
/-- A word with the lock bit or a reader is held. -/
theorem Inv.held_of_word
    {state : State ι}
    (inv : state.Inv)
    (shown : 0 < readerCount state.word + lockCount state.word) :
    0 < state.total.held := by
  have readers := inv.ledger.readers
  have locked := inv.ledger.locked
  rw [Share.held]
  omega

/-- A thread that is going to wake others is shown in the word. -/
theorem Inv.shown_of_share
    {state : State ι}
    {actor : ι}
    (inv : state.Inv)
    (holds :
      0 < (state.thread actor).pc.share.units +
        (state.thread actor).pc.share.owner) :
    0 < readerCount state.word + lockCount state.word := by
  have ledger := inv.ledgerOf actor
  have readers := ledger.readers
  have locked := ledger.locked
  simp only [Share.units_add, Share.owner_add, Share.pending_add]
    at readers locked
  omega

omit [DecidableEq ι] in
/-- Nothing is held and nobody waits: the word is free. -/
theorem Inv.free
    {state : State ι}
    (inv : state.Inv)
    (nothing : state.total.held = 0)
    (noWaiters :
      readWaiterCount state.word + writeWaiterCount state.word = 0) :
    ¬ Busy state.word := by
  have readers := inv.ledger.readers
  have locked := inv.ledger.locked
  rw [Share.held] at nothing
  unfold Busy
  omega

/-- Waiter bits are only set while the lock is held in some way. -/
theorem Heeded.held_step
    {backend : Backend}
    {tolerance : GeneratorTolerance}
    {state after : State ι}
    {action : Action ι}
    (heeded : state.Heeded tolerance)
    (step : State.Step backend state action after) :
    0 < after.total.held ∨
      readWaiterCount after.word + writeWaiterCount after.word = 0 := by
  have keptInv := heeded.inv.step step
  unfold State.Step at step
  cases action with
  | start actor op =>
      rw [State.exec, Option.map_eq_some_iff] at step
      obtain ⟨thread, starts, same⟩ := step
      obtain rfl := Except.ok.inj same
      have total : (state.setThread actor thread).total = state.total := by
        rw [state.total_eq_add_rest actor]
        exact total_setThread (Thread.start_share starts)
      rw [total]
      exact heeded.held
  | run actor spurious =>
      obtain ⟨word, writerCount, fairness, next, outcome, finishes⟩ :=
        runInstr_outcome step
      obtain ⟨thread, continues, rfl⟩ := finish_ok finishes.symm
      let changed : State ι :=
        { state with
          word := word
          writerCount := writerCount
          fairness := fairness }
      have total :
          (changed.setThread actor thread).total =
            next.share + state.rest actor :=
        total_setThread (Thread.continue_share continues)
      have quiet :=
        outcome.quiet (heeded.inv.fits backend actor) continues
      rw [← state.total_eq_add_rest actor, ← total] at quiet
      rcases quiet with some | nothing | free
      · exact .inl some
      · have noWaiters := heeded.held.resolve_left (by omega)
        have nothingHere : (state.thread actor).pc.share.held = 0 := by
          rw [state.total_eq_add_rest actor] at nothing
          simp only [Share.held, Share.units_add, Share.owner_add,
            Share.passing_add, Share.pending_add] at nothing ⊢
          omega
        obtain ⟨writer, reader⟩ :=
          outcome.stays_free (heeded.calm actor).pc
            (heeded.inv.relies actor).1 nothingHere
            (heeded.inv.free nothing noWaiters)
        right
        change readWaiterCount word + writeWaiterCount word = 0
        rwa [readWaiterCount, writeWaiterCount, reader, writer]
      · exact .inr free
  | wake actor picked =>
      left
      apply keptInv.held_of_word
      rcases wakeInstr_outcome step with
        ⟨next, instr, -, finishes⟩ | ⟨next, instr, -, finishes⟩
      · obtain ⟨thread, -, rfl⟩ := finish_ok finishes.symm
        obtain ⟨preference, cur, resumed, place⟩ := Pc.wakesWriter_cases instr
        apply heeded.inv.shown_of_share
        rw [place]
        exact Nat.one_pos
      · obtain ⟨thread, -, rfl⟩ := finish_ok finishes.symm
        obtain ⟨waker, place, -⟩ := Pc.wakesReaders_cases instr
        apply heeded.inv.shown_of_share
        rw [place]
        exact Nat.succ_pos _
  | interrupt actor =>
      rw [State.exec, Option.map_eq_some_iff] at step
      obtain ⟨pc, interrupts, same⟩ := step
      obtain rfl := Except.ok.inj same
      have total :
          (state.setThread actor { state.thread actor with pc := pc }).total =
            state.total := by
        rw [state.total_eq_add_rest actor,
          ← Pc.interrupted_share interrupts]
        exact total_setThread rfl
      rw [total]
      exact heeded.held

/-- Every step of the crate keeps all waiters heeded. -/
theorem Heeded.step
    {backend : Backend}
    {tolerance : GeneratorTolerance}
    {state after : State ι}
    {action : Action ι}
    (heeded : state.Heeded tolerance)
    (step : state.CrateStep backend tolerance action after) :
    after.Heeded tolerance := by
  constructor
  · exact heeded.inv.step step.1
  · exact calm_step heeded.inv heeded.calm step
  · exact HeardWriters.keeps heeded.inv heeded.writers step.1
  · apply heeded.readers.step (heeded.answersReaders step.1)
    intro other different
    refine (step_other step.1 different).imp_right fun woken => ?_
    obtain ⟨was, awake⟩ := woken.was_parked
    exact ⟨((Pc.not_parked_iff _).mp awake).2, (Pc.parked_silent was).2⟩
  · exact heeded.held_step step.1

omit [DecidableEq ι] in
/-- A fresh locker has no waiters. -/
theorem Heeded.init
    (tolerance : GeneratorTolerance)
    (phase : Phase) :
    (State.init ι phase).Heeded tolerance := by
  constructor
  · exact Inv.init phase
  · intro actor
    exact ⟨trivial, fun lock member => absurd member List.not_mem_nil⟩
  · exact fun actor parked => nomatch parked
  · exact fun actor parked => nomatch parked
  · right
    change readWaiterCount phase.bits + writeWaiterCount phase.bits = 0
    rw [waiterCount_eq_zero_iff, LockWord.view_bits]
    exact ⟨rfl, rfl⟩

omit [DecidableEq ι] in
/-- Threads at rest without guards hold nothing. -/
theorem Heeded.nothing_held
    {tolerance : GeneratorTolerance}
    {state : State ι}
    (heeded : state.Heeded tolerance)
    (resting :
      ∀ actor,
        (state.thread actor).pc.parked = true ∨
          (state.thread actor).pc = .idle)
    (noGuard :
      ∀ actor,
        (state.thread actor).locks = [] ∧
          (state.thread actor).readLocks = []) :
    state.total.held = 0 := by
  have sum := map_tally Share.heldHom Thread.share state.thread
  change state.total.held = _ at sum
  rw [sum]
  by_contra positive
  obtain ⟨actor, holds⟩ := exists_weight_ne_zero positive
  apply holds
  change (state.thread actor).share.held = 0
  have calm := (heeded.calm actor).pc
  rw [Thread.share, (noGuard actor).1, (noGuard actor).2]
  rcases resting actor with parked | idle
  · cases place : (state.thread actor).pc with
    | parkedWriter closures => rfl
    | parkedReader closures => rfl
    | parkedClone guard =>
        rw [place] at calm
        exact calm.elim
    | _ =>
        rw [place] at parked
        cases parked
  · rw [idle]
    rfl

omit [DecidableEq ι] in
/-- Where nothing is held, no waiter bit is set. -/
theorem Heeded.noWaiters
    {tolerance : GeneratorTolerance}
    {state : State ι}
    (heeded : state.Heeded tolerance)
    (nothing : state.total.held = 0) :
    (view state.word).readWaiter = false ∧
      (view state.word).writeWaiter = false := by
  rw [← waiterCount_eq_zero_iff]
  exact heeded.held.resolve_left (by omega)

omit [DecidableEq ι] in
/-- Where nothing is held, the word is the phase alone. -/
theorem Heeded.word_eq
    {tolerance : GeneratorTolerance}
    {state : State ι}
    (heeded : state.Heeded tolerance)
    (nothing : state.total.held = 0) :
    state.word = state.phase.bits := by
  obtain ⟨reader, writer⟩ := heeded.noWaiters nothing
  have readers := heeded.inv.ledger.readers
  have locked := heeded.inv.ledger.locked
  rw [Share.held] at nothing
  have noReaders : (view state.word).readers = 0#21 := by
    apply BitVec.eq_of_toNat_eq
    change readerCount state.word = 0
    omega
  have unlocked : (view state.word).locked = false := by
    rw [← lockCount_eq_zero_iff]
    omega
  rw [← LockWord.view_inj, LockWord.view_bits]
  apply LockWord.ext
  · exact writer
  · exact reader
  · exact unlocked
  · exact noReaders
  · rfl

omit [DecidableEq ι] in
/-- Where all threads rest and nothing is held, nobody is parked. -/
theorem Heeded.nobody_parked
    {tolerance : GeneratorTolerance}
    {state : State ι}
    (heeded : state.Heeded tolerance)
    (resting :
      ∀ actor,
        (state.thread actor).pc.parked = true ∨
          (state.thread actor).pc = .idle)
    (nothing : state.total.held = 0)
    (actor : ι) :
    (state.thread actor).pc.parked = false := by
  obtain ⟨reader, writer⟩ := heeded.noWaiters nothing
  have silent :
      ∀ other,
        (state.thread other).pc.signalsWriter = false ∧
          (state.thread other).pc.signalsReaders = false := by
    intro other
    rcases resting other with parked | idle
    · exact Pc.parked_silent parked
    · rw [idle]
      exact ⟨rfl, rfl⟩
  rw [Pc.not_parked_iff]
  constructor
  · by_contra parked
    rw [Bool.not_eq_false] at parked
    rcases heeded.writers actor parked with set | ⟨other, signalling⟩
    · cases writer.symm.trans set
    · rw [(silent other).1] at signalling
      cases signalling
  · by_contra parked
    rw [Bool.not_eq_false] at parked
    rcases heeded.readers actor parked with set | ⟨other, signalling⟩
    · cases reader.symm.trans set
    · rw [(silent other).2] at signalling
      cases signalling

/--
When every thread is parked or outside without a guard, some parked thread
itself holds a guard, if a thread is parked at all; and when every thread is
outside without a guard, the word is the phase alone.
-/
theorem no_lost_wake_up
    {backend : Backend}
    {tolerance : GeneratorTolerance}
    {phase : Phase}
    {actions : List (Action ι)}
    {state : State ι}
    (run :
      Run (State.CrateStep backend tolerance) (State.init ι phase)
        actions state) :
    ((∃ actor, (state.thread actor).pc.parked = true) →
      (∀ actor,
        (state.thread actor).pc.parked = true ∨
          state.thread actor = .outside) →
      ∃ actor,
        (state.thread actor).pc.parked = true ∧
          ((state.thread actor).locks ≠ [] ∨
            (state.thread actor).readLocks ≠ [])) ∧
      ((∀ actor, state.thread actor = .outside) →
        state.word = state.phase.bits ∧
          getPhaseUnique state.word = some state.phase) := by
  have heeded : state.Heeded tolerance :=
    run.invariant (Heeded.init tolerance phase)
      fun _ heeded step => heeded.step step
  constructor
  · rintro ⟨waiting, parked⟩ resting
    by_contra noGuard
    push Not at noGuard
    have allRest :
        ∀ actor,
          (state.thread actor).pc.parked = true ∨
            (state.thread actor).pc = .idle :=
      fun actor => (resting actor).imp_right fun outside => by rw [outside]; rfl
    have nothing : state.total.held = 0 := by
      apply heeded.nothing_held allRest
      intro actor
      rcases resting actor with parked | outside
      · exact noGuard actor parked
      · rw [outside]
        exact ⟨rfl, rfl⟩
    rw [heeded.nobody_parked allRest nothing waiting] at parked
    cases parked
  · intro outside
    have nothing : state.total.held = 0 := by
      apply heeded.nothing_held
      · intro actor
        rw [outside actor]
        exact .inr rfl
      · intro actor
        rw [outside actor]
        exact ⟨rfl, rfl⟩
    have alone : state.word = (Phase.fromBitsTruncate state.word).bits :=
      heeded.word_eq nothing
    refine ⟨alone, ?_⟩
    rw [getPhaseUnique, Phase.fromBits, if_pos alone.symm]
    rfl

/-- A schedule of operations that the crate may always start. -/
theorem crateRun_of_execAll
    {backend : Backend}
    {tolerance : GeneratorTolerance}
    {state final : State ι}
    {actions : List (Action ι)}
    (performed : state.execAll backend actions = some (.ok final))
    (crate :
      ∀ actor op,
        Action.start actor op ∈ actions →
          ∀ thread, CrateOp tolerance thread op) :
    Run (State.CrateStep backend tolerance) state actions final := by
  apply (run_of_execAll performed).mono
  intro action member before after step
  refine ⟨step, ?_⟩
  rintro actor op rfl
  exact crate actor op member _

/-- A thread parks behind a guard, is woken by its drop, and drops its own. -/
theorem no_lost_wake_up_handed_over :
    let write : UserOp := .lock ⟨fun _ => .write, fun _ => .write⟩ .empty
    let actions : List (Action (Fin 2)) :=
      [.start 0 write, .run 0 false, .start 1 write] ++
        List.replicate 15 (.run 1 false) ++ [.start 0 (.dropLock 0)] ++
        List.replicate 5 (.run 0 false) ++ [.wake 0 [1]] ++
        List.replicate 2 (.run 1 false) ++
        [.start 1 (.dropLock 0), .run 1 false]
    ∃ state,
      Run (State.CrateStep .linux ⟨false, false⟩)
          (State.init (Fin 2) Phase.empty) actions state ∧
        (∀ actor, state.thread actor = .outside) ∧
          state.word = state.phase.bits := by
  intro write actions
  obtain ⟨state, performed, outside⟩ :
      ∃ state : State (Fin 2),
        (State.init (Fin 2) Phase.empty).execAll .linux actions =
            some (.ok state) ∧
          state.thread 0 = .outside ∧ state.thread 1 = .outside :=
    ⟨_, rfl, rfl, rfl⟩
  have run :
      Run (State.CrateStep .linux ⟨false, false⟩)
        (State.init (Fin 2) Phase.empty) actions state :=
    crateRun_of_execAll performed (by
      intro actor op member thread
      have started : op = write ∨ op = .dropLock 0 := by
        simp [actions] at member
        tauto
      rcases started with rfl | rfl
      · exact .lock _ .write
      · exact .dropLock 0)
  have allOutside : ∀ actor, state.thread actor = .outside :=
    Fin.forall_fin_two.mpr outside
  exact
    ⟨state, run, allOutside, ((no_lost_wake_up run).2 allOutside).1⟩

/-- A thread that locks again while it owns a guard parks, and nobody else is there. -/
theorem parked_behind_own_guard :
    ∃ (actions : List (Action (Fin 1))) (state : State (Fin 1)),
      Run (State.CrateStep .linux ⟨false, false⟩)
          (State.init (Fin 1) Phase.empty) actions state ∧
        (∃ actor, (state.thread actor).pc.parked = true) ∧
        ∀ actor,
          (state.thread actor).pc.parked = true ∨
            state.thread actor = .outside := by
  let write : UserOp := .lock ⟨fun _ => .write, fun _ => .write⟩ .empty
  obtain ⟨state, performed, parked⟩ :
      ∃ state : State (Fin 1),
        (State.init (Fin 1) Phase.empty).execAll .linux
            ([.start 0 write, .run 0 false, .start 0 write] ++
              List.replicate 15 (.run 0 false)) =
            some (.ok state) ∧
          (state.thread 0).pc.parked = true :=
    ⟨_, rfl, rfl⟩
  refine ⟨_, state, crateRun_of_execAll performed ?_, ⟨0, parked⟩, ?_⟩
  · intro actor op member thread
    obtain ⟨-, rfl⟩ : actor = 0 ∧ op = write := by simpa using member
    exact .lock _ .write
  · exact Fin.forall_fin_one.mpr (.inl parked)

end State

end StaticInit.Sync
