import StaticInit.PhaseLocker.Atomic
import StaticInit.PhaseLocker.Spinning.Exclusion

namespace StaticInit.Spinning

/-!
# The spinning locker refines the atomic locker

Each operation of the spinning locker takes effect in its last instruction.
Until then a place of the code stands at the stage that its operation starts
with, and a place of a call keeps what the closure said of the word it read.
-/

open Sync (Lock ReadLock Closures Call Result UserOp SpinWait)
open LockWord (view)
open Atomic (Stage Commit Settles)

section Stages

variable (word : U32) (stage : Stage)

/-- A call that decides by this closure has not taken effect. -/
def Asking (how : Phase → LockNature) : Prop :=
  ∃ call, stage = .asked call ∧ call.how = how

/-- A call of `try_lock` has not taken effect. -/
def Trying (how : Phase → LockNature) : Prop :=
  ∃ hint, stage = .asked (.tryLock how hint)

/-- The stage at which a thread is at each place of the code. -/
def Pc.Stands : Pc → Prop
  | .idle => stage = .idle
  | .optimistic call => stage = .asked call
  | .tryWrite how cur =>
      Trying stage how ∧ how (.fromBitsTruncate cur) = .write
  | .tryRead how cur =>
      Trying stage how ∧ how (.fromBitsTruncate cur) = .read
  | .slowWrite how cur =>
      Asking stage how ∧ how (.fromBitsTruncate cur) = .write
  | .slowRead how _ cur =>
      Asking stage how ∧ how (.fromBitsTruncate cur) = .read
  | .slowReadLoad how _ => Asking stage how
  | .slowLoad how => Asking stage how
  | .dropLock lock => stage = .droppingLock lock
  | .convert lock _ => stage = .convertingLock lock
  | .dropReadLock lock => stage = .droppingReadLock lock
  | .cloneLoad guard => stage = .cloning guard
  | .cloneCas guard _ => stage = .cloning guard

/-- The place or the result that local code ends with is at a stage. -/
def Next.Stands : Next → Prop
  | .goto pc => pc.Stands stage
  | .ret result => stage = .answered result
  | .unreachable => True

end Stages

/-- Local code that ends at a word keeps or commits the stage of its thread. -/
def Next.Settles
    (before : Phase)
    (stage : Stage)
    (after : U32)
    (next : Next) : Prop :=
  ∃ settled,
    Atomic.Settles before stage (.fromBitsTruncate after) settled ∧
      next.Stands settled

section LocalCode

variable {word : U32} {stage : Stage} {how : Phase → LockNature}
  {call : Call}

/-- Local code that keeps the stage where the word stays. -/
theorem Next.settles_of_stands
    {next : Next}
    (stands : next.Stands stage) :
    next.Settles (.fromBitsTruncate word) stage word :=
  ⟨stage, .inl ⟨rfl, rfl⟩, stands⟩

theorem Trying.asking (trying : Trying stage how) : Asking stage how := by
  obtain ⟨hint, rfl⟩ := trying
  exact ⟨_, rfl, rfl⟩

/-- A call returns none for the phase it has just read. -/
theorem retNone_settles
    (asking : Asking stage how)
    (none : how (.fromBitsTruncate word) = .none) :
    (Next.retNone (.fromBitsTruncate word)).Settles (.fromBitsTruncate word)
      stage word := by
  obtain ⟨call, rfl, rfl⟩ := asking
  exact ⟨_, .inr (.none (Call.mayReturnNone_of_how none)), rfl⟩

/-- `try_lock` gives up. -/
theorem failed_settles (trying : Trying stage how) :
    (Next.ret (.locked none)).Settles (.fromBitsTruncate word) stage
      word := by
  obtain ⟨hint, rfl⟩ := trying
  exact ⟨_, .inr .failed, rfl⟩

/-- An exchange takes the write lock that the closure asks for. -/
theorem retWrite_settles
    (asking : Asking stage how)
    (write : how (.fromBitsTruncate word) = .write) :
    (Next.retWrite (.new word)).Settles (.fromBitsTruncate word) stage
      (word ||| lockedBit) := by
  obtain ⟨call, rfl, rfl⟩ := asking
  refine ⟨_, .inr ?_, rfl⟩
  rw [Sync.fromBitsTruncate_or_lockedBit]
  exact .write write

/-- An exchange adds the read lock that the closure asks for. -/
theorem retRead_settles
    (asking : Asking stage how)
    (read : how (.fromBitsTruncate word) = .read) :
    (Next.retRead (.new word)).Settles (.fromBitsTruncate word) stage
      (word + readerUnity) := by
  obtain ⟨call, rfl, rfl⟩ := asking
  refine ⟨_, .inr ?_, rfl⟩
  rw [Sync.fromBitsTruncate_add_readerUnity]
  exact .read read

theorem tryReadLoop_settles
    (trying : Trying stage how)
    (read : how (.fromBitsTruncate word) = .read) :
    (tryReadLoop how word).Settles (.fromBitsTruncate word) stage word := by
  unfold tryReadLoop
  split
  case isTrue => exact Next.settles_of_stands ⟨trying, read⟩
  case isFalse => exact failed_settles trying

theorem tryReadFailed_settles (trying : Trying stage how) :
    (tryReadFailed how word).Settles (.fromBitsTruncate word) stage word := by
  unfold tryReadFailed
  split
  case isTrue read => exact tryReadLoop_settles trying read
  case isFalse => exact failed_settles trying

theorem trySecond_settles (trying : Trying stage how) :
    (trySecond how word).Settles (.fromBitsTruncate word) stage word := by
  unfold trySecond
  split
  case h_1 write =>
    split
    case isTrue => exact Next.settles_of_stands ⟨trying, write⟩
    case isFalse => exact failed_settles trying
  case h_2 read => exact tryReadLoop_settles trying read
  case h_3 none => exact retNone_settles trying.asking none

theorem slowReadLoop_settles
    {spinWait : SpinWait}
    (asking : Asking stage how)
    (read : how (.fromBitsTruncate word) = .read) :
    (slowReadLoop how spinWait word).Settles (.fromBitsTruncate word) stage
      word := by
  unfold slowReadLoop
  split
  case isTrue => exact Next.settles_of_stands ⟨asking, read⟩
  case isFalse => exact Next.settles_of_stands asking

theorem slowReadLoaded_settles
    {spinWait : SpinWait}
    (asking : Asking stage how) :
    (slowReadLoaded how spinWait word).Settles (.fromBitsTruncate word) stage
      word := by
  unfold slowReadLoaded
  split
  case isTrue read => exact slowReadLoop_settles asking read
  case isFalse => exact Next.settles_of_stands asking

theorem slowLoop_settles (asking : Asking stage how) :
    (slowLoop how word).Settles (.fromBitsTruncate word) stage word := by
  unfold slowLoop
  split
  case h_1 write =>
    split
    case isTrue => exact Next.settles_of_stands ⟨asking, write⟩
    case isFalse => exact Next.settles_of_stands asking
  case h_2 read => exact slowReadLoop_settles asking read
  case h_3 none => exact retNone_settles asking none

theorem second_settles :
    (second call word).Settles (.fromBitsTruncate word) (.asked call)
      word := by
  cases call with
  | lock closures hint => exact slowLoop_settles ⟨_, rfl, rfl⟩
  | tryLock how hint => exact trySecond_settles ⟨hint, rfl⟩

theorem optimisticNone_settles :
    (optimisticNone call word).Settles (.fromBitsTruncate word) (.asked call)
      word := by
  unfold optimisticNone
  split
  case isTrue none => exact retNone_settles ⟨call, rfl, rfl⟩ none
  case isFalse => exact second_settles

/-- The two ends of an exchange. -/
theorem perform_exchange_settles
    {weak spurious : Bool}
    {cur new after : U32}
    {ok next : Next}
    {err : U32 → Next}
    (taken :
      word = cur → ok.Settles (.fromBitsTruncate word) stage new)
    (failed : (err word).Settles (.fromBitsTruncate word) stage word)
    (performs :
      (Instr.exchange weak cur new ok err).perform word spurious =
        some (after, next)) :
    next.Settles (.fromBitsTruncate word) stage after := by
  have performs := Option.some.inj performs
  split at performs
  case isTrue same =>
    obtain ⟨rfl, rfl⟩ := Prod.mk.inj performs
    exact taken same.1
  case isFalse =>
    obtain ⟨rfl, rfl⟩ := Prod.mk.inj performs
    exact failed

/-- The attempt on the hint keeps or commits the stage of the call. -/
theorem optimistic_settles
    {after : U32}
    {spurious : Bool}
    {next : Next}
    (performs :
      (Spinning.optimistic call).perform word spurious =
        some (after, next)) :
    next.Settles (.fromBitsTruncate word) (.asked call) after := by
  unfold Spinning.optimistic at performs
  split at performs
  case h_1 =>
    obtain ⟨rfl, rfl⟩ := Prod.mk.inj (Option.some.inj performs)
    exact optimisticNone_settles
  case h_2 write =>
    apply perform_exchange_settles _ second_settles performs
    rintro rfl
    apply retWrite_settles ⟨call, rfl, rfl⟩
    rw [Phase.fromBitsTruncate_bits]
    exact write
  case h_3 read =>
    apply perform_exchange_settles _ second_settles performs
    rintro rfl
    apply retRead_settles ⟨call, rfl, rfl⟩
    rw [Phase.fromBitsTruncate_bits]
    exact read

end LocalCode

/-- Every instruction keeps the stage of its thread, or commits it. -/
theorem Pc.perform_settles
    {pc : Pc}
    {word after : U32}
    {spurious : Bool}
    {stage : Stage}
    {next : Next}
    (relies : pc.Relies)
    (expected :
      ∀ lock ∈ pc.ownedLocks, word = lock.initPhase.bits ||| lockedBit)
    (shown :
      ∀ lock ∈ pc.ownedReadLocks, lock.initPhase = .fromBitsTruncate word)
    (stands : pc.Stands stage)
    (performs : pc.instr.perform word spurious = some (after, next)) :
    next.Settles (.fromBitsTruncate word) stage after := by
  cases pc with
  | idle => cases performs
  | optimistic call =>
      obtain rfl := stands
      exact optimistic_settles performs
  | tryWrite how cur =>
      apply perform_exchange_settles _ (failed_settles stands.1) performs
      rintro rfl
      exact retWrite_settles stands.1.asking stands.2
  | tryRead how cur =>
      apply perform_exchange_settles _ (tryReadFailed_settles stands.1)
        performs
      rintro rfl
      exact retRead_settles stands.1.asking stands.2
  | slowWrite how cur =>
      apply perform_exchange_settles _ (slowLoop_settles stands.1) performs
      rintro rfl
      exact retWrite_settles stands.1 stands.2
  | slowRead how spinWait cur =>
      have kept : (slowReadFailed how spinWait).Stands stage := stands.1
      apply perform_exchange_settles _ (Next.settles_of_stands kept) performs
      rintro rfl
      exact retRead_settles stands.1 stands.2
  | slowReadLoad how spinWait =>
      obtain ⟨rfl, rfl⟩ := Prod.mk.inj (Option.some.inj performs)
      exact slowReadLoaded_settles stands
  | slowLoad how =>
      obtain ⟨rfl, rfl⟩ := Prod.mk.inj (Option.some.inj performs)
      exact slowLoop_settles stands
  | dropLock lock =>
      obtain rfl := stands
      have found := expected lock List.mem_cons_self
      have initial : lock.initPhase = Phase.fromBitsTruncate word := by
        rw [found, Sync.fromBitsTruncate_or_lockedBit,
          Phase.fromBitsTruncate_bits]
      have unreachable : Next.unreachable.Stands (.droppingLock lock) :=
        trivial
      apply perform_exchange_settles _ (Next.settles_of_stands unreachable)
        performs
      intro _
      refine ⟨_, .inr ?_, rfl⟩
      rw [Phase.fromBitsTruncate_bits]
      exact .dropLock initial
  | convert lock cur =>
      obtain ⟨rfl, rfl⟩ := Prod.mk.inj (Option.some.inj performs)
      obtain rfl := stands
      obtain rfl := relies
      have found := expected lock List.mem_cons_self
      have initial : lock.initPhase = Phase.fromBitsTruncate word := by
        rw [found, Sync.fromBitsTruncate_or_lockedBit,
          Phase.fromBitsTruncate_bits]
      have published :
          Phase.fromBitsTruncate (word ^^^ convertMask lock lock.initPhase) =
            lock.onUnlock := by
        rw [found, State.convert_word,
          Sync.fromBitsTruncate_add_readerUnity, Phase.fromBitsTruncate_bits]
      refine ⟨_, .inr ?_, rfl⟩
      rw [published, ReadLock.new, Phase.fromBitsTruncate_bits]
      exact .convertLock initial
  | dropReadLock lock =>
      obtain ⟨rfl, rfl⟩ := Prod.mk.inj (Option.some.inj performs)
      obtain rfl := stands
      have kept :
          Phase.fromBitsTruncate (word - readerUnity) =
            Phase.fromBitsTruncate word :=
        Sync.phase_sub_units rfl word
      refine ⟨_, .inr ?_, rfl⟩
      rw [kept]
      exact .dropReadLock (shown lock List.mem_cons_self)
  | cloneLoad guard =>
      obtain ⟨rfl, rfl⟩ := Prod.mk.inj (Option.some.inj performs)
      apply Next.settles_of_stands
      unfold cloneLoop
      split
      case isTrue => exact stands
      case isFalse => exact stands
  | cloneCas guard cur =>
      obtain rfl := stands
      have again : (Next.goto (.cloneLoad guard)).Stands (.cloning guard) :=
        rfl
      apply perform_exchange_settles _ (Next.settles_of_stands again) performs
      rintro rfl
      refine ⟨_, .inr ?_, rfl⟩
      rw [Sync.fromBitsTruncate_add_readerUnity]
      exact .clone (shown guard List.mem_cons_self)

/-- The guards of a stage are those that the place of the code owns. -/
theorem Pc.Stands.guards
    {pc : Pc}
    {stage : Stage}
    (stands : pc.Stands stage) :
    stage.locks = pc.ownedLocks ∧ stage.readLocks = pc.ownedReadLocks := by
  have asking {how : Phase → LockNature} (asks : Asking stage how) :
      stage.locks = [] ∧ stage.readLocks = [] := by
    obtain ⟨call, rfl, -⟩ := asks
    exact ⟨rfl, rfl⟩
  cases pc with
  | tryWrite how cur => exact asking stands.1.asking
  | tryRead how cur => exact asking stands.1.asking
  | slowWrite how cur => exact asking stands.1
  | slowRead how spinWait cur => exact asking stands.1
  | slowReadLoad how spinWait => exact asking stands
  | slowLoad how => exact asking stands
  | _ =>
      obtain rfl := stands
      exact ⟨rfl, rfl⟩

/-- A thread and its counterpart at the atomic locker. -/
structure Thread.Stands (thread : Thread) (atomic : Atomic.Thread) : Prop where
  stage : thread.pc.Stands atomic.stage
  locks : atomic.locks = thread.locks
  readLocks : atomic.readLocks = thread.readLocks

theorem Thread.Stands.alive
    {thread : Thread}
    {atomic : Atomic.Thread}
    (stands : thread.Stands atomic) :
    atomic.aliveLocks = thread.aliveLocks ∧
      atomic.aliveReadLocks = thread.aliveReadLocks := by
  obtain ⟨locks, readLocks⟩ := stands.stage.guards
  rw [Atomic.Thread.aliveLocks, Atomic.Thread.aliveReadLocks, locks, readLocks,
    stands.locks, stands.readLocks]
  exact ⟨rfl, rfl⟩

/-- An operation starts at both lockers, and on the same guards. -/
theorem Thread.Stands.start
    {thread started : Thread}
    {atomic : Atomic.Thread}
    {op : UserOp}
    (stands : thread.Stands atomic)
    (starts : thread.start op = some started) :
    ∃ next, atomic.start op = some next ∧ started.Stands next := by
  obtain ⟨stage, locks, readLocks⟩ := stands
  obtain ⟨stage, lockList, readLockList⟩ := atomic
  obtain rfl := locks
  obtain rfl := readLocks
  unfold Thread.start at starts
  split at starts
  case h_2 => cases starts
  case h_1 idle =>
    rw [idle] at stage
    obtain rfl := stage
    cases op with
    | lock closures hint =>
        obtain rfl := Option.some.inj starts
        exact ⟨_, rfl, rfl, rfl, rfl⟩
    | tryLock how hint =>
        obtain rfl := Option.some.inj starts
        exact ⟨_, rfl, rfl, rfl, rfl⟩
    | setPhase index phase =>
        obtain ⟨lock, found, rfl⟩ := Option.map_eq_some_iff.mp starts
        refine ⟨_, Option.map_eq_some_iff.mpr ⟨lock, found, rfl⟩, ?_, rfl, rfl⟩
        rw [idle]
        exact rfl
    | _ =>
        obtain ⟨lock, found, rfl⟩ := Option.map_eq_some_iff.mp starts
        exact ⟨_, Option.map_eq_some_iff.mpr ⟨lock, found, rfl⟩,
          rfl, rfl, rfl⟩

/-- What a caller sees of the end of local code. -/
def Next.label {ι : Type} (actor : ι) : Next → Option (Atomic.Label ι)
  | .ret result => some (.ret actor result)
  | _ => none

namespace State

variable {ι : Type} [DecidableEq ι] [Fintype ι]

omit [Fintype ι] in
/-- What a caller sees of an action. -/
def label
    (state : State ι)
    (action : Action ι) : Option (Atomic.Label ι) :=
  match action with
  | .start actor op => some (.start actor op)
  | .run actor spurious =>
      ((state.thread actor).pc.instr.perform state.word spurious).bind
        fun (_, next) => next.label actor

/-- The steps of the spinning locker as its callers see them. -/
def Visible : State ι → Option (Atomic.Label ι) → State ι → Prop :=
  Observed Step label

/-- A state of the spinning locker and one of the atomic locker. -/
structure Refines (state : State ι) (atomic : Atomic.State ι) : Prop where
  inv : state.Inv
  phase : atomic.phase = state.phase
  threads : ∀ actor, (state.thread actor).Stands (atomic.thread actor)

/-- The invariant of the word makes a lock of the counterpart exclusive. -/
theorem Refines.exclusive
    {state : State ι}
    {atomic : Atomic.State ι}
    (refines : state.Refines atomic) :
    atomic.Exclusive := by
  have one := Sync.lockCount_le_one state.word
  constructor
  · intro actor
    obtain ⟨locks, readLocks⟩ := (refines.threads actor).alive
    have shows := refines.inv.showsOf actor
    have locked := shows.locked
    have alone := shows.alone
    rw [locks, readLocks, Ne, ← List.length_eq_zero_iff,
      ← List.length_eq_zero_iff]
    omega
  · intro actor other different
    obtain ⟨locks, readLocks⟩ := (refines.threads actor).alive
    obtain ⟨otherLocks, otherReadLocks⟩ := (refines.threads other).alive
    have shows := refines.inv.showsOf actor
    have locked := shows.locked
    have alone := shows.alone
    have locksLe := state.locks_le_others different
    have readLocksLe := state.readLocks_le_others different
    rw [locks, otherLocks, otherReadLocks, Ne, ← List.length_eq_zero_iff,
      ← List.length_eq_zero_iff, ← List.length_eq_zero_iff]
    omega

/-- The step of one thread, with the counterpart it has afterwards. -/
theorem Refines.update
    {state : State ι}
    {atomic : Atomic.State ι}
    {actor : ι}
    {word : U32}
    {thread : Thread}
    {counterpart : Atomic.Thread}
    (refines : state.Refines atomic)
    (inv : (state.setThread word actor thread).Inv)
    (stands : thread.Stands counterpart) :
    (state.setThread word actor thread).Refines
      (atomic.setThread (.fromBitsTruncate word) actor counterpart) := by
  refine ⟨inv, rfl, ?_⟩
  intro other
  by_cases same : other = actor
  · rw [same, setThread_self, Atomic.State.setThread_self]
    exact stands
  · rw [setThread_other _ _ same, Atomic.State.setThread_other _ _ same]
    exact refines.threads other

/-- An instruction is answered by a commit, a return or nothing. -/
theorem Refines.instruction
    {state : State ι}
    {atomic : Atomic.State ι}
    {actor : ι}
    {word : U32}
    {next : Next}
    {thread : Thread}
    (refines : state.Refines atomic)
    (inv : (state.setThread word actor thread).Inv)
    (continues : (state.thread actor).continue next = .ok thread)
    (settles :
      next.Settles state.phase (atomic.thread actor).stage word) :
    ∃ final,
      Exec Atomic.State.Step atomic (next.label actor).toList final ∧
        (state.setThread word actor thread).Refines final := by
  obtain ⟨stage, locks, readLocks⟩ := refines.threads actor
  obtain ⟨settled, settles, ends⟩ := settles
  rw [← refines.phase] at settles
  cases next with
  | unreachable => cases continues
  | goto pc =>
      obtain rfl := Except.ok.inj continues
      have stands :
          Thread.Stands { state.thread actor with pc := pc }
            { atomic.thread actor with stage := settled } :=
        ⟨ends, locks, readLocks⟩
      have refined := refines.update inv stands
      rcases settles with ⟨rfl, same⟩ | commits
      · rw [same, Atomic.State.setThread_eq_self] at refined
        exact ⟨atomic, .refl, refined⟩
      · exact ⟨_, .single (.commit commits refined.exclusive), refined⟩
  | ret result =>
      obtain rfl := ends
      obtain rfl := Except.ok.inj continues
      have stands :
          Thread.Stands
            ⟨.idle, result.locks ++ (state.thread actor).locks,
              result.readLocks ++ (state.thread actor).readLocks⟩
            ((atomic.thread actor).finish result) :=
        ⟨rfl, congrArg (result.locks ++ ·) locks,
          congrArg (result.readLocks ++ ·) readLocks⟩
      have refined := refines.update inv stands
      rcases settles with ⟨answered, same⟩ | commits
      · rw [same] at refined
        exact ⟨_, .single (.ret answered.symm), refined⟩
      · exact ⟨_, Atomic.State.exec_commit_ret commits refined.exclusive,
          refined⟩

/-- The atomic locker answers each step of the spinning locker. -/
theorem simulates :
    Simulates Visible Atomic.State.Step
      (Refines : State ι → Atomic.State ι → Prop) := by
  refine ⟨?_⟩
  rintro state after atomic _ refines ⟨action, step, rfl⟩
  have inv := refines.inv.step step
  cases actorStep step with
  | @start actor op thread starts =>
      obtain ⟨next, answers, started⟩ := (refines.threads actor).start starts
      refine ⟨_, .single (.start answers), ?_⟩
      rw [refines.phase]
      exact refines.update inv started
  | @instruction actor spurious word next thread performs continues =>
      have settles :=
        Pc.perform_settles (refines.inv.relies actor)
          (fun lock owned =>
            refines.inv.expected (List.mem_append_left _ owned))
          (fun lock owned =>
            (refines.inv.guards actor).2 lock (List.mem_append_left _ owned))
          (refines.threads actor).stage performs
      obtain ⟨final, answers, refined⟩ :=
        refines.instruction inv continues settles
      have shows :
          state.label (.run actor spurious) = next.label actor := by
        simp [State.label, performs]
      rw [shows]
      exact ⟨final, answers, refined⟩

omit [DecidableEq ι] in
/-- A fresh locker. -/
theorem Refines.init (phase : Phase) :
    (State.init ι phase).Refines (Atomic.State.init ι phase) where
  inv := Inv.init phase
  phase := (Phase.fromBitsTruncate_bits phase).symm
  threads _ := ⟨rfl, rfl, rfl⟩

/--
The spinning locker is linearizable: what its callers see of any interleaving
of its instructions, they may see of the atomic locker, with the phase and the
guards that the word and the threads have in the end.
-/
theorem spinning_linearizable
    {phase : Phase}
    {trace : List (Atomic.Label ι)}
    {state : State ι}
    (exec : Exec Visible (State.init ι phase) trace state) :
    ∃ atomic,
      Exec Atomic.State.Step (Atomic.State.init ι phase) trace atomic ∧
        atomic.phase = state.phase ∧
        ∀ actor,
          (atomic.thread actor).locks = (state.thread actor).locks ∧
            (atomic.thread actor).readLocks =
              (state.thread actor).readLocks := by
  obtain ⟨atomic, answers, refines⟩ :=
    simulates.exec (Refines.init phase) exec
  exact ⟨atomic, answers, refines.phase, fun actor =>
    ⟨(refines.threads actor).locks, (refines.threads actor).readLocks⟩⟩

/-- A conversion while another thread tries to write. -/
theorem spinning_linearizable_converting :
    ∃ atomic,
      Exec Atomic.State.Step (Atomic.State.init (Fin 2) .empty)
        [.start 0 (.lock ⟨fun _ => .write, fun _ => .write⟩ .empty),
          .ret 0 (.locked (some (.write ⟨.empty, .empty⟩))),
          .start 0 (.setPhase 0 .initialized),
          .start 1 (.tryLock (fun _ => .write) .empty),
          .start 0 (.convert 0),
          .ret 0 (.converted ⟨.initialized⟩),
          .ret 1 (.locked none)]
        atomic := by
  obtain ⟨final, performed⟩ :
      ∃ final,
        runTrace advance label (State.init (Fin 2) .empty)
            [.start 0 (.lock ⟨fun _ => .write, fun _ => .write⟩ .empty),
              .run 0 false,
              .start 0 (.setPhase 0 .initialized),
              .start 1 (.tryLock (fun _ => .write) .empty),
              .start 0 (.convert 0),
              .run 0 false,
              .run 1 false] =
          some (_, final) :=
    ⟨_, rfl⟩
  obtain ⟨atomic, answers, -⟩ :=
    spinning_linearizable (.of_runTrace step_of_advance performed)
  exact ⟨atomic, answers⟩

end State

end StaticInit.Spinning
