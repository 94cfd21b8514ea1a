import StaticInit.PhaseLocker.Spinning.Solo
import StaticInit.PhaseLocker.Sync.Solo
import StaticInit.PhaseLocker.UnSync

namespace StaticInit

/-!
# The three lockers agree

For one thread, the locker of a single thread does what the specification says
as well.  So the three lockers have the same traces: the same outcomes, words
and phases after every operation, whatever the hints are and however often a
weak exchange fails for no reason.
-/

open Sync (Lock ReadLock readerCount lockCount)
open LockWord (view)

/-- The operation of the locker of a single thread; it takes no hint. -/
def SoloOp.unSync : SoloOp → UnSync.Op
  | .tryLock how _ => .tryLock how
  | .dropLock index => .dropWrite index
  | .dropReadLock _ => .dropRead
  | .clone _ => .clone
  | .convert index => .convert index
  | .setPhase index phase => .setPhase index phase

namespace UnSync

def lockOutcome : Option (LockResult Unit WriteGuard) → SoloOutcome
  | none => .refused
  | some (.read ()) => .read
  | some (.write _) => .write
  | some (.none phase) => .none phase

namespace State

/-- The read guard that an operation uses exists. -/
def HasReadGuard (state : State) : SoloOp → Prop
  | .dropReadLock index => index < state.readGuards
  | .clone index => index < state.readGuards
  | _ => True

/-- What an operation tells its caller. -/
def answer (state : State) (op : SoloOp) : SoloOutcome :=
  match state.exec op.unSync with
  | some (.error _) => .panicked
  | _ =>
      match op with
      | .tryLock how _ =>
          match UnSync.tryLock state.cell how with
          | .ok (_, result) => lockOutcome result
          | .error _ => .panicked
      | _ => .done

/-- One operation while few read guards are alive. -/
def Performs
    (state : State)
    (op : SoloOp)
    (outcome : SoloOutcome)
    (after : State) : Prop :=
  state.readGuards < 2 ^ 20 - 1 ∧ state.HasReadGuard op ∧
    state.Step op.unSync after ∧ state.answer op = outcome

def observe (outcome : SoloOutcome) (state : State) : Observation where
  outcome := outcome
  word := state.cell
  phase := UnSync.phase state.cell
  writePhases := state.writeGuards.map WriteGuard.phase
  readPhases := List.replicate state.readGuards (UnSync.phase state.cell)

/-- The locker of a single thread with the word and the guards of a `Solo`. -/
def ofSolo (solo : Solo) : State where
  cell := solo.word
  writeGuards := solo.locks.map fun lock => ⟨lock.onUnlock⟩
  readGuards := solo.readLocks.length

theorem observe_ofSolo
    {solo : Solo}
    (sound : solo.Sound)
    (outcome : SoloOutcome) :
    observe outcome (ofSolo solo) = Solo.observe outcome solo := by
  have readPhases :
      solo.readLocks.map ReadLock.initPhase =
        List.replicate solo.readLocks.length (view solo.word).phase := by
    rw [List.eq_replicate_iff, List.length_map]
    refine ⟨rfl, ?_⟩
    intro phase member
    obtain ⟨guard, held, rfl⟩ := List.mem_map.mp member
    exact sound.guards.2 guard held
  rw [observe, Solo.observe, readPhases]
  simp only [ofSolo, List.map_map]
  rfl

section Operations

variable {solo next : Solo} {op : SoloOp} {outcome : SoloOutcome}

theorem locked_iff (cell : U32) :
    cell &&& lockedBit = 0 ↔ lockCount cell = 0 :=
  unlocked_iff.trans (Sync.lockCount_eq_zero_iff cell).symm

/-- The write arm of `try_lock` tests what the specification says. -/
theorem taken_iff
    (sound : solo.Sound)
    (few : solo.Few) :
    (solo.word &&& (lockedBit ||| readerBits) != 0) = true ↔
      ¬ (lockCount solo.word = 0 ∧ readerCount solo.word = 0) := by
  have counted := sound.shows.readers
  rw [Solo.Few] at few
  have small : readerCount solo.word % 2 ^ 20 = readerCount solo.word :=
    Nat.mod_eq_of_lt (by omega)
  rw [bne_iff_ne, Ne, writable_iff, small, Sync.lockCount_eq_zero_iff]

/-- The read arm of `try_lock` tests what the specification says. -/
theorem unreadable_iff
    (sound : solo.Sound)
    (few : solo.Few) :
    (solo.word &&& lockedBit != 0 ||
        solo.word &&& readerBits == readerBits) = true ↔
      lockCount solo.word ≠ 0 := by
  have counted := sound.shows.readers
  rw [Solo.Few] at few
  have room : ¬ solo.word &&& readerBits = readerBits := by
    rw [saturated_iff]
    omega
  rw [Bool.or_eq_true, bne_iff_ne, beq_iff_eq, Ne, locked_iff]
  exact ⟨fun either => either.resolve_right room, .inl⟩

/-- A converted guard is the first reader. -/
theorem bits_or_readerUnity (phase : Phase) :
    phase.bits ||| readerUnity = phase.bits + readerUnity := by
  have room : readerCount phase.bits < 2 ^ 20 := by
    simp [readerCount]
  rw [← LockWord.view_inj, view_addReader room]
  simp

/-- There is room for one more reader. -/
theorem addReader_solo
    (sound : solo.Sound)
    (few : solo.Few) :
    addReader solo.word = .ok (solo.word + readerUnity) := by
  have counted := sound.shows.readers
  rw [Solo.Few] at few
  exact addReader_ok (by omega)

/-- `try_lock` gives what the specification says. -/
theorem tryLock_ofSolo
    (sound : solo.Sound)
    (few : solo.Few)
    (how : Phase → LockNature) :
    ∃ cell result,
      UnSync.tryLock solo.word how = .ok (cell, result) ∧
        lockOutcome result = (solo.tryLock how).1 ∧
        (match result with
          | some result => (ofSolo solo).receive cell result
          | none => { ofSolo solo with cell := cell }) =
          ofSolo (solo.tryLock how).2 := by
  have taken := taken_iff sound few
  have unreadable := unreadable_iff sound few
  unfold UnSync.tryLock Solo.tryLock
  rw [UnSync.phase]
  cases how (.fromBitsTruncate solo.word) with
  | write =>
      dsimp only
      split
      case isTrue held =>
        rw [if_neg (taken.mp held)]
        exact ⟨_, _, rfl, rfl, rfl⟩
      case isFalse free =>
        rw [taken, not_not] at free
        rw [if_pos free]
        refine ⟨_, _, rfl, rfl, ?_⟩
        rw [WriteGuard.new, Sync.fromBitsTruncate_or_lockedBit]
        rfl
  | read =>
      dsimp only
      split
      case isTrue locked =>
        rw [if_neg (unreadable.mp locked)]
        exact ⟨_, _, rfl, rfl, rfl⟩
      case isFalse unlocked =>
        rw [unreadable, not_not] at unlocked
        rw [if_pos unlocked, addReader_solo sound few]
        exact ⟨_, _, rfl, rfl, rfl⟩
  | none =>
      dsimp only
      exact ⟨_, _, rfl, rfl, rfl⟩

/-- An operation on a guard that exists ends without a value. -/
theorem answer_done
    {state after : State}
    (executes : state.exec op.unSync = some (.ok after))
    (guards : ∀ how hint, op ≠ .tryLock how hint) :
    state.answer op = .done := by
  unfold answer
  rw [executes]
  cases op with
  | tryLock how hint => exact absurd rfl (guards how hint)
  | _ => rfl

/-- An operation that the specification performs. -/
theorem exec_ofSolo
    (sound : solo.Sound)
    (few : solo.Few)
    (performs : solo.perform op = some (outcome, next)) :
    (ofSolo solo).HasReadGuard op ∧
      (ofSolo solo).exec op.unSync = some (.ok (ofSolo next)) ∧
      (ofSolo solo).answer op = outcome := by
  have writeGuard (index : Nat) :
      (ofSolo solo).writeGuards[index]? =
        solo.locks[index]?.map fun lock => ⟨lock.onUnlock⟩ :=
    List.getElem?_map
  cases op with
  | tryLock how hint =>
      obtain ⟨rfl, rfl⟩ := Prod.mk.inj (Option.some.inj performs)
      obtain ⟨cell, result, locks, same, received⟩ :=
        tryLock_ofSolo sound few how
      have executes :
          (ofSolo solo).exec (.tryLock how) =
            some (.ok (ofSolo (solo.tryLock how).2)) := by
        change some ((UnSync.tryLock solo.word how).map _) = _
        rw [locks, ← received]
        rfl
      refine ⟨trivial, executes, ?_⟩
      rw [answer, SoloOp.unSync, executes]
      change (match UnSync.tryLock solo.word how with
        | .ok (_, result) => lockOutcome result
        | .error _ => .panicked) = _
      rw [locks]
      exact same
  | dropLock index =>
      obtain ⟨lock, found, same⟩ := Option.map_eq_some_iff.mp performs
      obtain ⟨rfl, rfl⟩ := Prod.mk.inj same
      have executes :
          (ofSolo solo).exec (.dropWrite index) =
            some
              (.ok
                (ofSolo
                  { solo with
                    word := lock.onUnlock.bits
                    locks := solo.locks.eraseIdx index })) := by
        rw [State.exec, writeGuard, found, ofSolo, ofSolo, List.eraseIdx_map]
        rfl
      exact ⟨trivial, executes, answer_done executes (by rintro how hint ⟨⟩)⟩
  | dropReadLock index =>
      obtain ⟨guard, found, same⟩ := Option.map_eq_some_iff.mp performs
      obtain ⟨rfl, rfl⟩ := Prod.mk.inj same
      obtain ⟨inside, -⟩ := List.getElem?_eq_some_iff.mp found
      have executes :
          (ofSolo solo).exec .dropRead =
            some
              (.ok
                (ofSolo
                  { solo with
                    word := solo.word - readerUnity
                    readLocks := solo.readLocks.eraseIdx index })) := by
        have some_ : 0 < (ofSolo solo).readGuards := Nat.zero_lt_of_lt inside
        rw [State.exec, if_pos some_, ofSolo, ofSolo,
          List.length_eraseIdx_of_lt inside]
        rfl
      exact ⟨inside, executes, answer_done executes (by rintro how hint ⟨⟩)⟩
  | clone index =>
      obtain ⟨guard, found, same⟩ := Option.map_eq_some_iff.mp performs
      obtain ⟨rfl, rfl⟩ := Prod.mk.inj same
      obtain ⟨inside, -⟩ := List.getElem?_eq_some_iff.mp found
      have executes :
          (ofSolo solo).exec .clone =
            some
              (.ok
                (ofSolo
                  { solo with
                    word := solo.word + readerUnity
                    readLocks :=
                      guard :: guard :: solo.readLocks.eraseIdx index })) := by
        have some_ : 0 < (ofSolo solo).readGuards := Nat.zero_lt_of_lt inside
        have length :
            (guard :: guard :: solo.readLocks.eraseIdx index).length =
              solo.readLocks.length + 1 := by
          rw [List.length_cons, List.length_cons,
            List.length_eraseIdx_of_lt inside]
          omega
        have added :
            UnSync.clone (ofSolo solo).cell =
              .ok (solo.word + readerUnity) :=
          addReader_solo sound few
        rw [State.exec, if_pos some_, added, ofSolo, ofSolo, length]
        rfl
      exact ⟨inside, executes, answer_done executes (by rintro how hint ⟨⟩)⟩
  | convert index =>
      obtain ⟨lock, found, same⟩ := Option.map_eq_some_iff.mp performs
      obtain ⟨rfl, rfl⟩ := Prod.mk.inj same
      have executes :
          (ofSolo solo).exec (.convert index) =
            some
              (.ok
                (ofSolo
                  { word := lock.onUnlock.bits + readerUnity
                    locks := solo.locks.eraseIdx index
                    readLocks := ⟨lock.onUnlock⟩ :: solo.readLocks })) := by
        rw [State.exec, writeGuard, found, ofSolo, ofSolo, List.eraseIdx_map,
          List.length_cons, ← bits_or_readerUnity]
        rfl
      exact ⟨trivial, executes, answer_done executes (by rintro how hint ⟨⟩)⟩
  | setPhase index phase =>
      obtain ⟨lock, found, same⟩ := Option.map_eq_some_iff.mp performs
      obtain ⟨rfl, rfl⟩ := Prod.mk.inj same
      have executes :
          (ofSolo solo).exec (.setPhase index phase) =
            some
              (.ok
                (ofSolo
                  { solo with
                    locks :=
                      solo.locks.set index
                        { lock with onUnlock := phase } })) := by
        rw [State.exec, writeGuard, found, ofSolo, ofSolo, List.map_set]
        rfl
      exact ⟨trivial, executes, answer_done executes (by rintro how hint ⟨⟩)⟩

/-- An operation that the specification does not perform. -/
theorem not_exec_ofSolo
    (refuses : solo.perform op = none)
    (reads : (ofSolo solo).HasReadGuard op) :
    (ofSolo solo).exec op.unSync = none := by
  have writeGuard {index : Nat} (missing : solo.locks[index]? = none) :
      (ofSolo solo).writeGuards[index]? = none := by
    rw [ofSolo, List.getElem?_map, missing]
    rfl
  have readGuard {index : Nat} (inside : index < solo.readLocks.length) :
      solo.readLocks[index]? ≠ none := by
    rw [List.getElem?_eq_getElem inside]
    exact Option.some_ne_none _
  cases op with
  | tryLock how hint => cases refuses
  | dropLock index =>
      have missing := writeGuard (Option.map_eq_none_iff.mp refuses)
      exact congrArg (Option.map _) missing
  | dropReadLock index =>
      exact absurd (Option.map_eq_none_iff.mp refuses) (readGuard reads)
  | clone index =>
      exact absurd (Option.map_eq_none_iff.mp refuses) (readGuard reads)
  | convert index =>
      have missing := writeGuard (Option.map_eq_none_iff.mp refuses)
      exact congrArg (Option.map _) missing
  | setPhase index phase =>
      have missing := writeGuard (Option.map_eq_none_iff.mp refuses)
      exact congrArg (Option.map _) missing

/-- The locker of a single thread does what the specification says. -/
theorem performs_ofSolo_iff
    {after : State}
    (sound : solo.Sound) :
    (ofSolo solo).Performs op outcome after ↔
      ∃ next, solo.Performs op outcome next ∧ after = ofSolo next := by
  constructor
  · rintro ⟨few, reads, step, rfl⟩
    cases performs : solo.perform op with
    | none =>
        have executes := not_exec_ofSolo performs reads
        rcases step with performed | ⟨panic, failed, -⟩
        · cases executes.symm.trans performed
        · cases executes.symm.trans failed
    | some answered =>
        obtain ⟨outcome, next⟩ := answered
        obtain ⟨-, executes, same⟩ := exec_ofSolo sound few performs
        rcases step with performed | ⟨panic, failed, -⟩
        · obtain rfl := Except.ok.inj
            (Option.some.inj (performed.symm.trans executes))
          exact ⟨next, ⟨few, same ▸ performs⟩, rfl⟩
        · cases executes.symm.trans failed
  · rintro ⟨next, ⟨few, performs⟩, rfl⟩
    obtain ⟨reads, executes, same⟩ := exec_ofSolo sound few performs
    exact ⟨few, reads, .inl executes, same⟩

end Operations

end State

/-- The locker of a single thread has the traces of the specification. -/
theorem traced_iff
    {solo : Solo}
    (sound : solo.Sound)
    (ops : List SoloOp)
    (trace : List Observation) :
    Traced State.Performs State.observe (.ofSolo solo) ops trace ↔
      Traced Solo.Performs Solo.observe solo ops trace := by
  constructor
  · apply Traced.answered
      (fun state solo => solo.Sound ∧ state = State.ofSolo solo) _
      ⟨sound, rfl⟩
    rintro state after solo op outcome ⟨sound, rfl⟩ performs
    obtain ⟨next, answers, rfl⟩ :=
      (State.performs_ofSolo_iff sound).mp performs
    have soundNext := sound.perform answers.1 answers.2
    exact ⟨next, answers, ⟨soundNext, rfl⟩,
      (State.observe_ofSolo soundNext outcome).symm⟩
  · apply Traced.answered
      (fun solo state => solo.Sound ∧ state = State.ofSolo solo) _
      ⟨sound, rfl⟩
    rintro solo next state op outcome ⟨sound, rfl⟩ answers
    have soundNext := sound.perform answers.1 answers.2
    exact ⟨.ofSolo next,
      (State.performs_ofSolo_iff sound).mpr ⟨next, answers, rfl⟩,
      ⟨soundNext, rfl⟩, State.observe_ofSolo soundNext outcome⟩

end UnSync

/-- The specification does not look at a hint. -/
theorem Solo.Performs.sameButHint
    {solo after : Solo}
    {op other : SoloOp}
    {outcome : SoloOutcome}
    (same : op.SameButHint other)
    (performs : solo.Performs op outcome after) :
    solo.Performs other outcome after := by
  cases same with
  | tryLock how hint other => exact performs
  | same => exact performs

theorem Solo.traced_ignores
    {solo : Solo}
    {ops hinted : List SoloOp}
    {trace : List Observation}
    (same : List.Forall₂ SoloOp.SameButHint ops hinted)
    (traced : Traced Solo.Performs Solo.observe solo ops trace) :
    Traced Solo.Performs Solo.observe solo hinted trace := by
  refine traced.ignores ?_ same
  exact Solo.Performs.sameButHint

/-- An operation of the specification has one outcome. -/
theorem Solo.Performs.unique
    {solo first second : Solo}
    {op : SoloOp}
    {one other : SoloOutcome}
    (performs : solo.Performs op one first)
    (again : solo.Performs op other second) :
    one = other ∧ first = second :=
  Prod.mk.inj (Option.some.inj (performs.2.symm.trans again.2))

/--
The three lockers agree: the futex locker and the spinning locker have the
traces of the locker of a single thread, whatever hints they are given, and
there is at most one trace.
-/
theorem lockers_agree
    (backend : Sync.Backend)
    (phase : Phase)
    {ops hinted : List SoloOp}
    (same : List.Forall₂ SoloOp.SameButHint ops hinted)
    (trace : List Observation) :
    (Traced (Sync.soloSystem backend).Performs
          (Sync.soloSystem backend).observe
          (Sync.State.init Unit phase) hinted trace ↔
        Traced UnSync.State.Performs UnSync.State.observe
          (.new phase) ops trace) ∧
      (Traced Spinning.soloSystem.Performs Spinning.soloSystem.observe
          (Spinning.State.init Unit phase) hinted trace ↔
        Traced UnSync.State.Performs UnSync.State.observe
          (.new phase) ops trace) ∧
      ∀ another,
        Traced UnSync.State.Performs UnSync.State.observe
            (.new phase) ops trace →
          Traced UnSync.State.Performs UnSync.State.observe
              (.new phase) ops another →
            another = trace := by
  have sound : (Solo.new phase).Sound := .new phase
  have back : List.Forall₂ SoloOp.SameButHint hinted ops :=
    same.flip.imp fun _ _ => SoloOp.SameButHint.symm
  have hints :
      Traced Solo.Performs Solo.observe (.new phase) hinted trace ↔
        Traced Solo.Performs Solo.observe (.new phase) ops trace :=
    ⟨Solo.traced_ignores back, Solo.traced_ignores same⟩
  have futex :
      (Sync.soloSystem backend).Holds (.new phase)
        (Sync.State.init Unit phase) :=
    ⟨rfl, rfl, rfl, rfl⟩
  have spinning :
      Spinning.soloSystem.Holds (.new phase)
        (Spinning.State.init Unit phase) :=
    ⟨rfl, rfl, rfl, rfl⟩
  have futexRefines :=
    (Sync.soloSystem_runs backend).refines (Sync.soloCode_meets backend)
  have spinningRefines :=
    Spinning.soloSystem_runs.refines Spinning.soloCode_meets
  have unSync (trace : List Observation) :=
    UnSync.traced_iff sound ops trace
  refine ⟨?_, ?_, ?_⟩
  · exact (futexRefines.traced_iff sound futex hinted trace).trans
      (hints.trans (unSync trace).symm)
  · exact (spinningRefines.traced_iff sound spinning hinted trace).trans
      (hints.trans (unSync trace).symm)
  · intro another first second
    refine Traced.unique ?_ ((unSync another).mp second)
      ((unSync trace).mp first)
    exact Solo.Performs.unique

/--
A write lock taken on a wrong hint, a refused read lock, a new phase, and a
conversion: the futex locker shows what the locker of a single thread shows.
-/
theorem lockers_agree_converting :
    Traced (Sync.soloSystem .linux).Performs (Sync.soloSystem .linux).observe
      (Sync.State.init Unit .empty)
      [.tryLock (fun _ => .write) .initialized,
        .tryLock (fun _ => .read) .empty,
        .setPhase 0 .initialized, .convert 0, .clone 0, .dropReadLock 1]
      [⟨.write, 0x20000000, .empty, [.empty], []⟩,
        ⟨.refused, 0x20000000, .empty, [.empty], []⟩,
        ⟨.done, 0x20000000, .empty, [.initialized], []⟩,
        ⟨.done, 0x101, .initialized, [], [.initialized]⟩,
        ⟨.done, 0x201, .initialized, [], [.initialized, .initialized]⟩,
        ⟨.done, 0x101, .initialized, [], [.initialized]⟩] := by
  have same :
      List.Forall₂ SoloOp.SameButHint
        [.tryLock (fun _ => .write) .empty,
          .tryLock (fun _ => .read) .empty,
          .setPhase 0 .initialized, .convert 0, .clone 0, .dropReadLock 1]
        [.tryLock (fun _ => .write) .initialized,
          .tryLock (fun _ => .read) .empty,
          .setPhase 0 .initialized, .convert 0, .clone 0, .dropReadLock 1] :=
    .cons (.tryLock _ _ _) (List.forall₂_same.mpr fun op _ => .same op)
  refine (lockers_agree .linux .empty same _).1.mpr ?_
  refine .cons_of_eq ⟨by decide, trivial, .inl rfl, rfl⟩ ?_ ?_
  · rfl
  refine .cons_of_eq ⟨by decide, trivial, .inl rfl, rfl⟩ ?_ ?_
  · rfl
  refine .cons_of_eq ⟨by decide, trivial, .inl rfl, rfl⟩ ?_ ?_
  · rfl
  refine .cons_of_eq ⟨by decide, trivial, .inl rfl, rfl⟩ ?_ ?_
  · rfl
  refine .cons_of_eq ⟨by decide, Nat.zero_lt_one, .inl rfl, rfl⟩ ?_ ?_
  · rfl
  refine .cons_of_eq ⟨by decide, Nat.one_lt_two, .inl rfl, rfl⟩ ?_ ?_
  · rfl
  exact .nil

end StaticInit
