import StaticInit.PhaseLocker.SoloCode
import StaticInit.PhaseLocker.Sync.Endings

namespace StaticInit.Sync

/-!
# The futex locker of one thread

Alone, a thread never sees a waiter bit, so it neither parks nor wakes: the
operations that never wait go through a few fetches and exchanges of the word,
and each of their ends is the one of the specification.
-/

open LockWord (view)

/-- A fetch or an exchange of the word: the word after it and the local code. -/
def Instr.perform (word : U32) (spurious : Bool) : Instr → Option (U32 × Next)
  | .fetch update next => some (update word, next word)
  | .exchange weak cur new ok err =>
      some <|
        if word = cur ∧ (weak && spurious) = false then
          (new, ok)
        else
          (word, err word)
  | _ => none

/-- The end of the local code, for one thread alone. -/
def Next.soloEnd : Next → SoloEnd Pc
  | .goto pc => .goto pc
  | .ret result => .ret result
  | .panic _ => .panic

/-- What an instruction that ends an operation tells the caller. -/
def State.finished
    (backend : Backend)
    (state : State Unit)
    (action : Action Unit) : Option SoloOutcome :=
  (state.ending backend action).bind fun next => next.soloEnd.outcome

/-- The futex locker, used by one thread. -/
def soloSystem (backend : Backend) :
    SoloSystem (State Unit) (Action Unit) Assertion where
  exec := State.exec backend
  start := .start ()
  isStart := fun
    | .start _ _ => true
    | _ => false
  returned := State.finished backend
  idle := fun state => (state.thread ()).pc = .idle
  word := State.word
  locks := fun state => (state.thread ()).locks
  readLocks := fun state => (state.thread ()).readLocks

/-- A bound on the instructions left if no exchange fails for no reason. -/
def Pc.rank : Pc → Nat
  | .optimistic _ => 1
  | .cloneLoad _ _ => 1
  | .cloneReadLoad _ _ => 1
  | _ => 0

/-- The code of the futex locker, for one thread alone. -/
def soloCode (backend : Backend) : SoloCode Pc where
  idle := .idle
  tryLock := fun how hint => .optimistic (.tryLock how hint)
  dropLock := fun lock => .dropLockCas lock .done
  dropReadLock := fun guard => .dropReadSub guard .done
  clone := fun guard => .cloneLoad guard .new
  convert := fun lock => .convertXor lock lock.initPhase .guard
  perform := fun pc word spurious =>
    ((pc.instr backend).perform word spurious).map (Prod.map id Next.soloEnd)
  rank := Pc.rank

/-- A word without waiters that has room for one more reader. -/
structure Quiet (word : U32) : Prop where
  noWaiters : hasNoWaiters word = true
  room : hasReadersMax word = false
  alone : lockCount word = 0 ∨ readerCount word = 0

namespace Quiet

variable {word : U32}

theorem of_sound
    {solo : Solo}
    (sound : solo.Sound)
    (few : solo.Few) :
    Quiet solo.word := by
  have shows := sound.shows
  constructor
  · exact (hasNoWaiters_iff _).mpr shows.noWaiters
  · rw [← Bool.not_eq_true, hasReadersMax_iff, shows.readers]
    rw [Solo.Few] at few
    omega
  · rw [shows.locked, shows.readers]
    exact shows.alone

theorem isReadLockable_iff_unlocked (quiet : Quiet word) :
    isReadLockable word = true ↔ lockCount word = 0 := by
  have noWaiters := (hasNoWaiters_iff word).mp quiet.noWaiters
  have room := quiet.room
  rw [← Bool.not_eq_true, hasReadersMax_iff] at room
  rw [isReadLockable_iff, lockCount_eq_zero_iff]
  constructor
  · rintro ⟨readers | ⟨-, unlocked⟩, -⟩
    · exact (lockCount_eq_zero_iff word).mp
        (quiet.alone.resolve_right readers)
    · exact unlocked
  · exact fun unlocked => ⟨.inr ⟨noWaiters, unlocked⟩, room⟩

theorem isWriteLockable_iff_free (quiet : Quiet word) :
    (isWriteLockable word && hasNoReaders word) = true ↔
      lockCount word = 0 ∧ readerCount word = 0 := by
  have noWaiters := (hasNoWaiters_iff word).mp quiet.noWaiters
  rw [Bool.and_eq_true, isWriteLockable_iff, hasNoReaders_iff,
    lockCount_eq_zero_iff]
  constructor
  · rintro ⟨⟨unlocked, -⟩, noReaders⟩
    exact ⟨unlocked, noReaders⟩
  · rintro ⟨unlocked, noReaders⟩
    exact ⟨⟨unlocked, .inr noWaiters⟩, noReaders⟩

end Quiet

section TryLock

variable {backend : Backend} {solo : Solo} {how : Phase → LockNature}
  {hint : Phase} {nearer : Nat → Prop}

/-- Where `try_raw_lock` is, with the word on which it decided. -/
def TryPlace (word : U32) (how : Phase → LockNature) : Pc → Prop
  | .optimistic call => ∃ hint, call = .tryLock how hint
  | .secondWrite call cur =>
      (∃ hint, call = .tryLock how hint) ∧ cur = word ∧
        how (.fromBitsTruncate word) = .write ∧ lockCount word = 0 ∧
          readerCount word = 0
  | .secondRead call cur =>
      (∃ hint, call = .tryLock how hint) ∧ cur = word ∧
        how (.fromBitsTruncate word) = .read ∧ lockCount word = 0
  | _ => False

/-- Local code of `try_raw_lock` that does not change the word. -/
def TryEnds
    (backend : Backend)
    (solo : Solo)
    (how : Phase → LockNature)
    (nearer : Nat → Prop)
    (next : Next) : Prop :=
  (soloCode backend).EndStays (TryPlace solo.word how) solo
    (solo.tryLock how = ·) nearer solo.word next.soloEnd

theorem second_ends
    (quiet : Quiet solo.word)
    (near : nearer 0) :
    TryEnds backend solo how nearer
      ((Call.tryLock how hint).second solo.word) := by
  unfold Call.second
  split
  case h_1 write =>
    split
    case isTrue lockable =>
      have free := quiet.isWriteLockable_iff_free.mp lockable
      exact ⟨rfl, ⟨⟨hint, rfl⟩, rfl, write, free⟩, near⟩
    case isFalse taken =>
      rw [quiet.isWriteLockable_iff_free] at taken
      exact SoloCode.endStays_noWrite write taken
  case h_2 read =>
    split
    case isTrue lockable =>
      have unlocked := quiet.isReadLockable_iff_unlocked.mp lockable
      exact ⟨rfl, ⟨⟨hint, rfl⟩, rfl, read, unlocked⟩, near⟩
    case isFalse locked =>
      rw [quiet.isReadLockable_iff_unlocked] at locked
      exact SoloCode.endStays_noRead read locked
  case h_3 none => exact SoloCode.endStays_none none

theorem secondReadFailed_ends
    (quiet : Quiet solo.word)
    (near : nearer 0)
    (read : how (.fromBitsTruncate solo.word) = .read)
    (unlocked : lockCount solo.word = 0) :
    TryEnds backend solo how nearer
      ((Call.tryLock how hint).secondReadFailed solo.word) := by
  have lockable := quiet.isReadLockable_iff_unlocked.mpr unlocked
  rw [Call.secondReadFailed]
  rw [if_pos ⟨read, lockable⟩]
  exact ⟨rfl, ⟨⟨hint, rfl⟩, rfl, read, unlocked⟩, near⟩

theorem optimisticNone_ends
    (quiet : Quiet solo.word)
    (near : nearer 0) :
    TryEnds backend solo how nearer
      ((Call.tryLock how hint).optimisticNone solo.word) := by
  unfold Call.optimisticNone
  split
  case isTrue none => exact SoloCode.endStays_none none
  case isFalse => exact second_ends quiet near

/-- Either end of an exchange. -/
theorem perform_exchange_solo
    {word : U32}
    {weak spurious : Bool}
    {cur new : U32}
    {ok : Next}
    {err : U32 → Next} :
    ((Instr.exchange weak cur new ok err).perform word spurious).map
        (Prod.map id Next.soloEnd) =
      some
        (if word = cur ∧ (weak && spurious) = false then
          (new, ok.soloEnd)
        else
          (word, (err word).soloEnd)) := by
  rw [Instr.perform, Option.map_some, apply_ite (Prod.map id Next.soloEnd)]
  rfl

/-- The attempt on the hint. -/
theorem optimistic_stays
    {spurious : Bool}
    (quiet : Quiet solo.word)
    (near : nearer 0) :
    (soloCode backend).InstrStays (TryPlace solo.word how) solo
      (solo.tryLock how = ·) nearer
      (((Call.tryLock how hint).optimistic.perform solo.word spurious).map
        (Prod.map id Next.soloEnd)) := by
  have shown (taken : solo.word = hint.bits) :
      Phase.fromBitsTruncate solo.word = hint := by
    rw [taken, Phase.fromBitsTruncate_bits]
  have free (taken : solo.word = hint.bits) :=
    (Spinning.isWriteLockable_iff solo.word).mp
      (taken ▸ (Spinning.lockable_hint hint).1)
  unfold Call.optimistic
  split
  case h_1 => exact ⟨_, _, rfl, optimisticNone_ends quiet near⟩
  case h_2 write =>
    rw [perform_exchange_solo]
    apply SoloCode.instrStays_exchange
    · intro (taken : solo.word = hint.bits)
      change how hint = .write at write
      rw [← shown taken] at write
      change (soloCode backend).EndStays _ _ _ _ (hint.bits ||| lockedBit)
        (.ret (.locked (some (.write (.new hint.bits)))))
      rw [← taken]
      exact SoloCode.endStays_write write (free taken)
    · exact fun _ => second_ends quiet near
  case h_3 read =>
    rw [perform_exchange_solo]
    apply SoloCode.instrStays_exchange
    · intro (taken : solo.word = hint.bits)
      change how hint = .read at read
      rw [← shown taken] at read
      change (soloCode backend).EndStays _ _ _ _ (hint.bits + readerUnity)
        (.ret (.locked (some (.read (.new hint.bits)))))
      rw [← taken]
      exact SoloCode.endStays_read read (free taken).1
    · exact fun _ => second_ends quiet near

theorem stays_tryLock (quiet : Quiet solo.word) :
    (soloCode backend).Stays (TryPlace solo.word how) solo
      (solo.tryLock how = ·) := by
  intro pc spurious inside
  cases pc with
  | optimistic call =>
      obtain ⟨hint, rfl⟩ := inside
      exact optimistic_stays quiet fun _ => Nat.zero_lt_one
  | secondWrite call cur =>
      obtain ⟨⟨hint, rfl⟩, rfl, write, free⟩ := inside
      dsimp only [soloCode, Pc.instr, Call.secondWrite]
      rw [perform_exchange_solo]
      apply SoloCode.instrStays_exchange
      · exact fun _ => SoloCode.endStays_write write free
      · exact fun kept => absurd ⟨rfl, rfl⟩ kept
  | secondRead call cur =>
      obtain ⟨⟨hint, rfl⟩, rfl, read, unlocked⟩ := inside
      dsimp only [soloCode, Pc.instr]
      rw [perform_exchange_solo]
      apply SoloCode.instrStays_exchange
      · exact fun _ => SoloCode.endStays_read read unlocked
      · intro kept
        apply secondReadFailed_ends quiet _ read unlocked
        intro honest
        exact absurd ⟨rfl, honest⟩ kept
  | _ => exact inside.elim

end TryLock

section Guards

variable {backend : Backend} {solo : Solo} {index : Nat}

theorem stays_dropLock
    {lock : Lock}
    (sound : solo.Sound)
    (found : solo.locks[index]? = some lock) :
    (soloCode backend).Stays (· = .dropLockCas lock .done)
      (solo.withoutLock index) (solo.perform (.dropLock index) = some ·) := by
  rintro pc spurious rfl
  refine ⟨lock.onUnlock.bits, .ret .dropped, ?_, ?_⟩
  · exact congrArg (Option.map _ <| some ·)
      (if_pos ⟨sound.word_eq found, rfl⟩)
  · exact congrArg (Option.map _) found

theorem stays_convert
    {lock : Lock}
    (sound : solo.Sound)
    (found : solo.locks[index]? = some lock) :
    (soloCode backend).Stays (· = .convertXor lock lock.initPhase .guard)
      (solo.withoutLock index) (solo.perform (.convert index) = some ·) := by
  rintro pc spurious rfl
  refine ⟨_, _, rfl, ?_⟩
  have noWaiter : (solo.word &&& readWaiterBit != 0) = false := by
    rw [← Bool.not_eq_true, readWaiterBit_ne_iff, Bool.not_eq_true]
    exact sound.shows.noWaiters.1
  dsimp only [Solo.withoutLock, id]
  rw [Lock.converted, noWaiter]
  change solo.perform (.convert index) =
    some (_, Solo.returned _ (solo.word ^^^ Spinning.convertMask _ _) _)
  rw [sound.word_eq found, Spinning.State.convert_word, ReadLock.new,
    Phase.fromBitsTruncate_bits]
  exact congrArg (Option.map _) found

theorem stays_dropReadLock
    {guard : ReadLock}
    (sound : solo.Sound)
    (found : solo.readLocks[index]? = some guard) :
    (soloCode backend).Stays (· = .dropReadSub guard .done)
      (solo.withoutReadLock index)
      (solo.perform (.dropReadLock index) = some ·) := by
  rintro pc spurious rfl
  refine ⟨_, _, rfl, ?_⟩
  have noWaiters : hasWaiters solo.word = false := by
    rw [← Bool.not_eq_true, hasWaiters_iff, sound.shows.noWaiters.1,
      sound.shows.noWaiters.2]
    simp
  dsimp only [Solo.withoutReadLock, id]
  rw [readDropped, noWaiters, Bool.and_false]
  exact congrArg (Option.map _) found

/-- Where `clone` is: its loop reads the same word again. -/
def ClonePlace (word : U32) (guard : ReadLock) : Pc → Prop
  | .cloneLoad cloned _ => cloned = guard
  | .cloneReadLoad cloned _ => cloned = guard
  | .cloneCas cloned _ cur => cloned = guard ∧ cur = word
  | _ => False

theorem stays_clone
    {guard : ReadLock}
    (quiet : Quiet solo.word)
    (sound : solo.Sound)
    (found : solo.readLocks[index]? = some guard) :
    (soloCode backend).Stays (ClonePlace solo.word guard)
      (solo.withoutReadLock index)
      (solo.perform (.clone index) = some ·) := by
  intro pc spurious inside
  cases pc with
  | cloneLoad cloned spinWait =>
      obtain rfl : cloned = guard := inside
      refine ⟨_, _, rfl, ?_⟩
      dsimp only [Solo.withoutReadLock, id]
      rw [cloneLoop, quiet.room]
      exact ⟨rfl, ⟨rfl, rfl⟩, fun _ => Nat.zero_lt_one⟩
  | cloneReadLoad cloned spinWait =>
      obtain rfl : cloned = guard := inside
      refine ⟨_, _, rfl, ?_⟩
      dsimp only [Solo.withoutReadLock, id]
      rw [quiet.room]
      exact ⟨rfl, ⟨rfl, rfl⟩, fun _ => Nat.zero_lt_one⟩
  | cloneCas cloned spinWait cur =>
      obtain ⟨rfl, rfl⟩ : cloned = guard ∧ cur = solo.word := inside
      have same : ReadLock.new solo.word = cloned := by
        have shown := sound.guards.2 cloned (List.mem_of_getElem? found)
        exact congrArg ReadLock.mk shown.symm
      dsimp only [soloCode, Pc.instr, Solo.withoutReadLock]
      rw [perform_exchange_solo]
      apply SoloCode.instrStays_exchange
      · intro _
        rw [same]
        exact congrArg (Option.map _) found
      · intro kept
        refine ⟨rfl, rfl, ?_⟩
        intro honest
        exact absurd ⟨rfl, honest⟩ kept
  | _ => exact inside.elim

end Guards

/-- Every operation of the futex locker ends as the specification says. -/
theorem soloCode_meets (backend : Backend) : (soloCode backend).Meets where
  tryLock := fun _ hint sound few =>
    ⟨_, ⟨hint, rfl⟩, stays_tryLock (.of_sound sound few)⟩
  dropLock := fun sound found => ⟨(· = _), rfl, stays_dropLock sound found⟩
  dropReadLock := fun sound found =>
    ⟨(· = _), rfl, stays_dropReadLock sound found⟩
  clone := fun {_ _ guard} sound few found =>
    ⟨ClonePlace _ guard, rfl, stays_clone (.of_sound sound few) sound found⟩
  convert := fun sound found => ⟨(· = _), rfl, stays_convert sound found⟩

section Runs

variable {backend : Backend} {solo rest : Solo} {state after : State Unit}
  {op : SoloOp} {pc : Pc} {word : U32} {next : Next} {spurious : Bool}

/-- The place of the thread. -/
def State.place (state : State Unit) : Pc :=
  (state.thread ()).pc

/-- How the system performs a fetch or an exchange of the word. -/
theorem State.runInstr_perform
    {instr : Instr}
    (performs : instr.perform state.word spurious = some (word, next)) :
    state.runInstr () spurious instr =
        some ({ state with word := word }.finish () next) ∧
      state.runEnding spurious instr = some next := by
  cases instr with
  | fetch update then_ =>
      obtain ⟨rfl, rfl⟩ := Prod.mk.inj (Option.some.inj performs)
      exact ⟨rfl, rfl⟩
  | exchange weak cur new ok err =>
      have performs := Option.some.inj performs
      rw [State.runInstr, State.runEnding]
      split at performs
      case isTrue taken =>
        obtain ⟨rfl, rfl⟩ := Prod.mk.inj performs
        rw [if_pos taken, if_pos taken]
        exact ⟨rfl, rfl⟩
      case isFalse kept =>
        obtain ⟨rfl, rfl⟩ := Prod.mk.inj performs
        rw [if_neg kept, if_neg kept]
        exact ⟨rfl, rfl⟩
  | _ => cases performs

/-- A fetch or an exchange of the word is no wake. -/
theorem State.wakeInstr_perform
    (state : State Unit)
    {instr : Instr}
    {ended : U32 × Next}
    (performs : instr.perform word spurious = some ended)
    (picked : List Unit) :
    state.wakeInstr () picked instr = none := by
  cases instr with
  | wakeOneWriter then_ => cases performs
  | wakeReaders then_ => cases performs
  | _ => rfl

/-- A thread before a fetch or an exchange of the word is not parked. -/
theorem interrupted_perform
    {ended : U32 × Next}
    (performs :
      (pc.instr backend).perform word spurious = some ended) :
    pc.interrupted = none := by
  cases pc with
  | parkedWriter closures => cases performs
  | parkedReader closures => cases performs
  | parkedClone guard => cases performs
  | _ => rfl

/-- A state that was set has the place, the word and the guards it was given. -/
theorem at_setThread
    (backend : Backend)
    (state : State Unit)
    (thread : Thread) :
    (soloSystem backend).At State.place thread.pc
      ⟨state.word, thread.locks, thread.readLocks⟩
      (state.setThread () thread) := by
  have self := state.setThread_self () thread
  exact ⟨congrArg Thread.pc self, rfl, congrArg Thread.locks self,
    congrArg Thread.readLocks self⟩

/-- Outside the locker an operation starts where its code begins. -/
theorem start_eq
    (op : SoloOp)
    (at_ : (soloSystem backend).At State.place .idle solo state) :
    (state.thread ()).start op.userOp =
      ((soloCode backend).enter solo op).map fun entered =>
        ⟨entered.1, entered.2.locks, entered.2.readLocks⟩ := by
  obtain ⟨idle, -, locks, readLocks⟩ := at_
  change (state.thread ()).pc = _ at idle
  change (state.thread ()).locks = _ at locks
  change (state.thread ()).readLocks = _ at readLocks
  generalize state.thread () = thread at *
  obtain ⟨pc, owned, ownedRead⟩ := thread
  obtain rfl : pc = .idle := idle
  obtain rfl : owned = solo.locks := locks
  obtain rfl : ownedRead = solo.readLocks := readLocks
  cases op with
  | tryLock how hint => rfl
  | _ =>
      rw [SoloCode.enter, Option.map_map]
      rfl

/-- What the thread is left with at the end of the local code. -/
theorem leaves_finish
    (at_ : (soloSystem backend).At State.place pc solo state)
    (finishes : { state with word := word }.finish () next = .ok after) :
    (soloSystem backend).Leaves State.place .idle solo word after
      next.soloEnd := by
  obtain ⟨-, -, locks, readLocks⟩ := at_
  change (state.thread ()).locks = _ at locks
  change (state.thread ()).readLocks = _ at readLocks
  obtain ⟨thread, continues, rfl⟩ := State.finish_ok finishes
  cases next with
  | goto later =>
      obtain rfl := Except.ok.inj continues
      dsimp only
      rw [locks, readLocks]
      exact at_setThread backend { state with word := word }
        ⟨later, solo.locks, solo.readLocks⟩
  | ret result =>
      obtain rfl := Except.ok.inj continues
      dsimp only
      rw [locks, readLocks]
      exact at_setThread backend { state with word := word } ⟨.idle, _, _⟩
  | panic assertion => cases continues

/-- The thread runs the code. -/
theorem soloSystem_runs (backend : Backend) :
    (soloSystem backend).Runs (soloCode backend) State.place where
  idle_iff := Iff.rfl
  start := by
    intro solo state after op at_ step
    rcases step with started | ⟨assertion, failed, -⟩
    · obtain ⟨thread, starts, same⟩ := Option.map_eq_some_iff.mp started
      rw [start_eq op at_] at starts
      obtain ⟨⟨pc, rest⟩, enters, rfl⟩ := Option.map_eq_some_iff.mp starts
      obtain rfl := Except.ok.inj same
      have word : state.word = rest.word :=
        at_.word.trans (SoloCode.enter_word enters).symm
      refine ⟨pc, rest, enters, ?_⟩
      have left := at_setThread backend state
        ⟨pc, rest.locks, rest.readLocks⟩
      rw [word] at left
      exact left
    · obtain ⟨thread, -, same⟩ := Option.map_eq_some_iff.mp failed
      cases same
  can_start := by
    intro solo rest state op pc at_ enters
    have starts := start_eq op at_
    rw [enters] at starts
    exact ⟨_, .inl (congrArg (Option.map _) starts)⟩
  busy := by
    rintro word pc spurious performs rfl
    cases performs
  instruction := by
    rintro solo state after action pc at_ performable ⟨isRun, step⟩
    have performable (spurious : Bool) :
        ∃ word next,
          ((state.thread ()).pc.instr backend).perform state.word spurious =
            some (word, next) := by
      have found := performable spurious
      rw [← at_.place, ← at_.word] at found
      obtain ⟨⟨word, next⟩, performs⟩ :=
        Option.isSome_iff_exists.mp (Option.isSome_map.symm.trans found)
      exact ⟨word, next, performs⟩
    cases action with
    | start actor op => cases isRun
    | run actor spurious =>
        obtain ⟨word, next, performs⟩ := performable spurious
        obtain ⟨runs, ending⟩ := State.runInstr_perform performs
        refine ⟨spurious, word, next.soloEnd, ?_,
          congrArg (Option.bind · _) ending, ?_⟩
        · rw [← at_.place, ← at_.word]
          exact congrArg (Option.map _) performs
        · rcases step with performed | ⟨assertion, failed, rfl⟩
          · exact leaves_finish at_
              (Option.some.inj (runs.symm.trans performed))
          · have fails := Option.some.inj (runs.symm.trans failed)
            cases next with
            | goto pc => cases fails
            | ret result => cases fails
            | panic assertion => trivial
    | wake actor picked =>
        obtain ⟨word, next, performs⟩ := performable false
        have none := state.wakeInstr_perform performs picked
        rcases step with performed | ⟨assertion, failed, -⟩
        · cases none.symm.trans performed
        · cases none.symm.trans failed
    | interrupt actor =>
        obtain ⟨word, next, performs⟩ := performable false
        have none := interrupted_perform performs
        rcases step with performed | ⟨assertion, failed, -⟩
        · obtain ⟨pc, interrupts, -⟩ := Option.map_eq_some_iff.mp performed
          cases none.symm.trans interrupts
        · obtain ⟨pc, -, same⟩ := Option.map_eq_some_iff.mp failed
          cases same
  can_run := by
    intro solo state pc word ending at_ performed quiet
    obtain ⟨⟨word, next⟩, performs, same⟩ :=
      Option.map_eq_some_iff.mp performed
    obtain ⟨rfl, rfl⟩ := Prod.mk.inj same
    rw [← at_.place, ← at_.word] at performs
    obtain ⟨runs, ending⟩ := State.runInstr_perform performs
    obtain ⟨after, finishes⟩ :
        ∃ after, { state with word := word }.finish () next = .ok after := by
      cases next with
      | goto pc => exact ⟨_, rfl⟩
      | ret result => exact ⟨_, rfl⟩
      | panic assertion => exact absurd rfl quiet
    rw [finishes] at runs
    exact ⟨.run () false, after, ⟨rfl, .inl runs⟩,
      congrArg (Option.bind · _) ending, leaves_finish at_ finishes⟩

end Runs

end StaticInit.Sync
