import StaticInit.PhaseLocker.SoloCode

namespace StaticInit.Spinning

/-!
# The spinning locker of one thread

Alone, a thread finds the word that it decided on at each exchange, so an
operation goes through a few places only, and each of its ends is the one of
the specification.
-/

open Sync (Lock ReadLock Closures Call Result UserOp readerCount lockCount)
open LockWord (view)

/-- The end of the local code, for one thread alone. -/
def Next.soloEnd : Next → SoloEnd Pc
  | .goto pc => .goto pc
  | .ret result => .ret result
  | .unreachable => .panic

/-- What an instruction that ends an operation tells the caller. -/
def State.finished
    (state : State Unit) : Action Unit → Option SoloOutcome
  | .start _ _ => none
  | .run actor spurious =>
      ((state.thread actor).pc.instr.perform state.word spurious).bind
        fun ended => ended.2.soloEnd.outcome

/-- The spinning locker, used by one thread. -/
def soloSystem : SoloSystem (State Unit) (Action Unit) Panic where
  exec := State.exec
  start := .start ()
  isStart := fun
    | .start _ _ => true
    | .run _ _ => false
  returned := State.finished
  idle := fun state => (state.thread ()).pc = .idle
  word := State.word
  locks := fun state => (state.thread ()).locks
  readLocks := fun state => (state.thread ()).readLocks

/-- A bound on the instructions left if no exchange fails for no reason. -/
def Pc.rank : Pc → Nat
  | .optimistic _ => 1
  | .cloneLoad _ => 1
  | _ => 0

/-- The code of the spinning locker, for one thread alone. -/
def soloCode : SoloCode Pc where
  idle := .idle
  tryLock := fun how hint => .optimistic (.tryLock how hint)
  dropLock := .dropLock
  dropReadLock := .dropReadLock
  clone := .cloneLoad
  convert := fun lock => .convert lock lock.initPhase
  perform := fun pc word spurious =>
    (pc.instr.perform word spurious).map (Prod.map id Next.soloEnd)
  rank := Pc.rank

section TryLock

variable {solo : Solo} {how : Phase → LockNature} {nearer : Nat → Prop}

/-- Where `try_raw_lock` is, with the word on which it decided. -/
def TryPlace (word : U32) (how : Phase → LockNature) : Pc → Prop
  | .optimistic call => ∃ hint, call = .tryLock how hint
  | .tryWrite decided cur =>
      decided = how ∧ cur = word ∧
        how (.fromBitsTruncate word) = .write ∧ isWriteLockable word = true
  | .tryRead decided cur =>
      decided = how ∧ cur = word ∧
        how (.fromBitsTruncate word) = .read ∧ isReadLockable word = true
  | _ => False

/-- Local code of `try_raw_lock` that does not change the word. -/
def TryEnds
    (solo : Solo)
    (how : Phase → LockNature)
    (nearer : Nat → Prop)
    (next : Next) : Prop :=
  soloCode.EndStays (TryPlace solo.word how) solo (solo.tryLock how = ·)
    nearer solo.word next.soloEnd

theorem tryReadLoop_ends
    (room : hasReadersMax solo.word = false)
    (near : nearer 0)
    (read : how (.fromBitsTruncate solo.word) = .read) :
    TryEnds solo how nearer (tryReadLoop how solo.word) := by
  unfold tryReadLoop
  split
  case isTrue lockable => exact ⟨rfl, ⟨rfl, rfl, read, lockable⟩, near⟩
  case isFalse locked =>
    rw [isReadLockable_iff] at locked
    exact SoloCode.endStays_noRead read fun free => locked ⟨free, room⟩

theorem tryReadFailed_ends
    (room : hasReadersMax solo.word = false)
    (near : nearer 0)
    (read : how (.fromBitsTruncate solo.word) = .read) :
    TryEnds solo how nearer (tryReadFailed how solo.word) := by
  rw [tryReadFailed, if_pos read]
  exact tryReadLoop_ends room near read

theorem trySecond_ends
    (room : hasReadersMax solo.word = false)
    (near : nearer 0) :
    TryEnds solo how nearer (trySecond how solo.word) := by
  unfold trySecond
  split
  case h_1 write =>
    split
    case isTrue lockable => exact ⟨rfl, ⟨rfl, rfl, write, lockable⟩, near⟩
    case isFalse locked =>
      rw [isWriteLockable_iff] at locked
      exact SoloCode.endStays_noWrite write locked
  case h_2 read => exact tryReadLoop_ends room near read
  case h_3 none => exact SoloCode.endStays_none none

theorem optimisticNone_ends
    {hint : Phase}
    (room : hasReadersMax solo.word = false)
    (near : nearer 0) :
    TryEnds solo how nearer
      (optimisticNone (.tryLock how hint) solo.word) := by
  unfold optimisticNone
  split
  case isTrue none => exact SoloCode.endStays_none none
  case isFalse => exact trySecond_ends room near

/-- Either end of an exchange. -/
theorem perform_exchange_solo
    {weak spurious : Bool}
    {cur new : U32}
    {ok : Next}
    {err : U32 → Next} :
    ((Instr.exchange weak cur new ok err).perform solo.word spurious).map
        (Prod.map id Next.soloEnd) =
      some
        (if solo.word = cur ∧ (weak && spurious) = false then
          (new, ok.soloEnd)
        else
          (solo.word, (err solo.word).soloEnd)) := by
  rw [Instr.perform, Option.map_some, apply_ite (Prod.map id Next.soloEnd)]
  rfl

/-- The attempt on the hint. -/
theorem optimistic_stays
    {hint : Phase}
    {spurious : Bool}
    (room : hasReadersMax solo.word = false)
    (near : nearer 0) :
    soloCode.InstrStays (TryPlace solo.word how) solo
      (solo.tryLock how = ·) nearer
      (((optimistic (.tryLock how hint)).perform solo.word spurious).map
        (Prod.map id Next.soloEnd)) := by
  have shown (taken : solo.word = hint.bits) :
      Phase.fromBitsTruncate solo.word = hint := by
    rw [taken, Phase.fromBitsTruncate_bits]
  have free (taken : solo.word = hint.bits) :=
    (isWriteLockable_iff solo.word).mp (taken ▸ (lockable_hint hint).1)
  unfold optimistic
  split
  case h_1 => exact ⟨_, _, rfl, optimisticNone_ends room near⟩
  case h_2 write =>
    rw [perform_exchange_solo]
    apply SoloCode.instrStays_exchange
    · intro (taken : solo.word = hint.bits)
      change how hint = .write at write
      rw [← shown taken] at write
      change soloCode.EndStays _ _ _ _ (hint.bits ||| lockedBit)
        (.ret (.locked (some (.write (.new hint.bits)))))
      rw [← taken]
      exact SoloCode.endStays_write write (free taken)
    · exact fun _ => trySecond_ends room near
  case h_3 read =>
    rw [perform_exchange_solo]
    apply SoloCode.instrStays_exchange
    · intro (taken : solo.word = hint.bits)
      change how hint = .read at read
      rw [← shown taken] at read
      change soloCode.EndStays _ _ _ _ (hint.bits + readerUnity)
        (.ret (.locked (some (.read (.new hint.bits)))))
      rw [← taken]
      exact SoloCode.endStays_read read (free taken).1
    · exact fun _ => trySecond_ends room near

theorem stays_tryLock (room : hasReadersMax solo.word = false) :
    soloCode.Stays (TryPlace solo.word how) solo (solo.tryLock how = ·) := by
  intro pc spurious inside
  cases pc with
  | optimistic call =>
      obtain ⟨hint, rfl⟩ := inside
      exact optimistic_stays room fun _ => Nat.zero_lt_one
  | tryWrite decided cur =>
      obtain ⟨rfl, rfl, write, lockable⟩ := inside
      rw [isWriteLockable_iff] at lockable
      dsimp only [soloCode, Pc.instr]
      rw [perform_exchange_solo]
      apply SoloCode.instrStays_exchange
      · exact fun _ => SoloCode.endStays_write write lockable
      · exact fun kept => absurd ⟨rfl, rfl⟩ kept
  | tryRead decided cur =>
      obtain ⟨rfl, rfl, read, lockable⟩ := inside
      rw [isReadLockable_iff] at lockable
      dsimp only [soloCode, Pc.instr]
      rw [perform_exchange_solo]
      apply SoloCode.instrStays_exchange
      · exact fun _ => SoloCode.endStays_read read lockable.1
      · intro kept
        apply tryReadFailed_ends room _ read
        intro honest
        exact absurd ⟨rfl, honest⟩ kept
  | _ => exact inside.elim

end TryLock

section Guards

variable {solo : Solo} {index : Nat}

theorem stays_dropLock
    {lock : Lock}
    (sound : solo.Sound)
    (found : solo.locks[index]? = some lock) :
    soloCode.Stays (· = .dropLock lock) (solo.withoutLock index)
      (solo.perform (.dropLock index) = some ·) := by
  rintro pc spurious rfl
  refine ⟨lock.onUnlock.bits, .ret .dropped, ?_, ?_⟩
  · exact congrArg (Option.map _ <| some ·)
      (if_pos ⟨sound.word_eq found, rfl⟩)
  · exact congrArg (Option.map _) found

theorem stays_convert
    {lock : Lock}
    (sound : solo.Sound)
    (found : solo.locks[index]? = some lock) :
    soloCode.Stays (· = .convert lock lock.initPhase)
      (solo.withoutLock index) (solo.perform (.convert index) = some ·) := by
  rintro pc spurious rfl
  refine ⟨_, _, rfl, ?_⟩
  change solo.perform (.convert index) =
    some (_, Solo.returned _ (solo.word ^^^ _) _)
  rw [sound.word_eq found, State.convert_word, Sync.ReadLock.new,
    Phase.fromBitsTruncate_bits]
  exact congrArg (Option.map _) found

theorem stays_dropReadLock
    {guard : ReadLock}
    (found : solo.readLocks[index]? = some guard) :
    soloCode.Stays (· = .dropReadLock guard) (solo.withoutReadLock index)
      (solo.perform (.dropReadLock index) = some ·) := by
  rintro pc spurious rfl
  exact ⟨_, _, rfl, congrArg (Option.map _) found⟩

/-- Where `clone` is: its loop reads the same word again. -/
def ClonePlace (word : U32) (guard : ReadLock) (pc : Pc) : Prop :=
  pc = .cloneLoad guard ∨ pc = .cloneCas guard word

theorem stays_clone
    {guard : ReadLock}
    (room : hasReadersMax solo.word = false)
    (found : solo.readLocks[index]? = some guard) :
    soloCode.Stays (ClonePlace solo.word guard) (solo.withoutReadLock index)
      (solo.perform (.clone index) = some ·) := by
  rintro pc spurious (rfl | rfl)
  · refine ⟨_, _, rfl, ?_⟩
    dsimp only [Solo.withoutReadLock]
    rw [cloneLoop, room]
    exact ⟨rfl, .inr rfl, fun _ => Nat.zero_lt_one⟩
  · dsimp only [soloCode, Pc.instr, Solo.withoutReadLock]
    rw [perform_exchange_solo]
    apply SoloCode.instrStays_exchange
    · intro _
      exact congrArg (Option.map _) found
    · intro kept
      refine ⟨rfl, .inl rfl, ?_⟩
      intro honest
      exact absurd ⟨rfl, honest⟩ kept

end Guards

/-- Every operation of the spinning locker ends as the specification says. -/
theorem soloCode_meets : soloCode.Meets where
  tryLock := fun _ hint sound few =>
    ⟨_, ⟨hint, rfl⟩, stays_tryLock (sound.room few)⟩
  dropLock := fun sound found => ⟨(· = _), rfl, stays_dropLock sound found⟩
  dropReadLock := fun _ found => ⟨(· = _), rfl, stays_dropReadLock found⟩
  clone := fun sound few found =>
    ⟨_, .inl rfl, stays_clone (sound.room few) found⟩
  convert := fun sound found => ⟨(· = _), rfl, stays_convert sound found⟩

section Runs

variable {solo rest : Solo} {state after : State Unit} {op : SoloOp} {pc : Pc}

/-- The place of the thread. -/
def State.place (state : State Unit) : Pc :=
  (state.thread ()).pc

/-- A state that was set has the place, the word and the guards it was given. -/
theorem at_setThread
    (state : State Unit)
    (word : U32)
    (thread : Thread) :
    soloSystem.At State.place thread.pc ⟨word, thread.locks, thread.readLocks⟩
      (state.setThread word () thread) := by
  have self := state.setThread_self word () thread
  exact ⟨congrArg Thread.pc self, rfl, congrArg Thread.locks self,
    congrArg Thread.readLocks self⟩

/-- Outside the locker an operation starts where its code begins. -/
theorem start_eq
    (op : SoloOp)
    (at_ : soloSystem.At State.place .idle solo state) :
    (state.thread ()).start op.userOp =
      (soloCode.enter solo op).map fun entered =>
        ⟨entered.1, entered.2.locks, entered.2.readLocks⟩ := by
  obtain ⟨idle, -, locks, readLocks⟩ := at_
  change (state.thread ()).pc = _ at idle
  change (state.thread ()).locks = _ at locks
  change (state.thread ()).readLocks = _ at readLocks
  generalize state.thread () = thread at *
  obtain ⟨pc, owned, ownedRead⟩ := thread
  obtain rfl : pc = .idle := idle
  obtain rfl : owned = solo.locks := locks
  obtain rfl : ownedRead = solo.readLocks := readLocks
  cases op with
  | tryLock how hint => rfl
  | _ =>
      rw [SoloCode.enter, Option.map_map]
      rfl

/-- What the thread is left with at the end of the local code. -/
theorem leaves_continue
    {word : U32}
    {next : Next}
    {thread : Thread}
    (at_ : soloSystem.At State.place pc solo state)
    (continues : (state.thread ()).continue next = .ok thread) :
    soloSystem.Leaves State.place .idle solo word
      (state.setThread word () thread) next.soloEnd := by
  obtain ⟨-, -, locks, readLocks⟩ := at_
  change (state.thread ()).locks = _ at locks
  change (state.thread ()).readLocks = _ at readLocks
  cases next with
  | goto later =>
      obtain rfl := Except.ok.inj continues
      rw [locks, readLocks]
      exact at_setThread state word ⟨later, solo.locks, solo.readLocks⟩
  | ret result =>
      obtain rfl := Except.ok.inj continues
      rw [locks, readLocks]
      exact at_setThread state word ⟨.idle, _, _⟩
  | unreachable => cases continues

/-- The word and the local code of an instruction that was performed. -/
theorem step_run
    {spurious : Bool}
    (at_ : soloSystem.At State.place pc solo state)
    (step : soloSystem.Step state (.run () spurious) after) :
    ∃ word next,
      (state.thread ()).pc.instr.perform state.word spurious =
          some (word, next) ∧
        soloSystem.Leaves State.place .idle solo word after next.soloEnd := by
  rcases step with performed | ⟨panic, performed, rfl⟩
  · have stepped : state.Step (.run () spurious) after := performed
    cases State.actorStep stepped with
    | @instruction _ _ word next thread performs continues =>
        exact ⟨word, next, performs, leaves_continue at_ continues⟩
  · obtain ⟨⟨word, next⟩, performs, finishes⟩ :=
      Option.map_eq_some_iff.mp performed
    refine ⟨word, next, performs, ?_⟩
    cases next with
    | goto pc => cases finishes
    | ret result => cases finishes
    | unreachable => trivial

/-- The thread runs the code. -/
theorem soloSystem_runs : soloSystem.Runs soloCode State.place where
  idle_iff := Iff.rfl
  start := by
    intro solo state after op at_ step
    rcases step with started | ⟨panic, failed, -⟩
    · obtain ⟨thread, starts, same⟩ := Option.map_eq_some_iff.mp started
      rw [start_eq op at_] at starts
      obtain ⟨⟨pc, rest⟩, enters, rfl⟩ := Option.map_eq_some_iff.mp starts
      obtain rfl := Except.ok.inj same
      have word : state.word = rest.word :=
        at_.word.trans (SoloCode.enter_word enters).symm
      rw [word]
      refine ⟨pc, rest, enters, ?_⟩
      exact at_setThread state rest.word ⟨pc, rest.locks, rest.readLocks⟩
    · obtain ⟨thread, -, same⟩ := Option.map_eq_some_iff.mp failed
      cases same
  can_start := by
    intro solo rest state op pc at_ enters
    have starts := start_eq op at_
    rw [enters] at starts
    exact ⟨_, .inl (congrArg (Option.map _) starts)⟩
  busy := by
    rintro word pc spurious performs rfl
    cases performs
  instruction := by
    rintro solo state after action pc at_ - ⟨isRun, step⟩
    cases action with
    | start actor op => cases isRun
    | run actor spurious =>
        obtain ⟨word, next, performs, leaves⟩ := step_run at_ step
        refine ⟨spurious, word, next.soloEnd, ?_, ?_, leaves⟩
        · rw [← at_.place, ← at_.word]
          exact congrArg (Option.map _) performs
        · exact congrArg (Option.bind · _) performs
  can_run := by
    intro solo state pc word ending at_ performed quiet
    obtain ⟨⟨word, next⟩, performs, same⟩ :=
      Option.map_eq_some_iff.mp performed
    obtain ⟨rfl, rfl⟩ := Prod.mk.inj same
    rw [← at_.place, ← at_.word] at performs
    change (state.thread ()).pc.instr.perform state.word false = _ at performs
    obtain ⟨thread, continues⟩ :
        ∃ thread, (state.thread ()).continue next = .ok thread := by
      cases next with
      | goto pc => exact ⟨_, rfl⟩
      | ret result => exact ⟨_, rfl⟩
      | unreachable => exact absurd rfl quiet
    refine ⟨.run () false, state.setThread word () thread,
      ⟨rfl, .inl ?_⟩, congrArg (Option.bind · _) performs,
      leaves_continue at_ continues⟩
    change state.exec (.run () false) = _
    rw [State.exec, performs, Option.map_some]
    dsimp only
    rw [continues]
    rfl

end Runs

end StaticInit.Spinning
