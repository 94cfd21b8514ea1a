import StaticInit.PhaseLocker.Sync.Sound

namespace StaticInit.Sync

/-!
# `transfer_lock` without interference

One thread hands over a released lock while all others are parked: what its
code does is determined by the word, the fairness and the numbers of parked
threads.
-/

open LockWord (view pack)

/-- The locker as the thread that hands over sees it. -/
structure Unopposed where
  word : U32
  fairness : BitVec 16
  /-- Threads parked as writers. -/
  writers : Nat
  /-- Threads parked as readers. -/
  readers : Nat
  deriving Repr, DecidableEq

namespace Unopposed

/-- An instruction of the handing thread; it never parks. -/
def perform (state : Unopposed) : Instr → Option (Unopposed × Next)
  | .fetch update next =>
      some ({ state with word := update state.word }, next state.word)
  | .exchange _ cur new ok err =>
      some <|
        if state.word = cur then
          ({ state with word := new }, ok)
        else
          (state, err state.word)
  | .fetchFairness update next =>
      some
        ({ state with fairness := update state.fairness }, next state.fairness)
  | .wakeOneWriter next =>
      some
        ({ state with writers := state.writers - 1 }, next (state.writers ≠ 0))
  | .wakeReaders next =>
      some
        ({ state with readers := state.readers - maxWakedReaders },
          next (min state.readers maxWakedReaders))
  | .fetchWriterCount _ _ | .wait _ _ _ | .rest => none

/-- So many instructions. -/
def run
    (backend : Backend) :
    Nat → Unopposed × Next → Option (Unopposed × Next)
  | 0, code => some code
  | steps + 1, (state, .goto pc) =>
      (state.perform (pc.instr backend)).bind (run backend steps)
  | _ + 1, (_, _) => none

/-- The code gets there after a number of instructions. -/
def Reaches
    (backend : Backend)
    (start : Unopposed × Next)
    (final : Unopposed × Next) : Prop :=
  ∃ steps, run backend steps start = some final

namespace Reaches

variable {backend : Backend} {start middle final : Unopposed × Next}

theorem refl (backend : Backend) (code : Unopposed × Next) :
    Reaches backend code code :=
  ⟨0, rfl⟩

/-- One more instruction before. -/
theorem step
    {state : Unopposed}
    {pc : Pc}
    (performs : state.perform (pc.instr backend) = some middle)
    (later : Reaches backend middle final) :
    Reaches backend (state, .goto pc) final := by
  obtain ⟨steps, runs⟩ := later
  exact ⟨steps + 1, by rw [run, performs]; exact runs⟩

theorem trans
    (earlier : Reaches backend start middle)
    (later : Reaches backend middle final) :
    Reaches backend start final := by
  obtain ⟨steps, runs⟩ := earlier
  induction steps generalizing start with
  | zero =>
      obtain rfl := Option.some.inj runs
      exact later
  | succ steps inductionHypothesis =>
      obtain ⟨state, next⟩ := start
      cases next with
      | goto pc =>
          rw [run] at runs
          obtain ⟨after, performs, runs⟩ := Option.bind_eq_some_iff.mp runs
          exact .step performs (inductionHypothesis runs)
      | ret result => cases runs
      | panic assertion => cases runs

end Reaches

/-- What becomes of a handed over lock. -/
inductive Handed where
  | toWriter
  | toReaders
  | toNobody
  deriving Repr, DecidableEq

/-- The end of a hand over that started with the given parked threads. -/
def Ends (start final : Unopposed) : Handed → Prop
  | .toWriter =>
      final.writers + 1 = start.writers ∧ final.readers = start.readers ∧
        (view final.word).locked = true ∧ readerCount final.word = 0
  | .toReaders =>
      0 < start.readers ∧ final.readers = 0 ∧
        final.writers = start.writers ∧
        readerCount final.word = start.readers ∧
        (view final.word).locked = false
  | .toNobody =>
      start.writers = 0 ∧ start.readers = 0 ∧ final.writers = 0 ∧
        final.readers = 0 ∧ final.word = (view start.word).phase.bits

/-- At most one of the ends is reached. -/
theorem Ends.unique
    {start final : Unopposed}
    {one other : Handed}
    (first : Ends start final one)
    (second : Ends start final other) :
    one = other := by
  cases one <;> cases other <;> try rfl
  all_goals
    simp only [Ends] at first second
    omega

/-- A released lock with waiters, whose bits show the parked threads. -/
structure Released (state : Unopposed) : Prop where
  unlocked : (view state.word).locked = false
  noReaders : readerCount state.word = 0
  waiters : hasWaiters state.word = true
  writers : 0 < state.writers → (view state.word).writeWaiter = true
  readers : 0 < state.readers → (view state.word).readWaiter = true
  few : state.readers < 2 ^ 20 - 1

theorem Released.readers_eq
    {state : Unopposed}
    (released : state.Released) :
    (view state.word).readers = 0#21 :=
  BitVec.eq_of_toNat_eq released.noReaders

/-- A hand over ends in one way and keeps the phase. -/
def Completes
    (backend : Backend)
    (start : Unopposed)
    (after : After)
    (code : Unopposed × Next) : Prop :=
  ∃ final,
    Reaches backend code (final, after.resume) ∧
      (∃! handed, Ends start final handed) ∧
      (view final.word).phase = (view start.word).phase

section Code

variable {backend : Backend} {state start : Unopposed} {after : After}

theorem assert_true
    {condition : Bool}
    {assertion : Assertion}
    {rest : Next}
    (holds : condition = true) :
    Next.assert condition assertion rest = rest := by
  rw [Next.assert, if_pos holds]

/-- `transfer_lock` takes the lock for a writer and tries to wake one. -/
theorem reaches_woken
    (preference : Preference)
    (cur : U32)
    (waiting : (view state.word).writeWaiter = true)
    (unlocked : (view state.word).locked = false)
    (noReaders : readerCount state.word = 0) :
    Reaches backend (state, .goto (.transferXor preference cur after))
      ({ word := state.word ^^^ (writeWaiterBit ||| lockedBit)
         fairness := state.fairness + 1
         writers := state.writers - 1
         readers := state.readers },
        transferWoken preference cur after (state.writers ≠ 0)) := by
  refine .step rfl ?_
  dsimp only
  rw [assert_true ((writeWaiterBit_ne_iff _).mpr waiting),
    assert_true ((free_iff _).mpr ⟨unlocked, noReaders⟩)]
  exact .step rfl (.step rfl (.refl _ _))

/-- `transfer_lock` gives the lock back when there is nobody to wake. -/
theorem reaches_released
    (preference : Preference)
    (locked : (view state.word).locked = true)
    (quiet : hasNoWaiters state.word = true) :
    Reaches backend (state, .goto (.transferAnd preference after))
      ({ state with word := state.word &&& ~~~lockedBit }, after.resume) := by
  refine .step rfl ?_
  dsimp only
  rw [transferReleased, assert_true ((lockedBit_ne_iff _).mpr locked),
    if_pos quiet]
  exact .refl _ _

/-- The first exchange of `wake_readers` on a word without readers. -/
theorem view_marked
    {word toUnactivate : U32}
    (marks : toUnactivate = 0 ∨ toUnactivate = lockedBit)
    (locked : (view word).locked = (toUnactivate == lockedBit))
    (waiting : (view word).readWaiter = true)
    (noReaders : (view word).readers = 0#21) :
    view (word ^^^ wakeMask toUnactivate false) =
      { view word with
        readWaiter := false
        locked := false
        readers := 0x100001#21 } := by
  rcases marks with rfl | rfl
  · have unlocked : (view word).locked = false := locked
    simp [wakeMask, waiting, noReaders, unlocked]
  · have isLocked : (view word).locked = true := locked
    simp [wakeMask, waiting, noReaders, isLocked]

/-- The assertions of `wake_readers` hold. -/
theorem wakeMarked_eq
    {word toUnactivate : U32}
    (marks : toUnactivate = 0 ∨ toUnactivate = lockedBit)
    (locked : (view word).locked = (toUnactivate == lockedBit))
    (noReaders : (view word).readers = 0#21) :
    wakeMarked toUnactivate (.releasing after) word =
      .goto (.wakeFairness (.releasing after)) := by
  have sawNoReader :
      ((Waker.releasing after).isConverting ||
        word &&& readerUnity != readerUnity) = true := by
    rw [Waker.isConverting, Bool.false_or, bne_iff_ne, Ne, ← LockWord.view_inj]
    simp [noReaders]
  rcases marks with rfl | rfl
  · have unlocked : (view word).locked = false := locked
    rw [wakeMarked, assert_true (by simp), assert_true sawNoReader,
      assert_true ((lockedBit_eq_iff _).mpr (by simpa using unlocked))]
  · have isLocked : (view word).locked = true := locked
    have sawUnactivated : (word &&& lockedBit == lockedBit) = true := by
      rw [beq_iff_eq, ← LockWord.view_inj]
      simp [isLocked]
    rw [wakeMarked, assert_true sawUnactivated, assert_true sawNoReader,
      assert_true ((lockedBit_eq_iff _).mpr (by simp [isLocked]))]

/-- `wake_readers` wakes all readers and drops the lock it returns. -/
theorem reaches_dropped
    (backend : Backend)
    (state : Unopposed)
    (after : After)
    {toUnactivate : U32}
    (marks : toUnactivate = 0 ∨ toUnactivate = lockedBit)
    (locked : (view state.word).locked = (toUnactivate == lockedBit))
    (waiting : (view state.word).readWaiter = true)
    (noReaders : (view state.word).readers = 0#21)
    (few : state.readers < 2 ^ 20 - 1) :
    ∃ prev,
      view prev =
          { view state.word with
            readWaiter := false
            locked := false
            readers := BitVec.ofNat 21 (state.readers + 1) } ∧
        Reaches backend
          (state, .goto (.wakeXor toUnactivate (.releasing after)))
          ({ word := prev - readerUnity
             fairness := 1
             writers := state.writers
             readers := 0 },
            readDropped after prev) := by
  have count : min state.readers maxWakedReaders = state.readers := by
    rw [maxWakedReaders_eq]
    omega
  have left : state.readers - maxWakedReaders = 0 := by
    rw [maxWakedReaders_eq]
    omega
  have marked := view_marked marks locked waiting noReaders
  have settled :=
    LockWord.view_sub_units (toNat_wakeUnits (show state.readers ≤ 2 ^ 20 by omega))
      (show 2 ^ 20 - state.readers ≤
        (view (state.word ^^^ wakeMask toUnactivate false)).readers.toNat by
          rw [marked]
          change _ ≤ 2 ^ 20 + 1
          omega)
  refine ⟨_, settled.trans ?_, ?_⟩
  · rw [marked]
    have units : 2 ^ 20 + 1 - (2 ^ 20 - state.readers) = state.readers + 1 := by
      omega
    change LockWord.mk _ _ _ (BitVec.ofNat 21 (2 ^ 20 + 1 - (2 ^ 20 - state.readers))) _ = _
    rw [units]
  · refine .step rfl ?_
    dsimp only
    rw [wakeMarked_eq marks locked noReaders]
    refine .step rfl (.step rfl ?_)
    dsimp only
    rw [count, left, wakeCounted, if_neg (by rw [maxWakedReaders_eq]; omega)]
    exact .step rfl (.step rfl (.refl _ _))

/-- The end of a hand over. -/
theorem Completes.of_ends
    {final : Unopposed}
    (handed : Handed)
    (ends : Ends start final handed)
    (phase : (view final.word).phase = (view start.word).phase) :
    Completes backend start after (final, after.resume) :=
  ⟨final, .refl _ _, ⟨handed, ends, fun _ other => other.unique ends⟩, phase⟩

/-- The code before. -/
theorem Completes.before
    {earlier middle : Unopposed × Next}
    (reaches : Reaches backend earlier middle)
    (completes : Completes backend start after middle) :
    Completes backend start after earlier := by
  obtain ⟨final, later, ends, phase⟩ := completes
  exact ⟨final, reaches.trans later, ends, phase⟩

/-- A hand over inside another one, of the same threads. -/
theorem Completes.inner
    {code : Unopposed × Next}
    (completes : Completes backend state after code)
    (writers : state.writers = start.writers)
    (readers : state.readers = start.readers)
    (phase : (view state.word).phase = (view start.word).phase) :
    Completes backend start after code := by
  obtain ⟨final, reaches, ⟨handed, ends, -⟩, kept⟩ := completes
  have outer : Ends start final handed := by
    cases handed <;> simp only [Ends, writers, readers, phase] at ends ⊢ <;>
      exact ends
  exact ⟨final, reaches, ⟨handed, outer, fun _ other => other.unique outer⟩,
    kept.trans phase⟩

/-- A word that shows nothing but its phase. -/
theorem word_eq_bits
    {word : U32}
    {phase : Phase}
    (shown : view word = ⟨false, false, false, 0#21, phase⟩) :
    word = phase.bits := by
  rw [← LockWord.view_inj, shown, LockWord.view_bits]

/-- The word after the drop of the lock that `wake_readers` returned. -/
theorem view_dropped
    {prev : U32}
    {readers : Nat}
    (fields : LockWord)
    (shown :
      view prev = { fields with readers := BitVec.ofNat 21 (readers + 1) })
    (few : readers < 2 ^ 20 - 1) :
    view (prev - readerUnity) =
      { fields with readers := BitVec.ofNat 21 readers } := by
  have number : (view prev).readers.toNat = readers + 1 := by
    rw [shown, BitVec.toNat_ofNat]
    exact Nat.mod_eq_of_lt (by omega)
  rw [LockWord.view_sub_units (show readerUnity.toNat = 1 * 2 ^ 8 from rfl)
    (by omega), number, shown]
  rfl

/-- The drop of the lock that `wake_readers` returned is not the last one. -/
theorem readDropped_of_readers
    {prev : U32}
    (readers : readerCount prev ≠ 1 ∨ hasWaiters prev = false) :
    readDropped after prev = after.resume := by
  rw [readDropped, if_neg]
  rw [Bool.and_eq_true, Bool.and_eq_true, hasOneReader_iff]
  rcases readers with several | quiet
  · exact fun handing => several handing.1.1
  · rw [quiet]
    exact fun handing => Bool.false_ne_true handing.2

/-- After the wake all readers have the lock, or nobody has. -/
theorem completes_dropped
    {prev : U32}
    {fields : LockWord}
    (shown :
      view prev =
        { fields with
          readWaiter := false
          locked := false
          readers := BitVec.ofNat 21 (start.readers + 1) })
    (phase : fields.phase = (view start.word).phase)
    (few : start.readers < 2 ^ 20 - 1)
    (nobody :
      start.readers = 0 → start.writers = 0 ∧ fields.writeWaiter = false) :
    Completes backend start after
      ({ word := prev - readerUnity
         fairness := 1
         writers := start.writers
         readers := 0 },
        readDropped after prev) := by
  have dropped :=
    view_dropped { fields with readWaiter := false, locked := false } shown few
  have kept : (view (prev - readerUnity)).phase = (view start.word).phase := by
    rw [dropped]
    exact phase
  by_cases some : start.readers = 0
  · obtain ⟨writers, quiet⟩ := nobody some
    rw [readDropped_of_readers]
    · refine .of_ends .toNobody ?_ kept
      refine ⟨writers, some, writers, rfl, ?_⟩
      apply word_eq_bits
      rw [dropped, some, quiet, phase]
    · right
      rw [← Bool.not_eq_true, hasWaiters_iff, shown]
      simp [quiet]
  · rw [readDropped_of_readers]
    · refine .of_ends .toReaders ?_ kept
      refine ⟨Nat.pos_of_ne_zero some, rfl, rfl, ?_, ?_⟩
      · rw [readerCount, dropped, BitVec.toNat_ofNat]
        exact Nat.mod_eq_of_lt (by omega)
      · rw [dropped]
    · left
      rw [readerCount, shown, BitVec.toNat_ofNat, Nat.mod_eq_of_lt (by omega)]
      omega

/-- The word after the lock was taken for a writer. -/
theorem view_attempted
    {word : U32}
    (waiting : (view word).writeWaiter = true)
    (unlocked : (view word).locked = false) :
    view (word ^^^ (writeWaiterBit ||| lockedBit)) =
      { view word with writeWaiter := false, locked := true } := by
  simp [waiting, unlocked]

/-- The attempt to wake a writer, and what follows if nobody is there. -/
theorem completes_attempt
    (preference : Preference)
    (released : start.Released)
    (waiting : (view start.word).writeWaiter = true)
    (ordered :
      preference = .writer ∨ (view start.word).readWaiter = false) :
    Completes backend start after
      (start, .goto (.transferXor preference start.word after)) := by
  have attempted := view_attempted waiting released.unlocked
  have empty := released.readers_eq
  refine .before
    (reaches_woken preference _ waiting released.unlocked released.noReaders) ?_
  by_cases woken : start.writers ≠ 0
  · rw [decide_eq_true woken]
    refine .of_ends .toWriter ⟨?_, rfl, ?_, ?_⟩ ?_
    · exact Nat.succ_pred_eq_of_ne_zero woken
    · rw [attempted]
    · rw [readerCount, attempted]
      exact released.noReaders
    · rw [attempted]
  · rw [decide_eq_false woken]
    rw [not_not] at woken
    have same : start.writers - 1 = start.writers := by omega
    have asked := readWaiterBit_ne_iff
      (start.word ^^^ (writeWaiterBit ||| lockedBit))
    rw [attempted] at asked
    by_cases reading : (view start.word).readWaiter = true
    · obtain rfl := ordered.resolve_right (by rw [reading]; exact Bool.false_ne_true.symm)
      rw [transferWoken, if_neg Bool.false_ne_true, if_pos (asked.mpr reading),
        same]
      obtain ⟨prev, shown, reaches⟩ :=
        reaches_dropped backend
          { word := start.word ^^^ (writeWaiterBit ||| lockedBit)
            fairness := start.fairness + 1
            writers := start.writers
            readers := start.readers }
          after (.inr rfl) (by rw [attempted]; rfl)
          (by rw [attempted]; exact reading) (by rw [attempted]; exact empty)
          released.few
      refine .before reaches ?_
      rw [attempted] at shown
      exact completes_dropped shown rfl released.few fun _ => ⟨woken, rfl⟩
    · have noReaders : start.readers = 0 := by
        by_contra some
        exact reading (released.readers (Nat.pos_of_ne_zero some))
      have code :
          transferWoken preference start.word after false =
            .goto (.transferAnd preference after) := by
        cases preference with
        | writer =>
            rw [transferWoken, if_neg Bool.false_ne_true,
              if_neg fun asks => reading (asked.mp asks)]
        | readers => rw [transferWoken, if_neg Bool.false_ne_true]
      rw [Bool.not_eq_true] at reading
      have shown :
          view ((start.word ^^^ (writeWaiterBit ||| lockedBit)) &&&
              ~~~lockedBit) =
            ⟨false, false, false, 0#21, (view start.word).phase⟩ := by
        simp only [view_and_not_lockedBit, attempted, reading, empty]
      rw [code, same]
      refine .before (reaches_released preference ?_ ?_) ?_
      · rw [attempted]
      · rw [hasNoWaiters_iff, attempted]
        exact ⟨reading, rfl⟩
      · refine .of_ends .toNobody ⟨woken, noReaders, woken, noReaders, ?_⟩ ?_
        · exact word_eq_bits shown
        · rw [shown]

/-- The entry of `transfer_lock` on a released lock. -/
theorem reaches_loop
    (backend : Backend)
    (after : After)
    (released : start.Released) :
    ∃ preference,
      Reaches backend (start, transferLock start.word after)
        (start, transferLoop preference start.word after) := by
  rw [transferLock,
    assert_true ((free_iff _).mpr ⟨released.unlocked, released.noReaders⟩),
    assert_true
      (show (start.word &&& (readWaiterBit ||| writeWaiterBit) != 0) = true from
        released.waiters)]
  by_cases prefers : backend.preferWakeOneWriter start.fairness = true
  · refine ⟨.writer, .step rfl ?_⟩
    dsimp only [id]
    rw [if_pos prefers]
    exact .refl _ _
  · refine ⟨.readers, .step rfl ?_⟩
    dsimp only [id]
    rw [if_neg prefers]
    exact .refl _ _

/-- Both loops take the lock for a writer if no reader waits. -/
theorem transferLoop_eq
    {cur : U32}
    (preference : Preference)
    (waiting : (view cur).writeWaiter = true)
    (reading : ¬(view cur).readWaiter = true) :
    transferLoop preference cur after =
      .goto (.transferXor preference cur after) := by
  have asks := (writeWaiterBit_ne_iff cur).mpr waiting
  have quiet : ¬(cur &&& readWaiterBit != 0) = true :=
    fun reads => reading ((readWaiterBit_ne_iff cur).mp reads)
  cases preference with
  | writer => rw [transferLoop, if_pos asks]
  | readers => rw [transferLoop, if_neg quiet, assert_true asks]

/-- A hand over when only the write waiter bit is set. -/
theorem completes_writer
    (released : start.Released)
    (waiting : (view start.word).writeWaiter = true)
    (reading : ¬(view start.word).readWaiter = true) :
    Completes backend start after (start, transferLock start.word after) := by
  obtain ⟨preference, reaches⟩ := reaches_loop backend after released
  refine .before reaches ?_
  rw [transferLoop_eq preference waiting reading]
  exact completes_attempt preference released waiting
    (.inr (Bool.eq_false_of_not_eq_true reading))

/-- A hand over to the readers, or to a writer if there are none. -/
theorem completes_wake
    (released : start.Released)
    (reading : (view start.word).readWaiter = true) :
    Completes backend start after
      (start, .goto (.wakeXor 0 (.releasing after))) := by
  obtain ⟨prev, shown, reaches⟩ :=
    reaches_dropped backend start after (.inl rfl) released.unlocked reading
      released.readers_eq released.few
  refine .before reaches ?_
  by_cases some : start.readers = 0
  · by_cases waiting : (view start.word).writeWaiter = true
    · have dropped :=
        view_dropped
          { view start.word with readWaiter := false, locked := false } shown
          released.few
      rw [some] at dropped
      have handing :
          readDropped after prev = transferLock (prev - readerUnity) after := by
        rw [readDropped, if_pos]
        rw [Bool.and_eq_true, Bool.and_eq_true, hasOneReader_iff,
          isNotWriteLocked_iff, hasWaiters_iff, readerCount, shown, some]
        exact ⟨⟨rfl, rfl⟩, .inr waiting⟩
      rw [handing]
      have inner :
          Released
            { word := prev - readerUnity
              fairness := 1
              writers := start.writers
              readers := 0 } := by
        constructor
        · rw [dropped]
        · rw [readerCount, dropped]
          rfl
        · rw [hasWaiters_iff, dropped]
          exact .inr waiting
        · intro _
          rw [dropped]
          exact waiting
        · exact fun positive => absurd positive (Nat.lt_irrefl 0)
        · exact Nat.sub_pos_of_lt (Nat.one_lt_two_pow (by decide))
      refine (completes_writer inner ?_ ?_).inner rfl some.symm ?_
      · rw [dropped]
        exact waiting
      · rw [dropped]
        exact Bool.false_ne_true
      · rw [dropped]
    · refine completes_dropped shown rfl released.few fun _ => ⟨?_, ?_⟩
      · by_contra writers
        exact waiting (released.writers (Nat.pos_of_ne_zero writers))
      · exact Bool.eq_false_of_not_eq_true waiting
  · exact completes_dropped shown rfl released.few fun none => absurd none some

end Code

/--
Alone, `transfer_lock` hands a released lock over to one writer, to all readers
or to nobody, for a word and parked threads as they are left by the waiters.
-/
theorem transfer_lock_completes
    (backend : Backend)
    (start : Unopposed)
    (after : After)
    (released : start.Released) :
    Completes backend start after (start, transferLock start.word after) := by
  by_cases reading : (view start.word).readWaiter = true
  · obtain ⟨preference, reaches⟩ := reaches_loop backend after released
    refine .before reaches ?_
    have writes := writeWaiterBit_ne_iff start.word
    have reads := (readWaiterBit_ne_iff start.word).mpr reading
    cases preference with
    | readers =>
        rw [transferLoop, if_pos reads]
        exact completes_wake released reading
    | writer =>
        by_cases waiting : (view start.word).writeWaiter = true
        · rw [transferLoop, if_pos (writes.mpr waiting)]
          exact completes_attempt .writer released waiting (.inl rfl)
        · rw [transferLoop, if_neg fun asks => waiting (writes.mp asks),
            if_pos reads]
          exact completes_wake released reading
  · have waiters := (hasWaiters_iff start.word).mp released.waiters
    exact completes_writer released (waiters.resolve_left reading) reading

/-- One writer and two readers are parked. -/
theorem transfer_lock_completes_three :
    Completes .linux
      { word := writeWaiterBit ||| readWaiterBit
        fairness := 0
        writers := 1
        readers := 2 }
      .done
      ({ word := writeWaiterBit ||| readWaiterBit
         fairness := 0
         writers := 1
         readers := 2 },
        transferLock (writeWaiterBit ||| readWaiterBit) .done) :=
  transfer_lock_completes .linux _ .done
    { unlocked := rfl
      noReaders := rfl
      waiters := rfl
      writers := fun _ => rfl
      readers := fun _ => rfl
      few := by decide }

end Unopposed

end StaticInit.Sync
