import StaticInit.PhaseLocker.Sync.Sound
import StaticInit.PhaseLocker.Sync.System

namespace StaticInit.Sync

/-!
# What a thread holds and relies on

A thread holds the share of its place and of the guards it owns.  The lemmas
below say how each kind of step changes the share of one thread, and that what
a thread relies on is kept while the other threads change the word.
-/

open LockWord (view)

section Frames

variable {before after : U32} {share rest : Share}

private theorem eq_true_of_toNat_le
    {bit : Bool}
    (more : true.toNat ≤ bit.toNat) :
    bit = true := by
  cases bit with
  | true => rfl
  | false => exact absurd more (by decide)

theorem Frame.phase_kept
    (frame : Frame before after rest)
    (lower : share ≤ rest)
    (holds : 0 < share.units + share.owner) :
    (view after).phase = (view before).phase := by
  rw [Share.le_iff] at lower
  rcases frame.phase with same | ⟨noUnits, noOwner⟩
  · exact same
  · omega

theorem Frame.writeWaiter_kept
    (frame : Frame before after rest)
    (lower : share ≤ rest)
    (holds : 0 < share.owner + share.passing)
    (marked : (view before).writeWaiter = true) :
    (view after).writeWaiter = true := by
  rw [Share.le_iff] at lower
  have more := frame.writeWaiter.resolve_right (by omega)
  rw [writeWaiterCount, writeWaiterCount, marked] at more
  exact eq_true_of_toNat_le more

theorem Frame.readWaiter_kept
    (frame : Frame before after rest)
    (lower : share ≤ rest)
    (holds : 0 < share.owner + share.passing + share.waker)
    (marked : (view before).readWaiter = true) :
    (view after).readWaiter = true := by
  rw [Share.le_iff] at lower
  have more := frame.readWaiter.resolve_right (by omega)
  rw [readWaiterCount, readWaiterCount, marked] at more
  exact eq_true_of_toNat_le more

theorem Frame.fewReaders_kept
    (frame : Frame before after rest)
    (lower : share ≤ rest)
    (holds : 0 < share.waker)
    (few : readerCount before < 2 ^ 20) :
    readerCount after < 2 ^ 20 := by
  rw [Share.le_iff] at lower
  rcases frame.fewReaders with still | many | noWaker
  · exact still
  · omega
  · omega

/-- What a place relies on is kept while others change the word. -/
theorem Pc.Relies.kept
    {pc : Pc}
    (relies : pc.Relies before)
    (frame : Frame before after rest)
    (lower : pc.share ≤ rest) :
    pc.Relies after := by
  cases pc with
  | dropLockCas lock next =>
      exact relies.trans (frame.phase_kept lower Nat.one_pos).symm
  | dropLockXor lock next =>
      exact relies.trans (frame.phase_kept lower Nat.one_pos).symm
  | convertXor lock cur converter =>
      have same := frame.phase_kept lower Nat.one_pos
      exact ⟨relies.1.trans same.symm, relies.2.trans same.symm⟩
  | dropReadSub lock next =>
      exact relies.trans (frame.phase_kept lower Nat.one_pos).symm
  | transferPrefer cur next =>
      exact ⟨relies.1,
        fun marked =>
          frame.writeWaiter_kept lower Nat.one_pos (relies.2.1 marked),
        fun marked =>
          frame.readWaiter_kept lower Nat.one_pos (relies.2.2 marked)⟩
  | transferXor preference cur next =>
      exact ⟨frame.writeWaiter_kept lower Nat.one_pos relies.1,
        fun marked =>
          frame.readWaiter_kept lower Nat.one_pos (relies.2 marked)⟩
  | transferFairness preference cur next =>
      exact fun marked =>
        frame.readWaiter_kept lower Nat.one_pos (relies marked)
  | transferWake preference cur next =>
      exact fun marked =>
        frame.readWaiter_kept lower Nat.one_pos (relies marked)
  | wakeXor toUnactivate waker =>
      cases waker with
      | converting converter =>
          exact ⟨frame.readWaiter_kept lower Nat.one_pos relies.1,
            relies.2.1, frame.fewReaders_kept lower Nat.one_pos relies.2.2⟩
      | releasing next =>
          refine ⟨frame.readWaiter_kept lower ?_ relies.1, relies.2⟩
          rw [Pc.share, Waker.share]
          split
          case isTrue => exact Nat.one_pos
          case isFalse => exact Nat.one_pos
  | cloneLoad guard spinWait =>
      exact relies.trans (frame.phase_kept lower Nat.one_pos).symm
  | cloneCas guard spinWait cur =>
      exact ⟨relies.1.trans (frame.phase_kept lower Nat.one_pos).symm,
        relies.2⟩
  | cloneReadLoad guard spinWait =>
      exact relies.trans (frame.phase_kept lower Nat.one_pos).symm
  | cloneSetWaiter guard spinWait cur =>
      exact relies.trans (frame.phase_kept lower Nat.one_pos).symm
  | cloneWait guard cur =>
      exact relies.trans (frame.phase_kept lower Nat.one_pos).symm
  | parkedClone guard =>
      exact relies.trans (frame.phase_kept lower Nat.one_pos).symm
  | cloneWoken guard =>
      exact relies.trans (frame.phase_kept lower Nat.two_pos).symm
  | _ => exact relies

/-- What guards show is kept while others change the word. -/
theorem GuardsRely.kept
    {locks : List Lock}
    {readLocks : List ReadLock}
    (relies : GuardsRely before locks readLocks)
    (frame : Frame before after rest)
    (lower : guardShare locks readLocks ≤ rest) :
    GuardsRely after locks readLocks := by
  constructor
  · intro lock member
    have holds := List.length_pos_of_mem member
    rw [relies.1 lock member]
    apply (frame.phase_kept lower _).symm
    exact Nat.add_pos_right _ holds
  · intro lock member
    have holds := List.length_pos_of_mem member
    rw [relies.2 lock member]
    apply (frame.phase_kept lower _).symm
    exact Nat.add_pos_left holds _

end Frames

/-- What a thread holds of the locker. -/
def Thread.share (thread : Thread) : Share :=
  thread.pc.share + guardShare thread.locks thread.readLocks

/-- What a thread relies on. -/
def Thread.Relies (word : U32) (thread : Thread) : Prop :=
  thread.pc.Relies word ∧ GuardsRely word thread.locks thread.readLocks

/-- The share of the place or the guards that local code ends with. -/
def Next.share : Next → Share
  | .goto pc => pc.share
  | .ret result => result.share
  | .panic _ => {}

/-- What the place or the guards that local code ends with rely on. -/
def Next.Relies (word : U32) : Next → Prop
  | .goto pc => pc.Relies word
  | .ret result => GuardsRely word result.locks result.readLocks
  | .panic _ => True

theorem guardShare_append
    (locks moreLocks : List Lock)
    (readLocks moreReadLocks : List ReadLock) :
    guardShare (locks ++ moreLocks) (readLocks ++ moreReadLocks) =
      guardShare locks readLocks + guardShare moreLocks moreReadLocks := by
  apply Share.ext <;> simp [guardShare]

theorem GuardsRely.append
    {word : U32}
    {locks moreLocks : List Lock}
    {readLocks moreReadLocks : List ReadLock}
    (first : GuardsRely word locks readLocks)
    (second : GuardsRely word moreLocks moreReadLocks) :
    GuardsRely word (locks ++ moreLocks) (readLocks ++ moreReadLocks) := by
  constructor
  · intro lock member
    rcases List.mem_append.mp member with inFirst | inSecond
    · exact first.1 lock inFirst
    · exact second.1 lock inSecond
  · intro lock member
    rcases List.mem_append.mp member with inFirst | inSecond
    · exact first.2 lock inFirst
    · exact second.2 lock inSecond

/-- A continued thread keeps its guards next to what the local code gives. -/
theorem Thread.continue_share
    {thread continued : Thread}
    {next : Next}
    (continues : thread.continue next = .ok continued) :
    continued.share =
      next.share + guardShare thread.locks thread.readLocks := by
  cases next with
  | goto pc =>
      obtain rfl := Except.ok.inj continues
      rfl
  | ret result =>
      obtain rfl := Except.ok.inj continues
      rw [Thread.share, guardShare_append]
      exact zero_add _
  | panic assertion => cases continues

theorem Thread.continue_relies
    {word : U32}
    {thread continued : Thread}
    {next : Next}
    (continues : thread.continue next = .ok continued)
    (relies : next.Relies word)
    (guards : GuardsRely word thread.locks thread.readLocks) :
    continued.Relies word := by
  cases next with
  | goto pc =>
      obtain rfl := Except.ok.inj continues
      exact ⟨relies, guards⟩
  | ret result =>
      obtain rfl := Except.ok.inj continues
      exact ⟨trivial, relies.append guards⟩
  | panic assertion => cases continues

/-- A thread's whole share bounds what it relies on. -/
theorem Thread.Relies.kept
    {before after : U32}
    {rest : Share}
    {thread : Thread}
    (relies : thread.Relies before)
    (frame : Frame before after rest)
    (lower : thread.share ≤ rest) :
    thread.Relies after := by
  have pcLower : thread.pc.share ≤ rest :=
    le_trans (le_add_of_nonneg_right (Share.nonneg _)) lower
  have guardsLower : guardShare thread.locks thread.readLocks ≤ rest :=
    le_trans (le_add_of_nonneg_left (Share.nonneg _)) lower
  exact ⟨relies.1.kept frame pcLower, relies.2.kept frame guardsLower⟩

/-- A wake comes with counted readers. -/
def Share.WakerCounted (share : Share) : Prop :=
  share.waker ≤ share.units

/-- A wake is held together with counted readers. -/
theorem Thread.waker_le_units (thread : Thread) :
    thread.share.waker ≤ thread.share.units := by
  have atPlace : thread.pc.share.waker ≤ thread.pc.share.units := by
    cases thread.pc with
    | writerCountSub closures res => cases res <;> simp [Pc.share]
    | wakeXor toUnactivate waker =>
        cases waker with
        | converting converter => simp [Pc.share, Waker.share]
        | releasing next =>
            rw [Pc.share, Waker.share]
            split <;> simp
    | _ => simp [Pc.share]
  exact Nat.le_trans atPlace (Nat.le_add_right _ _)

theorem guardShare_eraseLock
    {locks : List Lock}
    {index : Nat}
    {lock : Lock}
    (readLocks : List ReadLock)
    (found : locks[index]? = some lock) :
    { owner := 1 } + guardShare (locks.eraseIdx index) readLocks =
      guardShare locks readLocks := by
  obtain ⟨inside, -⟩ := List.getElem?_eq_some_iff.mp found
  apply Share.ext <;> simp [guardShare, List.length_eraseIdx, inside]
  omega

theorem guardShare_eraseReadLock
    {readLocks : List ReadLock}
    {index : Nat}
    {lock : ReadLock}
    (locks : List Lock)
    (found : readLocks[index]? = some lock) :
    { units := 1 } + guardShare locks (readLocks.eraseIdx index) =
      guardShare locks readLocks := by
  obtain ⟨inside, -⟩ := List.getElem?_eq_some_iff.mp found
  apply Share.ext <;> simp [guardShare, List.length_eraseIdx, inside]
  omega

theorem GuardsRely.eraseLock
    {word : U32}
    {locks : List Lock}
    {readLocks : List ReadLock}
    (relies : GuardsRely word locks readLocks)
    (index : Nat) :
    GuardsRely word (locks.eraseIdx index) readLocks :=
  ⟨fun lock member => relies.1 lock (List.mem_of_mem_eraseIdx member),
    relies.2⟩

theorem GuardsRely.eraseReadLock
    {word : U32}
    {locks : List Lock}
    {readLocks : List ReadLock}
    (relies : GuardsRely word locks readLocks)
    (index : Nat) :
    GuardsRely word locks (readLocks.eraseIdx index) :=
  ⟨relies.1,
    fun lock member => relies.2 lock (List.mem_of_mem_eraseIdx member)⟩

/-- What a started operation makes of its thread. -/
theorem Thread.start_cases
    {thread started : Thread}
    {op : UserOp}
    (starts : thread.start op = some started) :
    thread.pc = .idle ∧
      ((∃ call, started = { thread with pc := .optimistic call }) ∨
        (∃ index lock pc,
          thread.locks[index]? = some lock ∧
            (pc = .dropLockCas lock .done ∨
              pc = .convertXor lock lock.initPhase .guard) ∧
            started =
              { thread with
                pc := pc
                locks := thread.locks.eraseIdx index }) ∨
        (∃ index lock pc,
          thread.readLocks[index]? = some lock ∧
            (pc = .dropReadSub lock .done ∨ pc = .cloneLoad lock .new) ∧
            started =
              { thread with
                pc := pc
                readLocks := thread.readLocks.eraseIdx index }) ∨
        ∃ index lock phase,
          thread.locks[index]? = some lock ∧
            started =
              { thread with
                locks :=
                  thread.locks.set index
                    { lock with onUnlock := phase } }) := by
  unfold Thread.start at starts
  split at starts
  case h_1 idle =>
    refine ⟨idle, ?_⟩
    cases op with
    | lock closures hint =>
        obtain rfl := Option.some.inj starts
        exact .inl ⟨_, rfl⟩
    | tryLock how hint =>
        obtain rfl := Option.some.inj starts
        exact .inl ⟨_, rfl⟩
    | dropLock index =>
        obtain ⟨lock, found, rfl⟩ := Option.map_eq_some_iff.mp starts
        exact .inr (.inl ⟨index, lock, _, found, .inl rfl, rfl⟩)
    | dropReadLock index =>
        obtain ⟨lock, found, rfl⟩ := Option.map_eq_some_iff.mp starts
        exact .inr (.inr (.inl ⟨index, lock, _, found, .inl rfl, rfl⟩))
    | clone index =>
        obtain ⟨lock, found, rfl⟩ := Option.map_eq_some_iff.mp starts
        exact .inr (.inr (.inl ⟨index, lock, _, found, .inr rfl, rfl⟩))
    | convert index =>
        obtain ⟨lock, found, rfl⟩ := Option.map_eq_some_iff.mp starts
        exact .inr (.inl ⟨index, lock, _, found, .inr rfl, rfl⟩)
    | setPhase index phase =>
        obtain ⟨lock, found, rfl⟩ := Option.map_eq_some_iff.mp starts
        exact .inr (.inr (.inr ⟨index, lock, phase, found, rfl⟩))
  case h_2 => cases starts

/-- Starting an operation moves a guard into the locker, at most. -/
theorem Thread.start_share
    {thread started : Thread}
    {op : UserOp}
    (starts : thread.start op = some started) :
    started.share = thread.share := by
  obtain ⟨idle, cases⟩ := Thread.start_cases starts
  have share :
      thread.share = guardShare thread.locks thread.readLocks := by
    rw [Thread.share, idle]
    exact zero_add _
  rw [share]
  rcases cases with ⟨call, rfl⟩ | ⟨index, lock, pc, found, place, rfl⟩ |
    ⟨index, lock, pc, found, place, rfl⟩ | ⟨index, lock, phase, found, rfl⟩
  · exact zero_add _
  · rw [← guardShare_eraseLock thread.readLocks found]
    rcases place with rfl | rfl <;> rfl
  · rw [← guardShare_eraseReadLock thread.locks found]
    rcases place with rfl | rfl <;> rfl
  · rw [Thread.share, idle]
    apply Share.ext <;> simp [guardShare, Pc.share]

theorem Thread.start_relies
    {word : U32}
    {thread started : Thread}
    {op : UserOp}
    (relies : thread.Relies word)
    (starts : thread.start op = some started) :
    started.Relies word := by
  obtain ⟨idle, cases⟩ := Thread.start_cases starts
  rcases cases with ⟨call, rfl⟩ | ⟨index, lock, pc, found, place, rfl⟩ |
    ⟨index, lock, pc, found, place, rfl⟩ | ⟨index, lock, phase, found, rfl⟩
  · exact ⟨trivial, relies.2⟩
  · refine ⟨?_, relies.2.eraseLock index⟩
    have shown := relies.2.1 lock (List.mem_of_getElem? found)
    rcases place with rfl | rfl
    · exact shown
    · exact ⟨shown, shown⟩
  · refine ⟨?_, relies.2.eraseReadLock index⟩
    have shown := relies.2.2 lock (List.mem_of_getElem? found)
    rcases place with rfl | rfl
    · exact shown
    · exact shown
  · refine ⟨relies.1, ?_, relies.2.2⟩
    intro changed member
    rcases List.mem_or_eq_of_mem_set member with kept | rfl
    · exact relies.2.1 changed kept
    · exact relies.2.1 lock (List.mem_of_getElem? found)

/-- An interrupted wait keeps its share. -/
theorem Pc.interrupted_share
    {pc after : Pc}
    (interrupts : pc.interrupted = some after) :
    after.share = pc.share := by
  cases pc with
  | parkedWriter closures =>
      obtain rfl := Option.some.inj interrupts
      rfl
  | parkedReader closures =>
      obtain rfl := Option.some.inj interrupts
      rfl
  | parkedClone guard =>
      obtain rfl := Option.some.inj interrupts
      rfl
  | _ => cases interrupts

theorem Pc.interrupted_relies
    {word : U32}
    {pc after : Pc}
    (relies : pc.Relies word)
    (interrupts : pc.interrupted = some after) :
    after.Relies word := by
  cases pc with
  | parkedWriter closures =>
      obtain rfl := Option.some.inj interrupts
      trivial
  | parkedReader closures =>
      obtain rfl := Option.some.inj interrupts
      trivial
  | parkedClone guard =>
      obtain rfl := Option.some.inj interrupts
      exact relies
  | _ => cases interrupts

/-- A woken writer holds the write lock it was given. -/
theorem Pc.wokenWriter_share
    {pc woken : Pc}
    (wakes : pc.wokenWriter = some woken) :
    woken.share = pc.share + { owner := 1 } := by
  cases pc with
  | parkedWriter closures =>
      obtain rfl := Option.some.inj wakes
      rfl
  | _ => cases wakes

/-- A woken reader holds one more counted unit. -/
theorem Pc.wokenReader_share
    {pc woken : Pc}
    (wakes : pc.wokenReader = some woken) :
    woken.share = pc.share + { units := 1 } := by
  cases pc with
  | parkedReader closures =>
      obtain rfl := Option.some.inj wakes
      rfl
  | parkedClone guard =>
      obtain rfl := Option.some.inj wakes
      rfl
  | _ => cases wakes

theorem Pc.wokenWriter_relies
    {word : U32}
    {pc woken : Pc}
    (wakes : pc.wokenWriter = some woken) :
    woken.Relies word := by
  cases pc with
  | parkedWriter closures =>
      obtain rfl := Option.some.inj wakes
      trivial
  | _ => cases wakes

theorem Pc.wokenReader_relies
    {word : U32}
    {pc woken : Pc}
    (relies : pc.Relies word)
    (wakes : pc.wokenReader = some woken) :
    woken.Relies word := by
  cases pc with
  | parkedReader closures =>
      obtain rfl := Option.some.inj wakes
      trivial
  | parkedClone guard =>
      obtain rfl := Option.some.inj wakes
      exact relies
  | _ => cases wakes

/-- The place before a wake of a writer. -/
theorem wokenWriter_none_of_wake
    {backend : Backend}
    {pc : Pc}
    {next : Bool → Next}
    (wakes : pc.instr backend = .wakeOneWriter next) :
    pc.wokenWriter = none := by
  cases pc with
  | parkedWriter closures => cases wakes
  | _ => rfl

/-- The place before a wake of readers. -/
theorem wokenReader_none_of_wake
    {backend : Backend}
    {pc : Pc}
    {next : Nat → Next}
    (wakes : pc.instr backend = .wakeReaders next) :
    pc.wokenReader = none := by
  cases pc with
  | parkedReader closures => cases wakes
  | parkedClone guard => cases wakes
  | _ => rfl

theorem nsmul_units (count : Nat) :
    count • ({ units := 1 } : Share) = { units := count } := by
  induction count with
  | zero => exact zero_nsmul _
  | succ count inductionHypothesis =>
      rw [succ_nsmul, inductionHypothesis]
      rfl

end StaticInit.Sync
