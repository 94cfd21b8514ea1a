import StaticInit.PhaseLocker.Sync.Bits
import StaticInit.Runs

namespace StaticInit.UnSync

/-!
# The phase locker of a single thread

`UnSyncPhaseLocker` keeps the phase, the lock bit and a reader count in one
`Cell<u32>`, with the layout of the futex word.  The functions on the cell are
those of the source; a state adds the guards that are alive, as their owners
see them.  A read guard holds nothing but the reference to the cell, so the
live read guards are a number.
-/

open LockWord (view)

/-- `UnSyncPhaseGuard`, without the two references. -/
structure WriteGuard where
  phase : Phase
  deriving Repr, DecidableEq

/-- The panics of the locker. -/
inductive Panic where
  | mutableWhileBorrowed
  | sharedWhileMutable
  | maximalShared
  | addOverflow
  deriving Repr, DecidableEq

def Panic.message : Panic → String
  | .mutableWhileBorrowed =>
      "Cannot get a mutable reference if it is already mutably borrowed"
  | .sharedWhileMutable =>
      "Cannot get a shared reference if it is alread mutably borrowed"
  | .maximalShared => "Maximal number of shared borrow reached."
  | .addOverflow => "called `Option::unwrap()` on a `None` value"

/-- `u32::checked_add`. -/
def checkedAdd (value other : U32) : Option U32 :=
  if value.toNat + other.toNat < 2 ^ 32 then
    some (value + other)
  else
    none

/-- `checked_add(READER_UNITY).unwrap()`. -/
def addReader (cell : U32) : Except Panic U32 :=
  match checkedAdd cell readerUnity with
  | some cell => .ok cell
  | none => .error .addOverflow

def phase (cell : U32) : Phase :=
  .fromBitsTruncate cell

/-- `UnSyncPhaseGuard::new`. -/
def WriteGuard.new (cell : U32) : WriteGuard :=
  ⟨.fromBitsTruncate cell⟩

/-- The cell after `try_lock`, and its result. -/
def tryLock
    (cell : U32)
    (lockNature : Phase → LockNature) :
    Except Panic (U32 × Option (LockResult Unit WriteGuard)) :=
  match lockNature (phase cell) with
  | .write =>
      if cell &&& (lockedBit ||| readerBits) != 0 then
        .ok (cell, none)
      else
        .ok (cell ||| lockedBit, some (.write (.new (cell ||| lockedBit))))
  | .read =>
      if cell &&& lockedBit != 0 || cell &&& readerBits == readerBits then
        .ok (cell, none)
      else
        (addReader cell).map fun cell => (cell, some (.read ()))
  | .none => .ok (cell, some (.none (phase cell)))

/-- The cell after `lock`, and its result. -/
def lock
    (cell : U32)
    (lockNature : Phase → LockNature) :
    Except Panic (U32 × LockResult Unit WriteGuard) :=
  match lockNature (phase cell) with
  | .write =>
      if cell &&& (lockedBit ||| readerBits) == 0 then
        .ok (cell ||| lockedBit, .write (.new (cell ||| lockedBit)))
      else
        .error .mutableWhileBorrowed
  | .read =>
      if cell &&& lockedBit == 0 then
        if cell &&& readerBits != readerBits then
          (addReader cell).map fun cell => (cell, .read ())
        else
          .error .maximalShared
      else
        .error .sharedWhileMutable
  | .none => .ok (cell, .none (phase cell))

/-- `Drop for UnSyncPhaseGuard`. -/
def dropWrite (guard : WriteGuard) : U32 :=
  guard.phase.bits

/-- `From<UnSyncPhaseGuard> for UnSyncReadPhaseGuard`. -/
def convert (guard : WriteGuard) : U32 :=
  guard.phase.bits ||| readerUnity

def commitPhase (guard : WriteGuard) : U32 :=
  guard.phase.bits ||| lockedBit

/-- `Clone for UnSyncReadPhaseGuard`. -/
def clone (cell : U32) : Except Panic U32 :=
  addReader cell

/-- `Drop for UnSyncReadPhaseGuard`. -/
def dropRead (cell : U32) : U32 :=
  cell - readerUnity

/-- The locker and its live guards. -/
structure State where
  cell : U32
  writeGuards : List WriteGuard
  readGuards : Nat

/-- `UnSyncPhaseLocker::new`. -/
def State.new (phase : Phase) : State :=
  ⟨phase.bits, [], 0⟩

/-- A use of the locker or of a live guard; write guards are given by position. -/
inductive Op where
  | lock (lockNature : Phase → LockNature)
  | tryLock (lockNature : Phase → LockNature)
  /-- `set_phase`, and each of the two assignments of `transition`. -/
  | setPhase (index : Nat) (phase : Phase)
  | commitPhase (index : Nat)
  | dropWrite (index : Nat)
  | convert (index : Nat)
  /-- `map` whose function returns; one that panics drops the guard instead. -/
  | mapWrite (index : Nat)
  | clone
  | mapRead
  | dropRead

namespace State

/-- Take over the guard that a lock gave. -/
def receive
    (state : State)
    (cell : U32) : LockResult Unit WriteGuard → State
  | .write guard =>
      { state with cell := cell, writeGuards := guard :: state.writeGuards }
  | .read () =>
      { state with cell := cell, readGuards := state.readGuards + 1 }
  | .none _ => { state with cell := cell }

/-- Use a locker: not possible, a panic, or a new state. -/
def exec (state : State) : Op → Option (Except Panic State)
  | .lock lockNature =>
      some <| (UnSync.lock state.cell lockNature).map fun (cell, result) =>
        state.receive cell result
  | .tryLock lockNature =>
      some <| (UnSync.tryLock state.cell lockNature).map fun (cell, result) =>
        match result with
        | some result => state.receive cell result
        | none => { state with cell := cell }
  | .setPhase index phase =>
      state.writeGuards[index]?.map fun _ =>
        .ok { state with writeGuards := state.writeGuards.set index ⟨phase⟩ }
  | .commitPhase index =>
      state.writeGuards[index]?.map fun guard =>
        .ok { state with cell := UnSync.commitPhase guard }
  | .dropWrite index =>
      state.writeGuards[index]?.map fun guard =>
        .ok
          { state with
            cell := UnSync.dropWrite guard
            writeGuards := state.writeGuards.eraseIdx index }
  | .convert index =>
      state.writeGuards[index]?.map fun guard =>
        .ok
          { cell := UnSync.convert guard
            writeGuards := state.writeGuards.eraseIdx index
            readGuards := state.readGuards + 1 }
  | .mapWrite index =>
      state.writeGuards[index]?.map fun guard =>
        .ok
          { state with
            writeGuards := state.writeGuards.set index ⟨guard.phase⟩ }
  | .clone =>
      if 0 < state.readGuards then
        some <| (UnSync.clone state.cell).map fun cell =>
          { state with cell := cell, readGuards := state.readGuards + 1 }
      else
        none
  | .mapRead =>
      if 0 < state.readGuards then
        some (.ok state)
      else
        none
  | .dropRead =>
      if 0 < state.readGuards then
        some <| .ok
          { state with
            cell := UnSync.dropRead state.cell
            readGuards := state.readGuards - 1 }
      else
        none

/-- One use; a use that panics leaves the locker and the guards as they are. -/
def Step (state : State) (op : Op) (after : State) : Prop :=
  state.exec op = some (.ok after) ∨
    ∃ panic, state.exec op = some (.error panic) ∧ after = state

/-- The reader count in the cell. -/
def encodedReaders (state : State) : Nat :=
  ((state.cell &&& readerBits) / readerUnity).toNat

/-- What the live guards rely on. -/
structure Exclusive (state : State) : Prop where
  alone :
    state.writeGuards ≠ [] →
      state.writeGuards.length = 1 ∧ state.readGuards = 0
  counted : state.encodedReaders = state.readGuards
  /-- Dropping a read guard does not underflow. -/
  droppable : 0 < state.readGuards → readerUnity ≤ state.cell

/-- What the cell shows as long as no clone overflows the reader count. -/
structure Inv (state : State) : Prop where
  locked : (view state.cell).locked.toNat = state.writeGuards.length
  counted : Sync.readerCount state.cell = state.readGuards
  few : state.readGuards < 2 ^ 20
  alone : state.writeGuards ≠ [] → state.readGuards = 0

end State

section Cells

variable {cell : U32}

theorem writable_iff :
    cell &&& (lockedBit ||| readerBits) = 0 ↔
      (view cell).locked = false ∧ Sync.readerCount cell % 2 ^ 20 = 0 := by
  rw [← LockWord.view_inj, Sync.readerCount,
    ← Nat.and_two_pow_sub_one_eq_mod]
  simp [← BitVec.toNat_inj]

theorem unlocked_iff :
    cell &&& lockedBit = 0 ↔ (view cell).locked = false := by
  rw [← Sync.isNotWriteLocked_iff, Sync.isNotWriteLocked, beq_iff_eq]

theorem saturated_iff :
    cell &&& readerBits = readerBits ↔
      Sync.readerCount cell % 2 ^ 20 = 2 ^ 20 - 1 := by
  rw [← Sync.hasReadersMax_iff, Sync.hasReadersMax, beq_iff_eq]

/-- The count in the cell drops the overflow bit. -/
theorem encodedReaders_eq (state : State) :
    state.encodedReaders = Sync.readerCount state.cell % 2 ^ 20 := by
  have low :
      ((view state.cell).readers &&& 0xFFFFF#21).toNat =
        Sync.readerCount state.cell % 2 ^ 20 := by
    rw [BitVec.toNat_and, ← Nat.and_two_pow_sub_one_eq_mod]
    rfl
  have fields := LockWord.toNat_eq (state.cell &&& readerBits)
  simp only [LockWord.view_and, LockWord.view_readerBits, Bool.and_false,
    Phase.and_empty, Bool.toNat_false, low] at fields
  rw [State.encodedReaders, BitVec.toNat_udiv, fields]
  change (0 * 2 ^ 31 + (0 * 2 ^ 30 + (0 * 2 ^ 29 + (_ + 0)))) / 2 ^ 8 = _
  omega

/-- The addition does not overflow while the overflow bit is clear. -/
theorem addReader_ok
    (room : Sync.readerCount cell < 2 ^ 20) :
    addReader cell = .ok (cell + readerUnity) := by
  have fields := LockWord.toNat_eq cell
  have waits := Bool.toNat_le (view cell).writeWaiter
  have reads := Bool.toNat_le (view cell).readWaiter
  have locks := Bool.toNat_le (view cell).locked
  have flags := (view cell).phase.flags.isLt
  rw [Sync.readerCount] at room
  have unity : readerUnity.toNat = 2 ^ 8 := rfl
  have fits : cell.toNat + readerUnity.toNat < 2 ^ 32 := by omega
  rw [addReader, checkedAdd, if_pos fits]

theorem view_addReader
    (room : Sync.readerCount cell < 2 ^ 20) :
    view (cell + readerUnity) =
      { view cell with readers := (view cell).readers + 1 } := by
  apply LockWord.view_add_readerUnity
  rw [Sync.readerCount] at room
  omega

theorem readerCount_addReader
    (room : Sync.readerCount cell < 2 ^ 20) :
    Sync.readerCount (cell + readerUnity) = Sync.readerCount cell + 1 := by
  rw [Sync.readerCount, view_addReader room, BitVec.toNat_add]
  rw [Sync.readerCount] at room ⊢
  exact Nat.mod_eq_of_lt (by simp; omega)

/-- What a lock gives for the cell it leaves. -/
inductive Grants (cell : U32) :
    U32 → LockResult Unit WriteGuard → Prop where
  | write
      (guard : WriteGuard)
      (writable : cell &&& (lockedBit ||| readerBits) = 0) :
      Grants cell (cell ||| lockedBit) (.write guard)
  | read
      {after : U32}
      (unlocked : cell &&& lockedBit = 0)
      (unsaturated : cell &&& readerBits ≠ readerBits)
      (added : addReader cell = .ok after) :
      Grants cell after (.read ())
  | none (phase : Phase) : Grants cell cell (.none phase)

theorem lock_grants
    {lockNature : Phase → LockNature}
    {after : U32}
    {result : LockResult Unit WriteGuard}
    (locks : lock cell lockNature = .ok (after, result)) :
    Grants cell after result := by
  unfold lock at locks
  cases nature : lockNature (phase cell) with
  | write =>
      rw [nature] at locks
      dsimp only at locks
      split at locks
      case isTrue writable =>
        cases locks
        exact .write _ (beq_iff_eq.mp writable)
      case isFalse => cases locks
  | read =>
      rw [nature] at locks
      dsimp only at locks
      split at locks
      case isTrue unlocked =>
        split at locks
        case isTrue unsaturated =>
          cases added : addReader cell with
          | ok sum =>
              rw [added] at locks
              cases locks
              exact .read (beq_iff_eq.mp unlocked)
                (bne_iff_ne.mp unsaturated) added
          | error panic =>
              rw [added] at locks
              cases locks
        case isFalse => cases locks
      case isFalse => cases locks
  | none =>
      rw [nature] at locks
      cases locks
      exact .none _

theorem tryLock_grants
    {lockNature : Phase → LockNature}
    {after : U32}
    {result : Option (LockResult Unit WriteGuard)}
    (locks : tryLock cell lockNature = .ok (after, result)) :
    (after = cell ∧ result = none) ∨
      ∃ given, result = some given ∧ Grants cell after given := by
  unfold tryLock at locks
  cases nature : lockNature (phase cell) with
  | write =>
      rw [nature] at locks
      dsimp only at locks
      split at locks
      case isTrue =>
        cases locks
        exact .inl ⟨rfl, rfl⟩
      case isFalse writable =>
        cases locks
        rw [bne_iff_ne, not_not] at writable
        exact .inr ⟨_, rfl, .write _ writable⟩
  | read =>
      rw [nature] at locks
      dsimp only at locks
      split at locks
      case isTrue =>
        cases locks
        exact .inl ⟨rfl, rfl⟩
      case isFalse readable =>
        rw [Bool.or_eq_true, not_or, bne_iff_ne, not_not, beq_iff_eq]
          at readable
        cases added : addReader cell with
        | ok sum =>
            rw [added] at locks
            cases locks
            exact .inr ⟨_, rfl, .read readable.1 readable.2 added⟩
        | error panic =>
            rw [added] at locks
            cases locks
  | none =>
      rw [nature] at locks
      cases locks
      exact .inr ⟨_, rfl, .none _⟩

end Cells

namespace State

/-- The cell shows the live guards, and so they are exclusive. -/
theorem Inv.exclusive
    {state : State}
    (inv : state.Inv) :
    state.Exclusive := by
  constructor
  · intro writing
    have locked := inv.locked
    have bound := Bool.toNat_le (view state.cell).locked
    have some := List.length_pos_iff.mpr writing
    exact ⟨by omega, inv.alone writing⟩
  · rw [encodedReaders_eq, inv.counted]
    exact Nat.mod_eq_of_lt inv.few
  · intro reading
    have counted := inv.counted
    have fields := LockWord.toNat_eq state.cell
    rw [Sync.readerCount] at counted
    rw [BitVec.le_def]
    change 2 ^ 8 ≤ _
    omega

/-- A granted guard is shown in the cell. -/
theorem Inv.receive
    {state : State}
    {cell : U32}
    {result : LockResult Unit WriteGuard}
    (inv : state.Inv)
    (grants : Grants state.cell cell result) :
    (state.receive cell result).Inv := by
  have few := inv.few
  have counted := inv.counted
  cases grants with
  | write guard writable =>
      obtain ⟨unlocked, noReaders⟩ := writable_iff.mp writable
      have nobody : state.readGuards = 0 := by omega
      have noWriter := inv.locked
      rw [unlocked] at noWriter
      constructor
      · simp only [State.receive, List.length_cons, ← noWriter]
        simp
      · simpa [State.receive, Sync.readerCount] using counted
      · exact few
      · exact fun _ => nobody
  | read unlocked unsaturated added =>
      rw [Ne, saturated_iff] at unsaturated
      rw [unlocked_iff] at unlocked
      have room : Sync.readerCount state.cell < 2 ^ 20 := by omega
      rw [addReader_ok room] at added
      cases added
      have noWriter := inv.locked
      rw [unlocked] at noWriter
      constructor
      · simp only [State.receive, view_addReader room]
        exact inv.locked
      · simp only [State.receive, readerCount_addReader room, counted]
      · simp only [State.receive]
        omega
      · intro writing
        exact absurd (List.length_eq_zero_iff.mp noWriter.symm) writing
  | none phase =>
      exact ⟨inv.locked, counted, few, inv.alone⟩

/-- A guard made anew from a phase: dropped, converted or committed. -/
theorem Inv.of_cell
    {state : State}
    (locked : (view state.cell).locked.toNat = state.writeGuards.length)
    (counted : Sync.readerCount state.cell = state.readGuards)
    (few : state.readGuards ≤ 1)
    (alone : state.writeGuards ≠ [] → state.readGuards = 0) :
    state.Inv :=
  ⟨locked, counted, by omega, alone⟩

/-- The only write guard, and no read guard next to it. -/
theorem Inv.only
    {state : State}
    {index : Nat}
    {guard : WriteGuard}
    (inv : state.Inv)
    (found : state.writeGuards[index]? = some guard) :
    state.writeGuards.length = 1 ∧ state.readGuards = 0 ∧
      state.writeGuards.eraseIdx index = [] := by
  have writing : state.writeGuards ≠ [] := by
    intro nobody
    rw [nobody] at found
    cases found
  obtain ⟨one, nobody⟩ := inv.exclusive.alone writing
  refine ⟨one, nobody, ?_⟩
  have within := (List.getElem?_eq_some_iff.mp found).1
  rw [← List.length_eq_zero_iff, List.length_eraseIdx_of_lt within, one]

/-- A use keeps the invariant, unless a clone fills the reader count. -/
theorem Inv.exec
    {state after : State}
    {op : Op}
    (inv : state.Inv)
    (room : op = .clone → state.readGuards + 1 < 2 ^ 20)
    (executes : state.exec op = some (.ok after)) :
    after.Inv := by
  cases op with
  | lock lockNature =>
      have executes := Option.some.inj executes
      cases locks : UnSync.lock state.cell lockNature with
      | ok given =>
          rw [locks] at executes
          cases executes
          exact inv.receive (lock_grants locks)
      | error panic =>
          rw [locks] at executes
          cases executes
  | tryLock lockNature =>
      have executes := Option.some.inj executes
      cases locks : UnSync.tryLock state.cell lockNature with
      | ok given =>
          rw [locks] at executes
          obtain ⟨cell, result⟩ := given
          cases executes
          rcases tryLock_grants locks with
            ⟨rfl, rfl⟩ | ⟨given, rfl, grants⟩
          · exact inv
          · exact inv.receive grants
      | error panic =>
          rw [locks] at executes
          cases executes
  | setPhase index phase =>
      obtain ⟨guard, found, same⟩ := Option.map_eq_some_iff.mp executes
      cases same
      obtain ⟨one, nobody, -⟩ := inv.only found
      constructor
      · rw [List.length_set]
        exact inv.locked
      · exact inv.counted
      · exact inv.few
      · exact fun _ => nobody
  | commitPhase index =>
      obtain ⟨guard, found, same⟩ := Option.map_eq_some_iff.mp executes
      cases same
      obtain ⟨one, nobody, -⟩ := inv.only found
      apply Inv.of_cell
      · simp [commitPhase, one]
      · simp [commitPhase, Sync.readerCount, nobody]
      · simp [nobody]
      · exact fun _ => nobody
  | dropWrite index =>
      obtain ⟨guard, found, same⟩ := Option.map_eq_some_iff.mp executes
      cases same
      obtain ⟨one, nobody, erased⟩ := inv.only found
      apply Inv.of_cell
      · simp [dropWrite, erased]
      · simp [dropWrite, Sync.readerCount, nobody]
      · simp [nobody]
      · exact fun _ => nobody
  | convert index =>
      obtain ⟨guard, found, same⟩ := Option.map_eq_some_iff.mp executes
      cases same
      obtain ⟨one, nobody, erased⟩ := inv.only found
      apply Inv.of_cell
      · simp [convert, erased]
      · simp [convert, Sync.readerCount, nobody]
      · simp [nobody]
      · exact fun writing => absurd erased writing
  | mapWrite index =>
      obtain ⟨guard, found, same⟩ := Option.map_eq_some_iff.mp executes
      cases same
      obtain ⟨one, nobody, -⟩ := inv.only found
      constructor
      · rw [List.length_set]
        exact inv.locked
      · exact inv.counted
      · exact inv.few
      · exact fun _ => nobody
  | clone =>
      have room := room rfl
      dsimp only [State.exec] at executes
      split at executes
      case isTrue reading =>
        have bound : Sync.readerCount state.cell < 2 ^ 20 := by
          rw [inv.counted]
          exact inv.few
        rw [UnSync.clone, addReader_ok bound] at executes
        cases executes
        constructor
        · simp only [view_addReader bound]
          exact inv.locked
        · simp only [readerCount_addReader bound, inv.counted]
        · exact room
        · intro writing
          have nobody := inv.alone writing
          omega
      case isFalse => cases executes
  | mapRead =>
      dsimp only [State.exec] at executes
      split at executes
      case isTrue reading =>
        cases executes
        exact inv
      case isFalse => cases executes
  | dropRead =>
      dsimp only [State.exec] at executes
      split at executes
      case isTrue reading =>
        cases executes
        have counted := inv.counted
        rw [Sync.readerCount] at counted
        have changed :=
          LockWord.view_sub_units
            (show readerUnity.toNat = 1 * 2 ^ 8 from rfl)
            (show 1 ≤ (view state.cell).readers.toNat by omega)
        constructor
        · simp only [UnSync.dropRead, changed]
          exact inv.locked
        · simp only [UnSync.dropRead, Sync.readerCount, changed, counted]
          exact Nat.mod_eq_of_lt (by have := inv.few; omega)
        · have few := inv.few
          dsimp only
          omega
        · intro writing
          have nobody := inv.alone writing
          omega
      case isFalse => cases executes

/-- A use that may panic keeps the invariant, with the same exception. -/
theorem Inv.step
    {state after : State}
    {op : Op}
    (inv : state.Inv)
    (room : op = .clone → state.readGuards + 1 < 2 ^ 20)
    (step : state.Step op after) :
    after.Inv := by
  rcases step with executes | ⟨panic, -, rfl⟩
  · exact inv.exec room executes
  · exact inv

theorem Inv.new (phase : Phase) : (State.new phase).Inv := by
  constructor
  · simp [State.new]
  · simp [State.new, Sync.readerCount]
  · simp [State.new]
  · exact fun writing => absurd rfl writing

/-- A clone next to a full reader count carries into the overflow bit. -/
theorem Inv.clone_full
    {state : State}
    (inv : state.Inv)
    (full : ¬ state.readGuards + 1 < 2 ^ 20) :
    ∃ after,
      state.exec .clone = some (.ok after) ∧
        after.readGuards = 2 ^ 20 ∧
        after.writeGuards = [] ∧
        after.cell &&& (lockedBit ||| readerBits) = 0 := by
  have few := inv.few
  have reading : 0 < state.readGuards := by omega
  have bound : Sync.readerCount state.cell < 2 ^ 20 := by
    rw [inv.counted]
    exact few
  have nobody : state.writeGuards = [] := by
    by_contra writing
    have none := inv.alone writing
    omega
  have unlocked : (view (state.cell + readerUnity)).locked = false := by
    have locked := inv.locked
    rw [nobody] at locked
    rw [view_addReader bound]
    simpa using locked
  refine
    ⟨{ state with
        cell := state.cell + readerUnity
        readGuards := state.readGuards + 1 }, ?_, ?_, nobody, ?_⟩
  · simp only [State.exec, if_pos reading, UnSync.clone, addReader_ok bound]
    rfl
  · dsimp only
    omega
  · refine writable_iff.mpr ⟨unlocked, ?_⟩
    dsimp only
    rw [readerCount_addReader bound, inv.counted]
    omega

/-- After such a clone the cell does not count the guards. -/
theorem Inv.room_of_exclusive
    {state : State}
    (inv : state.Inv)
    (exclusive :
      ∀ after, state.Step .clone after → after.Exclusive) :
    state.readGuards + 1 < 2 ^ 20 := by
  by_contra full
  obtain ⟨after, executes, readers, -, writable⟩ := inv.clone_full full
  have counted := (exclusive after (.inl executes)).counted
  rw [encodedReaders_eq, readers, (writable_iff.mp writable).2] at counted
  omega

/-- Until a prefix ends in a clone next to a full count, the invariant holds. -/
theorem inv_of_run
    {phase : Phase}
    {ops : List Op}
    (room :
      ∀ earlier state,
        earlier ++ [.clone] <+: ops →
          Run State.Step (State.new phase) earlier state →
            state.Inv → state.readGuards + 1 < 2 ^ 20)
    {earlier : List Op}
    {state : State}
    (run : Run State.Step (State.new phase) earlier state)
    (leading : earlier <+: ops) :
    state.Inv := by
  apply run.invariant_of_prefix _ _ leading
  · exact Inv.new phase
  intro earlier op before after leading run inv step
  apply inv.step _ step
  rintro rfl
  exact room _ _ leading run inv

/--
The guards are exclusive in every state of a run exactly when no clone is made
while `2 ^ 20 - 1` read guards are alive.
-/
theorem exclusive_iff
    (phase : Phase)
    (ops : List Op) :
    (∀ earlier state,
        earlier <+: ops →
          Run State.Step (State.new phase) earlier state →
            state.Exclusive) ↔
      ∀ earlier state,
        earlier ++ [.clone] <+: ops →
          Run State.Step (State.new phase) earlier state →
            state.readGuards + 1 < 2 ^ 20 := by
  constructor
  · intro exclusive earlier state leading run
    have room :
        ∀ earlier state,
          earlier ++ [.clone] <+: ops →
            Run State.Step (State.new phase) earlier state →
              state.Inv → state.readGuards + 1 < 2 ^ 20 := by
      intro earlier state leading run inv
      apply inv.room_of_exclusive
      intro after step
      exact exclusive _ after leading (.snoc .clone run step)
    have before := (List.prefix_append _ _).trans leading
    exact room earlier state leading run (inv_of_run room run before)
  · intro room earlier state leading run
    have inv : state.Inv :=
      inv_of_run (fun earlier state leading run _ => room earlier state leading run)
        run leading
    exact inv.exclusive

/-- Locking for reading again and again, below the limit. -/
theorem run_reads
    {count : Nat}
    (few : count < 2 ^ 20) :
    ∃ state,
      Run State.Step (State.new .empty)
          (List.replicate count (.lock fun _ => .read)) state ∧
        state.Inv ∧ state.readGuards = count ∧ state.writeGuards = [] := by
  induction count with
  | zero => exact ⟨_, .refl, Inv.new _, rfl, rfl⟩
  | succ count inductionHypothesis =>
      obtain ⟨state, run, inv, reads, noWriter⟩ :=
        inductionHypothesis (by omega)
      have counted := inv.counted
      have unlocked : state.cell &&& lockedBit = 0 := by
        have locked := inv.locked
        rw [noWriter] at locked
        rw [unlocked_iff]
        simpa using locked
      have unsaturated : state.cell &&& readerBits ≠ readerBits := by
        rw [Ne, saturated_iff]
        omega
      let after := state.receive (state.cell + readerUnity) (.read ())
      have executes :
          state.exec (.lock fun _ => .read) = some (.ok after) := by
        have room : Sync.readerCount state.cell < 2 ^ 20 := by omega
        simp [State.exec, UnSync.lock, unlocked, unsaturated,
          addReader_ok room, Except.map, after]
      have notClone :
          Op.lock (fun _ => .read) = .clone → state.readGuards + 1 < 2 ^ 20 :=
        fun same => nomatch same
      have kept : after.Inv := inv.exec notClone executes
      have more : after.readGuards = count + 1 := by
        simp only [after, State.receive, reads]
      rw [List.replicate_succ']
      exact ⟨after, run.snoc _ (.inl executes), kept, more, noWriter⟩

/--
One clone too many empties the reader count, and a write guard is given next to
`2 ^ 20` live read guards.
-/
theorem clone_breaks_exclusion :
    ∃ state,
      Run State.Step (State.new .empty)
          (List.replicate (2 ^ 20 - 1) (.lock fun _ => .read) ++ [.clone] ++
            [.tryLock fun _ => .write]) state ∧
        state.writeGuards.length = 1 ∧ state.readGuards = 2 ^ 20 := by
  obtain ⟨state, run, inv, reads, -⟩ :=
    run_reads (show 2 ^ 20 - 1 < 2 ^ 20 by omega)
  obtain ⟨cloned, executes, readers, noWriter, writable⟩ :=
    inv.clone_full (by omega)
  generalize 2 ^ 20 - 1 = count at run
  let after :=
    cloned.receive (cloned.cell ||| lockedBit)
      (.write (.new (cloned.cell ||| lockedBit)))
  have locks :
      cloned.exec (.tryLock fun _ => .write) = some (.ok after) := by
    simp [State.exec, UnSync.tryLock, writable, Except.map, after]
  have one : after.writeGuards.length = 1 := by
    simp [after, State.receive, noWriter]
  exact ⟨after, (run.snoc .clone (.inl executes)).snoc _ (.inl locks), one,
    readers⟩

end State

end StaticInit.UnSync
