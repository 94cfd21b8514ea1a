import StaticInit.PhaseLocker.Solo

namespace StaticInit

/-!
# The code of one thread alone on a locker

A synchronized locker cuts its operations at the atomic accesses.  For one
thread alone, each instruction fetches or exchanges the word, so its code is
known from what it does to the word at each place.  If every operation stays at
places from which it can only end as the specification says, the locker refines
the specification.
-/

open Sync (Lock ReadLock Result UserOp readerCount lockCount)

/-- Where the local code after an instruction ends. -/
inductive SoloEnd (Pc : Type) where
  | goto (pc : Pc)
  | ret (result : Result)
  | panic

/-- What local code that ends an operation tells the caller. -/
def SoloEnd.outcome {Pc : Type} : SoloEnd Pc → Option SoloOutcome
  | .goto _ => none
  | .ret result => some result.outcome
  | .panic => some .panicked

/-- The code of a locker: its places, its instructions and where operations begin. -/
structure SoloCode (Pc : Type) where
  /-- Outside the locker. -/
  idle : Pc
  tryLock : (Phase → LockNature) → Phase → Pc
  dropLock : Lock → Pc
  dropReadLock : ReadLock → Pc
  clone : ReadLock → Pc
  convert : Lock → Pc
  /-- The word after an instruction, which may fail for no reason. -/
  perform : Pc → U32 → Bool → Option (U32 × SoloEnd Pc)
  /-- A bound on the instructions left if none fails for no reason. -/
  rank : Pc → Nat

/-- A write guard taken out of the list of its owner. -/
def Solo.withoutLock (solo : Solo) (index : Nat) : Solo :=
  { solo with locks := solo.locks.eraseIdx index }

/-- A read guard taken out of the list of its owner. -/
def Solo.withoutReadLock (solo : Solo) (index : Nat) : Solo :=
  { solo with readLocks := solo.readLocks.eraseIdx index }

/-- A result gives its guards to the caller. -/
def Solo.returned (solo : Solo) (word : U32) (result : Result) : Solo where
  word := word
  locks := result.locks ++ solo.locks
  readLocks := result.readLocks ++ solo.readLocks

namespace SoloCode

variable {Pc : Type} (code : SoloCode Pc)

/-- Where an operation begins, and the guards that are left to the caller. -/
def enter (solo : Solo) : SoloOp → Option (Pc × Solo)
  | .tryLock how hint => some (code.tryLock how hint, solo)
  | .dropLock index =>
      solo.locks[index]?.map fun lock =>
        (code.dropLock lock, solo.withoutLock index)
  | .dropReadLock index =>
      solo.readLocks[index]?.map fun guard =>
        (code.dropReadLock guard, solo.withoutReadLock index)
  | .clone index =>
      solo.readLocks[index]?.map fun guard =>
        (code.clone guard, solo.withoutReadLock index)
  | .convert index =>
      solo.locks[index]?.map fun lock =>
        (code.convert lock, solo.withoutLock index)
  | .setPhase index phase =>
      solo.locks[index]?.map fun lock =>
        (code.idle,
          { solo with
            locks := solo.locks.set index { lock with onUnlock := phase } })

/-- Local code that returns a good result, or goes on at a place inside. -/
def EndStays
    (place : Pc → Prop)
    (solo : Solo)
    (good : SoloOutcome × Solo → Prop)
    (nearer : Nat → Prop)
    (word : U32) : SoloEnd Pc → Prop
  | .goto pc => word = solo.word ∧ place pc ∧ nearer (code.rank pc)
  | .ret result => good (result.outcome, solo.returned word result)
  | .panic => False

/-- An instruction at a place of an operation stays, and comes nearer to the end. -/
def InstrStays
    (place : Pc → Prop)
    (solo : Solo)
    (good : SoloOutcome × Solo → Prop)
    (nearer : Nat → Prop)
    (performed : Option (U32 × SoloEnd Pc)) : Prop :=
  ∃ word ending,
    performed = some (word, ending) ∧
      code.EndStays place solo good nearer word ending

/-- Every instruction at a place of an operation stays. -/
def Stays
    (place : Pc → Prop)
    (solo : Solo)
    (good : SoloOutcome × Solo → Prop) : Prop :=
  ∀ (pc : Pc) (spurious : Bool),
    place pc →
      code.InstrStays place solo good
        (fun rank => spurious = false → rank < code.rank pc)
        (code.perform pc solo.word spurious)

/-- From a place, an operation can only end in a good way. -/
def Reaches
    (pc : Pc)
    (solo : Solo)
    (good : SoloOutcome × Solo → Prop) : Prop :=
  ∃ place : Pc → Prop, place pc ∧ code.Stays place solo good

/-- Every operation of the code ends as the specification says. -/
structure Meets : Prop where
  tryLock :
    ∀ {solo : Solo} (how : Phase → LockNature) (hint : Phase),
      solo.Sound → solo.Few →
        code.Reaches (code.tryLock how hint) solo (solo.tryLock how = ·)
  dropLock :
    ∀ {solo : Solo} {index : Nat} {lock : Lock},
      solo.Sound → solo.locks[index]? = some lock →
        code.Reaches (code.dropLock lock) (solo.withoutLock index)
          (solo.perform (.dropLock index) = some ·)
  dropReadLock :
    ∀ {solo : Solo} {index : Nat} {guard : ReadLock},
      solo.Sound → solo.readLocks[index]? = some guard →
        code.Reaches (code.dropReadLock guard) (solo.withoutReadLock index)
          (solo.perform (.dropReadLock index) = some ·)
  clone :
    ∀ {solo : Solo} {index : Nat} {guard : ReadLock},
      solo.Sound → solo.Few → solo.readLocks[index]? = some guard →
        code.Reaches (code.clone guard) (solo.withoutReadLock index)
          (solo.perform (.clone index) = some ·)
  convert :
    ∀ {solo : Solo} {index : Nat} {lock : Lock},
      solo.Sound → solo.locks[index]? = some lock →
        code.Reaches (code.convert lock) (solo.withoutLock index)
          (solo.perform (.convert index) = some ·)

variable {code}

section Ends

variable {inside : Pc → Prop} {solo : Solo} {how : Phase → LockNature}
  {good : SoloOutcome × Solo → Prop} {nearer : Nat → Prop}

/-- Local code that returns the write lock. -/
theorem endStays_write
    (write : how (.fromBitsTruncate solo.word) = .write)
    (free : lockCount solo.word = 0 ∧ readerCount solo.word = 0) :
    code.EndStays inside solo (solo.tryLock how = ·) nearer
      (solo.word ||| lockedBit)
      (.ret (.locked (some (.write (.new solo.word))))) := by
  change solo.tryLock how = _
  rw [Solo.tryLock, write]
  exact if_pos free

/-- Local code that returns a read lock. -/
theorem endStays_read
    (read : how (.fromBitsTruncate solo.word) = .read)
    (unlocked : lockCount solo.word = 0) :
    code.EndStays inside solo (solo.tryLock how = ·) nearer
      (solo.word + readerUnity)
      (.ret (.locked (some (.read (.new solo.word))))) := by
  change solo.tryLock how = _
  rw [Solo.tryLock, read]
  exact if_pos unlocked

/-- Local code that returns `LockResult::None`. -/
theorem endStays_none
    (none : how (.fromBitsTruncate solo.word) = .none) :
    code.EndStays inside solo (solo.tryLock how = ·) nearer solo.word
      (.ret (.locked (some (.none (.fromBitsTruncate solo.word))))) := by
  change solo.tryLock how = _
  rw [Solo.tryLock, none]
  rfl

/-- Local code that refuses a write lock. -/
theorem endStays_noWrite
    (write : how (.fromBitsTruncate solo.word) = .write)
    (taken : ¬ (lockCount solo.word = 0 ∧ readerCount solo.word = 0)) :
    code.EndStays inside solo (solo.tryLock how = ·) nearer solo.word
      (.ret (.locked none)) := by
  change solo.tryLock how = _
  rw [Solo.tryLock, write]
  exact if_neg taken

/-- Local code that refuses a read lock. -/
theorem endStays_noRead
    (read : how (.fromBitsTruncate solo.word) = .read)
    (locked : lockCount solo.word ≠ 0) :
    code.EndStays inside solo (solo.tryLock how = ·) nearer solo.word
      (.ret (.locked none)) := by
  change solo.tryLock how = _
  rw [Solo.tryLock, read]
  exact if_neg locked

/-- Either end of an exchange. -/
theorem instrStays_exchange
    {weak spurious : Bool}
    {cur new : U32}
    {ok err : SoloEnd Pc}
    (taken : solo.word = cur → code.EndStays inside solo good nearer new ok)
    (failed :
      ¬ (solo.word = cur ∧ (weak && spurious) = false) →
        code.EndStays inside solo good nearer solo.word err) :
    code.InstrStays inside solo good nearer
      (some
        (if solo.word = cur ∧ (weak && spurious) = false then
          (new, ok)
        else
          (solo.word, err))) := by
  split
  case isTrue exchanged => exact ⟨new, ok, rfl, taken exchanged.1⟩
  case isFalse kept => exact ⟨solo.word, err, rfl, failed kept⟩

end Ends

/-- What an operation has begun when it is entered. -/
theorem Meets.entered
    {solo rest : Solo}
    {op : SoloOp}
    {pc : Pc}
    (meets : code.Meets)
    (sound : solo.Sound)
    (few : solo.Few)
    (enters : code.enter solo op = some (pc, rest)) :
    pc = code.idle ∧ solo.perform op = some (.done, rest) ∨
      code.Reaches pc rest (solo.perform op = some ·) := by
  cases op with
  | tryLock how hint =>
      obtain ⟨rfl, rfl⟩ := Prod.mk.inj (Option.some.inj enters)
      obtain ⟨place, inside, stays⟩ := meets.tryLock how hint sound few
      refine .inr ⟨place, inside, ?_⟩
      simpa only [Solo.perform, Option.some.injEq] using stays
  | dropLock index =>
      obtain ⟨lock, found, same⟩ := Option.map_eq_some_iff.mp enters
      obtain ⟨rfl, rfl⟩ := Prod.mk.inj same
      exact .inr (meets.dropLock sound found)
  | dropReadLock index =>
      obtain ⟨guard, found, same⟩ := Option.map_eq_some_iff.mp enters
      obtain ⟨rfl, rfl⟩ := Prod.mk.inj same
      exact .inr (meets.dropReadLock sound found)
  | clone index =>
      obtain ⟨guard, found, same⟩ := Option.map_eq_some_iff.mp enters
      obtain ⟨rfl, rfl⟩ := Prod.mk.inj same
      exact .inr (meets.clone sound few found)
  | convert index =>
      obtain ⟨lock, found, same⟩ := Option.map_eq_some_iff.mp enters
      obtain ⟨rfl, rfl⟩ := Prod.mk.inj same
      exact .inr (meets.convert sound found)
  | setPhase index phase =>
      obtain ⟨lock, found, same⟩ := Option.map_eq_some_iff.mp enters
      obtain ⟨rfl, rfl⟩ := Prod.mk.inj same
      exact .inl ⟨rfl, congrArg (Option.map _) found⟩

/-- No operation changes the word when it is entered. -/
theorem enter_word
    {solo rest : Solo}
    {op : SoloOp}
    {pc : Pc}
    (enters : code.enter solo op = some (pc, rest)) :
    rest.word = solo.word := by
  cases op with
  | tryLock how hint =>
      obtain ⟨-, rfl⟩ := Prod.mk.inj (Option.some.inj enters)
      rfl
  | _ =>
      obtain ⟨_, -, same⟩ := Option.map_eq_some_iff.mp enters
      obtain ⟨-, rfl⟩ := Prod.mk.inj same
      rfl

/-- The guard of an operation that can be performed lets it begin. -/
theorem enter_isSome
    {solo : Solo}
    {op : SoloOp}
    (performs : (solo.perform op).isSome) :
    ∃ pc rest, code.enter solo op = some (pc, rest) := by
  have entered : (code.enter solo op).isSome := by
    cases op with
    | tryLock how hint => rfl
    | _ => simpa only [enter, Solo.perform, Option.isSome_map] using performs
  obtain ⟨⟨pc, rest⟩, same⟩ := Option.isSome_iff_exists.mp entered
  exact ⟨pc, rest, same⟩

end SoloCode

namespace SoloSystem

variable {State Action Panic Pc : Type}

/-- A state at a place, with a word and the guards that are left to the caller. -/
structure At
    (system : SoloSystem State Action Panic)
    (place : State → Pc)
    (pc : Pc)
    (solo : Solo)
    (state : State) : Prop where
  place : place state = pc
  word : system.word state = solo.word
  locks : system.locks state = solo.locks
  readLocks : system.readLocks state = solo.readLocks

/-- What an instruction leaves. -/
def Leaves
    (system : SoloSystem State Action Panic)
    (place : State → Pc)
    (idle : Pc)
    (solo : Solo)
    (word : U32)
    (after : State) : SoloEnd Pc → Prop
  | .goto pc => system.At place pc { solo with word := word } after
  | .ret result => system.At place idle (solo.returned word result) after
  | .panic => True

/-- One thread of the system runs the code. -/
structure Runs
    (system : SoloSystem State Action Panic)
    (code : SoloCode Pc)
    (place : State → Pc) : Prop where
  idle_iff : ∀ {state : State}, system.idle state ↔ place state = code.idle
  start :
    ∀ {solo : Solo} {state after : State} {op : SoloOp},
      system.At place code.idle solo state →
        system.Step state (system.start op.userOp) after →
          ∃ pc rest,
            code.enter solo op = some (pc, rest) ∧
              system.At place pc rest after
  can_start :
    ∀ {solo rest : Solo} {state : State} {op : SoloOp} {pc : Pc},
      system.At place code.idle solo state →
        code.enter solo op = some (pc, rest) →
          ∃ after, system.Step state (system.start op.userOp) after
  busy :
    ∀ {word : U32} {pc : Pc} {spurious : Bool},
      (code.perform pc word spurious).isSome → pc ≠ code.idle
  instruction :
    ∀ {solo : Solo} {state after : State} {action : Action} {pc : Pc},
      system.At place pc solo state →
        (∀ spurious, (code.perform pc solo.word spurious).isSome) →
          system.Instruction state action after →
            ∃ spurious word ending,
              code.perform pc solo.word spurious = some (word, ending) ∧
                system.returned state action = ending.outcome ∧
                system.Leaves place code.idle solo word after ending
  can_run :
    ∀ {solo : Solo} {state : State} {pc : Pc} {word : U32}
      {ending : SoloEnd Pc},
      system.At place pc solo state →
        code.perform pc solo.word false = some (word, ending) →
          ending ≠ .panic →
            ∃ action after,
              system.Instruction state action after ∧
                system.returned state action = ending.outcome ∧
                system.Leaves place code.idle solo word after ending

section Refinement

variable {system : SoloSystem State Action Panic} {code : SoloCode Pc}
  {place : State → Pc} {solo : Solo} {state after : State}

theorem Runs.holds_iff (runs : system.Runs code place) :
    system.Holds solo state ↔ system.At place code.idle solo state := by
  constructor
  · intro holds
    exact ⟨runs.idle_iff.mp holds.idle, holds.word, holds.locks,
      holds.readLocks⟩
  · intro at_
    exact ⟨runs.idle_iff.mpr at_.place, at_.word, at_.locks, at_.readLocks⟩

/-- The thread is in an operation that can only end in a good way. -/
def Underway
    (system : SoloSystem State Action Panic)
    (code : SoloCode Pc)
    (place : State → Pc)
    (good : SoloOutcome × Solo → Prop)
    (state : State) : Prop :=
  ∃ (inside : Pc → Prop) (rest : Solo) (pc : Pc),
    code.Stays inside rest good ∧ inside pc ∧ system.At place pc rest state

/-- The ends of an instruction of an operation under way. -/
theorem Leaves.cases
    {inside : Pc → Prop}
    {good : SoloOutcome × Solo → Prop}
    {nearer : Nat → Prop}
    {word : U32}
    {ending : SoloEnd Pc}
    (runs : system.Runs code place)
    (stays : code.Stays inside solo good)
    (kept : code.EndStays inside solo good nearer word ending)
    (leaves : system.Leaves place code.idle solo word after ending) :
    (∃ outcome,
        ending.outcome = some outcome ∧
          ∃ next, good (outcome, next) ∧ system.Holds next after) ∨
      ending.outcome = none ∧ system.Underway code place good after ∧
        nearer (code.rank (place after)) := by
  cases ending with
  | goto pc =>
      obtain ⟨rfl, still, near⟩ := kept
      refine .inr ⟨rfl, ⟨inside, solo, pc, stays, still, leaves⟩, ?_⟩
      rw [leaves.place]
      exact near
  | ret result =>
      exact .inl ⟨result.outcome, rfl, _, kept, runs.holds_iff.mpr leaves⟩
  | panic => exact kept.elim

theorem Underway.instruction
    {good : SoloOutcome × Solo → Prop}
    {action : Action}
    (runs : system.Runs code place)
    (underway : system.Underway code place good state)
    (performs : system.Instruction state action after) :
    (∃ outcome,
        system.returned state action = some outcome ∧
          ∃ next, good (outcome, next) ∧ system.Holds next after) ∨
      system.returned state action = none ∧
        system.Underway code place good after := by
  obtain ⟨inside, rest, pc, stays, here, at_⟩ := underway
  have performable (spurious : Bool) :
      (code.perform pc rest.word spurious).isSome := by
    obtain ⟨word, ending, performed, -⟩ := stays pc spurious here
    rw [performed]
    rfl
  obtain ⟨spurious, word, ending, performed, returned, leaves⟩ :=
    runs.instruction at_ performable performs
  obtain ⟨_, _, same, kept⟩ := stays pc spurious here
  obtain ⟨rfl, rfl⟩ := Prod.mk.inj
    (Option.some.inj (performed.symm.trans same))
  rw [returned]
  rcases leaves.cases runs stays kept with ended | ⟨open_, still, -⟩
  · exact .inl ended
  · exact .inr ⟨open_, still⟩

/-- If no exchange fails for no reason, an operation comes to its end. -/
theorem Underway.progress
    {good : SoloOutcome × Solo → Prop}
    (runs : system.Runs code place)
    (underway : system.Underway code place good state) :
    ∃ action after,
      system.Instruction state action after ∧
        ((∃ outcome, system.returned state action = some outcome) ∨
          system.returned state action = none ∧
            system.Underway code place good after ∧
            code.rank (place after) < code.rank (place state)) := by
  obtain ⟨inside, rest, pc, stays, here, at_⟩ := underway
  obtain ⟨word, ending, performed, kept⟩ := stays pc false here
  have quiet : ending ≠ .panic := by
    rintro rfl
    exact kept
  obtain ⟨action, after, performs, returned, leaves⟩ :=
    runs.can_run at_ performed quiet
  refine ⟨action, after, performs, ?_⟩
  rw [returned]
  rcases leaves.cases runs stays kept with
    ⟨result, ends, -⟩ | ⟨open_, still, nearer⟩
  · exact .inl ⟨result, ends⟩
  · rw [at_.place]
    exact .inr ⟨open_, still, nearer rfl⟩

/-- An operation has begun: it was an assignment, or it is under way. -/
theorem Runs.started
    {op : SoloOp}
    (runs : system.Runs code place)
    (meets : code.Meets)
    (sound : solo.Sound)
    (few : solo.Few)
    (holds : system.Holds solo state)
    (step : system.Step state (system.start op.userOp) after) :
    (∃ next,
        system.idle after ∧ solo.perform op = some (.done, next) ∧
          system.Holds next after) ∨
      ¬ system.idle after ∧
        system.Underway code place (solo.perform op = some ·) after := by
  obtain ⟨pc, rest, enters, at_⟩ :=
    runs.start (runs.holds_iff.mp holds) step
  rcases meets.entered sound few enters with
    ⟨rfl, performs⟩ | ⟨inside, here, stays⟩
  · exact .inl ⟨rest, runs.idle_iff.mpr at_.place, performs,
      runs.holds_iff.mpr at_⟩
  · refine .inr ⟨?_, inside, rest, pc, stays, here, at_⟩
    intro idle
    obtain ⟨word, ending, performed, -⟩ := stays pc false here
    exact runs.busy (Option.isSome_of_mem performed)
      (at_.place.symm.trans (runs.idle_iff.mp idle))

/-- A locker whose code meets the specification refines it. -/
theorem Runs.refines
    (runs : system.Runs code place)
    (meets : code.Meets) :
    system.Refines where
  sound := by
    intro solo state after op outcome sound few holds operates
    cases operates with
    | atOnce started idle =>
        rcases runs.started meets sound few holds started with
          ⟨next, -, performs, holdsNext⟩ | ⟨busy, -⟩
        · exact ⟨next, performs, holdsNext⟩
        · exact absurd idle busy
    | calls started busy completes =>
        rcases runs.started meets sound few holds started with
          ⟨next, idle, -⟩ | ⟨-, underway⟩
        · exact absurd idle busy
        · exact completes.ends _
            (fun outcome after =>
              ∃ next,
                solo.perform op = some (outcome, next) ∧
                  system.Holds next after)
            (Underway.instruction runs) underway
  total := by
    intro solo next state op outcome sound few holds performs
    obtain ⟨pc, rest, enters⟩ := code.enter_isSome
      (Option.isSome_of_mem performs)
    obtain ⟨started, step⟩ :=
      runs.can_start (runs.holds_iff.mp holds) enters
    rcases runs.started meets sound few holds step with
      ⟨next, idle, -⟩ | ⟨busy, underway⟩
    · exact ⟨.done, started, .atOnce step idle⟩
    · obtain ⟨outcome, after, completes⟩ :=
        Completes.exists_of_rank (fun state => code.rank (place state))
          (Underway.progress runs) underway
      exact ⟨outcome, after, .calls step busy completes⟩

end Refinement

end SoloSystem

end StaticInit
