import StaticInit.GenericLazy.Owned

namespace StaticInit.Owned

/-!
# The slot of an owned lazy

The phase of an owned lazy and what is in its slot stay in step.  The value is
written by the only run of the generator that returns; while the guard of that
run is alive the word still shows the phase before it.
-/

/-- Nothing was generated, and nobody has a guard. -/
structure Vacant (owned : Owned) (phase : Phase) : Prop where
  word : owned.word = phase.bits
  writeGuards : owned.writeGuards = []
  readGuards : owned.readGuards = 0
  slot : owned.slot = none
  completed : owned.completed = []

/-- A value was generated, once. -/
structure Generated (owned : Owned) : Prop where
  guards : ∀ phase ∈ owned.writeGuards, phase = initializedPhase
  value : ∃ run, owned.slot = some run ∧ owned.completed = [run]

/-- The guard of the access that generated the value is still alive. -/
structure Guarded (owned : Owned) : Prop extends Generated owned where
  word : ∃ phase : Phase, owned.word = phase.bits ||| lockedBit
  writeGuards : owned.writeGuards = [initializedPhase]
  readGuards : owned.readGuards = 0

/-- The phase tells that a value was generated. -/
structure Filled (owned : Owned) : Prop extends Generated owned where
  phase : owned.phase = initializedPhase

/-- What the accesses have done to an owned lazy so far. -/
inductive Stage (type : OwnedType) (owned : Owned) : Prop where
  | untouched (vacant : owned.Vacant .empty)
  | failed (vacant : owned.Vacant panicPhase)
  | guarded (guarded : owned.Guarded) (locked : type.isLocked = true)
  | filled (filled : owned.Filled)

/-- The runs of a closure that can be called once. -/
structure Runs (kind : GeneratorTolerance) (owned : Owned) : Prop where
  tolerance : owned.tolerance = kind
  calledTwice : owned.calledTwice = false
  available :
    owned.Vacant .empty → owned.generator ≠ .once false
  unused : owned.generator = .once true → owned.started = 0
  started : owned.generator = .once false → owned.started ≤ 1

structure Inv
    (type : OwnedType)
    (kind : GeneratorTolerance)
    (owned : Owned) : Prop extends Runs kind owned where
  stage : Stage type owned

variable
  {type : OwnedType} {kind : GeneratorTolerance} {owned after : Owned}
  {completes : Bool} {phase : Phase} {word : U32}

theorem Inv.new
    {generator : OwnedGenerator}
    (fresh : generator ≠ .once false) :
    (Owned.new generator).Inv type generator.tolerance where
  tolerance := rfl
  calledTwice := rfl
  available := fun _ => fresh
  unused := fun _ => rfl
  started := fun _ => Nat.zero_le 1
  stage := .untouched ⟨rfl, rfl, rfl, rfl, rfl⟩

theorem Vacant.phase_eq (vacant : owned.Vacant phase) : owned.phase = phase := by
  rw [Owned.phase, vacant.word, Phase.fromBitsTruncate_bits]

/-- An initialized lazy is not initialized again. -/
theorem not_shallInit_initializedPhase :
    owned.shallInit initializedPhase = false :=
  GeneratorTolerance.not_shallInit rfl

/-- No guard of an initializing access is alive. -/
def Free (owned : Owned) : Prop :=
  (∃ phase, owned.Vacant phase ∧ (phase = .empty ∨ phase = panicPhase)) ∨
    owned.Filled

/-- Initialization is due only where the generator can still be run. -/
theorem Inv.due
    (inv : owned.Inv type kind)
    (free : owned.Free)
    (due : owned.shallInit owned.phase = true) :
    (∃ phase, owned.Vacant phase) ∧ owned.generator ≠ .once false := by
  rcases free with ⟨phase, vacant, empty | failed⟩ | filled
  · subst empty
    exact ⟨⟨_, vacant⟩, inv.available vacant⟩
  · subst failed
    refine ⟨⟨_, vacant⟩, ?_⟩
    intro used
    rw [vacant.phase_eq, shallInit, tolerance, used] at due
    cases due
  · rw [filled.phase, not_shallInit_initializedPhase] at due
    cases due

/-- A value that was generated stays, whatever guards come and go. -/
theorem Inv.regard
    {guards : List Phase}
    (inv : owned.Inv type kind)
    (generated : owned.Generated)
    (shown : Phase.fromBitsTruncate word = initializedPhase)
    (initialized : ∀ phase ∈ guards, phase = initializedPhase)
    (readGuards : Nat) :
    Inv type kind
      { owned with
        word := word
        writeGuards := guards
        readGuards := readGuards } := by
  obtain ⟨run, slot, completed⟩ := generated.value
  refine ⟨⟨inv.tolerance, inv.calledTwice, ?_, inv.unused, inv.started⟩, ?_⟩
  · intro vacant
    have none := vacant.slot
    rw [slot] at none
    cases none
  · exact .filled ⟨⟨initialized, run, slot, completed⟩, shown⟩

/-- What an attempt to initialize leaves, if nobody has a guard. -/
inductive Attempted
    (type : OwnedType)
    (kind : GeneratorTolerance) : Owned × Bool → Prop where
  | returned
      {after : Owned}
      (inv : after.Inv type kind)
      (filled : after.Filled)
      (word : after.word = initializedPhase.bits)
      (writeGuards : after.writeGuards = [])
      (readGuards : after.readGuards = 0) :
      Attempted type kind (after, true)
  | unwound
      {after : Owned}
      (inv : after.Inv type kind)
      (vacant : after.Vacant panicPhase) :
      Attempted type kind (after, false)

/-- A closure that is still there is run, and is used up. -/
theorem generate_of_fresh
    (fresh : owned.generator ≠ .once false)
    (completes : Bool) :
    ∃ generator,
      owned.generate completes =
          { owned with generator := generator }.run completes ∧
        generator.tolerance = owned.tolerance ∧ generator ≠ .once true ∧
        (generator = .once false → owned.generator = .once true) := by
  cases same : owned.generator with
  | always =>
      refine ⟨.always, ?_, ?_, nofun, nofun⟩
      · rw [generate, same]
        change owned.run completes = _
        rw [← same]
      · rw [tolerance, same]
  | once available =>
      cases available with
      | true =>
          refine ⟨.once false, ?_, ?_, nofun, fun _ => rfl⟩
          · rw [generate, same]
          · rw [tolerance, same]
            rfl
      | false => exact absurd same fresh

/-- The attempt without the lock. -/
theorem Inv.attempted
    (inv : owned.Inv type kind)
    (vacant : owned.Vacant phase)
    (fresh : owned.generator ≠ .once false)
    (completes : Bool) :
    Attempted type kind (owned.mutLazyInitializationOnly completes) := by
  obtain ⟨generator, same, kept, used, before⟩ :=
    generate_of_fresh fresh completes
  have once : generator = .once false → owned.started + 1 ≤ 1 := fun left =>
    Nat.succ_le_succ (Nat.le_zero.mpr (inv.unused (before left)))
  rw [mutLazyInitializationOnly, same]
  cases completes with
  | true =>
      have generated :
          Generated
            { owned with
              word := initializedPhase.bits
              generator := generator
              started := owned.started + 1
              slot := some owned.started
              completed := owned.completed ++ [owned.started] } := by
        refine ⟨?_, owned.started, rfl, ?_⟩
        · rw [vacant.writeGuards]
          exact fun _ member => absurd member List.not_mem_nil
        · rw [vacant.completed]
          rfl
      have filled := Filled.mk generated (Phase.fromBitsTruncate_bits _)
      refine .returned
        ⟨⟨kept.trans inv.tolerance, inv.calledTwice, ?_, fun left => absurd left used, once⟩,
          .filled filled⟩
        filled rfl vacant.writeGuards vacant.readGuards
      intro empty
      cases empty.slot
  | false =>
      have failed :
          Vacant
            { owned with
              word := panicPhase.bits
              generator := generator
              started := owned.started + 1 }
            panicPhase :=
        ⟨rfl, vacant.writeGuards, vacant.readGuards, vacant.slot,
          vacant.completed⟩
      refine .unwound
        ⟨⟨kept.trans inv.tolerance, inv.calledTwice, ?_, fun left => absurd left used, once⟩,
          .failed failed⟩
        failed
      intro empty
      have different : panicPhase.bits ≠ Phase.empty.bits := by decide
      exact absurd empty.word different

/-- The attempt under the lock differs only in its guard. -/
theorem lazyInitializationOnly_eq
    (none : owned.writeGuards = []) :
    (owned.receive word (.write phase)).lazyInitializationOnly completes =
      match owned.mutLazyInitializationOnly completes with
      | (after, true) =>
          ({ after with
              word := word
              writeGuards := [initializedPhase] },
            true)
      | (after, false) => (after, false) := by
  obtain ⟨_, _, generator, _, _, _, _, _⟩ := owned
  subst none
  cases generator with
  | always => cases completes with | _ => rfl
  | once available =>
      cases available with
      | _ => cases completes with | _ => rfl

/-- What a use of the locker leads to. -/
inductive Used
    (locker : LockerType)
    (how : Phase → LockNature)
    (next : LockResult Unit Phase → Owned → Owned × Held)
    (owned : Owned) : Owned × Held → Prop where
  /-- The lock was refused, or the locker has panicked. -/
  | refused
      {reply : Reply}
      (nothing : ∀ value, reply ≠ .reference value) :
      Used locker how next owned (owned, .ended reply)
  | taken
      {word : U32}
      {result : LockResult Unit Phase}
      (takes : LockerType.Takes owned.word how word result)
      (free : owned.Free) :
      Used locker how next owned (next result (owned.receive word result))

/-- Nothing is taken while an initializing access has its guard. -/
theorem Inv.used
    {fast : Bool}
    {how : Phase → LockNature}
    {next : LockResult Unit Phase → Owned → Owned × Held}
    {ending : Owned × Held}
    (inv : owned.Inv type kind)
    (locked : owned.lock type.locker fast how next = some ending)
    (exclusive : type.isLocked = true → ∀ phase, how phase ≠ .none) :
    Used type.locker how next owned ending := by
  unfold Owned.lock at locked
  split at locked
  case h_1 word result taken =>
    obtain rfl := Option.some.inj locked
    refine .taken (LockerType.takes_of_taken taken) ?_
    cases inv.stage with
    | untouched vacant => exact .inl ⟨_, vacant, .inl rfl⟩
    | failed vacant => exact .inl ⟨_, vacant, .inr rfl⟩
    | filled filled => exact .inr filled
    | guarded guarded isLocked =>
        obtain ⟨phase, word⟩ := guarded.word
        rw [word] at taken
        exact absurd taken
          (LockerType.not_taken_of_locked phase (exclusive isLocked))
  case h_2 =>
    obtain rfl := Option.some.inj locked
    exact .refused nofun
  case h_3 => cases locked
  case h_4 =>
    obtain rfl := Option.some.inj locked
    exact .refused nofun

/-- The check of an access, of a lazy with a tolerance. -/
def passes
    (type : OwnedType)
    (accessor : Accessor)
    (tolerance : GeneratorTolerance)
    (phase : Phase) : Prop :=
  type.lazyType.check tolerance accessor phase = .reference

/-- What an access holds is enough for its check. -/
def Sound
    (type : OwnedType)
    (kind : GeneratorTolerance)
    (accessor : Accessor)
    (after : Owned) : Held → Prop
  | .nothing phase =>
      after.Inv type kind ∧
        (passes type accessor after.tolerance phase → after.Generated)
  | .readGuard phase =>
      after.dropRead.Inv type kind ∧
        (passes type accessor after.tolerance phase →
          after.Inv type kind ∧ after.Generated)
  | .writeGuard phase =>
      (after.dropWrite 0 phase).Inv type kind ∧
        (passes type accessor after.tolerance phase →
          accessor ≠ .init → after.Inv type kind ∧ after.Generated)
  | .ended reply => after.Inv type kind ∧ reply ≠ .reference none

theorem Generated.reference
    (generated : owned.Generated) :
    Reply.reference owned.slot ≠ .reference none := by
  obtain ⟨run, slot, -⟩ := generated.value
  rw [slot]
  nofun

/-- Only a check that passes gives a reference. -/
theorem reply_ne_reference
    {result : AccessResult}
    {value : Option Nat}
    (other : result ≠ .reference) :
    owned.reply result ≠ .reference value := by
  cases result with
  | reference => exact absurd rfl other
  | _ => nofun

theorem checkRead_refused
    {result : AccessResult}
    (other : result ≠ .reference) :
    owned.checkRead result = (owned.dropRead, owned.reply result) := by
  cases result with
  | reference => exact absurd rfl other
  | _ => rfl

theorem checkWrite_refused
    {accessor : Accessor}
    {result : AccessResult}
    (other : result ≠ .reference) :
    owned.checkWrite accessor phase result =
      (owned.dropWrite 0 phase, owned.reply result) := by
  cases result with
  | reference => exact absurd rfl other
  | _ => rfl

/-- An access whose parts are sound sees no empty slot. -/
theorem Sound.check
    {accessor : Accessor}
    {held : Held}
    (sound : Sound type kind accessor after held) :
    (after.check type accessor held).1.Inv type kind ∧
      (after.check type accessor held).2 ≠ .reference none := by
  cases held with
  | nothing phase =>
      obtain ⟨inv, generated⟩ := sound
      refine ⟨inv, ?_⟩
      change after.reply _ ≠ _
      by_cases passed : passes type accessor after.tolerance phase
      · rw [passed]
        exact (generated passed).reference
      · exact reply_ne_reference passed
  | readGuard phase =>
      obtain ⟨dropped, generated⟩ := sound
      rw [Owned.check]
      by_cases passed : passes type accessor after.tolerance phase
      · rw [passed]
        exact ⟨(generated passed).1, (generated passed).2.reference⟩
      · rw [checkRead_refused passed]
        exact ⟨dropped, reply_ne_reference passed⟩
  | writeGuard phase =>
      obtain ⟨dropped, generated⟩ := sound
      rw [Owned.check]
      by_cases passed : passes type accessor after.tolerance phase
      · rw [passed, checkWrite]
        by_cases same : accessor = .init
        · rw [if_pos same]
          exact ⟨dropped, nofun⟩
        · rw [if_neg same]
          obtain ⟨inv, value⟩ := generated passed same
          exact ⟨inv, value.reference⟩
      · rw [checkWrite_refused passed]
        exact ⟨dropped, reply_ne_reference passed⟩
  | ended reply => exact sound

theorem not_passes_of_checkAccess
    {accessible : Phase → Bool}
    (refused : accessible phase = false) :
    LazyType.checkAccess accessible phase ≠ .reference := by
  rw [LazyType.checkAccess, refused]
  nofun

/-- Without a value the check after an initialization fails as well. -/
theorem postInit_refused
    {tolerance : GeneratorTolerance}
    (notInitialized : phase.intersects .initialized = false)
    (settled : tolerance.shallInit phase = false) :
    (InitializedChecker tolerance).postInitIsAccessible phase = false := by
  unfold GeneratorTolerance.shallInit at settled
  cases tolerant : tolerance.initFailure with
  | true =>
      rw [tolerant, if_pos rfl, notInitialized] at settled
      cases settled
  | false =>
      change (if tolerance.initFailure = true then _ else _) = _
      rw [tolerant]
      exact notInitialized

theorem policy_eq (tolerance : GeneratorTolerance) :
    type.lazyType.policy tolerance = InitializedChecker tolerance := by
  unfold OwnedType.lazyType
  cases type.isLocked with
  | true => rfl
  | false => rfl

/-- A phase without a value does not pass the check. -/
theorem not_passes
    {accessor : Accessor}
    {tolerance : GeneratorTolerance}
    (notInitialized : phase.intersects .initialized = false)
    (settled :
      accessor.preparation ≠ .nothing → tolerance.shallInit phase = false) :
    ¬ passes type accessor tolerance phase := by
  have plain :
      LazyType.checkAccess (type.lazyType.policy tolerance).isAccessible
          phase ≠
        .reference := by
    rw [policy_eq]
    exact not_passes_of_checkAccess notInitialized
  have prepared :
      accessor.preparation ≠ .nothing →
        LazyType.checkAccess
            (type.lazyType.policy tolerance).postInitIsAccessible phase ≠
          .reference := by
    intro prepares
    rw [policy_eq]
    exact not_passes_of_checkAccess
      (postInit_refused notInitialized (settled prepares))
  unfold passes LazyType.check
  cases accessor with
  | get => exact prepared nofun
  | read => exact prepared nofun
  | fastRead => exact prepared nofun
  | write => exact prepared nofun
  | fastWrite => exact prepared nofun
  | init =>
      cases same : type.isLocked with
      | true =>
          rw [OwnedType.lazyType, same] at prepared ⊢
          exact prepared nofun
      | false =>
          rw [OwnedType.lazyType, same]
          nofun
  | getMut =>
      cases same : type.isLocked with
      | true =>
          rw [OwnedType.lazyType, same] at plain ⊢
          exact plain
      | false =>
          rw [OwnedType.lazyType, same] at prepared ⊢
          exact prepared nofun
  | _ => exact plain

section Parts

variable {accessor : Accessor} {tolerance : GeneratorTolerance}

/-- Where nothing is due, a check that passes finds a value. -/
theorem Free.passed
    (free : owned.Free)
    (settled :
      accessor.preparation ≠ .nothing →
        owned.shallInit owned.phase = false)
    (passed : passes type accessor owned.tolerance owned.phase) :
    owned.Filled := by
  rcases free with ⟨phase, vacant, empty | failed⟩ | filled
  · rw [vacant.phase_eq] at settled passed
    rw [empty] at settled passed
    exact absurd passed (not_passes rfl settled)
  · rw [vacant.phase_eq] at settled passed
    rw [failed] at settled passed
    exact absurd passed (not_passes rfl settled)
  · exact filled

/-- Nothing is held by an access that only looks at the phase. -/
theorem Inv.sound_nothing
    (inv : owned.Inv type kind)
    (free : owned.Free)
    (settled :
      accessor.preparation ≠ .nothing →
        owned.shallInit owned.phase = false) :
    Sound type kind accessor owned (.nothing owned.phase) :=
  ⟨inv, fun passed => (free.passed settled passed).toGenerated⟩

theorem receive_dropRead :
    (owned.receive (owned.word + readerUnity) (.read ())).dropRead =
      owned := by
  unfold receive dropRead
  rw [BitVec.add_sub_cancel, Nat.add_sub_cancel]

/-- A read guard is taken where nothing is due. -/
theorem Inv.sound_readGuard
    (inv : owned.Inv type kind)
    (free : owned.Free)
    (settled :
      accessor.preparation ≠ .nothing →
        owned.shallInit owned.phase = false) :
    Sound type kind accessor
      (owned.receive (owned.word + readerUnity) (.read ()))
      (.readGuard
        (owned.receive (owned.word + readerUnity) (.read ())).phase) := by
  have shown :
      (owned.receive (owned.word + readerUnity) (.read ())).phase =
        owned.phase :=
    Sync.fromBitsTruncate_add_readerUnity owned.word
  rw [shown]
  refine ⟨?_, ?_⟩
  · rw [receive_dropRead]
    exact inv
  · intro passed
    have filled := free.passed settled passed
    exact
      ⟨inv.regard filled.toGenerated (shown.trans filled.phase) filled.guards _,
        filled.guards, filled.value⟩

theorem Vacant.receive_dropWrite
    (vacant : owned.Vacant phase)
    (other : Phase) :
    (owned.receive word (.write other)).dropWrite 0 phase = owned := by
  unfold receive dropWrite
  rw [List.eraseIdx_cons_zero, ← vacant.word]

/-- A write guard is taken where nothing is due. -/
theorem Inv.sound_writeGuard
    (inv : owned.Inv type kind)
    (free : owned.Free)
    (settled :
      accessor.preparation ≠ .nothing →
        owned.shallInit owned.phase = false) :
    Sound type kind accessor
      (owned.receive (owned.word ||| lockedBit) (.write owned.phase))
      (.writeGuard owned.phase) := by
  have shown :
      (owned.receive (owned.word ||| lockedBit) (.write owned.phase)).phase =
        owned.phase :=
    Sync.fromBitsTruncate_or_lockedBit owned.word
  refine ⟨?_, ?_⟩
  · rcases free with ⟨phase, vacant, -⟩ | filled
    · rw [vacant.phase_eq, vacant.receive_dropWrite]
      exact inv
    · refine inv.regard filled.toGenerated ?_ filled.guards _
      rw [filled.phase, Phase.fromBitsTruncate_bits]
  · intro passed _
    have filled := free.passed settled passed
    have guards :
        ∀ phase ∈ owned.phase :: owned.writeGuards,
          phase = initializedPhase := by
      intro phase member
      rcases List.mem_cons.mp member with rfl | old
      · exact filled.phase
      · exact filled.guards phase old
    exact
      ⟨inv.regard filled.toGenerated (shown.trans filled.phase) guards _,
        guards, filled.value⟩

/-- What the lazy is while the guard of a successful attempt is alive. -/
def holding (word : U32) (owned : Owned) : Owned :=
  { owned with word := word, writeGuards := [initializedPhase] }

theorem holding_dropWrite
    (bits : owned.word = initializedPhase.bits)
    (writeGuards : owned.writeGuards = []) :
    (owned.holding word).dropWrite 0 initializedPhase = owned := by
  unfold holding dropWrite
  rw [List.eraseIdx_cons_zero, ← bits, ← writeGuards]

theorem convert_dropRead
    (locker : LockerType)
    (bits : owned.word = initializedPhase.bits)
    (writeGuards : owned.writeGuards = []) :
    ((owned.holding word).convert locker initializedPhase).dropRead =
      owned := by
  have converted :
      locker.convert initializedPhase - readerUnity =
        initializedPhase.bits := by
    cases locker with
    | _ => rfl
  unfold holding Owned.convert dropRead
  rw [converted, ← bits, Nat.add_sub_cancel, List.tail_cons, ← writeGuards]

theorem fromBitsTruncate_convert (locker : LockerType) :
    Phase.fromBitsTruncate (locker.convert initializedPhase) =
      initializedPhase := by
  cases locker with
  | _ => rfl

/-- The guard of a successful attempt may be kept. -/
theorem Inv.holding
    (inv : owned.Inv type kind)
    (filled : owned.Filled)
    (readGuards : owned.readGuards = 0)
    (locked : type.isLocked = true)
    (phase : Phase) :
    (owned.holding (phase.bits ||| lockedBit)).Inv type kind := by
  obtain ⟨run, slot, completed⟩ := filled.value
  refine ⟨⟨inv.tolerance, inv.calledTwice, ?_, inv.unused, inv.started⟩, .guarded ?_ locked⟩
  · intro vacant
    cases vacant.writeGuards
  · refine ⟨⟨?_, run, slot, completed⟩, ⟨phase, rfl⟩, rfl, readGuards⟩
    exact fun phase member => List.mem_singleton.mp member

/-- An attempt under the lock, whatever is done with its guard. -/
theorem Inv.sound_initializing
    {next : Owned → Owned × Held}
    (inv : owned.Inv type kind)
    (free : owned.Free)
    (due : owned.shallInit owned.phase = true)
    (returned :
      ∀ after : Owned,
        after.Inv type kind → after.Filled →
          after.word = initializedPhase.bits → after.writeGuards = [] →
            after.readGuards = 0 →
              Sound type kind accessor (next (after.holding word)).1
                (next (after.holding word)).2) :
    Sound type kind accessor
      ((owned.receive word (.write phase)).initializing completes next).1
      ((owned.receive word (.write phase)).initializing completes next).2 := by
  obtain ⟨⟨shown, vacant⟩, fresh⟩ := inv.due free due
  have attempted := inv.attempted vacant fresh completes
  rw [initializing, lazyInitializationOnly_eq vacant.writeGuards]
  generalize owned.mutLazyInitializationOnly completes = ending at attempted
  cases attempted with
  | returned inv filled bits writeGuards readGuards =>
      exact returned _ inv filled bits writeGuards readGuards
  | unwound inv _ => exact ⟨inv, nofun⟩

/-- A lock nature that asks for a write lock where initialization is due. -/
theorem due_of_nature
    {other : LockNature}
    (nature :
      (if owned.shallInit (.fromBitsTruncate owned.word) then .write
        else other) = LockNature.write)
    (different : other ≠ .write) :
    owned.shallInit owned.phase = true := by
  by_contra settled
  exact different ((if_neg settled).symm.trans nature)

theorem settled_of_nature
    {other asked : LockNature}
    (nature :
      (if owned.shallInit (.fromBitsTruncate owned.word) then .write
        else other) = asked)
    (different : asked ≠ .write) :
    owned.shallInit owned.phase = false := by
  by_contra due
  exact different
    (nature.symm.trans (if_pos (Bool.eq_true_of_not_eq_false due)))

theorem Inv.sound_init
    {ending : Owned × Held}
    (inv : owned.Inv type kind)
    (isLazy : type.isLocked = false)
    (accessed : owned.init type.locker completes = some ending) :
    Sound type kind accessor ending.1 ending.2 := by
  have used := inv.used accessed fun locked =>
    absurd locked (Bool.eq_false_iff.mp isLazy)
  cases used with
  | refused nothing => exact ⟨inv, nothing none⟩
  | taken takes free =>
      cases takes with
      | write nature =>
          refine inv.sound_initializing free (due_of_nature nature nofun) ?_
          intro after inv filled bits writeGuards _
          change Sound type kind accessor
            ((after.holding _).dropWrite 0 initializedPhase)
            (.nothing initializedPhase)
          rw [holding_dropWrite bits writeGuards]
          exact ⟨inv, fun _ => filled.toGenerated⟩
      | read nature =>
          split at nature
          · cases nature
          · cases nature
      | none nature =>
          exact inv.sound_nothing free fun _ => settled_of_nature nature nofun

theorem Inv.sound_initThenReadGuard
    {fast : Bool}
    {ending : Owned × Held}
    (inv : owned.Inv type kind)
    (accessed :
      owned.initThenReadGuard type.locker fast completes = some ending) :
    Sound type kind accessor ending.1 ending.2 := by
  have exclusive :
      type.isLocked = true →
        ∀ phase,
          (if owned.shallInit phase then LockNature.write else .read) ≠
            .none := by
    intro _ phase
    split
    case isTrue => nofun
    case isFalse => nofun
  have used := inv.used accessed exclusive
  cases used with
  | refused nothing => exact ⟨inv, nothing none⟩
  | taken takes free =>
      cases takes with
      | write nature =>
          refine inv.sound_initializing free (due_of_nature nature nofun) ?_
          intro after inv filled bits writeGuards _
          refine ⟨?_, fun _ => ?_⟩
          · rw [convert_dropRead type.locker bits writeGuards]
            exact inv
          · exact
              ⟨inv.regard filled.toGenerated
                  (fromBitsTruncate_convert type.locker)
                  (fun _ member => absurd member List.not_mem_nil) _,
                fun _ member => absurd member List.not_mem_nil, filled.value⟩
      | read nature =>
          exact inv.sound_readGuard free fun _ =>
            settled_of_nature nature nofun
      | none nature =>
          split at nature
          · cases nature
          · cases nature

theorem Inv.sound_initThenWriteGuard
    {fast : Bool}
    {ending : Owned × Held}
    (inv : owned.Inv type kind)
    (locked : type.isLocked = true)
    (accessed :
      owned.initThenWriteGuard type.locker fast completes = some ending) :
    Sound type kind accessor ending.1 ending.2 := by
  have used := inv.used accessed fun _ _ => nofun
  cases used with
  | refused nothing => exact ⟨inv, nothing none⟩
  | taken takes free =>
      cases takes with
      | write nature =>
          dsimp only
          split
          case isTrue due =>
            obtain ⟨⟨before, vacant⟩, -⟩ := inv.due free due
            refine inv.sound_initializing free due ?_
            intro after inv filled bits writeGuards readGuards
            refine ⟨?_, fun _ _ => ?_⟩
            · change Inv type kind
                ((after.holding _).dropWrite 0 initializedPhase)
              rw [holding_dropWrite bits writeGuards]
              exact inv
            · rw [vacant.word]
              have held := inv.holding filled readGuards locked before
              exact
                ⟨held, fun phase member => List.mem_singleton.mp member,
                  filled.value⟩
          case isFalse settled =>
            exact inv.sound_writeGuard free fun _ =>
              Bool.eq_false_iff.mpr settled
      | read nature => cases nature
      | none nature => cases nature

theorem Inv.sound_readLock
    {fast : Bool}
    {ending : Owned × Held}
    (inv : owned.Inv type kind)
    (plain : accessor.preparation = .nothing)
    (accessed : owned.readLock type.locker fast = some ending) :
    Sound type kind accessor ending.1 ending.2 := by
  have used := inv.used accessed fun _ _ => nofun
  cases used with
  | refused nothing => exact ⟨inv, nothing none⟩
  | taken takes free =>
      cases takes with
      | write nature => cases nature
      | read nature =>
          exact inv.sound_readGuard free fun prepares => absurd plain prepares
      | none nature => cases nature

theorem Inv.sound_writeLock
    {fast : Bool}
    {ending : Owned × Held}
    (inv : owned.Inv type kind)
    (plain : accessor.preparation = .nothing)
    (accessed : owned.writeLock type.locker fast = some ending) :
    Sound type kind accessor ending.1 ending.2 := by
  have used := inv.used accessed fun _ _ => nofun
  cases used with
  | refused nothing => exact ⟨inv, nothing none⟩
  | taken takes free =>
      cases takes with
      | write nature =>
          exact inv.sound_writeGuard free fun prepares => absurd plain prepares
      | read nature => cases nature
      | none nature => cases nature

theorem Inv.free_of_unique
    (inv : owned.Inv type kind)
    (unique : owned.isUnique = true) :
    owned.Free := by
  cases inv.stage with
  | untouched vacant => exact .inl ⟨_, vacant, .inl rfl⟩
  | failed vacant => exact .inl ⟨_, vacant, .inr rfl⟩
  | filled filled => exact .inr filled
  | guarded guarded _ =>
      rw [isUnique, guarded.writeGuards] at unique
      cases unique

theorem Inv.sound_initUnique
    (inv : owned.Inv type kind)
    (unique : owned.isUnique = true)
    (completes : Bool) :
    Sound type kind accessor (owned.initUnique completes).1
      (owned.initUnique completes).2 := by
  have free := inv.free_of_unique unique
  unfold initUnique
  split
  case h_1 => exact ⟨inv, nofun⟩
  case h_2 phase found =>
    obtain rfl : owned.phase = phase := by
      unfold Phase.fromBits at found
      split at found
      case isTrue => exact Option.some.inj found
      case isFalse => cases found
    split
    case isTrue due =>
      obtain ⟨⟨before, vacant⟩, fresh⟩ := inv.due free due
      have attempted := inv.attempted vacant fresh completes
      generalize owned.mutLazyInitializationOnly completes = ending
        at attempted
      cases attempted with
      | returned inv filled bits _ _ =>
          dsimp only
          split
          case h_1 => exact ⟨inv, nofun⟩
          case h_2 => exact ⟨inv, fun _ => filled.toGenerated⟩
      | unwound inv _ => exact ⟨inv, nofun⟩
    case isFalse settled =>
      exact inv.sound_nothing free fun _ => Bool.eq_false_iff.mpr settled

theorem Inv.free_of_lazy
    (inv : owned.Inv type kind)
    (isLazy : type.isLocked = false) :
    owned.Free := by
  cases inv.stage with
  | untouched vacant => exact .inl ⟨_, vacant, .inl rfl⟩
  | failed vacant => exact .inl ⟨_, vacant, .inr rfl⟩
  | filled filled => exact .inr filled
  | guarded _ locked => exact absurd locked (Bool.eq_false_iff.mp isLazy)

/-- The accessors of a locked lazy are not those of a lazy. -/
theorem isLocked_of_offers
    (offered : type.lazyType.offers accessor = true) :
    (accessor = .get ∨ accessor = .tryGet → type.isLocked = false) ∧
      (accessor.isLocked = true → accessor ≠ .init → type.isLocked = true) := by
  cases same : type.isLocked with
  | true =>
      rw [OwnedType.lazyType, same] at offered
      refine ⟨?_, fun _ _ => rfl⟩
      rintro (rfl | rfl)
      · cases offered
      · cases offered
  | false =>
      rw [OwnedType.lazyType, same] at offered
      refine ⟨fun _ => rfl, ?_⟩
      intro locked other
      cases accessor with
      | init => exact absurd rfl other
      | _ =>
          first
          | exact absurd locked (by decide)
          | exact absurd offered (by decide)

/-- Every access holds enough for its check. -/
theorem Inv.sound_prepare
    {ending : Owned × Held}
    (inv : owned.Inv type kind)
    (offered : type.lazyType.offers accessor = true)
    (prepared : owned.prepare type accessor completes = some ending) :
    Sound type kind accessor ending.1 ending.2 := by
  obtain ⟨isLazy, locked⟩ := isLocked_of_offers offered
  cases accessor with
  | get => exact inv.sound_init (isLazy (.inl rfl)) prepared
  | init =>
      rw [prepare] at prepared
      split at prepared
      case isTrue locked => exact inv.sound_initThenWriteGuard locked prepared
      case isFalse other =>
        exact inv.sound_init (Bool.eq_false_iff.mpr other) prepared
  | read => exact inv.sound_initThenReadGuard prepared
  | fastRead => exact inv.sound_initThenReadGuard prepared
  | write => exact inv.sound_initThenWriteGuard (locked rfl nofun) prepared
  | fastWrite => exact inv.sound_initThenWriteGuard (locked rfl nofun) prepared
  | tryRead => exact inv.sound_readLock rfl prepared
  | fastTryRead => exact inv.sound_readLock rfl prepared
  | tryWrite => exact inv.sound_writeLock rfl prepared
  | fastTryWrite => exact inv.sound_writeLock rfl prepared
  | tryGet =>
      obtain rfl := Option.some.inj prepared
      exact inv.sound_nothing (inv.free_of_lazy (isLazy (.inr rfl)))
        fun prepares => absurd rfl prepares
  | getMut =>
      rw [prepare] at prepared
      split at prepared
      case isTrue unique =>
        obtain rfl := Option.some.inj prepared
        exact inv.sound_initUnique unique completes
      case isFalse => cases prepared
  | tryGetMut =>
      rw [prepare] at prepared
      split at prepared
      case isTrue unique =>
        obtain rfl := Option.some.inj prepared
        exact inv.sound_nothing (inv.free_of_unique unique)
          fun prepares => absurd rfl prepares
      case isFalse => cases prepared
  | _ => cases prepared

end Parts

/-- What an event shows is not an empty slot. -/
def Event.showsValue : Event → Prop
  | .access _ _ reply => reply ≠ .reference none
  | .deref reply => reply ≠ .reference none
  | _ => True

theorem Inv.access
    {accessor : Accessor}
    {reply : Reply}
    (inv : owned.Inv type kind)
    (offered : type.lazyType.offers accessor = true)
    (accessed : owned.access type accessor completes = some (after, reply)) :
    after.Inv type kind ∧ reply ≠ .reference none := by
  obtain ⟨⟨before, held⟩, prepared, checked⟩ :=
    Option.map_eq_some_iff.mp accessed
  have sound := (inv.sound_prepare offered prepared).check
  change before.check type accessor held = (after, reply) at checked
  rw [checked] at sound
  exact sound

/-- A guard that is alive borrows a value. -/
theorem Inv.generated
    (inv : owned.Inv type kind)
    (borrowed : owned.isUnique = false) :
    owned.Generated := by
  have notVacant : ∀ phase, ¬ owned.Vacant phase := by
    intro phase vacant
    rw [isUnique, vacant.writeGuards, vacant.readGuards] at borrowed
    cases borrowed
  cases inv.stage with
  | untouched vacant => exact absurd vacant (notVacant _)
  | failed vacant => exact absurd vacant (notVacant _)
  | guarded guarded _ => exact guarded.toGenerated
  | filled filled => exact filled.toGenerated

theorem Inv.dropWrite
    {index : Nat}
    (inv : owned.Inv type kind)
    (found : owned.writeGuards[index]? = some phase) :
    (owned.dropWrite index phase).Inv type kind := by
  have member := List.mem_of_getElem? found
  have borrowed : owned.isUnique = false := by
    rw [isUnique, Bool.and_eq_false_iff]
    exact .inl (List.isEmpty_eq_false_iff.mpr (List.ne_nil_of_mem member))
  have generated := inv.generated borrowed
  refine inv.regard generated ?_ ?_ _
  · rw [generated.guards phase member, Phase.fromBitsTruncate_bits]
  · intro other kept
    exact generated.guards other (List.mem_of_mem_eraseIdx kept)

/-- Read guards are alive only where the phase tells of the value. -/
theorem Inv.filled_of_reader
    (inv : owned.Inv type kind)
    (readers : 0 < owned.readGuards) :
    owned.Filled := by
  cases inv.stage with
  | untouched vacant => exact absurd vacant.readGuards (by omega)
  | failed vacant => exact absurd vacant.readGuards (by omega)
  | guarded guarded _ => exact absurd guarded.readGuards (by omega)
  | filled filled => exact filled

theorem Inv.dropRead
    (inv : owned.Inv type kind)
    (readers : 0 < owned.readGuards) :
    owned.dropRead.Inv type kind := by
  have filled := inv.filled_of_reader readers
  exact inv.regard filled.toGenerated
    ((Sync.phase_sub_units rfl owned.word).trans filled.phase) filled.guards _

/-- A clone adds a reader, or it does nothing. -/
theorem clone_eq
    {word after : U32}
    {result : LockResult Unit Phase}
    {locker : LockerType}
    (taken : locker.clone word = .taken after result) :
    after = word + readerUnity ∧ result = .read () := by
  cases locker with
  | futex =>
      rw [LockerType.clone] at taken
      split at taken
      case isTrue => cases taken
      case isFalse =>
        obtain ⟨rfl, rfl⟩ := LockerEnd.taken.inj taken
        exact ⟨rfl, rfl⟩
  | spinning =>
      rw [LockerType.clone] at taken
      split at taken
      case isTrue => cases taken
      case isFalse =>
        obtain ⟨rfl, rfl⟩ := LockerEnd.taken.inj taken
        exact ⟨rfl, rfl⟩
  | unSync =>
      rw [LockerType.clone, UnSync.clone] at taken
      split at taken
      case h_1 added =>
        obtain ⟨rfl, rfl⟩ := LockerEnd.taken.inj taken
        exact ⟨LockerType.addReader_eq added, rfl⟩
      case h_2 => cases taken

theorem Inv.clone
    (inv : owned.Inv type kind)
    (readers : 0 < owned.readGuards)
    (cloned : owned.cloned (type.locker.clone owned.word) = some after) :
    after.Inv type kind := by
  have filled := inv.filled_of_reader readers
  cases same : type.locker.clone owned.word with
  | taken word result =>
      rw [same] at cloned
      obtain rfl := Option.some.inj cloned
      obtain ⟨rfl, rfl⟩ := clone_eq same
      exact inv.regard filled.toGenerated
        ((Sync.phase_add_units rfl owned.word).trans filled.phase)
        filled.guards _
  | waits =>
      rw [same] at cloned
      cases cloned
  | refused =>
      rw [same] at cloned
      obtain rfl := Option.some.inj cloned
      exact inv
  | panicked =>
      rw [same] at cloned
      obtain rfl := Option.some.inj cloned
      exact inv

/-- Every use keeps the slot and the phase in step. -/
theorem Inv.step
    {event : Event}
    (inv : owned.Inv type kind)
    (step : Step type owned event after) :
    after.Inv type kind ∧ event.showsValue := by
  cases event with
  | access => exact inv.access step.1 step.2
  | dropWrite =>
      obtain ⟨phase, found, rfl⟩ := step
      exact ⟨inv.dropWrite found, trivial⟩
  | dropRead =>
      obtain ⟨readers, rfl⟩ := step
      exact ⟨inv.dropRead readers, trivial⟩
  | clone => exact ⟨inv.clone step.1 step.2, trivial⟩
  | deref =>
      obtain ⟨borrowed, rfl, rfl⟩ := step
      exact ⟨inv, (inv.generated borrowed).reference⟩

end StaticInit.Owned
