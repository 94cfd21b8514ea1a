import StaticInit.PhaseLocker.Spinning.Natures

namespace StaticInit.Spinning

/-!
# Progress of the spinning locker

A thread that is alone at work leaves the locker after a few instructions,
exactly if the guards that are alive allow what it asks for.  Otherwise it
spins: it reads the word again and again and changes nothing.
-/

open Sync (Lock ReadLock Closures Call Result UserOp SpinWait readerCount
  lockCount)
open LockWord (view)

/-- What an operation inside the locker needs to return. -/
inductive Need where
  | nothing
  | noGuard
  /-- No lock, and room for one more reader. -/
  | noLock
  /-- Room for one more reader. -/
  | room
  deriving DecidableEq, Repr

/-- What a call needs in a phase. -/
def needOf (how : Phase → LockNature) (phase : Phase) : Need :=
  match how phase with
  | .write => .noGuard
  | .read => .noLock
  | .none => .nothing

/-- `try_lock` and the drops need nothing: they return at once. -/
def Pc.need (pc : Pc) (phase : Phase) : Need :=
  match pc with
  | .optimistic (.lock closures _) => needOf closures.how phase
  | .slowWrite how _ => needOf how phase
  | .slowRead how _ _ => needOf how phase
  | .slowReadLoad how _ => needOf how phase
  | .slowLoad how => needOf how phase
  | .cloneLoad _ => .room
  | .cloneCas _ _ => .room
  | _ => .nothing

/-- The guards that are alive leave what is needed. -/
def Need.Met (locks readLocks : Nat) : Need → Prop
  | .nothing => True
  | .noGuard => locks = 0 ∧ readLocks = 0
  | .noLock => locks = 0 ∧ readLocks < 2 ^ 21 - 1
  | .room => readLocks < 2 ^ 21 - 1

/-- The word shows what is needed. -/
def Need.Shown (word : U32) (need : Need) : Prop :=
  need.Met (lockCount word) (readerCount word)

/-- The operation at a place may return if the word stays. -/
def Pc.Ready (pc : Pc) (word : U32) : Prop :=
  (pc.need (.fromBitsTruncate word)).Shown word

/-- How many instructions are left at most, if the word stays. -/
def Pc.left (word : U32) : Pc → Nat
  | .idle => 0
  | .optimistic _ => 2
  | .tryRead _ cur => if cur = word then 1 else 2
  | .slowWrite _ cur => if cur = word then 1 else 2
  | .slowRead _ _ cur => if cur = word then 1 else 4
  | .slowReadLoad _ _ => 3
  | .slowLoad _ => 2
  | .cloneLoad _ => 2
  | .cloneCas _ cur => if cur = word then 1 else 3
  | _ => 1

attribute [local simp] Pc.left

section Words

variable {word : U32} {how : Phase → LockNature}

theorem shown_noGuard :
    Need.noGuard.Shown word ↔ isWriteLockable word = true :=
  (isWriteLockable_iff word).symm

theorem shown_room :
    Need.room.Shown word ↔ hasReadersMax word = false := by
  have bound := Sync.readerCount_lt word
  rw [← Bool.not_eq_true, hasReadersMax_iff]
  change readerCount word < 2 ^ 21 - 1 ↔ _
  omega

theorem shown_noLock :
    Need.noLock.Shown word ↔ isReadLockable word = true := by
  rw [isReadLockable_iff, ← shown_room]
  rfl

theorem shown_write
    (write : how (.fromBitsTruncate word) = .write) :
    (needOf how (.fromBitsTruncate word)).Shown word ↔
      isWriteLockable word = true := by
  rw [needOf, write]
  exact shown_noGuard

theorem shown_read
    (read : how (.fromBitsTruncate word) = .read) :
    (needOf how (.fromBitsTruncate word)).Shown word ↔
      isReadLockable word = true := by
  rw [needOf, read]
  exact shown_noLock

theorem shown_none
    (none : how (.fromBitsTruncate word) = .none) :
    (needOf how (.fromBitsTruncate word)).Shown word := by
  rw [needOf, none]
  trivial

end Words

/-- Local code that returns if it may, and gets nearer to that otherwise. -/
def Next.Goes (word : U32) (ready : Prop) (bound : Nat) : Next → Prop
  | .goto pc => (pc.Ready word ↔ ready) ∧ (ready → pc.left word < bound)
  | .ret _ => ready
  | .unreachable => False

section LocalCode

variable {word : U32} {how : Phase → LockNature} {bound : Nat}

theorem slowReadLoop_goes
    {spinWait : SpinWait}
    (near : 1 < bound)
    (read : how (.fromBitsTruncate word) = .read) :
    (slowReadLoop how spinWait word).Goes word
      ((needOf how (.fromBitsTruncate word)).Shown word) bound := by
  unfold slowReadLoop
  split
  case isTrue lockable =>
    refine ⟨.rfl, fun _ => ?_⟩
    simp only [Pc.left, if_true]
    exact near
  case isFalse locked =>
    exact ⟨.rfl, fun ready => absurd ((shown_read read).mp ready) locked⟩

theorem slowReadLoaded_goes
    {spinWait : SpinWait}
    (near : 2 < bound) :
    (slowReadLoaded how spinWait word).Goes word
      ((needOf how (.fromBitsTruncate word)).Shown word) bound := by
  unfold slowReadLoaded
  split
  case isTrue read => exact slowReadLoop_goes (by omega) read
  case isFalse => exact ⟨.rfl, fun _ => near⟩

theorem slowLoop_goes
    (near : 1 < bound) :
    (slowLoop how word).Goes word
      ((needOf how (.fromBitsTruncate word)).Shown word) bound := by
  unfold slowLoop
  split
  case h_1 write =>
    split
    case isTrue lockable =>
      refine ⟨.rfl, fun _ => ?_⟩
      simp only [Pc.left, if_true]
      exact near
    case isFalse locked =>
      exact ⟨.rfl, fun ready => absurd ((shown_write write).mp ready) locked⟩
  case h_2 read => exact slowReadLoop_goes near read
  case h_3 none => exact shown_none none

theorem tryReadLoop_goes (near : 1 < bound) :
    (tryReadLoop how word).Goes word True bound := by
  unfold tryReadLoop
  split
  case isTrue =>
    refine ⟨.rfl, fun _ => ?_⟩
    simp only [Pc.left, if_true]
    exact near
  case isFalse => trivial

theorem tryReadFailed_goes (near : 1 < bound) :
    (tryReadFailed how word).Goes word True bound := by
  unfold tryReadFailed
  split
  case isTrue => exact tryReadLoop_goes near
  case isFalse => trivial

theorem trySecond_goes (near : 1 < bound) :
    (trySecond how word).Goes word True bound := by
  unfold trySecond
  split
  case h_1 =>
    split
    case isTrue => exact ⟨.rfl, fun _ => near⟩
    case isFalse => trivial
  case h_2 => exact tryReadLoop_goes near
  case h_3 => trivial

theorem second_goes (call : Call) :
    (second call word).Goes word ((Pc.optimistic call).Ready word) 2 := by
  cases call with
  | lock closures hint => exact slowLoop_goes Nat.one_lt_two
  | tryLock how hint => exact trySecond_goes Nat.one_lt_two

theorem optimisticNone_goes (call : Call) :
    (optimisticNone call word).Goes word
      ((Pc.optimistic call).Ready word) 2 := by
  unfold optimisticNone
  split
  case isTrue none =>
    cases call with
    | lock closures hint => exact shown_none none
    | tryLock how hint => trivial
  case isFalse => exact second_goes call

theorem cloneLoop_goes
    (guard : ReadLock) :
    (cloneLoop guard word).Goes word (Need.room.Shown word) 2 := by
  unfold cloneLoop
  split
  case isTrue =>
    refine ⟨.rfl, fun _ => ?_⟩
    simp only [Pc.left, if_true]
    exact Nat.one_lt_two
  case isFalse full =>
    refine ⟨.rfl, fun ready => absurd ?_ full⟩
    rw [shown_room.mp ready]
    rfl

end LocalCode

/-- What an instruction leaves: the word as it was, or the end of the operation. -/
def Next.Alone (pc : Pc) (word after : U32) (next : Next) : Prop :=
  next.Goes word (pc.Ready word) (pc.left word) ∧
    ∀ later, next = .goto later → after = word

section Instructions

variable {word after cur new : U32} {pc : Pc} {ok next : Next} {weak : Bool}
  {err : U32 → Next}

/-- An exchange that does not fail for no reason. -/
theorem perform_exchange_alone
    (performs :
      (Instr.exchange weak cur new ok err).perform word false =
        some (after, next))
    (taken : word = cur → ok.Alone pc word new)
    (failed : word ≠ cur → (err word).Goes word (pc.Ready word) (pc.left word)) :
    next.Alone pc word after := by
  have performs := Option.some.inj performs
  rw [Bool.and_false] at performs
  split at performs
  case isTrue same =>
    obtain ⟨rfl, rfl⟩ := Prod.mk.inj performs
    exact taken same.1
  case isFalse different =>
    obtain ⟨rfl, rfl⟩ := Prod.mk.inj performs
    exact ⟨failed fun same => different ⟨same, rfl⟩, fun _ _ => rfl⟩

/-- A load leaves the word. -/
theorem perform_load_alone
    {then_ : U32 → Next}
    (performs : (Instr.fetch id then_).perform word false = some (after, next))
    (goes : (then_ word).Goes word (pc.Ready word) (pc.left word)) :
    next.Alone pc word after := by
  obtain ⟨rfl, rfl⟩ := Prod.mk.inj (Option.some.inj performs)
  exact ⟨goes, fun _ _ => rfl⟩

/-- A result ends the operation. -/
theorem ret_alone
    {result : Result}
    (ready : pc.Ready word) :
    (Next.ret result).Alone pc word after :=
  ⟨ready, nofun⟩

/-- The attempt on the hint. -/
theorem optimistic_alone
    {call : Call}
    (performs :
      (Pc.optimistic call).instr.perform word false = some (after, next)) :
    next.Alone (.optimistic call) word after := by
  change (Spinning.optimistic call).perform word false = _ at performs
  unfold Spinning.optimistic at performs
  split at performs
  case h_1 => exact perform_load_alone performs (optimisticNone_goes call)
  case h_2 write =>
    apply perform_exchange_alone performs ?_ fun _ => second_goes call
    rintro rfl
    apply ret_alone
    cases call with
    | lock closures hint =>
        refine (shown_write ?_).mpr (lockable_hint hint).1
        rw [Call.hint, Phase.fromBitsTruncate_bits]
        exact write
    | tryLock how hint => trivial
  case h_3 read =>
    apply perform_exchange_alone performs ?_ fun _ => second_goes call
    rintro rfl
    apply ret_alone
    cases call with
    | lock closures hint =>
        refine (shown_read ?_).mpr (lockable_hint hint).2
        rw [Call.hint, Phase.fromBitsTruncate_bits]
        exact read
    | tryLock how hint => trivial

/-- An instruction of a thread that is alone at work. -/
theorem Pc.perform_alone
    {call : Option Call}
    (relies : pc.Relies)
    (honours : pc.Honours call)
    (performs : pc.instr.perform word false = some (after, next))
    (reached : next ≠ .unreachable) :
    next.Alone pc word after := by
  cases pc with
  | idle => cases performs
  | optimistic call => exact optimistic_alone performs
  | tryWrite how cur =>
      apply perform_exchange_alone performs
      · exact fun _ => ret_alone trivial
      · exact fun _ => trivial
  | tryRead how cur =>
      apply perform_exchange_alone performs
      · exact fun _ => ret_alone trivial
      intro different
      rw [Pc.left, if_neg (Ne.symm different)]
      exact tryReadFailed_goes Nat.one_lt_two
  | slowWrite how cur =>
      apply perform_exchange_alone performs
      · rintro rfl
        exact ret_alone ((shown_write honours.2).mpr relies)
      · intro different
        rw [Pc.left, if_neg (Ne.symm different)]
        exact slowLoop_goes Nat.one_lt_two
  | slowRead how spinWait cur =>
      apply perform_exchange_alone performs
      · rintro rfl
        exact ret_alone ((shown_read honours.2).mpr relies)
      · intro different
        rw [Pc.left, if_neg (Ne.symm different)]
        exact ⟨.rfl, fun _ => Nat.lt_succ_self 3⟩
  | slowReadLoad how spinWait =>
      exact perform_load_alone performs (slowReadLoaded_goes Nat.le.refl)
  | slowLoad how =>
      exact perform_load_alone performs (slowLoop_goes Nat.one_lt_two)
  | dropLock lock =>
      have performs := Option.some.inj performs
      split at performs
      case isTrue =>
        obtain ⟨rfl, rfl⟩ := Prod.mk.inj performs
        exact ret_alone trivial
      case isFalse =>
        obtain ⟨rfl, rfl⟩ := Prod.mk.inj performs
        exact absurd rfl reached
  | convert lock cur =>
      obtain ⟨rfl, rfl⟩ := Prod.mk.inj (Option.some.inj performs)
      exact ret_alone trivial
  | dropReadLock lock =>
      obtain ⟨rfl, rfl⟩ := Prod.mk.inj (Option.some.inj performs)
      exact ret_alone trivial
  | cloneLoad guard =>
      exact perform_load_alone performs (cloneLoop_goes guard)
  | cloneCas guard cur =>
      apply perform_exchange_alone performs
      · rintro rfl
        exact ret_alone (shown_room.mpr relies)
      · intro different
        rw [Pc.left, if_neg (Ne.symm different)]
        exact ⟨.rfl, fun _ => Nat.lt_succ_self 2⟩

/-- Inside the locker there is an instruction to perform. -/
theorem Pc.exists_perform
    (inside : pc ≠ .idle)
    (word : U32) :
    ∃ after next, pc.instr.perform word false = some (after, next) := by
  cases pc with
  | idle => exact absurd rfl inside
  | optimistic call =>
      change ∃ after next, (Spinning.optimistic call).perform word false = _
      unfold Spinning.optimistic
      split
      all_goals exact ⟨_, _, rfl⟩
  | _ => exact ⟨_, _, rfl⟩

theorem Pc.left_pos
    (inside : pc ≠ .idle) :
    0 < pc.left word := by
  unfold Pc.left
  split
  case h_1 => exact absurd rfl inside
  all_goals first | omega | (split <;> omega)

theorem Pc.left_le (pc : Pc) (word : U32) : pc.left word ≤ 4 := by
  unfold Pc.left
  split
  all_goals first | omega | (split <;> omega)

end Instructions

namespace State

variable {ι : Type} [DecidableEq ι]

/-- Each thread keeps what the closure of its call said. -/
theorem Reachable.honours
    {state : State ι}
    (reachable : state.Reachable)
    (actor : ι) :
    ∃ call, (state.thread actor).pc.Honours call := by
  obtain ⟨phase, actions, run⟩ := reachable
  induction run with
  | refl => exact ⟨none, trivial⟩
  | @snoc actions before after action _ last inductionHypothesis =>
      obtain ⟨call, honours⟩ := inductionHypothesis
      cases actorStep last with
      | @start starter op thread starts =>
          by_cases moves : actor = starter
          · subst moves
            refine ⟨op.call, ?_⟩
            rw [setThread_self]
            exact Thread.start_honours starts fun _ same => same
          · rw [setThread_other _ _ moves]
            exact ⟨call, honours⟩
      | @instruction runner spurious word next thread performs continues =>
          refine ⟨call, ?_⟩
          by_cases moves : actor = runner
          · subst moves
            rw [setThread_self]
            have kept : next.Honours call (fun _ => True) word :=
              Pc.perform_honours trivial honours performs
            exact Thread.continue_honours continues kept
          · rw [setThread_other _ _ moves]
            exact honours

theorem Reachable.step
    {state after : State ι}
    {action : Action ι}
    (reachable : state.Reachable)
    (step : Step state action after) :
    after.Reachable := by
  obtain ⟨phase, actions, run⟩ := reachable
  exact ⟨phase, actions ++ [action], .snoc action run step⟩

variable [Fintype ι]

/-- The guards that are alive allow what the operation of a thread needs. -/
def Unhindered (state : State ι) (actor : ι) : Prop :=
  ((state.thread actor).pc.need state.phase).Met state.aliveLocks
    state.aliveReadLocks

/-- The word shows whether a thread is hindered. -/
theorem Reachable.unhindered_iff
    {state : State ι}
    {actor : ι}
    (reachable : state.Reachable) :
    state.Unhindered actor ↔ (state.thread actor).pc.Ready state.word := by
  have shows := reachable.inv.shows
  rw [Pc.Ready, Need.Shown, shows.locked, shows.readers]
  rfl

/-- One instruction of a thread that is alone at work. -/
theorem Reachable.run_alone
    {state : State ι}
    {actor : ι}
    (reachable : state.Reachable)
    (inside : (state.thread actor).pc ≠ .idle) :
    ∃ after,
      Step state (.run actor false) after ∧
        ((state.thread actor).pc.Ready state.word ∧
            (after.thread actor).pc = .idle ∨
          after.word = state.word ∧
            ((after.thread actor).pc.Ready state.word ↔
              (state.thread actor).pc.Ready state.word) ∧
            ((state.thread actor).pc.Ready state.word →
              (after.thread actor).pc.left state.word <
                (state.thread actor).pc.left state.word)) := by
  obtain ⟨call, honours⟩ := reachable.honours actor
  obtain ⟨word, next, performs⟩ := Pc.exists_perform inside state.word
  have executed :
      state.exec (.run actor false) =
        some
          (((state.thread actor).continue next).map
            (state.setThread word actor)) := by
    rw [exec, performs]
    rfl
  have reached : next ≠ .unreachable := by
    rintro rfl
    exact reachable.inv.no_panic executed
  have alone :=
    Pc.perform_alone (reachable.inv.relies actor) honours performs reached
  cases next with
  | goto later =>
      refine ⟨_, executed, .inr ⟨alone.2 later rfl, ?_⟩⟩
      rw [setThread_self]
      exact alone.1
  | ret result =>
      refine ⟨_, executed, .inl ⟨alone.1, ?_⟩⟩
      rw [setThread_self]
  | unreachable => exact absurd rfl reached

/-- A thread that is ready leaves the locker. -/
theorem Reachable.returns_alone
    {state : State ι}
    {actor : ι}
    {bound : Nat}
    (reachable : state.Reachable)
    (ready : (state.thread actor).pc.Ready state.word)
    (near : (state.thread actor).pc.left state.word ≤ bound) :
    ∃ steps ≤ bound, ∃ after,
      Run Step state (List.replicate steps (.run actor false)) after ∧
        (after.thread actor).pc = .idle := by
  induction bound generalizing state with
  | zero =>
      refine ⟨0, Nat.le.refl, state, .refl, ?_⟩
      by_contra inside
      exact absurd near (Nat.not_le.mpr (Pc.left_pos inside))
  | succ bound inductionHypothesis =>
      by_cases inside : (state.thread actor).pc = .idle
      · exact ⟨0, Nat.zero_le _, state, .refl, inside⟩
      obtain ⟨after, step, ⟨-, idle⟩ | ⟨same, kept, nearer⟩⟩ :=
        reachable.run_alone inside
      · exact ⟨1, Nat.le_add_left 1 bound, after, .cons step .refl, idle⟩
      · have nearer := Nat.le_of_lt_succ ((nearer ready).trans_le near)
        have ready := kept.mpr ready
        rw [← same] at nearer ready
        obtain ⟨steps, few, final, run, idle⟩ :=
          inductionHypothesis (reachable.step step) ready nearer
        exact ⟨steps + 1, Nat.succ_le_succ few, final, .cons step run, idle⟩

/-- A thread that is not ready spins. -/
theorem Reachable.spins_alone
    {state : State ι}
    {actor : ι}
    (reachable : state.Reachable)
    (hindered : ¬ (state.thread actor).pc.Ready state.word)
    (steps : Nat) :
    ∃ after,
      Run Step state (List.replicate steps (.run actor false)) after ∧
        after.word = state.word ∧ (after.thread actor).pc ≠ .idle := by
  have inside : (state.thread actor).pc ≠ .idle := by
    intro idle
    rw [idle] at hindered
    exact hindered trivial
  induction steps generalizing state with
  | zero => exact ⟨state, .refl, rfl, inside⟩
  | succ steps inductionHypothesis =>
      obtain ⟨after, step, ⟨ready, -⟩ | ⟨same, kept, -⟩⟩ :=
        reachable.run_alone inside
      · exact absurd ready hindered
      · have still : ¬ (after.thread actor).pc.Ready after.word := by
          rw [same]
          exact mt kept.mp hindered
        have inside : (after.thread actor).pc ≠ .idle := by
          intro idle
          rw [idle] at still
          exact still trivial
        obtain ⟨final, run, whole, inside⟩ :=
          inductionHypothesis (reachable.step step) still inside
        exact ⟨final, .cons step run, whole.trans same, inside⟩

/--
A thread that is alone at work leaves the locker within four instructions if
the guards that are alive allow what its operation needs, and spins otherwise.
-/
theorem spinning_progress
    {state : State ι}
    (reachable : state.Reachable)
    (actor : ι) :
    (state.Unhindered actor →
      ∃ steps ≤ 4, ∃ after,
        Run Step state (List.replicate steps (.run actor false)) after ∧
          (after.thread actor).pc = .idle) ∧
    (¬ state.Unhindered actor →
      ∀ steps, ∃ after,
        Run Step state (List.replicate steps (.run actor false)) after ∧
          after.word = state.word ∧ (after.thread actor).pc ≠ .idle) := by
  rw [reachable.unhindered_iff]
  exact ⟨fun ready => reachable.returns_alone ready (Pc.left_le _ _),
    reachable.spins_alone⟩

/-- A thread that wants to write while another one reads, and once that is over. -/
theorem spinning_progress_writing :
    let reads : List (Action (Fin 2)) :=
      [.start 0 (.lock ⟨fun _ => .read, fun _ => .read⟩ .empty), .run 0 false,
        .start 1 (.lock ⟨fun _ => .write, fun _ => .write⟩ .empty),
        .run 1 false]
    let drops : List (Action (Fin 2)) :=
      [.start 0 (.dropReadLock 0), .run 0 false]
    ∃ waiting later,
      Run Step (init (Fin 2) .empty) reads waiting ∧
        Run Step (init (Fin 2) .empty) (reads ++ drops) later ∧
          (∀ steps, ∃ after,
            Run Step waiting (List.replicate steps (.run 1 false)) after ∧
              after.word = waiting.word ∧ (after.thread 1).pc ≠ .idle) ∧
            ∃ steps ≤ 4, ∃ after,
              Run Step later (List.replicate steps (.run 1 false)) after ∧
                (after.thread 1).pc = .idle := by
  intro reads drops
  obtain ⟨waiting, performed, reading, needs⟩ :
      ∃ state : State (Fin 2),
        runAll advance (init (Fin 2) .empty) reads = some state ∧
          state.aliveReadLocks = 1 ∧
          (state.thread 1).pc.need state.phase = .noGuard :=
    ⟨_, rfl, rfl, rfl⟩
  obtain ⟨later, finished, locks, readLocks, needsLater⟩ :
      ∃ state : State (Fin 2),
        runAll advance (init (Fin 2) .empty) (reads ++ drops) = some state ∧
          state.aliveLocks = 0 ∧ state.aliveReadLocks = 0 ∧
          (state.thread 1).pc.need state.phase = .noGuard :=
    ⟨_, rfl, rfl, rfl, rfl⟩
  have waits := run_of_advances performed
  have goes := run_of_advances finished
  refine ⟨waiting, later, waits, goes, ?_, ?_⟩
  · apply (spinning_progress ⟨_, _, waits⟩ 1).2
    rw [Unhindered, needs, reading]
    exact fun met => Nat.one_ne_zero met.2
  · apply (spinning_progress ⟨_, _, goes⟩ 1).1
    rw [Unhindered, needsLater, locks, readLocks]
    exact ⟨rfl, rfl⟩

end State

end StaticInit.Spinning
