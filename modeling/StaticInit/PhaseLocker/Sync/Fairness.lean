import StaticInit.PhaseLocker.Sync.Transfers

namespace StaticInit.Sync

/-!
# Fairness between readers and writers

A history lists the decisions of `transfer_lock`, the newest first: on which
word each was made, who was parked, and whether it came to wake the readers.
With the futex of Linux no two decisions in a row wake the readers past a parked
writer, and no `READ_FAIRNESS_PERIOD` of them leave waiting readers asleep.  The
other futex reads the fairness counter the other way round: it is fair to
readers, but not to writers.
-/

open LockWord (view)

/-- `wake_readers` is going to be called for a lock that is transferred. -/
def Pc.wakesReaders : Pc → Bool
  | .wakeXor _ (.releasing _) => true
  | _ => false

/-- `wake_readers` is going to be called for a converted guard. -/
def Pc.converts : Pc → Bool
  | .wakeXor _ (.converting _) => true
  | _ => false

/-- A decision of `transfer_lock`. -/
structure Decision (ι : Type) where
  actor : ι
  /-- The word on which the decision is made. -/
  cur : U32
  /-- The threads parked as readers when the decision is made. -/
  readers : ι → Bool
  /-- The threads parked as writers since then, until readers are woken. -/
  writers : ι → Bool
  /-- The transfer calls `wake_readers`. -/
  wakesReaders : Bool
  /-- After this decision the conversion of a guard wakes the readers. -/
  converted : Bool

namespace Decision

variable {ι : Type} [DecidableEq ι]

/-- What becomes of a decision by one more step. -/
def observe
    (decision : Decision ι)
    (actor : ι)
    (after : State ι) : Decision ι :=
  { decision with
    writers := fun other =>
      decision.writers other &&
        (decision.wakesReaders || (after.thread other).pc.parkedAsWriter)
    wakesReaders :=
      decision.wakesReaders ||
        decide (actor = decision.actor) &&
          (after.thread actor).pc.wakesReaders
    converted := decision.converted || (after.thread actor).pc.converts }

/-- Both decisions wake the readers and leave a writer parked. -/
def PassOver (newer older : Decision ι) : Prop :=
  newer.wakesReaders = true ∧ older.wakesReaders = true ∧
    ∃ writer, newer.writers writer = true ∧ older.writers writer = true

instance [Fintype ι] (newer older : Decision ι) :
    Decidable (newer.PassOver older) :=
  inferInstanceAs (Decidable (_ ∧ _))

/-- A reader is parked and its waiter bit is set. -/
def ReadersWait (decision : Decision ι) : Prop :=
  (∃ reader, decision.readers reader = true) ∧
    (view decision.cur).readWaiter = true

/-- The readers are woken by the decision, or by a conversion after it. -/
def HeedsReaders (decision : Decision ι) : Prop :=
  decision.wakesReaders = true ∨ decision.converted = true

end Decision

/-- No two decisions in a row wake the readers past the same parked writer. -/
def WriterPriority {ι : Type} (history : List (Decision ι)) : Prop :=
  history.IsChain fun newer older => ¬newer.PassOver older

instance {ι : Type} [Fintype ι] (history : List (Decision ι)) :
    Decidable (WriterPriority history) :=
  inferInstanceAs (Decidable (List.IsChain _ history))

/-- A whole period of decisions does not pass over waiting readers. -/
def ReaderFairness {ι : Type} (history : List (Decision ι)) : Prop :=
  ∀ period : List (Decision ι),
    period <:+: history →
      period.length = readFairnessPeriod.toNat →
        (∀ decision ∈ period, decision.ReadersWait) →
          ∃ decision ∈ period, decision.HeedsReaders

namespace State

variable {ι : Type} [DecidableEq ι]

/-- A decision that is just made. -/
def decision (state : State ι) (actor : ι) (cur : U32) : Decision ι where
  actor := actor
  cur := cur
  readers := fun reader => (state.thread reader).pc.parkedAsReader
  writers := fun writer => (state.thread writer).pc.parkedAsWriter
  wakesReaders := false
  converted := false

/-- The last decision takes notice of a step. -/
def observeLast
    (actor : ι)
    (after : State ι) : List (Decision ι) → List (Decision ι)
  | [] => []
  | last :: earlier => last.observe actor after :: earlier

/-- The history after a step of a thread. -/
def record
    (state : State ι)
    (actor : ι)
    (after : State ι)
    (history : List (Decision ι)) : List (Decision ι) :=
  match (state.thread actor).pc with
  | .transferPrefer cur _ =>
      observeLast actor after (state.decision actor cur :: history)
  | _ => observeLast actor after history

variable [Fintype ι]

/-- A step of the locker and of its history. -/
def Recorded
    (backend : Backend)
    (before : State ι × List (Decision ι))
    (action : Action ι)
    (after : State ι × List (Decision ι)) : Prop :=
  State.Step backend before.1 action after.1 ∧
    after.2 = before.1.record action.actor after.1 before.2

end State

/-- Perform one action, unless an assertion fails, and record it. -/
def State.execRecorded
    {ι : Type}
    [DecidableEq ι]
    [Fintype ι]
    (backend : Backend)
    (before : State ι × List (Decision ι))
    (action : Action ι) : Option (State ι × List (Decision ι)) :=
  match before.1.exec backend action with
  | some (.ok after) =>
      some (after, before.1.record action.actor after before.2)
  | _ => none

/-- A futex keeps its promise to writers and to readers in every run. -/
def Backend.Fair (backend : Backend) : Prop :=
  ∀ (ι : Type) [DecidableEq ι] [Fintype ι]
    (phase : Phase)
    (actions : List (Action ι))
    (final : State ι × List (Decision ι)),
    Run (State.Recorded backend) (State.init ι phase, []) actions final →
      WriterPriority final.2 ∧ ReaderFairness final.2

/-- A decision that leaves waiting readers asleep. -/
def Decision.passes {ι : Type} (decision : Decision ι) : Bool :=
  (view decision.cur).readWaiter && !decision.wakesReaders &&
    !decision.converted

/-- How many of the last decisions passed over waiting readers. -/
def streak {ι : Type} (history : List (Decision ι)) : Nat :=
  (history.takeWhile Decision.passes).length

theorem streak_cons
    {ι : Type}
    (last : Decision ι)
    (earlier : List (Decision ι)) :
    streak (last :: earlier) = if last.passes then streak earlier + 1 else 0 := by
  unfold streak
  rw [List.takeWhile_cons]
  split
  case isTrue => rfl
  case isFalse => rfl

theorem streak_of_not_passes
    {ι : Type}
    {last : Decision ι}
    (earlier : List (Decision ι))
    (heeds : last.passes = false) :
    streak (last :: earlier) = 0 := by
  rw [streak_cons, heeds, if_neg Bool.false_ne_true]

/-- No decision passes over the readers a whole period after another. -/
def Paced {ι : Type} (history : List (Decision ι)) : Prop :=
  ∀ past, past <:+ history → streak past < readFairnessPeriod.toNat

theorem Paced.cons
    {ι : Type}
    {last : Decision ι}
    {earlier : List (Decision ι)}
    (paced : Paced earlier)
    (short : streak (last :: earlier) < readFairnessPeriod.toNat) :
    Paced (last :: earlier) := by
  intro past leading
  rcases List.suffix_cons_iff.mp leading with rfl | shorter
  · exact short
  · exact paced past shorter

theorem Paced.tail
    {ι : Type}
    {last : Decision ι}
    {earlier : List (Decision ι)}
    (paced : Paced (last :: earlier)) :
    Paced earlier := by
  intro past shorter
  exact paced past (shorter.trans (List.suffix_cons last earlier))

/-- Readers wait no longer than a period. -/
theorem Paced.fair
    {ι : Type}
    {history : List (Decision ι)}
    (paced : Paced history) :
    ReaderFairness history := by
  intro period ⟨later, earlier, within⟩ length waiting
  by_contra asleep
  have passing : ∀ decision ∈ period, decision.passes = true := by
    intro decision member
    have unheeded : ¬decision.HeedsReaders :=
      fun heeds => asleep ⟨decision, member, heeds⟩
    simp only [Decision.HeedsReaders, not_or, Bool.not_eq_true] at unheeded
    simp [Decision.passes, (waiting decision member).2, unheeded]
  have short := paced (period ++ earlier)
    ⟨later, by rw [← List.append_assoc, within]⟩
  rw [streak, List.takeWhile_append_of_pos passing, List.length_append,
    length] at short
  omega

/-- The places between the decision for a writer and the count of its wake. -/
def Pc.counting : Pc → Bool
  | .transferXor .. => true
  | .transferFairness .. => true
  | _ => false

/-- The places of `wake_readers` before the fairness counter is reset. -/
def Pc.resetting : Pc → Bool
  | .wakeXor .. => true
  | .wakeFairness _ => true
  | _ => false

/-- What a place outside of a transfer does not do. -/
theorem Pc.outside_quiet
    {pc : Pc}
    (outside : pc.transfers = false) :
    pc.wakesReaders = false ∧ pc.counting = false ∧ pc.resetting = false := by
  cases pc with
  | transferXor preference cur next => cases outside
  | transferFairness preference cur next => cases outside
  | wakeXor toUnactivate waker => cases outside
  | wakeFairness waker => cases outside
  | _ => exact ⟨rfl, rfl, rfl⟩

/--
How many decisions may have passed over waiting readers: at most the wakes of
writers since the last wake of readers, in a period.  The other futex prefers a
writer at the start of a period only.
-/
def Backend.lag : Backend → BitVec 16 → Nat
  | .linux, fairness => (fairness.toNat + 31) % 32
  | .other, fairness => if fairness.toNat % 32 = 1 then 1 else 0

theorem Backend.lag_lt
    (backend : Backend)
    (fairness : BitVec 16) :
    backend.lag fairness < readFairnessPeriod.toNat := by
  have period : readFairnessPeriod.toNat = 32 := rfl
  rw [period]
  cases backend with
  | linux => exact Nat.mod_lt _ (by decide)
  | other =>
      simp only [lag]
      split
      case isTrue => decide
      case isFalse => decide

theorem period_iff (fairness : BitVec 16) :
    fairness % readFairnessPeriod = 0 ↔ fairness.toNat % 32 = 0 := by
  rw [← BitVec.toNat_inj, BitVec.toNat_umod]
  rfl

/-- A wake of a writer that was preferred lets one more decision pass. -/
theorem Backend.lag_succ
    {backend : Backend}
    {fairness : BitVec 16}
    (prefers : backend.preferWakeOneWriter fairness = true) :
    backend.lag (fairness + 1) = backend.lag fairness + 1 := by
  have one : (1 : BitVec 16).toNat = 1 := rfl
  cases backend with
  | linux =>
      rw [preferWakeOneWriter, bne_iff_ne, ne_eq, period_iff] at prefers
      simp only [lag]
      rw [BitVec.toNat_add]
      omega
  | other =>
      rw [preferWakeOneWriter, beq_iff_eq, period_iff] at prefers
      simp only [lag]
      rw [BitVec.toNat_add, if_pos (by omega), if_neg (by omega)]

/-- The last decision woke the readers and left a writer parked. -/
def Leaves {ι : Type} (history : List (Decision ι)) : Prop :=
  ∃ last earlier,
    history = last :: earlier ∧ last.wakesReaders = true ∧
      ∃ writer, last.writers writer = true

/-- The last decision is the thread's own and has not come to wake readers. -/
def Open
    {ι : Type}
    (history : List (Decision ι))
    (actor : ι)
    (property : Decision ι → Prop) : Prop :=
  ∃ last earlier,
    history = last :: earlier ∧ last.actor = actor ∧
      last.wakesReaders = false ∧ property last

theorem Open.not_leaves
    {ι : Type}
    {history : List (Decision ι)}
    {actor : ι}
    {property : Decision ι → Prop}
    (opened : Open history actor property) :
    ¬Leaves history := by
  rintro ⟨last, earlier, rfl, wakes, -⟩
  obtain ⟨last, earlier, same, -, asleep, -⟩ := opened
  obtain ⟨rfl, -⟩ := List.cons.inj same
  rw [asleep] at wakes
  cases wakes

/-- If the decision was for waiting readers to go on waiting, so it stays. -/
def Prefers
    {ι : Type}
    (preference : Preference)
    (cur : U32)
    (decision : Decision ι) : Prop :=
  (view decision.cur).readWaiter = true →
    preference = .writer ∧ (view cur).readWaiter = true

/-- No reader waited at the decision, and no writer is left that did. -/
def Idle {ι : Type} (decision : Decision ι) : Prop :=
  (view decision.cur).readWaiter = false ∧
    ∀ writer, decision.writers writer = false

theorem Idle.not_passes
    {ι : Type}
    {decision : Decision ι}
    (idle : Idle decision) :
    decision.passes = false := by
  simp [Decision.passes, idle.1]

section Observe

variable
  {ι : Type} [DecidableEq ι] {actor other : ι} {after : State ι}
  {last : Decision ι} {history : List (Decision ι)}

theorem Decision.observe_writers
    {writer : ι}
    (parked : (last.observe actor after).writers writer = true) :
    last.writers writer = true :=
  ((Bool.and_eq_true _ _).mp parked).1

theorem Decision.observe_parked
    {writer : ι}
    (asleep : last.wakesReaders = false)
    (parked : (last.observe actor after).writers writer = true) :
    (after.thread writer).pc.parkedAsWriter = true := by
  have still := ((Bool.and_eq_true _ _).mp parked).2
  rwa [asleep, Bool.false_or] at still

theorem Decision.observe_wakesReaders
    (quiet : (after.thread actor).pc.wakesReaders = false) :
    (last.observe actor after).wakesReaders = last.wakesReaders := by
  simp [Decision.observe, quiet]

theorem Decision.observe_passes
    (passes : (last.observe actor after).passes = true) :
    last.passes = true := by
  simp only [Decision.observe, Decision.passes, Bool.and_eq_true,
    Bool.not_eq_true', Bool.or_eq_false_iff] at passes ⊢
  exact ⟨⟨passes.1.1, passes.1.2.1⟩, passes.2.1⟩

theorem Idle.observe (idle : Idle last) : Idle (last.observe actor after) := by
  refine ⟨idle.1, fun writer => ?_⟩
  by_contra parked
  rw [Bool.not_eq_false] at parked
  have before := Decision.observe_writers parked
  rw [idle.2 writer] at before
  cases before

/-- A step never lengthens the streak without a decision. -/
theorem streak_observeLast :
    streak (State.observeLast actor after history) ≤ streak history := by
  cases history with
  | nil => exact Nat.le_refl _
  | cons last earlier =>
      rw [State.observeLast, streak_cons, streak_cons]
      split
      case isTrue passes =>
        rw [if_pos (Decision.observe_passes passes)]
      case isFalse => exact Nat.zero_le _

theorem Paced.observeLast (paced : Paced history) :
    Paced (State.observeLast actor after history) := by
  cases history with
  | nil => exact paced
  | cons last earlier =>
      have shorter :
          streak (State.observeLast actor after (last :: earlier)) ≤
            streak (last :: earlier) :=
        streak_observeLast
      exact paced.tail.cons
        (Nat.lt_of_le_of_lt shorter (paced _ (List.suffix_refl _)))

theorem writerPriority_observeLast
    (priority : WriterPriority history)
    (quiet : (after.thread actor).pc.wakesReaders = false) :
    WriterPriority (State.observeLast actor after history) := by
  cases history with
  | nil => exact priority
  | cons last earlier =>
      rw [WriterPriority, List.isChain_cons] at priority
      refine List.isChain_cons.mpr ⟨?_, priority.2⟩
      rintro older member ⟨wakes, before, writer, parked, left⟩
      rw [Decision.observe_wakesReaders quiet] at wakes
      exact priority.1 older member
        ⟨wakes, before, writer, Decision.observe_writers parked, left⟩

theorem Leaves.of_observeLast
    (leaves : Leaves (State.observeLast actor after history))
    (quiet : (after.thread actor).pc.wakesReaders = false) :
    Leaves history := by
  cases history with
  | nil => exact leaves
  | cons last earlier =>
      obtain ⟨newer, older, same, wakes, writer, parked⟩ := leaves
      obtain ⟨rfl, rfl⟩ := List.cons.inj same
      rw [Decision.observe_wakesReaders quiet] at wakes
      exact ⟨last, earlier, rfl, wakes, writer,
        Decision.observe_writers parked⟩

theorem Open.observeLast
    {property : Decision ι → Prop}
    (opened : Open history other property)
    (quiet : (after.thread actor).pc.wakesReaders = false)
    (kept : ∀ last, property last → property (last.observe actor after)) :
    Open (State.observeLast actor after history) other property := by
  obtain ⟨last, earlier, rfl, own, asleep, holds⟩ := opened
  refine ⟨last.observe actor after, earlier, rfl, own, ?_, kept last holds⟩
  rw [Decision.observe_wakesReaders quiet]
  exact asleep

/-- A conversion ends the streak. -/
theorem streak_converts
    (converts : (after.thread actor).pc.converts = true) :
    streak (State.observeLast actor after history) = 0 := by
  cases history with
  | nil => rfl
  | cons last earlier =>
      apply streak_of_not_passes
      simp [Decision.observe, Decision.passes, converts]

/-- A decision that comes to wake the readers ends the streak. -/
theorem Decision.observe_wakes
    (own : last.actor = actor)
    (wakes : (after.thread actor).pc.wakesReaders = true) :
    (last.observe actor after).passes = false := by
  simp [Decision.observe, Decision.passes, own, wakes]

end Observe

/-- What a place of the transfer knows about the decision it carries out. -/
def Pc.Tells
    {ι : Type}
    (backend : Backend)
    (fairness : BitVec 16)
    (history : List (Decision ι))
    (actor : ι) : Pc → Prop
  | .transferXor preference cur _ =>
      Open history actor (Prefers preference cur) ∧
        streak history ≤ backend.lag (fairness + 1)
  | .transferFairness preference cur _ =>
      Open history actor (Prefers preference cur) ∧
        streak history ≤ backend.lag (fairness + 1)
  | .transferWake preference cur _ =>
      Open history actor (Prefers preference cur)
  | .transferAnd _ _ => Open history actor Idle
  | .wakeXor .. => streak history = 0
  | .wakeFairness _ => streak history = 0
  | _ => True

theorem Pc.tells_of_outside
    {ι : Type}
    {backend : Backend}
    {fairness : BitVec 16}
    {history : List (Decision ι)}
    {actor : ι}
    {pc : Pc}
    (outside : pc.transfers = false) :
    pc.Tells backend fairness history actor := by
  cases pc with
  | transferXor preference cur next => cases outside
  | transferFairness preference cur next => cases outside
  | transferWake preference cur next => cases outside
  | transferAnd preference next => cases outside
  | wakeXor toUnactivate waker => cases outside
  | wakeFairness waker => cases outside
  | _ => trivial

/-- A place knows no less when another thread takes no part in the transfer. -/
theorem Pc.Tells.observeLast
    {ι : Type}
    [DecidableEq ι]
    {backend : Backend}
    {fairness : BitVec 16}
    {history : List (Decision ι)}
    {actor other : ι}
    {after : State ι}
    {pc : Pc}
    (tells : pc.Tells backend fairness history other)
    (quiet : (after.thread actor).pc.wakesReaders = false) :
    pc.Tells backend fairness (State.observeLast actor after history) other := by
  cases pc with
  | transferXor preference cur next =>
      exact ⟨tells.1.observeLast quiet fun _ => id,
        streak_observeLast.trans tells.2⟩
  | transferFairness preference cur next =>
      exact ⟨tells.1.observeLast quiet fun _ => id,
        streak_observeLast.trans tells.2⟩
  | transferWake preference cur next =>
      exact Open.observeLast tells quiet fun _ => id
  | transferAnd preference next =>
      exact Open.observeLast tells quiet fun _ => Idle.observe
  | wakeXor toUnactivate waker =>
      exact Nat.le_zero.mp (streak_observeLast.trans (Nat.le_of_eq tells))
  | wakeFairness waker =>
      exact Nat.le_zero.mp (streak_observeLast.trans (Nat.le_of_eq tells))
  | _ => trivial

namespace State

variable {ι : Type} [DecidableEq ι] [Fintype ι]

/-- The next decision is going to prefer the parked writer. -/
structure Due (state : State ι) : Prop where
  fairness :
    state.fairness = 1 ∨
      ∃ actor, (state.thread actor).pc.resetting = true
  word : (view state.word).writeWaiter = true
  cur :
    ∀ actor cur next,
      (state.thread actor).pc = .transferPrefer cur next →
        (view cur).writeWaiter = true

/-- What the decisions of a run have in common. -/
structure Told
    (backend : Backend)
    (state : State ι)
    (history : List (Decision ι)) : Prop where
  inv : state.Inv
  heard : state.HeardWriters
  tells :
    ∀ actor,
      (state.thread actor).pc.Tells backend state.fairness history actor
  rested :
    (∀ actor, (state.thread actor).pc.counting = false) →
      streak history ≤ backend.lag state.fairness
  due : backend = .linux → Leaves history → state.Due
  paced : Paced history
  priority : backend = .linux → WriterPriority history

section Step

variable
  {backend : Backend} {state after : State ι} {action : Action ι}
  {history : List (Decision ι)}

/-- A step leaves another thread where it is, or outside of a transfer. -/
theorem step_aside
    {other : ι}
    (step : State.Step backend state action after)
    (different : other ≠ action.actor) :
    (after.thread other).pc = (state.thread other).pc ∨
      (state.thread other).pc.transfers = false ∧
        (after.thread other).pc.transfers = false := by
  rcases step_other step different with same | ⟨pc, wakes | wakes, same⟩
  · exact .inl (congrArg Thread.pc same)
  · right
    rw [same]
    cases place : (state.thread other).pc with
    | parkedWriter closures =>
        rw [place] at wakes
        obtain rfl := Option.some.inj wakes
        exact ⟨rfl, rfl⟩
    | _ =>
        rw [place] at wakes
        cases wakes
  · right
    rw [same]
    cases place : (state.thread other).pc with
    | parkedReader closures =>
        rw [place] at wakes
        obtain rfl := Option.some.inj wakes
        exact ⟨rfl, rfl⟩
    | parkedClone guard =>
        rw [place] at wakes
        obtain rfl := Option.some.inj wakes
        exact ⟨rfl, rfl⟩
    | _ =>
        rw [place] at wakes
        cases wakes

/-- During a transfer all other threads are outside of one. -/
theorem step_alone
    {other : ι}
    (inv : state.Inv)
    (step : State.Step backend state action after)
    (different : other ≠ action.actor)
    (moving :
      (state.thread action.actor).pc.transfers = true ∨
        (after.thread action.actor).pc.transfers = true) :
    (state.thread other).pc.transfers = false ∧
      (after.thread other).pc.transfers = false := by
  rcases step_aside step different with same | outside
  · rw [same, and_self]
    rcases moving with before | later
    · exact inv.sole_transfer before different
    · rw [← same]
      exact (inv.step step).sole_transfer later different
  · exact outside

/-- A step that takes part in a transfer, from what it does to its own thread. -/
theorem Told.moves
    {newer : List (Decision ι)}
    (told : state.Told backend history)
    (step : State.Step backend state action after)
    (moving :
      (state.thread action.actor).pc.transfers = true ∨
        (after.thread action.actor).pc.transfers = true)
    (tells :
      (after.thread action.actor).pc.Tells backend after.fairness newer
        action.actor)
    (rested :
      (after.thread action.actor).pc.counting = false →
        streak newer ≤ backend.lag after.fairness)
    (due :
      backend = .linux → Leaves newer →
        (after.fairness = 1 ∨
            (after.thread action.actor).pc.resetting = true) ∧
          (view after.word).writeWaiter = true ∧
          ∀ cur next,
            (after.thread action.actor).pc = .transferPrefer cur next →
              (view cur).writeWaiter = true)
    (paced : Paced newer)
    (priority : backend = .linux → WriterPriority newer) :
    after.Told backend newer where
  inv := told.inv.step step
  heard := told.heard.keeps told.inv step
  tells other := by
    by_cases same : other = action.actor
    · subst same
      exact tells
    · exact Pc.tells_of_outside
        (step_alone told.inv step same moving).2
  rested still := rested (still action.actor)
  due linux leaves := by
    obtain ⟨fairness, word, cur⟩ := due linux leaves
    refine ⟨fairness.imp_right fun resets => ⟨_, resets⟩, word, ?_⟩
    intro other value next place
    by_cases same : other = action.actor
    · subst same
      exact cur value next place
    · have outside := (step_alone told.inv step same moving).2
      rw [place] at outside
      cases outside
  paced := paced
  priority := priority

/-- While a thread transfers without counting, nobody counts. -/
theorem Told.streak_le
    (told : state.Told backend history)
    (step : State.Step backend state action after)
    (moving :
      (state.thread action.actor).pc.transfers = true ∨
        (after.thread action.actor).pc.transfers = true)
    (still : (state.thread action.actor).pc.counting = false) :
    streak history ≤ backend.lag state.fairness := by
  apply told.rested
  intro other
  by_cases same : other = action.actor
  · subst same
    exact still
  · exact (Pc.outside_quiet (step_alone told.inv step same moving).1).2.1

/-- A step outside of a transfer. -/
theorem Told.rests
    (told : state.Told backend history)
    (step : State.Step backend state action after)
    (before : (state.thread action.actor).pc.transfers = false)
    (later : (after.thread action.actor).pc.transfers = false)
    (fairness : after.fairness = state.fairness)
    (kept :
      (view state.word).writeWaiter = true →
        (view after.word).writeWaiter = true) :
    after.Told backend (observeLast action.actor after history) := by
  obtain ⟨quiet, -, -⟩ := Pc.outside_quiet later
  constructor
  case inv => exact told.inv.step step
  case heard => exact told.heard.keeps told.inv step
  case tells =>
    intro other
    by_cases same : other = action.actor
    · subst same
      exact Pc.tells_of_outside later
    rcases step_aside step same with still | ⟨-, outside⟩
    · rw [still, fairness]
      exact (told.tells other).observeLast quiet
    · exact Pc.tells_of_outside outside
  case rested =>
    intro still
    rw [fairness]
    apply streak_observeLast.trans
    apply told.rested
    intro other
    by_cases same : other = action.actor
    · subst same
      exact (Pc.outside_quiet before).2.1
    rcases step_aside step same with pc | ⟨outside, -⟩
    · rw [← pc]
      exact still other
    · exact (Pc.outside_quiet outside).2.1
  case due =>
    intro linux leaves
    have due := told.due linux (leaves.of_observeLast quiet)
    constructor
    · rw [fairness]
      apply due.fairness.imp_right
      rintro ⟨other, resets⟩
      refine ⟨other, ?_⟩
      by_cases same : other = action.actor
      · subst same
        rw [(Pc.outside_quiet before).2.2] at resets
        cases resets
      rcases step_aside step same with pc | ⟨outside, -⟩
      · rw [pc]
        exact resets
      · rw [(Pc.outside_quiet outside).2.2] at resets
        cases resets
    · exact kept due.word
    · intro other cur next place
      by_cases same : other = action.actor
      · subst same
        rw [place] at later
        cases later
      rcases step_aside step same with pc | ⟨-, outside⟩
      · exact due.cur other cur next (pc ▸ place)
      · rw [place] at outside
        cases outside
  case paced => exact told.paced.observeLast
  case priority =>
    intro linux
    exact writerPriority_observeLast (told.priority linux) quiet

/-- A step of a transfer that is no decision and does not come to wake readers. -/
theorem Told.goes
    (told : state.Told backend history)
    (step : State.Step backend state action after)
    (moving :
      (state.thread action.actor).pc.transfers = true ∨
        (after.thread action.actor).pc.transfers = true)
    (quiet : (after.thread action.actor).pc.wakesReaders = false)
    (tells :
      (after.thread action.actor).pc.Tells backend after.fairness
        (observeLast action.actor after history) action.actor)
    (rested :
      (after.thread action.actor).pc.counting = false →
        streak history ≤ backend.lag after.fairness)
    (due :
      backend = .linux → Leaves history →
        (after.fairness = 1 ∨
            (after.thread action.actor).pc.resetting = true) ∧
          (view after.word).writeWaiter = true ∧
          ∀ cur next,
            (after.thread action.actor).pc = .transferPrefer cur next →
              (view cur).writeWaiter = true) :
    after.Told backend (observeLast action.actor after history) :=
  told.moves step moving tells
    (fun still => streak_observeLast.trans (rested still))
    (fun linux leaves => due linux (leaves.of_observeLast quiet))
    told.paced.observeLast
    (fun linux => writerPriority_observeLast (told.priority linux) quiet)

/-- Before a transfer the fairness counter is what the last wake of readers left. -/
theorem Told.fairness_of_leaves
    (told : state.Told backend history)
    (step : State.Step backend state action after)
    (moving :
      (state.thread action.actor).pc.transfers = true ∨
        (after.thread action.actor).pc.transfers = true)
    (still : (state.thread action.actor).pc.resetting = false)
    (linux : backend = .linux)
    (leaves : Leaves history) :
    state.fairness = 1 := by
  rcases (told.due linux leaves).fairness with one | ⟨other, resets⟩
  · exact one
  by_cases same : other = action.actor
  · subst same
    rw [still] at resets
    cases resets
  · rw [(Pc.outside_quiet (step_alone told.inv step same moving).1).2.2]
      at resets
    cases resets

/-- The last decision comes to wake the readers, and no writer is left parked. -/
theorem Told.wakes
    (told : state.Told backend history)
    (step : State.Step backend state action after)
    (moving : (state.thread action.actor).pc.transfers = true)
    {property : Decision ι → Prop}
    (opened : Open history action.actor property)
    {toUnactivate : U32}
    {next : After}
    (later :
      (after.thread action.actor).pc =
        .wakeXor toUnactivate (.releasing next))
    (nobody :
      ∀ last, property last →
        ∀ writer,
          (last.observe action.actor after).writers writer = false) :
    after.Told backend (observeLast action.actor after history) := by
  obtain ⟨last, earlier, rfl, own, asleep, holds⟩ := opened
  have none := nobody last holds
  have ends :
      streak (observeLast action.actor after (last :: earlier)) = 0 := by
    apply streak_of_not_passes
    apply Decision.observe_wakes own
    rw [later]
    rfl
  apply told.moves step (.inl moving)
  case tells =>
    rw [later]
    exact ends
  case rested =>
    intro still
    rw [ends]
    exact Nat.zero_le _
  case due =>
    rintro - ⟨newest, past, same, -, writer, parked⟩
    obtain ⟨rfl, -⟩ := List.cons.inj same
    rw [none writer] at parked
    cases parked
  case paced => exact told.paced.observeLast
  case priority =>
    intro linux
    have priority := told.priority linux
    rw [WriterPriority, List.isChain_cons] at priority
    refine List.isChain_cons.mpr ⟨?_, priority.2⟩
    rintro older member ⟨-, -, writer, parked, -⟩
    rw [none writer] at parked
    cases parked

/-- A decision for a writer. -/
theorem Told.takes
    {preference : Preference}
    {cur : U32}
    {next : After}
    (told : state.Told backend history)
    (step : State.Step backend state action after)
    (before : (state.thread action.actor).pc = .transferPrefer cur next)
    (later :
      (after.thread action.actor).pc = .transferXor preference cur next)
    (waits :
      (view cur).readWaiter = true →
        preference = .writer ∧
          backend.preferWakeOneWriter state.fairness = true)
    (fairness : after.fairness = state.fairness) :
    after.Told backend
      (observeLast action.actor after
        (state.decision action.actor cur :: history)) := by
  have moving : (state.thread action.actor).pc.transfers = true := by
    rw [before]
    rfl
  have pace : streak history ≤ backend.lag state.fairness := by
    apply told.streak_le step (.inl moving)
    rw [before]
    rfl
  have asleep :
      ((state.decision action.actor cur).observe
        action.actor after).wakesReaders = false := by
    apply Decision.observe_wakesReaders
    rw [later]
    rfl
  have short :
      streak
          (observeLast action.actor after
            (state.decision action.actor cur :: history)) ≤
        backend.lag (after.fairness + 1) := by
    apply streak_observeLast.trans
    rw [fairness, streak_cons]
    split
    case isTrue passes =>
      have waiting : (view cur).readWaiter = true := by
        simpa [Decision.passes, decision] using passes
      rw [Backend.lag_succ (waits waiting).2]
      exact Nat.succ_le_succ pace
    case isFalse => exact Nat.zero_le _
  apply told.moves step (.inl moving)
  case tells =>
    rw [later]
    refine ⟨⟨_, history, rfl, rfl, asleep, ?_⟩, short⟩
    intro waiting
    exact ⟨(waits waiting).1, waiting⟩
  case rested =>
    intro still
    rw [later] at still
    cases still
  case due =>
    rintro - ⟨newest, past, same, wakes, -⟩
    obtain ⟨rfl, -⟩ := List.cons.inj same
    rw [asleep] at wakes
    cases wakes
  case paced =>
    exact told.paced.cons
      (Nat.lt_of_le_of_lt short (backend.lag_lt _))
  case priority =>
    intro linux
    refine List.isChain_cons.mpr ⟨?_, told.priority linux⟩
    rintro older member ⟨wakes, -⟩
    rw [asleep] at wakes
    cases wakes

/-- A decision for the readers. -/
theorem Told.wakesFirst
    {cur : U32}
    {next : After}
    (told : state.Told backend history)
    (step : State.Step backend state action after)
    (before : (state.thread action.actor).pc = .transferPrefer cur next)
    (later :
      (after.thread action.actor).pc = .wakeXor 0 (.releasing next))
    (unmarked :
      backend.preferWakeOneWriter state.fairness = true →
        (view cur).writeWaiter = false)
    (word : after.word = state.word) :
    after.Told backend
      (observeLast action.actor after
        (state.decision action.actor cur :: history)) := by
  have moving : (state.thread action.actor).pc.transfers = true := by
    rw [before]
    rfl
  have wakes : (after.thread action.actor).pc.wakesReaders = true := by
    rw [later]
    rfl
  have ends :
      streak
          (observeLast action.actor after
            (state.decision action.actor cur :: history)) =
        0 :=
    streak_of_not_passes history (Decision.observe_wakes rfl wakes)
  apply told.moves step (.inl moving)
  case tells =>
    rw [later]
    exact ends
  case rested =>
    intro still
    rw [ends]
    exact Nat.zero_le _
  case due =>
    rintro - ⟨newest, past, same, -, left, parked⟩
    obtain ⟨rfl, -⟩ := List.cons.inj same
    refine ⟨.inr (by rw [later]; rfl), ?_, ?_⟩
    · rw [word]
      exact writeWaiter_of_transfer told.inv told.heard before
        (Decision.observe_writers parked)
    · intro value after elsewhere
      rw [later] at elsewhere
      cases elsewhere
  case paced =>
    apply told.paced.cons
    exact Nat.lt_of_le_of_lt (Nat.le_of_eq ends) (by decide)
  case priority =>
    intro linux
    refine List.isChain_cons.mpr ⟨?_, told.priority linux⟩
    rintro older member ⟨-, woke, left, -, parked⟩
    obtain ⟨earlier, rfl⟩ := List.head?_eq_some_iff.mp member
    have leaves : Leaves (older :: earlier) :=
      ⟨older, earlier, rfl, woke, left, parked⟩
    have one : state.fairness = 1 := by
      refine told.fairness_of_leaves step (.inl moving) ?_ linux leaves
      rw [before]
      rfl
    -- after a wake of readers the Linux futex prefers a writer
    have absent := unmarked (by rw [linux, one]; decide)
    rw [(told.due linux leaves).cur action.actor cur next before] at absent
    cases absent

/-- A decision. -/
theorem Told.decides
    {preference : Preference}
    {cur : U32}
    {next : After}
    (told : state.Told backend history)
    (step : State.Step backend state action after)
    (before : (state.thread action.actor).pc = .transferPrefer cur next)
    (prefers :
      preference = .writer ↔
        backend.preferWakeOneWriter state.fairness = true)
    (later :
      LoopsTo preference cur next (after.thread action.actor).pc)
    (fairness : after.fairness = state.fairness)
    (word : after.word = state.word) :
    after.Told backend
      (observeLast action.actor after
        (state.decision action.actor cur :: history)) := by
  generalize place : (after.thread action.actor).pc = pc at later
  cases later with
  | takes marked readers =>
      refine told.takes step before place ?_ fairness
      intro waiting
      cases preference with
      | writer => exact ⟨rfl, prefers.mp rfl⟩
      | readers =>
          rw [readers rfl] at waiting
          cases waiting
  | wakes marked writer =>
      exact told.wakesFirst step before place
        (fun some => writer (prefers.mpr some)) word
  | releases preferred writers readers =>
      have relies := (told.inv.relies action.actor).1
      rw [before] at relies
      have waiters := (hasWaiters_iff cur).mp relies.1
      rw [readers, writers] at waiters
      rcases waiters with marked | marked
      · cases marked
      · cases marked

/-- A transfer begins. -/
theorem Told.begins
    {next : After}
    (told : state.Told backend history)
    (step : State.Step backend state action after)
    (before : (state.thread action.actor).pc.transfers = false)
    (later :
      (after.thread action.actor).pc = .transferPrefer after.word next)
    (fairness : after.fairness = state.fairness)
    (kept :
      (view state.word).writeWaiter = true →
        (view after.word).writeWaiter = true) :
    after.Told backend (observeLast action.actor after history) := by
  obtain ⟨-, still, resets⟩ := Pc.outside_quiet before
  have moving : (after.thread action.actor).pc.transfers = true := by
    rw [later]
    rfl
  apply told.goes step (.inr moving)
  case quiet =>
    rw [later]
    rfl
  case tells =>
    rw [later]
    trivial
  case rested =>
    intro _
    rw [fairness]
    exact told.streak_le step (.inr moving) still
  case due =>
    intro linux leaves
    have one := told.fairness_of_leaves step (.inr moving) resets linux leaves
    have marked := kept (told.due linux leaves).word
    refine ⟨.inl (fairness.trans one), marked, ?_⟩
    intro cur continues place
    rw [later] at place
    obtain ⟨rfl, -⟩ := Pc.transferPrefer.inj place
    exact marked

/-- The conversion of a guard comes to wake the readers. -/
theorem Told.converts
    {converter : Converter}
    (told : state.Told backend history)
    (step : State.Step backend state action after)
    (later :
      (after.thread action.actor).pc = .wakeXor 0 (.converting converter))
    (kept :
      (view state.word).writeWaiter = true →
        (view after.word).writeWaiter = true) :
    after.Told backend (observeLast action.actor after history) := by
  have ends : streak (observeLast action.actor after history) = 0 := by
    apply streak_converts
    rw [later]
    rfl
  have quiet : (after.thread action.actor).pc.wakesReaders = false := by
    rw [later]
    rfl
  have moving : (after.thread action.actor).pc.transfers = true := by
    rw [later]
    rfl
  apply told.moves step (.inr moving)
  case tells =>
    rw [later]
    exact ends
  case rested =>
    intro _
    rw [ends]
    exact Nat.zero_le _
  case due =>
    intro linux leaves
    refine ⟨.inr (by rw [later]; rfl), ?_, ?_⟩
    · exact kept (told.due linux (leaves.of_observeLast quiet)).word
    · intro cur continues place
      rw [later] at place
      cases place
  case paced => exact told.paced.observeLast
  case priority =>
    intro linux
    exact writerPriority_observeLast (told.priority linux) quiet

/-- A transfer of an open decision goes on, or ends. -/
theorem Told.carries
    {property : Decision ι → Prop}
    (told : state.Told backend history)
    (step : State.Step backend state action after)
    (moving : (state.thread action.actor).pc.transfers = true)
    (opened : Open history action.actor property)
    (quiet : (after.thread action.actor).pc.wakesReaders = false)
    (tells :
      (after.thread action.actor).pc.Tells backend after.fairness
        (observeLast action.actor after history) action.actor)
    (rested :
      (after.thread action.actor).pc.counting = false →
        streak history ≤ backend.lag after.fairness) :
    after.Told backend (observeLast action.actor after history) :=
  told.goes step (.inl moving) quiet tells rested
    fun _ leaves => absurd leaves opened.not_leaves

/-- `transfer_lock` goes round its loop, or returns, without a parked writer. -/
theorem Told.releases
    {preference : Preference}
    {next : After}
    (told : state.Told backend history)
    (step : State.Step backend state action after)
    (before :
      (state.thread action.actor).pc = .transferAnd preference next)
    (later :
      (after.thread action.actor).pc.transfers = false ∨
        LoopsTo preference after.word next (after.thread action.actor).pc) :
    after.Told backend (observeLast action.actor after history) := by
  have moving : (state.thread action.actor).pc.transfers = true := by
    rw [before]
    rfl
  have opened := told.tells action.actor
  rw [before] at opened
  have opened : Open history action.actor Idle := opened
  have ends : streak history = 0 := by
    obtain ⟨last, earlier, rfl, -, -, idle⟩ := opened
    exact streak_of_not_passes earlier idle.not_passes
  have short : streak history ≤ backend.lag after.fairness := by
    rw [ends]
    exact Nat.zero_le _
  rcases later with outside | loops
  · exact told.carries step moving opened (Pc.outside_quiet outside).1
      (Pc.tells_of_outside outside) fun _ => short
  generalize place : (after.thread action.actor).pc = pc at loops
  cases loops with
  | takes marked readers =>
      have quiet : (after.thread action.actor).pc.wakesReaders = false := by
        rw [place]
        rfl
      apply told.carries step moving opened quiet
      · rw [place]
        constructor
        · obtain ⟨last, earlier, same, own, asleep, idle⟩ :=
            opened.observeLast quiet fun _ => Idle.observe
          refine ⟨last, earlier, same, own, asleep, fun waiting => ?_⟩
          rw [idle.1] at waiting
          cases waiting
        · apply streak_observeLast.trans
          rw [ends]
          exact Nat.zero_le _
      · exact fun _ => short
  | wakes marked writer =>
      exact told.wakes step moving opened place
        fun last idle => idle.observe.2
  | releases preferred writers readers =>
      have quiet : (after.thread action.actor).pc.wakesReaders = false := by
        rw [place]
        rfl
      apply told.carries step moving opened quiet
      · rw [place]
        exact opened.observeLast quiet fun _ => Idle.observe
      · exact fun _ => short

/-- No writer was parked: `transfer_lock` turns to the readers, or gives up. -/
theorem Told.turns
    {preference : Preference}
    {cur : U32}
    {next : After}
    (told : state.Told backend history)
    (step : State.Step backend state action after)
    (before :
      (state.thread action.actor).pc = .transferWake preference cur next)
    (nobody : ∀ other, (state.thread other).pc.parkedAsWriter = false)
    (later :
      (after.thread action.actor).pc = .wakeXor lockedBit (.releasing next) ∨
        (after.thread action.actor).pc = .transferAnd preference next ∧
          (preference = .writer → (view cur).readWaiter = false))
    (fairness : after.fairness = state.fairness) :
    after.Told backend (observeLast action.actor after history) := by
  have moving : (state.thread action.actor).pc.transfers = true := by
    rw [before]
    rfl
  have opened := told.tells action.actor
  rw [before] at opened
  have opened : Open history action.actor (Prefers preference cur) := opened
  have awake (other : ι) :
      (after.thread other).pc.parkedAsWriter = false := by
    by_cases same : other = action.actor
    · subst same
      rcases later with place | ⟨place, -⟩
      · rw [place]
        rfl
      · rw [place]
        rfl
    rcases step_other step same with still | woken
    · rw [still]
      exact nobody other
    · exact ((Pc.not_parked_iff _).mp woken.was_parked.2).1
  have gone
      (last : Decision ι)
      (asleep : last.wakesReaders = false)
      (writer : ι) :
      (last.observe action.actor after).writers writer = false := by
    by_contra parked
    rw [Bool.not_eq_false] at parked
    have parked := Decision.observe_parked asleep parked
    rw [awake writer] at parked
    cases parked
  obtain ⟨last, earlier, rfl, own, asleep, prefers⟩ := opened
  have opened :
      Open (last :: earlier) action.actor
        fun decision => decision.wakesReaders = false :=
    ⟨last, earlier, rfl, own, asleep, asleep⟩
  rcases later with place | ⟨place, unmarked⟩
  · exact told.wakes step moving opened place gone
  have quiet : (after.thread action.actor).pc.wakesReaders = false := by
    rw [place]
    rfl
  apply told.carries step moving opened quiet
  · rw [place]
    refine ⟨_, earlier, rfl, own, ?_, ?_, gone last asleep⟩
    · rw [Decision.observe_wakesReaders quiet]
      exact asleep
    · by_contra waiting
      rw [Bool.not_eq_false] at waiting
      obtain ⟨writer, marked⟩ := prefers waiting
      rw [unmarked writer] at marked
      cases marked
  · intro _
    rw [fairness]
    apply told.streak_le step (.inl moving)
    rw [before]
    rfl

/-- Every step keeps the invariant. -/
theorem Told.step
    (told : state.Told backend history)
    (step : State.Step backend state action after) :
    after.Told backend (state.record action.actor after history) := by
  have recorded
      (elsewhere :
        ∀ cur next,
          (state.thread action.actor).pc ≠ .transferPrefer cur next) :
      state.record action.actor after history =
        observeLast action.actor after history := by
    unfold record
    split
    case h_1 cur next place => exact absurd place (elsewhere cur next)
    case h_2 => rfl
  have outside
      (before : (state.thread action.actor).pc.transfers = false) :
      ∀ cur next,
        (state.thread action.actor).pc ≠ .transferPrefer cur next := by
    intro cur next place
    rw [place] at before
    cases before
  have tells := told.tells action.actor
  have moving
      {pc : Pc}
      (before : (state.thread action.actor).pc = pc)
      (transfers : pc.transfers = true) :
      (state.thread action.actor).pc.transfers = true := by
    rw [before]
    exact transfers
  cases step_transfers told.inv step with
  | rests before later fairness kept =>
      rw [recorded (outside before)]
      exact told.rests step before later fairness kept
  | begins before later fairness kept =>
      rw [recorded (outside before)]
      exact told.begins step before later fairness kept
  | converts before later fairness kept =>
      rw [recorded (outside before)]
      exact told.converts step later kept
  | decides before later fairness word =>
      rw [record, before]
      refine told.decides step before ?_ later fairness word
      split
      case isTrue prefers => simp [prefers]
      case isFalse prefers => simp [prefers]
  | takes before later fairness =>
      rw [recorded (by rw [before]; exact fun _ _ => Pc.noConfusion)]
      rw [before] at tells
      have quiet : (after.thread action.actor).pc.wakesReaders = false := by
        rw [later]
        rfl
      apply told.carries step (moving before rfl) tells.1 quiet
      · rw [later, fairness]
        exact ⟨tells.1.observeLast quiet fun _ => id,
          streak_observeLast.trans tells.2⟩
      · intro still
        rw [later] at still
        cases still
  | counts before later fairness word =>
      rw [recorded (by rw [before]; exact fun _ _ => Pc.noConfusion)]
      rw [before] at tells
      have quiet : (after.thread action.actor).pc.wakesReaders = false := by
        rw [later]
        rfl
      apply told.carries step (moving before rfl) tells.1 quiet
      · rw [later]
        exact tells.1.observeLast quiet fun _ => id
      · intro _
        rw [fairness]
        exact tells.2
  | @hands preference cur next before later fairness word =>
      rw [recorded (by rw [before]; exact fun _ _ => Pc.noConfusion)]
      rw [before] at tells
      have opened : Open history action.actor (Prefers preference cur) := tells
      apply told.carries step (moving before rfl) opened
        (Pc.outside_quiet later).1 (Pc.tells_of_outside later)
      intro _
      rw [fairness]
      apply told.streak_le step (.inl (moving before rfl))
      rw [before]
      rfl
  | turns before nobody later fairness word =>
      rw [recorded (by rw [before]; exact fun _ _ => Pc.noConfusion)]
      exact told.turns step before nobody later fairness
  | releases before later fairness kept =>
      rw [recorded (by rw [before]; exact fun _ _ => Pc.noConfusion)]
      exact told.releases step before later
  | marks before later fairness kept =>
      rw [recorded (by rw [before]; exact fun _ _ => Pc.noConfusion)]
      rw [before] at tells
      have ends : streak history = 0 := tells
      apply told.goes step (.inl (moving before rfl))
      case quiet =>
        rw [later]
        rfl
      case tells =>
        rw [later]
        exact Nat.le_zero.mp (streak_observeLast.trans (Nat.le_of_eq ends))
      case rested =>
        intro _
        rw [ends]
        exact Nat.zero_le _
      case due =>
        intro linux leaves
        refine
          ⟨.inr (by rw [later]; rfl), kept (told.due linux leaves).word, ?_⟩
        intro cur next place
        rw [later] at place
        cases place
  | resets before later fairness word =>
      rw [recorded (by rw [before]; exact fun _ _ => Pc.noConfusion)]
      rw [before] at tells
      have ends : streak history = 0 := tells
      apply told.goes step (.inl (moving before rfl))
      case quiet => exact (Pc.outside_quiet later).1
      case tells => exact Pc.tells_of_outside later
      case rested =>
        intro _
        rw [ends]
        exact Nat.zero_le _
      case due =>
        intro linux leaves
        refine ⟨.inl fairness, ?_, ?_⟩
        · rw [word]
          exact (told.due linux leaves).word
        · intro cur next place
          rw [place] at later
          cases later

end Step

omit [DecidableEq ι] in
/-- A fresh futex has made no decision. -/
theorem Told.init
    (backend : Backend)
    (phase : Phase) :
    (State.init ι phase).Told backend [] where
  inv := Inv.init phase
  heard _ parked := by cases parked
  tells _ := trivial
  rested _ := Nat.zero_le _
  due := by
    rintro - ⟨last, earlier, same, -⟩
    cases same
  paced := by
    intro past leading
    rw [List.suffix_nil.mp leading]
    exact Nat.lt_of_le_of_lt (Nat.le_refl 0) (by decide)
  priority _ := .nil

end State

/-- The decisions of every run. -/
theorem told_of_run
    {ι : Type}
    [DecidableEq ι]
    [Fintype ι]
    {backend : Backend}
    {phase : Phase}
    {actions : List (Action ι)}
    {final : State ι × List (Decision ι)}
    (run :
      Run (State.Recorded backend) (State.init ι phase, []) actions final) :
    final.1.Told backend final.2 := by
  generalize start : (State.init ι phase, []) = first at run
  induction run with
  | refl =>
      subst start
      exact .init backend phase
  | snoc action earlier last inductionHypothesis =>
      rw [last.2]
      exact inductionHypothesis.step last.1

/-- Both futexes are fair to readers in every run. -/
theorem readerFairness_of_run
    {ι : Type}
    [DecidableEq ι]
    [Fintype ι]
    {backend : Backend}
    {phase : Phase}
    {actions : List (Action ι)}
    {final : State ι × List (Decision ι)}
    (run :
      Run (State.Recorded backend) (State.init ι phase, []) actions final) :
    ReaderFairness final.2 :=
  (told_of_run run).paced.fair

/-- The futex of Linux is fair in every run. -/
theorem linux_fair : Backend.linux.Fair := by
  intro ι _ _ phase actions final run
  exact ⟨(told_of_run run).priority rfl, readerFairness_of_run run⟩

/-- A schedule that was performed with its history is a run. -/
theorem State.recorded_of_runAll
    {ι : Type}
    [DecidableEq ι]
    [Fintype ι]
    {backend : Backend}
    {initial final : State ι × List (Decision ι)}
    {actions : List (Action ι)}
    (performed :
      runAll (State.execRecorded backend) initial actions = some final) :
    Run (State.Recorded backend) initial actions final := by
  apply (Run.of_runAll performed).mono
  intro action member before after executed
  unfold State.execRecorded at executed
  split at executed
  case h_1 next performed =>
    obtain rfl := Option.some.inj executed
    exact ⟨performed, rfl⟩
  case h_2 => cases executed

/--
Thread 0 parks as a writer.  Thread 2 drops a write guard and wakes the reader
1; it locks again while 1 reads, 1 waits to read once more, and 2 drops its
second write guard.
-/
def passingSchedule : List (Action (Fin 3)) :=
  let write : UserOp := .lock ⟨fun _ => .write, fun _ => .write⟩ .empty
  let read : UserOp := .lock ⟨fun _ => .read, fun _ => .read⟩ .empty
  List.flatten
    [[.start 0 write, .run 0 false, .start 2 write],
      List.replicate 15 (.run 2 false),
      [.start 1 read],
      List.replicate 4 (.run 1 false),
      [.start 0 (.dropLock 0)],
      List.replicate 5 (.run 0 false),
      [.wake 0 [2], .start 0 write],
      List.replicate 15 (.run 0 false),
      List.replicate 3 (.run 2 false),
      [.start 2 (.dropLock 0)],
      List.replicate 5 (.run 2 false),
      [.wake 2 [1], .run 2 false, .run 2 false, .run 1 false,
        .start 2 write],
      List.replicate 3 (.run 2 false),
      [.start 1 (.dropReadLock 0), .run 1 false, .run 2 false,
        .start 1 read],
      List.replicate 4 (.run 1 false),
      [.start 2 (.dropLock 0)],
      List.replicate 3 (.run 2 false)]

/-- The other futex wakes readers at both drops of thread 2, and passes over 0. -/
theorem other_passes_over_writer :
    ∃ final,
      Run (State.Recorded .other) (State.init (Fin 3) .empty, [])
          passingSchedule final ∧
        ¬WriterPriority final.2 := by
  have fails :
      (runAll (State.execRecorded .other) (State.init (Fin 3) .empty, [])
          passingSchedule).map (fun final => decide (WriterPriority final.2)) =
        some false := by
    decide +kernel
  obtain ⟨final, performed, passes⟩ := Option.map_eq_some_iff.mp fails
  exact ⟨final, State.recorded_of_runAll performed,
    of_decide_eq_false passes⟩

/-- The other futex is not fair. -/
theorem other_not_fair : ¬Backend.other.Fair := by
  intro fair
  obtain ⟨final, run, passes⟩ := other_passes_over_writer
  exact passes (fair (Fin 3) .empty _ final run).1

/-- A futex is fair exactly if it is the one of Linux. -/
theorem fair_iff (backend : Backend) :
    backend.Fair ↔ backend = .linux := by
  cases backend with
  | linux => exact ⟨fun _ => rfl, fun _ => linux_fair⟩
  | other =>
      constructor
      · intro fair
        obtain ⟨final, run, passes⟩ := other_passes_over_writer
        exact absurd (fair (Fin 3) .empty _ final run).1 passes
      · intro linux
        cases linux

end StaticInit.Sync
