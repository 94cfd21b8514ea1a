import StaticInit.Runs
import Mathlib.Data.Finset.Basic

namespace StaticInit.PthreadKey

/-!
# The pthread key of thread exit

All threads share one pthread key, which the first ones that need it create and
try to publish in `DESTRUCTOR_KEY`.  A step is an atomic access of the cell or a
call of `pthread_key_create` or `pthread_key_delete`.
-/

/-- `usize::MAX`: no key is published. -/
def unpublished : UInt64 := 0xffffffffffffffff

/-- Where a thread is in `get_key`. -/
inductive Place where
  | outside
  /-- Before the first load of the cell. -/
  | entered
  /-- At the test of the loop, with `key`. -/
  | looping (key : UInt64)
  /-- `pthread_key_create` failed. -/
  | failed
  /-- `pthread_key_create` succeeded with `lk`. -/
  | created (lk : UInt64)
  /-- The exchange failed, and `lk` is still allocated. -/
  | lost (lk key : UInt64)
  | returning (result : Option UInt64)
  deriving Repr, DecidableEq

/-- The key that a thread created and will publish or delete. -/
def Place.held : Place → Option UInt64
  | .created lk => some lk
  | .lost lk _ => some lk
  | _ => none

/-- What a thread has read from the cell, if it was a key. -/
def Place.known : Place → Option UInt64
  | .looping key => if key = unpublished then none else some key
  | .lost _ key => some key
  | .returning result => result
  | _ => none

structure State (ι : Type) where
  /-- `DESTRUCTOR_KEY`. -/
  cell : UInt64
  /-- The keys created by `get_key` and not deleted. -/
  allocated : Finset UInt64
  places : ι → Place

def State.start (ι : Type) : State ι where
  cell := unpublished
  allocated := ∅
  places := fun _ => .outside

inductive Event (ι : Type) where
  | call (thread : ι)
  | load (thread : ι)
  | create (thread : ι) (key : UInt64)
  | createFails (thread : ι)
  | reload (thread : ι)
  | exchange (thread : ι)
  | delete (thread : ι) (key : UInt64)
  | leave (thread : ι)
  | returned (thread : ι) (result : Option UInt64)
  deriving DecidableEq

/-- The thread that takes the step. -/
def Event.thread {ι : Type} : Event ι → ι
  | .call thread
  | .load thread
  | .create thread _
  | .createFails thread
  | .reload thread
  | .exchange thread
  | .delete thread _
  | .leave thread
  | .returned thread _ => thread

section Steps

variable {ι : Type} [DecidableEq ι]

def State.move (state : State ι) (thread : ι) (place : Place) : State ι :=
  { state with places := Function.update state.places thread place }

/-- A step of a thread.  A created key was not allocated and is not `MAX`. -/
inductive Step (state : State ι) : Event ι → State ι → Prop where
  | call
      {thread : ι}
      (here : state.places thread = .outside) :
      Step state (.call thread) (state.move thread .entered)
  | load
      {thread : ι}
      (here : state.places thread = .entered) :
      Step state (.load thread) (state.move thread (.looping state.cell))
  | create
      {thread : ι}
      (key : UInt64)
      (here : state.places thread = .looping unpublished)
      (fresh : key ∉ state.allocated)
      (proper : key ≠ unpublished) :
      Step state (.create thread key)
        ({ state with allocated := insert key state.allocated }.move thread
          (.created key))
  | createFails
      {thread : ι}
      (here : state.places thread = .looping unpublished) :
      Step state (.createFails thread) (state.move thread .failed)
  | reload
      {thread : ι}
      (here : state.places thread = .failed) :
      Step state (.reload thread)
        (state.move thread
          (if state.cell ≠ unpublished then
            .returning (some state.cell)
          else
            .returning none))
  | deleteMax
      {thread : ι}
      {lk : UInt64}
      (here : state.places thread = .created lk)
      (isMax : lk = unpublished) :
      Step state (.delete thread lk)
        ({ state with allocated := state.allocated.erase lk }.move thread
          (.looping unpublished))
  | exchangeSucceeds
      {thread : ι}
      {lk : UInt64}
      (here : state.places thread = .created lk)
      (proper : lk ≠ unpublished)
      (expected : state.cell = unpublished) :
      Step state (.exchange thread)
        ({ state with cell := lk }.move thread (.looping state.cell))
  | exchangeFails
      {thread : ι}
      {lk : UInt64}
      (here : state.places thread = .created lk)
      (proper : lk ≠ unpublished)
      (other : state.cell ≠ unpublished) :
      Step state (.exchange thread) (state.move thread (.lost lk state.cell))
  | delete
      {thread : ι}
      {lk key : UInt64}
      (here : state.places thread = .lost lk key) :
      Step state (.delete thread lk)
        ({ state with allocated := state.allocated.erase lk }.move thread
          (.looping key))
  | leave
      {thread : ι}
      {key : UInt64}
      (here : state.places thread = .looping key)
      (published : key ≠ unpublished) :
      Step state (.leave thread) (state.move thread (.returning (some key)))
  | returned
      {thread : ι}
      {result : Option UInt64}
      (here : state.places thread = .returning result) :
      Step state (.returned thread result) (state.move thread .outside)

/-- What the threads know and hold. -/
structure State.Inv (state : State ι) : Prop where
  proper : ∀ key ∈ state.allocated, key ≠ unpublished
  published : state.cell ≠ unpublished → state.cell ∈ state.allocated
  known :
    ∀ thread key,
      (state.places thread).known = some key →
        key = state.cell ∧ state.cell ≠ unpublished
  held :
    ∀ thread key,
      (state.places thread).held = some key →
        key ∈ state.allocated ∧ key ≠ state.cell
  unique :
    ∀ thread other key,
      (state.places thread).held = some key →
        (state.places other).held = some key → thread = other
  accounted :
    ∀ key ∈ state.allocated,
      key = state.cell ∨ ∃ thread, (state.places thread).held = some key

namespace State

@[simp] theorem move_cell
    (state : State ι)
    (thread : ι)
    (place : Place) :
    (state.move thread place).cell = state.cell :=
  rfl

@[simp] theorem move_allocated
    (state : State ι)
    (thread : ι)
    (place : Place) :
    (state.move thread place).allocated = state.allocated :=
  rfl

@[simp] theorem move_self
    (state : State ι)
    (thread : ι)
    (place : Place) :
    (state.move thread place).places thread = place :=
  Function.update_self _ _ _

theorem move_of_ne
    (state : State ι)
    (place : Place)
    {thread other : ι}
    (different : other ≠ thread) :
    (state.move thread place).places other = state.places other :=
  Function.update_of_ne different _ _

namespace Inv

variable {state : State ι}

theorem start (ι : Type) [DecidableEq ι] : (State.start ι).Inv where
  proper := by simp [State.start]
  published := by simp [State.start]
  known := by simp [State.start, Place.known]
  held := by simp [State.start, Place.held]
  unique := by simp [State.start, Place.held]
  accounted := by simp [State.start]

/-- A thread that holds what it held goes on, with what it knows. -/
theorem move
    (inv : state.Inv)
    {thread : ι}
    {place : Place}
    (same : place.held = (state.places thread).held)
    (knows :
      ∀ key,
        place.known = some key →
          key = state.cell ∧ state.cell ≠ unpublished) :
    (state.move thread place).Inv := by
  have holds :
      ∀ other,
        ((state.move thread place).places other).held =
          (state.places other).held := by
    intro other
    by_cases isThread : other = thread
    · rw [isThread, move_self, same]
    · rw [move_of_ne _ _ isThread]
  constructor
  case proper => exact inv.proper
  case published => exact inv.published
  case known =>
    intro other key
    by_cases isThread : other = thread
    · rw [isThread, move_self]
      exact knows key
    · rw [move_of_ne _ _ isThread]
      exact inv.known other key
  case held =>
    intro other key
    rw [holds]
    exact inv.held other key
  case unique =>
    intro one other key
    rw [holds, holds]
    exact inv.unique one other key
  case accounted =>
    intro key member
    rcases inv.accounted key member with isCell | ⟨other, isHeld⟩
    · exact .inl isCell
    · exact .inr ⟨other, (holds other).trans isHeld⟩

/-- A fresh key is created. -/
theorem create
    (inv : state.Inv)
    {thread : ι}
    {key : UInt64}
    (free : (state.places thread).held = none)
    (fresh : key ∉ state.allocated)
    (proper : key ≠ unpublished) :
    ({ state with allocated := insert key state.allocated }.move thread
      (.created key)).Inv := by
  have notCell : key ≠ state.cell := by
    rintro rfl
    exact fresh (inv.published proper)
  constructor
  case proper =>
    intro other member
    rcases Finset.mem_insert.mp member with rfl | member
    · exact proper
    · exact inv.proper other member
  case published =>
    intro published
    exact Finset.mem_insert_of_mem (inv.published published)
  case known =>
    intro other key'
    by_cases isThread : other = thread
    · rw [isThread, move_self]
      nofun
    · rw [move_of_ne _ _ isThread]
      exact inv.known other key'
  case held =>
    intro other key'
    by_cases isThread : other = thread
    · rw [isThread, move_self]
      rintro ⟨⟩
      exact ⟨Finset.mem_insert_self _ _, notCell⟩
    · rw [move_of_ne _ _ isThread]
      intro isHeld
      obtain ⟨member, different⟩ := inv.held other key' isHeld
      exact ⟨Finset.mem_insert_of_mem member, different⟩
  case unique =>
    intro one other key'
    by_cases isOne : one = thread
    · by_cases isOther : other = thread
      · intros
        exact isOne.trans isOther.symm
      · rw [isOne, move_self, move_of_ne _ _ isOther]
        rintro ⟨⟩ isHeld
        exact absurd (inv.held other key isHeld).1 fresh
    · by_cases isOther : other = thread
      · rw [isOther, move_self, move_of_ne _ _ isOne]
        rintro isHeld ⟨⟩
        exact absurd (inv.held one key isHeld).1 fresh
      · rw [move_of_ne _ _ isOne, move_of_ne _ _ isOther]
        exact inv.unique one other key'
  case accounted =>
    intro key' member
    rcases Finset.mem_insert.mp member with rfl | member
    · exact .inr ⟨thread, congrArg Place.held (move_self _ _ _)⟩
    · rcases inv.accounted key' member with isCell | ⟨other, isHeld⟩
      · exact .inl isCell
      · refine .inr ⟨other, ?_⟩
        rw [move_of_ne]
        · exact isHeld
        · rintro rfl
          rw [free] at isHeld
          cases isHeld

/-- The first key is published. -/
theorem publish
    (inv : state.Inv)
    {thread : ι}
    {key : UInt64}
    (here : (state.places thread).held = some key)
    (expected : state.cell = unpublished) :
    ({ state with cell := key }.move thread (.looping state.cell)).Inv := by
  have member := (inv.held thread key here).1
  have others :
      ∀ other,
        other ≠ thread → (state.places other).held ≠ some key := by
    intro other different isHeld
    exact different (inv.unique other thread key isHeld here)
  constructor
  case proper => exact inv.proper
  case published => exact fun _ => member
  case known =>
    intro other key'
    by_cases isThread : other = thread
    · rw [isThread, move_self, expected]
      nofun
    · rw [move_of_ne _ _ isThread]
      intro isKnown
      exact absurd expected (inv.known other key' isKnown).2
  case held =>
    intro other key'
    by_cases isThread : other = thread
    · rw [isThread, move_self]
      nofun
    · rw [move_of_ne _ _ isThread]
      intro isHeld
      refine ⟨(inv.held other key' isHeld).1, ?_⟩
      rintro rfl
      exact others other isThread isHeld
  case unique =>
    intro one other key'
    by_cases isOne : one = thread
    · rw [isOne, move_self]
      nofun
    · by_cases isOther : other = thread
      · rw [isOther, move_self]
        nofun
      · rw [move_of_ne _ _ isOne, move_of_ne _ _ isOther]
        exact inv.unique one other key'
  case accounted =>
    intro key' isAllocated
    rcases inv.accounted key' isAllocated with isCell | ⟨other, isHeld⟩
    · exact absurd (isCell.trans expected) (inv.proper key' isAllocated)
    · by_cases isThread : other = thread
      · rw [isThread, here] at isHeld
        exact .inl (Option.some.inj isHeld).symm
      · refine .inr ⟨other, ?_⟩
        rw [move_of_ne _ _ isThread]
        exact isHeld

/-- A key that was not published is deleted. -/
theorem delete
    (inv : state.Inv)
    {thread : ι}
    {key : UInt64}
    {place : Place}
    (here : (state.places thread).held = some key)
    (free : place.held = none)
    (knows :
      ∀ key,
        place.known = some key →
          key = state.cell ∧ state.cell ≠ unpublished) :
    ({ state with allocated := state.allocated.erase key }.move thread
      place).Inv := by
  have notCell := (inv.held thread key here).2
  constructor
  case proper =>
    intro key' member
    exact inv.proper key' (Finset.mem_of_mem_erase member)
  case published =>
    intro published
    exact Finset.mem_erase.mpr ⟨notCell.symm, inv.published published⟩
  case known =>
    intro other key'
    by_cases isThread : other = thread
    · rw [isThread, move_self]
      exact knows key'
    · rw [move_of_ne _ _ isThread]
      exact inv.known other key'
  case held =>
    intro other key'
    by_cases isThread : other = thread
    · rw [isThread, move_self, free]
      nofun
    · rw [move_of_ne _ _ isThread]
      intro isHeld
      obtain ⟨member, different⟩ := inv.held other key' isHeld
      refine ⟨Finset.mem_erase.mpr ⟨?_, member⟩, different⟩
      rintro rfl
      exact isThread (inv.unique other thread _ isHeld here)
  case unique =>
    intro one other key'
    by_cases isOne : one = thread
    · rw [isOne, move_self, free]
      nofun
    · by_cases isOther : other = thread
      · rw [isOther, move_self, free]
        nofun
      · rw [move_of_ne _ _ isOne, move_of_ne _ _ isOther]
        exact inv.unique one other key'
  case accounted =>
    intro key' member
    obtain ⟨different, member⟩ := Finset.mem_erase.mp member
    rcases inv.accounted key' member with isCell | ⟨other, isHeld⟩
    · exact .inl isCell
    · refine .inr ⟨other, ?_⟩
      rw [move_of_ne]
      · exact isHeld
      · rintro rfl
        rw [here] at isHeld
        exact different (Option.some.inj isHeld).symm

/-- Every step keeps the invariant. -/
theorem step
    {event : Event ι}
    {next : State ι}
    (inv : state.Inv)
    (steps : Step state event next) :
    next.Inv := by
  cases steps with
  | call here => exact inv.move (by rw [here]; rfl) nofun
  | load here =>
      refine inv.move (by rw [here]; rfl) ?_
      intro key isKnown
      simp only [Place.known] at isKnown
      split at isKnown
      · cases isKnown
      · next published => exact ⟨(Option.some.inj isKnown).symm, published⟩
  | create key here fresh proper =>
      exact inv.create (by rw [here]; rfl) fresh proper
  | createFails here => exact inv.move (by rw [here]; rfl) nofun
  | reload here =>
      split
      · next published =>
          refine inv.move (by rw [here]; rfl) ?_
          intro key isKnown
          exact ⟨(Option.some.inj isKnown).symm, published⟩
      · exact inv.move (by rw [here]; rfl) nofun
  | deleteMax here isMax =>
      exact inv.delete (by rw [here]; rfl) rfl nofun
  | exchangeSucceeds here proper expected =>
      exact inv.publish (by rw [here]; rfl) expected
  | exchangeFails here proper other =>
      refine inv.move (by rw [here]; rfl) ?_
      intro key isKnown
      exact ⟨(Option.some.inj isKnown).symm, other⟩
  | delete here =>
      refine inv.delete (by rw [here]; rfl) rfl ?_
      intro key isKnown
      simp only [Place.known] at isKnown
      split at isKnown
      · cases isKnown
      · exact inv.known _ _ (by rw [here]; exact isKnown)
  | leave here published =>
      refine inv.move (by rw [here]; rfl) ?_
      intro key isKnown
      apply inv.known
      rw [here, Place.known, if_neg published]
      exact isKnown
  | returned here => exact inv.move (by rw [here]; rfl) nofun

end Inv

end State

/-- A published key stays published. -/
theorem Step.cell_eq
    {state next : State ι}
    {event : Event ι}
    (steps : Step state event next)
    (published : state.cell ≠ unpublished) :
    next.cell = state.cell := by
  cases steps with
  | exchangeSucceeds _ _ expected => exact absurd expected published
  | _ => rfl

/-- The other threads stay where they are. -/
theorem Step.places_eq
    {state next : State ι}
    {event : Event ι}
    {other : ι}
    (steps : Step state event next)
    (different : other ≠ event.thread) :
    next.places other = state.places other := by
  cases steps <;> exact State.move_of_ne _ _ different

/-- The keys that a history returned or deleted. -/
structure State.Recorded
    (state : State ι)
    (history : List (Event ι)) : Prop where
  returned :
    ∀ thread key,
      .returned thread (some key) ∈ history →
        key = state.cell ∧ state.cell ≠ unpublished
  deleted :
    ∀ thread key,
      .delete thread key ∈ history →
        key ≠ state.cell ∧ state.cell ≠ unpublished

/-- A returned key is the published one, and a deleted one never was. -/
theorem State.Recorded.step
    {state next : State ι}
    {history : List (Event ι)}
    {event : Event ι}
    (recorded : state.Recorded history)
    (inv : state.Inv)
    (steps : Step state event next) :
    next.Recorded (history ++ [event]) := by
  constructor
  case returned =>
    intro thread key member
    rcases List.mem_append.mp member with earlier | last
    · obtain ⟨rfl, published⟩ := recorded.returned thread key earlier
      rw [steps.cell_eq published]
      exact ⟨rfl, published⟩
    · obtain rfl := List.mem_singleton.mp last
      cases steps with
      | returned here =>
          exact inv.known thread key (by rw [here]; rfl)
  case deleted =>
    intro thread key member
    rcases List.mem_append.mp member with earlier | last
    · obtain ⟨different, published⟩ := recorded.deleted thread key earlier
      rw [steps.cell_eq published]
      exact ⟨different, published⟩
    · obtain rfl := List.mem_singleton.mp last
      cases steps with
      | deleteMax here isMax =>
          have allocated := (inv.held thread key (by rw [here]; rfl)).1
          exact absurd isMax (inv.proper key allocated)
      | delete here =>
          exact ⟨(inv.held thread key (by rw [here]; rfl)).2,
            (inv.known thread _ (by rw [here]; rfl)).2⟩

/-- In its last call the thread failed to create a key in the given state. -/
def FailedIn
    (history : List (Event ι))
    (thread : ι)
    (middle : State ι) : Prop :=
  ∃ first later,
    history = first ++ .createFails thread :: later ∧
      .call thread ∉ later ∧ Run Step (.start ι) first middle

theorem FailedIn.snoc
    {history : List (Event ι)}
    {thread : ι}
    {middle : State ι}
    {event : Event ι}
    (failed : FailedIn history thread middle)
    (same : event ≠ .call thread) :
    FailedIn (history ++ [event]) thread middle := by
  obtain ⟨first, later, rfl, uncalled, run⟩ := failed
  refine ⟨first, later ++ [event], by simp, ?_, run⟩
  rw [List.mem_append, List.mem_singleton, not_or]
  exact ⟨uncalled, Ne.symm same⟩

/-- Before the second load, and when there is nothing to return. -/
structure State.Failures
    (state : State ι)
    (history : List (Event ι)) : Prop where
  failed :
    ∀ thread,
      state.places thread = .failed →
        ∃ middle,
          FailedIn history thread middle ∧
            (middle.cell ≠ unpublished → state.cell ≠ unpublished)
  nothing :
    ∀ thread,
      state.places thread = .returning none →
        ∃ middle,
          FailedIn history thread middle ∧ middle.cell = unpublished

theorem State.Failures.step
    {state next : State ι}
    {history : List (Event ι)}
    {event : Event ι}
    (failures : state.Failures history)
    (run : Run Step (.start ι) history state)
    (steps : Step state event next) :
    next.Failures (history ++ [event]) := by
  have stays :
      state.cell ≠ unpublished → next.cell ≠ unpublished := by
    intro published
    rw [steps.cell_eq published]
    exact published
  constructor
  case failed =>
    intro thread isFailed
    by_cases own : thread = event.thread
    · subst own
      cases steps with
      | createFails here =>
          exact ⟨state, ⟨history, [], rfl, List.not_mem_nil, run⟩, stays⟩
      | reload here =>
          rw [Event.thread, State.move_self] at isFailed
          split at isFailed <;> cases isFailed
      | _ =>
          rw [Event.thread, State.move_self] at isFailed
          cases isFailed
    · rw [steps.places_eq own] at isFailed
      obtain ⟨middle, failed, later⟩ := failures.failed thread isFailed
      refine ⟨middle, failed.snoc ?_, fun published => stays (later published)⟩
      rintro rfl
      exact own rfl
  case nothing =>
    intro thread isNothing
    by_cases own : thread = event.thread
    · subst own
      cases steps with
      | reload here =>
          obtain ⟨middle, failed, later⟩ := failures.failed _ here
          refine ⟨middle, failed.snoc nofun, ?_⟩
          by_contra published
          rw [Event.thread, State.move_self,
            if_pos (later published)] at isNothing
          cases isNothing
      | _ =>
          rw [Event.thread, State.move_self] at isNothing
          cases isNothing
    · rw [steps.places_eq own] at isNothing
      obtain ⟨middle, failed, empty⟩ := failures.nothing thread isNothing
      refine ⟨middle, failed.snoc ?_, empty⟩
      rintro rfl
      exact own rfl

/-- What `get_key` promises of a run. -/
structure Agreement (history : List (Event ι)) (state : State ι) : Prop where
  same :
    ∀ one other key key',
      .returned one (some key) ∈ history →
        .returned other (some key') ∈ history → key = key'
  kept :
    ∀ one other key,
      .returned one (some key) ∈ history →
        .delete other key ∉ history ∧ key ∈ state.allocated
  nothing :
    ∀ earlier thread,
      earlier ++ [.returned thread none] <+: history →
        ∃ middle,
          FailedIn earlier thread middle ∧ middle.cell = unpublished
  single :
    (∀ thread, state.places thread = .outside) →
      ∀ key ∈ state.allocated, key = state.cell

/-- After a run the invariants hold. -/
theorem invariants_of_run
    {history : List (Event ι)}
    {state : State ι}
    (run : Run Step (.start ι) history state) :
    state.Inv ∧ state.Recorded history ∧ state.Failures history := by
  induction run with
  | refl =>
      refine ⟨State.Inv.start ι, ⟨nofun, nofun⟩, ⟨?_, ?_⟩⟩
      · intro thread isFailed
        cases isFailed
      · intro thread isNothing
        cases isNothing
  | snoc event earlier last inductionHypothesis =>
      obtain ⟨inv, recorded, failures⟩ := inductionHypothesis
      exact ⟨inv.step last, recorded.step inv last, failures.step earlier last⟩

/-- Threads that race for the key agree on it. -/
theorem get_key_agreement
    {history : List (Event ι)}
    {state : State ι}
    (run : Run Step (.start ι) history state) :
    Agreement history state := by
  obtain ⟨inv, recorded, failures⟩ := invariants_of_run run
  constructor
  case same =>
    intro one other key key' first second
    exact (recorded.returned one key first).1.trans
      (recorded.returned other key' second).1.symm
  case kept =>
    intro one other key isReturned
    obtain ⟨rfl, published⟩ := recorded.returned one key isReturned
    refine ⟨fun isDeleted => ?_, inv.published published⟩
    exact (recorded.deleted other _ isDeleted).1 rfl
  case nothing =>
    rintro earlier thread ⟨later, rfl⟩
    obtain ⟨after, first, -⟩ := run.split
    obtain ⟨before, prior, last⟩ := first.unsnoc
    cases last with
    | returned here => exact (invariants_of_run prior).2.2.nothing thread here
  case single =>
    intro idle key allocated
    rcases inv.accounted key allocated with isCell | ⟨thread, isHeld⟩
    · exact isCell
    · rw [idle thread] at isHeld
      cases isHeld

/-- Two threads create keys, and the first one finds the other's. -/
def twoThreads : List (Event Bool) :=
  [.call false, .call true, .load false, .load true, .create false 1,
    .create true 2, .exchange true, .exchange false, .delete false 1,
    .leave false, .returned false (some 2)]

theorem get_key_agreement_two :
    ∃ state : State Bool,
      Run Step (.start Bool) twoThreads state ∧ Agreement twoThreads state := by
  have run : ∃ state : State Bool, Run Step (.start Bool) twoThreads state := by
    exact ⟨_, .cons (.call rfl) <| .cons (.call rfl) <| .cons (.load rfl) <|
      .cons (.load rfl) <| .cons (.create 1 rfl (by decide) (by decide)) <|
      .cons (.create 2 rfl (by decide) (by decide)) <|
      .cons (.exchangeSucceeds rfl (by decide) rfl) <|
      .cons (.exchangeFails rfl (by decide) (by decide)) <|
      .cons (.delete rfl) <| .cons (.leave rfl (by decide)) <|
      .cons (.returned rfl) .refl⟩
  obtain ⟨state, run⟩ := run
  exact ⟨state, run, get_key_agreement run⟩

end Steps

end StaticInit.PthreadKey
