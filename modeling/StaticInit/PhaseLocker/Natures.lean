import StaticInit.PhaseLocker.Sync.Program
import StaticInit.Runs

namespace StaticInit

/-!
# The nature of a lock

What `lock` and `try_lock` promise: the nature of their result is the one the
closures ask for.  `LockerSystem` is a locker with its threads as far as the
promise speaks of it: its steps, the calls that start, the results that are
returned and the phase that the word shows.
-/

open Sync (Lock ReadLock Call)

/-- The phases with which a call may return `LockResult::None`. -/
def Sync.Call.MayReturnNone (call : Call) (phase : Phase) : Prop :=
  match call with
  | .lock closures _ =>
      closures.how phase = .none ∨ closures.onWaitingHow phase = .none
  | .tryLock how _ => how phase = .none

/-- A result agrees with the closures: `phase` is shown at the return. -/
def Sync.Call.Agrees
    (call : Call)
    (phase : Phase)
    (shown : Phase → Prop) : LockResult ReadLock Lock → Prop
  | .write _ => call.how phase = .write
  | .read _ => call.how phase = .read
  | .none found => shown found ∧ call.MayReturnNone found

theorem Sync.Call.mayReturnNone_of_how
    {call : Call}
    {phase : Phase}
    (none : call.how phase = .none) :
    call.MayReturnNone phase := by
  cases call with
  | lock closures hint => exact .inl none
  | tryLock how hint => exact none

/-- A locker with its threads, as its callers see it. -/
structure LockerSystem (ι State Action : Type) where
  step : State → Action → State → Prop
  /-- The call that an action starts. -/
  called : ι → Action → Option Call
  /-- The result that an action returns, and to whom. -/
  returned : State → Action → Option (ι × LockResult ReadLock Lock)
  phase : State → Phase

namespace LockerSystem

variable {ι State Action : Type}

/-- The word has shown a phase since the last call of a thread. -/
def ShownInCall
    (system : LockerSystem ι State Action)
    (initial : State)
    (actor : ι)
    (actions : List Action)
    (state : State)
    (found : Phase) : Prop :=
  SinceMark system.step initial (system.called actor)
    (fun earlier => system.phase earlier = found) actions state

/-- Every result that is returned agrees with the closures of its call. -/
def HonoursNatures
    (system : LockerSystem ι State Action)
    (initial : State) : Prop :=
  ∀ (actions : List Action) (state after : State) (action : Action)
    (actor : ι) (result : LockResult ReadLock Lock),
    Run system.step initial actions state →
      system.step state action after →
        system.returned state action = some (actor, result) →
          ∃ call,
            lastMark (system.called actor) actions = some call ∧
              call.Agrees (system.phase after)
                (system.ShownInCall initial actor actions state) result

/-- What holds of a thread, its call and the phases shown since it started. -/
abbrev Place (ι State : Type) : Type :=
  Option Call → (Phase → Prop) → State → ι → Prop

/--
The natures are honoured if each place of the code keeps what the closures
said about the words it has read.
-/
structure KeepsPlaces
    (system : LockerSystem ι State Action)
    (initial : State)
    (place : Place ι State) : Prop where
  mono :
    ∀ {call : Option Call} {shown more : Phase → Prop} {state : State}
      {actor : ι},
      (∀ found, shown found → more found) →
        place call shown state actor → place call more state actor
  fresh : ∀ shown actor, place none shown initial actor
  opens :
    ∀ {state after : State} {action : Action} {actor : ι} {call : Call}
      (shown : Phase → Prop),
      system.step state action after →
        system.called actor action = some call →
          place (some call) shown after actor
  kept :
    ∀ {actions : List Action} {state after : State} {action : Action}
      {actor : ι} {call : Option Call} {shown : Phase → Prop},
      Run system.step initial actions state →
        system.step state action after →
          system.called actor action = none →
            shown (system.phase state) →
              place call shown state actor → place call shown after actor
  returns :
    ∀ {actions : List Action} {state after : State} {action : Action}
      {actor : ι} {call : Option Call} {shown : Phase → Prop}
      {result : LockResult ReadLock Lock},
      Run system.step initial actions state →
        system.step state action after →
          system.returned state action = some (actor, result) →
            shown (system.phase state) →
              place call shown state actor →
                ∃ opened,
                  call = some opened ∧
                    opened.Agrees (system.phase after) shown result

namespace KeepsPlaces

variable {system : LockerSystem ι State Action} {initial : State}
  {place : Place ι State}

/-- What each thread keeps, after every run. -/
theorem of_run
    (keeps : system.KeepsPlaces initial place)
    {actions : List Action}
    {state : State}
    (run : Run system.step initial actions state)
    (actor : ι) :
    place (lastMark (system.called actor) actions)
      (system.ShownInCall initial actor actions state) state actor := by
  induction run with
  | refl => exact keeps.fresh _ actor
  | @snoc actions middle final action earlier last inductionHypothesis =>
      rw [lastMark_snoc]
      cases called : system.called actor action with
      | some call => exact keeps.opens _ last called
      | none =>
          apply keeps.mono _
            (keeps.kept earlier last called (.now earlier rfl)
              inductionHypothesis)
          exact fun found before => .later action before called last

theorem honoursNatures
    (keeps : system.KeepsPlaces initial place) :
    system.HonoursNatures initial := by
  intro actions state after action actor result run step returned
  obtain ⟨call, last, agrees⟩ :=
    keeps.returns run step returned (.now run rfl) (keeps.of_run run actor)
  exact ⟨call, last, agrees⟩

end KeepsPlaces

end LockerSystem

end StaticInit
