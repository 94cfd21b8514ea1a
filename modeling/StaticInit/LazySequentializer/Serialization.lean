import StaticInit.LazySequentializer.Client

namespace StaticInit.Lazily

/-!
# A locker serializes the accesses of its static

Next to the atomic locker the actors of a static refine the system in which
the write lock is held by one thread at a time: an access holds the lock from
the commit of its call to the commit that gives its guard back, and
`finalize_callback` looks at the phase where its call commits.
-/

open Sync (Lock ReadLock Call Result UserOp)
open Atomic (Stage Commit)

/-- What user code sees: its calls and their ends. -/
def Event.visible {ι : Type} : Event ι → Option (Event ι)
  | .call actor user => some (.call actor user)
  | .returned actor user value => some (.returned actor user value)
  | _ => none

/-- The holder may be left by giving its guard back. -/
def Holder.Publishes {ι : Type} (holder : Holder ι) : Prop :=
  holder.isDone = true ∨ ∃ call, holder.isCalling call = true

section Fits

variable {ι : Type} (tolerance : GeneratorTolerance) (actor : ι)

/-- A place between two operations, with the locks and what the static knows. -/
def Place.Rests (locks : List Lock) (held : Option (Holder ι)) : Place → Prop
  | .outside => locks = [] ∧ held = none
  | .working task _ code calling =>
      ∃ lock,
        locks = [lock] ∧
          held = some ⟨actor, task, lock.onUnlock, code, calling⟩
  | .guarding =>
      ∃ lock,
        locks = [lock] ∧ lock.onUnlock = lock.initPhase ∧ held = none
  | _ => False

/-- A guard is given back: of an access, or one that keeps the phase. -/
def Gives (lock : Lock) (held : Option (Holder ι)) : Prop :=
  lock.onUnlock = lock.initPhase ∧ held = none ∨
    ∃ holder,
      held = some holder ∧
        holder.guard = lock.onUnlock ∧ holder.Publishes

/-- The end of a guard, with what the static knows of it. -/
def Leaves (held : Option (Holder ι)) : Stage → Prop
  | .droppingLock lock => Gives lock held
  | .convertingLock lock => Gives lock held
  | .droppingReadLock _ => held = none
  | .cloning _ => held = none
  | .answered result => result.locks = [] ∧ held = none
  | _ => False

/-- An actor, its thread at the locker and what the static knows of it. -/
def Place.Fits
    (pending : Prop)
    (thread : Atomic.Thread)
    (held : Option (Holder ι)) : Place → Prop
  | .waiting request =>
      thread.locks = [] ∧
        (thread.stage = .asked (request.call tolerance) ∧ held = none ∧
            (request = .finalizeCallback → pending) ∨
          ∃ result,
            thread.stage = .answered (.locked result) ∧
              (request.receive tolerance result).Rests actor
                (Result.locked result).locks held)
  | .leaving => thread.locks = [] ∧ Leaves held thread.stage
  | place =>
      thread.stage = .idle ∧ place.Rests actor thread.locks held

/-- The exit pass has called `finalize_callback`, which has not looked yet. -/
def Pending (client : Client ι) (state : State ι) : Prop :=
  client.finalizer = some actor ∧
    state.exit = .pending ∧ state.listed = true

end Fits

section Lemmas

variable {ι : Type} {tolerance : GeneratorTolerance} {actor : ι}
  {held : Option (Holder ι)} {holder : Holder ι}

theorem Place.Rests.alive
    {place : Place}
    {locks : List Lock}
    (rests : place.Rests actor locks (some holder)) :
    locks ≠ [] := by
  cases place with
  | outside => cases rests.2
  | working task closing code calling =>
      obtain ⟨lock, rfl, -⟩ := rests
      simp
  | guarding =>
      obtain ⟨lock, -, -, absent⟩ := rests
      cases absent
  | waiting request => exact rests.elim
  | leaving => exact rests.elim
  | undefined => exact rests.elim

/-- What the static knows to hold its lock has a lock at the locker. -/
theorem Place.Fits.alive
    {place : Place}
    {pending : Prop}
    {thread : Atomic.Thread}
    (fits : place.Fits tolerance actor pending thread (some holder)) :
    thread.aliveLocks ≠ [] := by
  rw [Atomic.Thread.aliveLocks, Ne, List.append_eq_nil_iff, not_and_or]
  cases place with
  | waiting request =>
      left
      obtain ⟨-, ⟨-, absent, -⟩ | ⟨result, stage, rests⟩⟩ := fits
      · cases absent
      · rw [stage]
        exact rests.alive
  | leaving =>
      left
      obtain ⟨-, leaves⟩ := fits
      cases stage : thread.stage with
      | droppingLock lock => simp [Stage.locks]
      | convertingLock lock => simp [Stage.locks]
      | idle => rw [stage] at leaves; exact leaves.elim
      | asked call => rw [stage] at leaves; exact leaves.elim
      | droppingReadLock lock => rw [stage] at leaves; cases leaves
      | cloning guard => rw [stage] at leaves; cases leaves
      | answered result => rw [stage] at leaves; cases leaves.2
  | outside => exact .inr fits.2.alive
  | working task closing code calling => exact .inr fits.2.alive
  | guarding => exact .inr fits.2.alive
  | undefined => exact fits.2.elim

/-- Between two operations an actor fits by its locks. -/
theorem Place.Rests.fits
    {place : Place}
    {locks : List Lock}
    {pending : Prop}
    {thread : Atomic.Thread}
    (rests : place.Rests actor locks held)
    (idle : thread.stage = .idle)
    (same : thread.locks = locks) :
    place.Fits tolerance actor pending thread held := by
  subst same
  cases place with
  | waiting request => exact rests.elim
  | leaving => exact rests.elim
  | _ => exact ⟨idle, rests⟩

/-- A call that has not looked yet goes on to wait. -/
theorem Place.Fits.mono
    {place : Place}
    {pending still : Prop}
    {thread : Atomic.Thread}
    (fits : place.Fits tolerance actor pending thread held)
    (waits : pending → still) :
    place.Fits tolerance actor still thread held := by
  cases place with
  | waiting request =>
      refine ⟨fits.1, fits.2.imp_left ?_⟩
      exact fun asked => ⟨asked.1, asked.2.1, fun same => waits (asked.2.2 same)⟩
  | _ => exact fits

end Lemmas

section Threads

variable {thread after : Atomic.Thread} {lock : Lock}

/-- A call starts at an idle thread. -/
theorem start_callOp
    {call : Call}
    (idle : thread.stage = .idle)
    (starts : thread.start (callOp call) = some after) :
    after = { thread with stage := .asked call } := by
  obtain ⟨stage, locks, readLocks⟩ := thread
  cases idle
  cases call with
  | lock closures hint => exact (Option.some.inj starts).symm
  | tryLock how hint => exact (Option.some.inj starts).symm

/-- The phase of the one lock is set. -/
theorem start_setPhase
    {phase : Phase}
    (idle : thread.stage = .idle)
    (owned : thread.locks = [lock])
    (starts : thread.start (.setPhase 0 phase) = some after) :
    after.stage = .idle ∧ after.locks = [{ lock with onUnlock := phase }] := by
  obtain ⟨stage, locks, readLocks⟩ := thread
  cases idle
  cases owned
  cases starts
  exact ⟨rfl, rfl⟩

/-- The one lock is given back. -/
theorem start_end
    {op : UserOp}
    (idle : thread.stage = .idle)
    (owned : thread.locks = [lock])
    (ends : op = .dropLock 0 ∨ op = .convert 0)
    (starts : thread.start op = some after) :
    after.locks = [] ∧
      (after.stage = .droppingLock lock ∨
        after.stage = .convertingLock lock) := by
  obtain ⟨stage, locks, readLocks⟩ := thread
  cases idle
  cases owned
  obtain rfl | rfl := ends
  · cases starts
    exact ⟨rfl, .inl rfl⟩
  · cases starts
    exact ⟨rfl, .inr rfl⟩

/-- A read lock is dropped or cloned. -/
theorem start_read
    {op : UserOp}
    {index : Nat}
    (idle : thread.stage = .idle)
    (reads : op = .dropReadLock index ∨ op = .clone index)
    (starts : thread.start op = some after) :
    after.locks = thread.locks ∧
      ∃ guard,
        after.stage = .droppingReadLock guard ∨
          after.stage = .cloning guard := by
  obtain ⟨stage, locks, readLocks⟩ := thread
  cases idle
  obtain rfl | rfl := reads
  · obtain ⟨guard, -, rfl⟩ := Option.map_eq_some_iff.mp starts
    exact ⟨rfl, guard, .inl rfl⟩
  · obtain ⟨guard, -, rfl⟩ := Option.map_eq_some_iff.mp starts
    exact ⟨rfl, guard, .inr rfl⟩

end Threads

/-- The actors at the atomic locker, and the serialized static. -/
structure Follows
    {ι : Type}
    [DecidableEq ι]
    (tolerance : GeneratorTolerance)
    (whole : Client ι × Atomic.State ι)
    (state : State ι) : Prop where
  known : ∃ past, State.Inv tolerance past state
  phase : state.phase = whole.2.phase
  listed : state.listed = whole.1.listed
  unreached : whole.1.finalizer = none → state.exit = .pending
  places :
    ∀ actor,
      (whole.1.place actor).Fits tolerance actor
        (Pending actor whole.1 state) (whole.2.thread actor)
        (state.heldBy actor)

namespace Follows

variable {ι : Type} [DecidableEq ι] {tolerance : GeneratorTolerance}
  {client next : Client ι} {atomic moved : Atomic.State ι}
  {state after : State ι} {actor : ι}

/-- What is known of an actor at its place. -/
theorem fits
    {place : Place}
    (follows : Follows tolerance (client, atomic) state)
    (placed : client.place actor = place) :
    place.Fits tolerance actor (Pending actor client state)
      (atomic.thread actor) (state.heldBy actor) :=
  placed ▸ follows.places actor

/-- One actor and its thread move, maybe with the static. -/
theorem update
    (actor : ι)
    (follows : Follows tolerance (client, atomic) state)
    (known : ∃ past, State.Inv tolerance past after)
    (phase : after.phase = moved.phase)
    (listed : after.listed = next.listed)
    (unreached : next.finalizer = none → after.exit = .pending)
    (own :
      (next.place actor).Fits tolerance actor (Pending actor next after)
        (moved.thread actor) (after.heldBy actor))
    (places : ∀ other, other ≠ actor → next.place other = client.place other)
    (threads :
      ∀ other, other ≠ actor → moved.thread other = atomic.thread other)
    (held :
      ∀ other, other ≠ actor → after.heldBy other = state.heldBy other)
    (waits :
      ∀ other, other ≠ actor →
        Pending other client state → Pending other next after) :
    Follows tolerance (next, moved) after := by
  refine ⟨known, phase, listed, unreached, ?_⟩
  intro other
  by_cases same : other = actor
  · subst same
    exact own
  · dsimp only
    rw [places other same, threads other same, held other same]
    exact (follows.places other).mono (waits other same)

/-- An actor and its thread move next to a static that stays. -/
theorem stay
    (place : Place)
    (follows : Follows tolerance (client, atomic) state)
    {thread : Atomic.Thread}
    (fits :
      place.Fits tolerance actor (Pending actor client state) thread
        (state.heldBy actor)) :
    Follows tolerance
      (client.setPlace actor place,
        atomic.setThread atomic.phase actor thread) state := by
  refine follows.update actor follows.known ?_ ?_ ?_ ?_ ?_ ?_ ?_ ?_
  · exact follows.phase
  · exact follows.listed
  · exact follows.unreached
  · rw [Client.setPlace_self, Atomic.State.setThread_self]
    exact fits
  · exact fun other => Client.setPlace_other place
  · exact fun other => Atomic.State.setThread_other _ thread
  · exact fun _ _ => rfl
  · exact fun _ _ => id

/-- A thread settles next to a static that stays. -/
theorem settles
    {stage : Stage}
    (follows : Follows tolerance (client, atomic) state)
    (fits :
      (client.place actor).Fits tolerance actor (Pending actor client state)
        { atomic.thread actor with stage := stage } (state.heldBy actor)) :
    ∃ after,
      Exec (Observed (State.Step tolerance) fun _ => Event.visible)
          state [] after ∧
        Follows tolerance
          (client,
            atomic.setThread atomic.phase actor
              { atomic.thread actor with stage := stage })
          after := by
  have stayed := follows.stay _ fits
  rw [Client.setPlace_eq_self] at stayed
  exact ⟨state, .refl, stayed⟩

/-- The static took a step of its own system. -/
theorem known_step
    {event : Event ι}
    (follows : Follows tolerance (client, atomic) state)
    (step : State.Step tolerance state event after) :
    ∃ past, State.Inv tolerance past after := by
  obtain ⟨past, inv⟩ := follows.known
  exact ⟨_, inv.step step⟩

/-- An actor begins with a request. -/
theorem ask
    {request : Request}
    {thread : Atomic.Thread}
    (follows : Follows tolerance (client, atomic) state)
    (outside : client.place actor = .outside)
    (allowed : client.Allows request)
    (starts :
      (atomic.thread actor).start (callOp (request.call tolerance)) =
        some thread) :
    Follows tolerance
      (client.ask actor request,
        atomic.setThread atomic.phase actor thread) state := by
  obtain ⟨idle, locks, free⟩ := follows.fits outside
  have started := start_callOp idle starts
  refine follows.update actor follows.known ?_ ?_ ?_ ?_ ?_ ?_ ?_ ?_
  · exact follows.phase
  · exact follows.listed
  · intro unfinished
    apply follows.unreached
    cases request with
    | finalizeCallback => cases unfinished
    | access => exact unfinished
    | lock => exact unfinished
    | tryLock => exact unfinished
  · rw [Atomic.State.setThread_self, started]
    have placed : (client.ask actor request).place actor = .waiting request :=
      Client.setPlace_self client actor _
    rw [placed]
    refine ⟨locks, .inl ⟨rfl, free, ?_⟩⟩
    rintro rfl
    exact ⟨rfl, follows.unreached allowed.2, follows.listed.trans allowed.1⟩
  · exact fun other => Client.setPlace_other _
  · exact fun other => Atomic.State.setThread_other _ thread
  · exact fun _ _ => rfl
  · rintro other different ⟨finalizer, pending, listed⟩
    refine ⟨?_, pending, listed⟩
    cases request with
    | finalizeCallback => cases allowed.2.symm.trans finalizer
    | access => exact finalizer
    | lock => exact finalizer
    | tryLock => exact finalizer

/-- What is known of an actor under the write guard. -/
theorem holds
    {task : Task}
    {closing : Closing}
    {code : GuardCode}
    {calling : Bool}
    (follows : Follows tolerance (client, atomic) state)
    (working : client.place actor = .working task closing code calling) :
    (atomic.thread actor).stage = .idle ∧
      ∃ lock,
        (atomic.thread actor).locks = [lock] ∧
          state.heldBy actor =
            some ⟨actor, task, lock.onUnlock, code, calling⟩ := by
  have fits := follows.fits working
  exact fits

/-- The phase of the write guard is set, and the code moves on. -/
theorem moves
    {task : Task}
    {closing : Closing}
    {code next : GuardCode}
    {calling running : Bool}
    {phase : Phase}
    {thread : Atomic.Thread}
    {written listed : Bool}
    (follows : Follows tolerance (client, atomic) state)
    (working : client.place actor = .working task closing code calling)
    (starts :
      (atomic.thread actor).start (.setPhase 0 phase) = some thread)
    (known :
      ∃ past, State.Inv tolerance past
        { state with
          holder := some ⟨actor, task, phase, next, running⟩
          written := written
          listed := listed })
    (lists : state.listed = true → listed = true) :
    Follows tolerance
      ({ client.setPlace actor (.working task closing next running) with
          listed := listed },
        atomic.setThread atomic.phase actor thread)
      { state with
        holder := some ⟨actor, task, phase, next, running⟩
        written := written
        listed := listed } := by
  obtain ⟨idle, lock, owned, held⟩ := follows.holds working
  obtain ⟨rests, locks⟩ := start_setPhase idle owned starts
  refine follows.update actor known ?_ ?_ ?_ ?_ ?_ ?_ ?_ ?_
  · exact follows.phase
  · rfl
  · exact follows.unreached
  · rw [Atomic.State.setThread_self]
    have placed :
        (client.setPlace actor (.working task closing next running)).place
            actor =
          .working task closing next running :=
      Client.setPlace_self client actor _
    dsimp only
    rw [placed, State.heldBy_of_holder rfl, if_pos rfl]
    exact ⟨rests, _, locks, rfl⟩
  · exact fun other => Client.setPlace_other _
  · exact fun other => Atomic.State.setThread_other _ thread
  · intro other different
    rw [State.heldBy_other held different, State.heldBy_of_holder rfl,
      if_neg (Ne.symm different)]
  · rintro other different ⟨finalizer, pending, before⟩
    exact ⟨finalizer, pending, lists before⟩

/-- A guard that may be left is given back in one step. -/
theorem publishes
    {holder : Holder ι}
    (held : state.heldBy actor = some holder)
    (may : holder.Publishes) :
    ∃ event : Event ι,
      event.visible = none ∧
        State.Step tolerance state event (state.publish holder) := by
  obtain finished | ⟨user, running⟩ := may
  · refine ⟨.release actor, rfl, ?_⟩
    simp [State.Step, State.exec, held, finished]
  · refine ⟨.panicked actor user, rfl, ?_⟩
    simp [State.Step, State.exec, held, running]

/-- A guard is given back at the commit of its end. -/
theorem gives
    {lock : Lock}
    {result : Result}
    (follows : Follows tolerance (client, atomic) state)
    (leaving : client.place actor = .leaving)
    (gives : Gives lock (state.heldBy actor))
    (shows : lock.initPhase = atomic.phase)
    (none : result.locks = []) :
    ∃ after,
      Exec (Observed (State.Step tolerance) fun _ => Event.visible)
          state [] after ∧
        Follows tolerance
          (client,
            atomic.setThread lock.onUnlock actor
              { atomic.thread actor with stage := .answered result })
          after := by
  have locks : (atomic.thread actor).locks = [] := by
    have fits := follows.fits leaving
    exact fits.1
  obtain ⟨kept, free⟩ | ⟨holder, held, guard, may⟩ := gives
  · rw [kept, shows]
    refine follows.settles ?_
    rw [leaving]
    exact ⟨locks, none, free⟩
  · obtain ⟨found, -⟩ := State.heldBy_eq held
    obtain ⟨event, hidden, step⟩ :=
      publishes held may
    have pending :
        state.exit = .pending → (state.publish holder).exit = .pending := by
      intro pending
      obtain ⟨past, inv⟩ := follows.known
      have notFinalizing : holder.task ≠ .finalize := by
        intro finalize
        cases pending.symm.trans (inv.finalizing holder found finalize)
      rw [State.publish]
      exact (if_neg notFinalizing).trans pending
    refine ⟨state.publish holder, .silent ⟨event, step, hidden⟩ .refl, ?_⟩
    refine follows.update actor (follows.known_step step) ?_ ?_ ?_ ?_ ?_ ?_ ?_ ?_
    · exact guard
    · exact follows.listed
    · exact fun unfinished => pending (follows.unreached unfinished)
    · rw [leaving, Atomic.State.setThread_self]
      exact ⟨locks, none, State.heldBy_of_free rfl actor⟩
    · exact fun _ _ => rfl
    · exact fun other => Atomic.State.setThread_other _ _
    · intro other different
      rw [State.heldBy_other held different]
      exact State.heldBy_of_free rfl other
    · rintro other different ⟨finalizer, before, listed⟩
      exact ⟨finalizer, pending before, listed⟩

/-- Where a write lock is given the static is not held. -/
theorem free
    {guard : Lock}
    (follows : Follows tolerance (client, atomic) state)
    (own : state.heldBy actor = none)
    (exclusive :
      (atomic.setThread atomic.phase actor
        { atomic.thread actor with
          stage := .answered (.locked (some (.write guard))) }).Exclusive) :
    state.holder = none := by
  by_contra found
  obtain ⟨holder, held⟩ := Option.ne_none_iff_exists'.mp found
  by_cases same : holder.actor = actor
  · rw [State.heldBy_of_holder held, if_pos same] at own
    cases own
  · have fits := follows.places holder.actor
    rw [State.heldBy_of_holder held, if_pos rfl] at fits
    have alone := (exclusive.others actor holder.actor same ?_).1
    · rw [Atomic.State.setThread_other _ _ same] at alone
      exact fits.alive alone
    · rw [Atomic.State.setThread_self]
      simp [Atomic.Thread.aliveLocks, Stage.locks, Result.locks]

/-- A call that gives no write lock commits next to a static that stays. -/
theorem passes
    {request : Request}
    {result : Option (LockResult ReadLock Lock)}
    (follows : Follows tolerance (client, atomic) state)
    (waiting : client.place actor = .waiting request)
    (asked :
      (atomic.thread actor).stage = .asked (request.call tolerance))
    (outside : request.receive tolerance result = .outside)
    (empty : (Result.locked result).locks = [])
    (looked :
      request = .finalizeCallback →
        (state.phase.intersects .initialized = false)) :
    ∃ after,
      Exec (Observed (State.Step tolerance) fun _ => Event.visible)
          state [] after ∧
        Follows tolerance
          (client,
            atomic.setThread atomic.phase actor
              { atomic.thread actor with
                stage := .answered (.locked result) })
          after := by
  have fits := follows.fits waiting
  obtain ⟨locks, ⟨-, free, pending⟩ | ⟨other, stage, -⟩⟩ := fits
  case inr => cases asked.symm.trans stage
  have rests :
      (request.receive tolerance result).Rests actor
        (Result.locked result).locks none := by
    rw [outside]
    exact ⟨empty, rfl⟩
  by_cases finalizes : request = .finalizeCallback
  · obtain ⟨finalizer, unreached, listed⟩ := pending finalizes
    have step : State.Step tolerance state .reach state.reach := by
      simp [State.Step, State.exec, listed, unreached]
    have reached : state.reach = { state with exit := .returned } := by
      rw [State.reach_eq, looked finalizes]
      rfl
    refine ⟨state.reach, .silent ⟨.reach, step, rfl⟩ .refl, ?_⟩
    refine follows.update actor (follows.known_step step) ?_ ?_ ?_ ?_ ?_ ?_ ?_ ?_
    · rw [reached]
      exact follows.phase
    · rw [reached]
      exact follows.listed
    · intro unfinished
      cases unfinished.symm.trans finalizer
    · rw [waiting, Atomic.State.setThread_self, reached]
      refine ⟨locks, .inr ⟨result, rfl, ?_⟩⟩
      exact free ▸ rests
    · exact fun _ _ => rfl
    · exact fun other => Atomic.State.setThread_other _ _
    · intro other _
      rw [reached]
      rfl
    · rintro other different ⟨another, -⟩
      cases Option.some.inj (finalizer.symm.trans another)
      exact absurd rfl different
  · refine follows.settles ?_
    rw [waiting]
    refine ⟨locks, .inr ⟨result, rfl, ?_⟩⟩
    exact free ▸ rests

/-- The write lock is taken, by an access or by `finalize_callback`. -/
theorem takes
    {request : Request}
    {task : Task}
    {closing : Closing}
    {code : GuardCode}
    (follows : Follows tolerance (client, atomic) state)
    (waiting : client.place actor = .waiting request)
    (locks : (atomic.thread actor).locks = [])
    (received :
      request.receive tolerance
          (some (.write ⟨atomic.phase, atomic.phase⟩)) =
        .working task closing code false)
    (exec :
      Exec (Observed (State.Step tolerance) fun _ => Event.visible)
        state [] after)
    (known : ∃ past, State.Inv tolerance past after)
    (before : state.holder = none)
    (same : after.phase = state.phase ∧ after.listed = state.listed)
    (held :
      after.holder = some ⟨actor, task, atomic.phase, code, false⟩)
    (exit :
      after.exit = state.exit ∨ client.finalizer = some actor) :
    ∃ after,
      Exec (Observed (State.Step tolerance) fun _ => Event.visible)
          state [] after ∧
        Follows tolerance
          (client,
            atomic.setThread atomic.phase actor
              { atomic.thread actor with
                stage :=
                  .answered
                    (.locked
                      (some (.write ⟨atomic.phase, atomic.phase⟩))) })
          after := by
  refine ⟨after, exec, ?_⟩
  refine follows.update actor known ?_ ?_ ?_ ?_ ?_ ?_ ?_ ?_
  · exact same.1.trans follows.phase
  · exact same.2.trans follows.listed
  · intro unfinished
    obtain kept | finalizer := exit
    · exact kept.trans (follows.unreached unfinished)
    · cases unfinished.symm.trans finalizer
  · rw [waiting, Atomic.State.setThread_self, State.heldBy_of_holder held,
      if_pos rfl]
    refine ⟨locks, .inr ⟨_, rfl, ?_⟩⟩
    rw [received]
    exact ⟨_, rfl, rfl⟩
  · exact fun _ _ => rfl
  · exact fun other => Atomic.State.setThread_other _ _
  · intro other different
    rw [State.heldBy_of_holder held, if_neg (Ne.symm different),
      State.heldBy_of_free before]
  · rintro other different ⟨another, pending, listed⟩
    obtain kept | finalizer := exit
    · exact ⟨another, kept.trans pending, same.2.trans listed⟩
    · cases Option.some.inj (finalizer.symm.trans another)
      exact absurd rfl different

/-- A write lock is given. -/
theorem commit_write
    {request : Request}
    (follows : Follows tolerance (client, atomic) state)
    (waiting : client.place actor = .waiting request)
    (asked :
      (atomic.thread actor).stage = .asked (request.call tolerance))
    (asks : (request.call tolerance).how atomic.phase = .write)
    (exclusive :
      (atomic.setThread atomic.phase actor
        { atomic.thread actor with
          stage :=
            .answered
              (.locked
                (some (.write ⟨atomic.phase, atomic.phase⟩))) }).Exclusive) :
    ∃ after,
      Exec (Observed (State.Step tolerance) fun _ => Event.visible)
          state [] after ∧
        Follows tolerance
          (client,
            atomic.setThread atomic.phase actor
              { atomic.thread actor with
                stage :=
                  .answered
                    (.locked
                      (some (.write ⟨atomic.phase, atomic.phase⟩))) })
          after := by
  have fits := follows.fits waiting
  obtain ⟨locks, ⟨-, own, pending⟩ | ⟨other, stage, -⟩⟩ := fits
  case inr => cases asked.symm.trans stage
  have unheld := follows.free own exclusive
  have phase := follows.phase
  dsimp only at phase
  obtain ⟨access, task, closing, code, -, enters, received⟩ |
    ⟨finalizes, initialized, received⟩ | ⟨others, received⟩ :=
    Request.receive_write asks
  · have step :
        State.Step tolerance state (.acquire actor access)
          { state with
            holder := some ⟨actor, task, atomic.phase, code, false⟩ } := by
      simp [State.Step, State.exec, unheld, phase, enters]
    exact follows.takes waiting locks received
      (.silent ⟨_, step, rfl⟩ .refl) (follows.known_step step) unheld
      ⟨rfl, rfl⟩ rfl (.inl rfl)
  · obtain ⟨finalizer, unreached, listed⟩ := pending finalizes
    have reach : State.Step tolerance state .reach state.reach := by
      simp [State.Step, State.exec, listed, unreached]
    have reached : state.reach = { state with exit := .waiting } := by
      rw [State.reach_eq, phase, initialized]
      rfl
    have resume :
        State.Step tolerance state.reach (.resume actor)
          { state with
            holder :=
              some
                ⟨actor, .finalize, atomic.phase,
                  StaticInit.finalizeCallback atomic.phase, false⟩
            exit := .finalizing } := by
      simp [State.Step, State.exec, reached, unheld, State.resume, phase,
        initialized]
    obtain ⟨past, inv⟩ := follows.known_step reach
    exact follows.takes waiting locks received
      (.silent ⟨_, reach, rfl⟩ (.silent ⟨_, resume, rfl⟩ .refl))
      ⟨_, inv.step resume⟩ unheld ⟨rfl, rfl⟩ rfl (.inr finalizer)
  · refine follows.settles ?_
    rw [waiting]
    refine ⟨locks, .inr ⟨_, rfl, ?_⟩⟩
    rw [received]
    exact ⟨_, rfl, rfl, own⟩

/-- An operation of the locker commits. -/
theorem commit
    {phase : Phase}
    {stage : Stage}
    (follows : Follows tolerance (client, atomic) state)
    (commits : Commit atomic.phase (atomic.thread actor).stage phase stage)
    (exclusive :
      (atomic.setThread phase actor
        { atomic.thread actor with stage := stage }).Exclusive) :
    ∃ after,
      Exec (Observed (State.Step tolerance) fun _ => Event.visible)
          state [] after ∧
        Follows tolerance
          (client,
            atomic.setThread phase actor
              { atomic.thread actor with stage := stage })
          after := by
  have fits := follows.places actor
  dsimp only at fits
  generalize begun : (atomic.thread actor).stage = start at commits
  cases placed : client.place actor with
  | waiting request =>
      rw [placed] at fits
      obtain ⟨-, ⟨asked, -⟩ | ⟨result, answered, -⟩⟩ := fits
      case inr =>
        obtain rfl := begun.symm.trans answered
        cases commits
      obtain rfl := begun.symm.trans asked
      generalize call : request.call tolerance = call at commits
      cases commits with
      | write asks =>
          subst call
          exact follows.commit_write placed begun asks exclusive
      | read asks =>
          subst call
          obtain ⟨access, outside⟩ := Request.receive_read asks
          exact follows.passes placed begun outside rfl
            fun finalizes => absurd finalizes access
      | none asks =>
          subst call
          obtain ⟨looked, outside⟩ := Request.receive_none asks
          refine follows.passes placed begun outside rfl fun finalizes => ?_
          have phase := follows.phase
          rw [phase]
          exact looked finalizes
      | failed =>
          obtain ⟨access, outside⟩ := Request.receive_failed call
          exact follows.passes placed begun outside rfl
            fun finalizes => absurd finalizes access
  | leaving =>
      rw [placed] at fits
      obtain ⟨locks, leaves⟩ := fits
      rw [begun] at leaves
      cases commits with
      | write asks => exact leaves.elim
      | read asks => exact leaves.elim
      | none asks => exact leaves.elim
      | failed => exact leaves.elim
      | dropLock shows => exact follows.gives placed leaves shows rfl
      | convertLock shows => exact follows.gives placed leaves shows rfl
      | dropReadLock =>
          refine follows.settles ?_
          rw [placed]
          exact ⟨locks, rfl, leaves⟩
      | clone =>
          refine follows.settles ?_
          rw [placed]
          exact ⟨locks, rfl, leaves⟩
  | _ =>
      rw [placed] at fits
      obtain rfl := begun.symm.trans fits.1
      cases commits

/-- Under the write guard the static takes the step that the client shows. -/
theorem works
    {task : Task}
    {closing : Closing}
    {code next : GuardCode}
    {calling running : Bool}
    {phase : Phase}
    {thread : Atomic.Thread}
    {listed : Bool}
    (event : Event ι)
    (written : Bool)
    (follows : Follows tolerance (client, atomic) state)
    (working : client.place actor = .working task closing code calling)
    (starts :
      (atomic.thread actor).start (.setPhase 0 phase) = some thread)
    (step :
      State.Step tolerance state event
        { state with
          holder := some ⟨actor, task, phase, next, running⟩
          written := written
          listed := listed })
    (lists : state.listed = true → listed = true) :
    ∃ after,
      Exec (Observed (State.Step tolerance) fun _ => Event.visible)
          state event.visible.toList after ∧
        Follows tolerance
          ({ client.setPlace actor (.working task closing next running) with
              listed := listed },
            atomic.setThread atomic.phase actor thread)
          after :=
  ⟨_, .single ⟨event, step, rfl⟩,
    follows.moves working starts (follows.known_step step) lists⟩

/-- An actor leaves with its guard. -/
theorem leaves
    {thread : Atomic.Thread}
    (follows : Follows tolerance (client, atomic) state)
    (locks : thread.locks = [])
    (leaves : Leaves (state.heldBy actor) thread.stage) :
    ∃ after,
      Exec (Observed (State.Step tolerance) fun _ => Event.visible)
          state [] after ∧
        Follows tolerance
          (client.setPlace actor .leaving,
            atomic.setThread atomic.phase actor thread)
          after :=
  ⟨state, .refl, follows.stay .leaving ⟨locks, leaves⟩⟩

/-- An actor gives its write guard back, dropped or converted. -/
theorem gives_back
    {op : UserOp}
    {lock : Lock}
    {thread : Atomic.Thread}
    (follows : Follows tolerance (client, atomic) state)
    (idle : (atomic.thread actor).stage = .idle)
    (owned : (atomic.thread actor).locks = [lock])
    (ends : op = .dropLock 0 ∨ op = .convert 0)
    (starts : (atomic.thread actor).start op = some thread)
    (gives : Gives lock (state.heldBy actor)) :
    ∃ after,
      Exec (Observed (State.Step tolerance) fun _ => Event.visible)
          state [] after ∧
        Follows tolerance
          (client.setPlace actor .leaving,
            atomic.setThread atomic.phase actor thread)
          after := by
  obtain ⟨locks, dropping | converting⟩ := start_end idle owned ends starts
  · exact follows.leaves locks (dropping ▸ gives)
  · exact follows.leaves locks (converting ▸ gives)

/-- A step of the actors with their locker. -/
theorem together
    {label : Atomic.Label ι}
    {event : Option (Event ι)}
    (follows : Follows tolerance (client, atomic) state)
    (moves : Client.Step tolerance client (some label) event next)
    (agrees : Atomic.State.Step atomic (some label) moved) :
    ∃ after,
      Exec (Observed (State.Step tolerance) fun _ => Event.visible)
          state event.toList after ∧
        Follows tolerance (next, moved) after := by
  cases moves with
  | ask outside allowed =>
      cases agrees with
      | start starts => exact ⟨state, .refl, follows.ask outside allowed starts⟩
  | receive waiting =>
      cases agrees with
      | ret answered =>
          have fits := follows.fits waiting
          obtain ⟨locks, ⟨asked, -⟩ | ⟨result, found, rests⟩⟩ := fits
          case inl => cases asked.symm.trans answered
          obtain rfl :=
            Result.locked.inj (Stage.answered.inj (answered.symm.trans found))
          refine ⟨state, .refl, follows.stay _ (rests.fits rfl ?_)⟩
          rw [Atomic.Thread.finish, locks, List.append_nil]
  | @call actor _ _ user _ _ _ working =>
      cases agrees with
      | start starts =>
          obtain ⟨-, lock, -, held⟩ := follows.holds working
          refine follows.works (.call actor user) state.written working starts ?_
            follows.listed.symm.trans
          simp [State.Step, State.exec, held, Holder.start, follows.listed]
  | @returned actor task closing user onSuccess onPanic next value working =>
      cases agrees with
      | start starts =>
          obtain ⟨-, lock, -, held⟩ := follows.holds working
          have listed := follows.listed
          dsimp only at listed
          rw [← listed]
          refine follows.works (.returned actor user value)
            (state.written || user = .init) working starts ?_ ?_
          · simp [State.Step, State.exec, held, Holder.finish]
          · intro before
            simp [before]
  | @setPhase actor _ _ _ _ _ working =>
      cases agrees with
      | start starts =>
          obtain ⟨-, lock, -, held⟩ := follows.holds working
          refine follows.works (.setPhase actor) state.written working starts ?_
            follows.listed.symm.trans
          simp [State.Step, State.exec, held, Holder.setPhase, follows.listed]
  | @panicked actor _ _ user _ _ _ working =>
      cases agrees with
      | start starts =>
          obtain ⟨idle, lock, owned, held⟩ := follows.holds working
          refine follows.gives_back idle owned (.inl rfl) starts
            (.inr ⟨_, held, rfl, .inr ⟨user, ?_⟩⟩)
          simp [Holder.isCalling]
  | failed working =>
      obtain ⟨-, lock, -, held⟩ := follows.holds working
      obtain ⟨found, -⟩ := State.heldBy_eq held
      obtain ⟨past, inv⟩ := follows.known
      exact absurd rfl (inv.held _ found).no_failure
  | drop working =>
      cases agrees with
      | start starts =>
          obtain ⟨idle, lock, owned, held⟩ := follows.holds working
          exact follows.gives_back idle owned (.inl rfl) starts
            (.inr ⟨_, held, rfl, .inl rfl⟩)
  | convert working =>
      cases agrees with
      | start starts =>
          obtain ⟨idle, lock, owned, held⟩ := follows.holds working
          exact follows.gives_back idle owned (.inr rfl) starts
            (.inr ⟨_, held, rfl, .inl rfl⟩)
  | unguard guarding ends =>
      cases agrees with
      | start starts =>
          have fits := follows.fits guarding
          obtain ⟨idle, lock, owned, kept, free⟩ := fits
          exact follows.gives_back idle owned ends starts (.inl ⟨kept, free⟩)
  | unread outside reads =>
      cases agrees with
      | start starts =>
          have fits := follows.fits outside
          obtain ⟨idle, locks, free⟩ := fits
          obtain ⟨kept, guard, dropping | cloning⟩ :=
            start_read idle reads starts
          · exact follows.leaves (kept.trans locks) (dropping ▸ free)
          · exact follows.leaves (kept.trans locks) (cloning ▸ free)
  | left leaving =>
      cases agrees with
      | ret answered =>
          have fits := follows.fits leaving
          obtain ⟨locks, leaves⟩ := fits
          rw [answered] at leaves
          refine ⟨state, .refl, follows.stay .outside ?_⟩
          refine ⟨rfl, ?_, leaves.2⟩
          rw [Atomic.Thread.finish, locks, leaves.1]
          rfl

/-- The actors at the atomic locker refine the serialized static. -/
theorem simulates (tolerance : GeneratorTolerance) :
    Simulates
      (Composed (Client.Step tolerance) (Atomic.State.Step (ι := ι)))
      (Observed (State.Step tolerance) fun _ => Event.visible)
      (Follows tolerance) := by
  refine ⟨?_⟩
  intro whole after state label follows step
  cases step with
  | own moves => cases moves
  | object moves =>
      cases moves with
      | commit commits exclusive => exact follows.commit commits exclusive
  | together moves agrees => exact follows.together moves agrees

end Follows

end StaticInit.Lazily
