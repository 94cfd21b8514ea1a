import StaticInit.LazySequentializer.Once
import StaticInit.PhaseLocker.Atomic

namespace StaticInit.Lazily

/-!
# The accesses of a finalizable static, over a locker

The code of `FinalizableLazySequentializer` between two operations of its
locker.  `Request.call` is the call of the locker that a function makes and
`Request.receive` what the function does with the result; the code under the
write guard sets the phase of the guard, calls user code and gives the guard
back.  An actor is one such function at work: a thread that accesses the
static from user code, or while it owns a guard, counts as another actor.
-/

open Sync (Lock ReadLock Call Result UserOp)

/-- What is asked of the static. -/
inductive Request where
  | access (access : Access)
  | finalizeCallback
  /-- `Sequentializer::lock`. -/
  | lock (lockNature : Phase → LockNature) (hint : Phase)
  /-- `Sequentializer::try_lock`. -/
  | tryLock (lockNature : Phase → LockNature) (hint : Phase)

/-- The closure of `finalize_callback`. -/
def finalizeHow (phase : Phase) : LockNature :=
  if phase.intersects .initialized then .write else .none

/-- The call of the locker for each request. -/
def Request.call (tolerance : GeneratorTolerance) : Request → Call
  | .access .init =>
      .lock
        ⟨fun phase => if tolerance.shallInit phase then .write else .none,
          fun _ => .read⟩
        (.initialized ||| .registered)
  | .access .initThenReadGuard =>
      .lock
        ⟨fun phase => if tolerance.shallInit phase then .write else .read,
          fun _ => .read⟩
        (.initialized ||| .registered)
  | .access .initThenWriteGuard =>
      .lock ⟨fun _ => .write, fun _ => .write⟩ .initialized
  | .access .tryInitThenReadGuard =>
      .tryLock
        (fun phase => if tolerance.shallInit phase then .write else .read)
        (.initialized ||| .registered)
  | .access .tryInitThenWriteGuard =>
      .tryLock (fun _ => .write) (.initialized ||| .registered)
  | .finalizeCallback =>
      .lock ⟨finalizeHow, finalizeHow⟩ (.initialized ||| .registered)
  | .lock lockNature hint => .lock ⟨lockNature, lockNature⟩ hint
  | .tryLock lockNature hint => .tryLock lockNature hint

/-- The operation that makes a call. -/
def callOp : Call → UserOp
  | .lock closures hint => .lock closures hint
  | .tryLock how hint => .tryLock how hint

/-- How a function gives its write guard back. -/
inductive Closing where
  | drop
  /-- Into a read guard. -/
  | convert
  /-- The guard goes to the caller, who may do both. -/
  | either
  deriving DecidableEq

/-- Where an actor is. -/
inductive Place where
  | outside
  | waiting (request : Request)
  /-- Under the write guard, maybe in the user call at the head of `code`. -/
  | working
      (task : Task)
      (closing : Closing)
      (code : GuardCode)
      (calling : Bool)
  /-- Owning a write guard that `Sequentializer::lock` returned. -/
  | guarding
  /-- A guard is being dropped, converted or cloned. -/
  | leaving
  /-- At an `unreachable_unchecked`. -/
  | undefined

/-- The initialization of a static whose guard was obtained. -/
def initialize_
    (tolerance : GeneratorTolerance)
    (closing : Closing)
    (lock : Lock) : Place :=
  .working .initializing closing (lazyInitialization tolerance lock.onUnlock)
    false

/-- `init_then_write_guard` looks at the phase of its guard. -/
def initializeIfShall
    (tolerance : GeneratorTolerance)
    (lock : Lock) : Place :=
  if tolerance.shallInit lock.onUnlock then
    initialize_ tolerance .either lock
  else
    .working .write .either .done false

/-- What a function does with the result of its call. -/
def Request.receive (tolerance : GeneratorTolerance) :
    Request → Option (LockResult ReadLock Lock) → Place
  | .access .init, some (.write guard) => initialize_ tolerance .drop guard
  | .access .init, some (.read _) => .outside
  | .access .init, some (.none _) => .outside
  | .access .initThenReadGuard, some (.write guard) =>
      initialize_ tolerance .convert guard
  | .access .initThenReadGuard, some (.read _) => .outside
  | .access .initThenWriteGuard, some (.write guard) =>
      initializeIfShall tolerance guard
  | .access .tryInitThenReadGuard, some (.write guard) =>
      initialize_ tolerance .convert guard
  | .access .tryInitThenReadGuard, some (.read _) => .outside
  | .access .tryInitThenReadGuard, none => .outside
  | .access .tryInitThenWriteGuard, some (.write guard) =>
      initializeIfShall tolerance guard
  | .access .tryInitThenWriteGuard, none => .outside
  | .finalizeCallback, some (.write guard) =>
      .working .finalize .drop (StaticInit.finalizeCallback guard.onUnlock)
        false
  | .finalizeCallback, some (.none _) => .outside
  | .lock _ _, some (.write _) => .guarding
  | .lock _ _, some (.read _) => .outside
  | .lock _ _, some (.none _) => .outside
  | .tryLock _ _, some (.write _) => .guarding
  | .tryLock _ _, some (.read _) => .outside
  | .tryLock _ _, some (.none _) => .outside
  | .tryLock _ _, none => .outside
  | _, _ => .undefined

/-- The actors of one static and its node in the register of program exit. -/
structure Client (ι : Type) where
  place : ι → Place
  listed : Bool
  /-- The actor that runs `finalize_callback`. -/
  finalizer : Option ι

/-- A static before its first access. -/
def Client.fresh (ι : Type) : Client ι where
  place := fun _ => .outside
  listed := false
  finalizer := none

namespace Client

variable {ι : Type} [DecidableEq ι]

/-- Replace one place. -/
def setPlace (client : Client ι) (actor : ι) (place : Place) : Client ι :=
  { client with place := Function.update client.place actor place }

/-- An actor begins with a request. -/
def ask (client : Client ι) (actor : ι) (request : Request) : Client ι :=
  { client.setPlace actor (.waiting request) with
    finalizer :=
      match request with
      | .finalizeCallback => some actor
      | _ => client.finalizer }

/-- The exit pass calls `finalize_callback` once, on a registered static. -/
def Allows (client : Client ι) : Request → Prop
  | .finalizeCallback => client.listed = true ∧ client.finalizer = none
  | _ => True

/-- What the actors do, at which step of the locker, and what user code sees. -/
inductive Step (tolerance : GeneratorTolerance) (client : Client ι) :
    Option (Atomic.Label ι) → Option (Event ι) → Client ι → Prop where
  | ask
      {actor : ι}
      {request : Request}
      (outside : client.place actor = .outside)
      (allowed : client.Allows request) :
      Step tolerance client
        (some (.start actor (callOp (request.call tolerance)))) none
        (client.ask actor request)
  | receive
      {actor : ι}
      {request : Request}
      {result : Option (LockResult ReadLock Lock)}
      (waiting : client.place actor = .waiting request) :
      Step tolerance client (some (.ret actor (.locked result))) none
        (client.setPlace actor (request.receive tolerance result))
  /-- `transition` sets the phase for a panic and calls the function. -/
  | call
      {actor : ι}
      {task : Task}
      {closing : Closing}
      {call : UserCall}
      {onSuccess onPanic : Phase}
      {next : Bool → GuardCode}
      (working :
        client.place actor =
          .working task closing (.transition call onSuccess onPanic next)
            false) :
      Step tolerance client (some (.start actor (.setPhase 0 onPanic)))
        (some (.call actor call))
        (client.setPlace actor
          (.working task closing (.transition call onSuccess onPanic next)
            true))
  /-- The function returns and `transition` sets the phase for success. -/
  | returned
      {actor : ι}
      {task : Task}
      {closing : Closing}
      {call : UserCall}
      {onSuccess onPanic : Phase}
      {next : Bool → GuardCode}
      (value : Bool)
      (working :
        client.place actor =
          .working task closing (.transition call onSuccess onPanic next)
            true) :
      Step tolerance client (some (.start actor (.setPhase 0 onSuccess)))
        (some (.returned actor call value))
        { client.setPlace actor (.working task closing (next value) false) with
          listed := client.listed || (call = .reg && value) }
  /-- The function panics: the guard is dropped while the panic unwinds. -/
  | panicked
      {actor : ι}
      {task : Task}
      {closing : Closing}
      {call : UserCall}
      {onSuccess onPanic : Phase}
      {next : Bool → GuardCode}
      (working :
        client.place actor =
          .working task closing (.transition call onSuccess onPanic next)
            true) :
      Step tolerance client (some (.start actor (.dropLock 0))) none
        (client.setPlace actor .leaving)
  | setPhase
      {actor : ι}
      {task : Task}
      {closing : Closing}
      {phase : Phase}
      {next : GuardCode}
      {calling : Bool}
      (working :
        client.place actor =
          .working task closing (.setPhase phase next) calling) :
      Step tolerance client (some (.start actor (.setPhase 0 phase))) none
        (client.setPlace actor (.working task closing next calling))
  /-- A debug assertion fails and its panic drops the guard. -/
  | failed
      {actor : ι}
      {task : Task}
      {closing : Closing}
      {assertion : DebugAssertion}
      {calling : Bool}
      (working :
        client.place actor =
          .working task closing (.failed assertion) calling) :
      Step tolerance client (some (.start actor (.dropLock 0))) none
        (client.setPlace actor .leaving)
  | drop
      {actor : ι}
      {task : Task}
      {closing : Closing}
      {calling : Bool}
      (working : client.place actor = .working task closing .done calling)
      (drops : closing ≠ .convert) :
      Step tolerance client (some (.start actor (.dropLock 0))) none
        (client.setPlace actor .leaving)
  | convert
      {actor : ι}
      {task : Task}
      {closing : Closing}
      {calling : Bool}
      (working : client.place actor = .working task closing .done calling)
      (converts : closing ≠ .drop) :
      Step tolerance client (some (.start actor (.convert 0))) none
        (client.setPlace actor .leaving)
  /-- A guard of `Sequentializer::lock` is dropped or converted. -/
  | unguard
      {actor : ι}
      {op : UserOp}
      (guarding : client.place actor = .guarding)
      (ends : op = .dropLock 0 ∨ op = .convert 0) :
      Step tolerance client (some (.start actor op)) none
        (client.setPlace actor .leaving)
  /-- A read guard is dropped or cloned. -/
  | unread
      {actor : ι}
      {op : UserOp}
      {index : Nat}
      (outside : client.place actor = .outside)
      (reads : op = .dropReadLock index ∨ op = .clone index) :
      Step tolerance client (some (.start actor op)) none
        (client.setPlace actor .leaving)
  | left
      {actor : ι}
      {result : Result}
      (leaving : client.place actor = .leaving) :
      Step tolerance client (some (.ret actor result)) none
        (client.setPlace actor .outside)

@[simp] theorem setPlace_self
    (client : Client ι)
    (actor : ι)
    (place : Place) :
    (client.setPlace actor place).place actor = place :=
  Function.update_self _ _ _

theorem setPlace_other
    {client : Client ι}
    {actor other : ι}
    (place : Place)
    (different : other ≠ actor) :
    (client.setPlace actor place).place other = client.place other :=
  Function.update_of_ne different _ _

/-- A place that stays as it is. -/
theorem setPlace_eq_self
    (client : Client ι)
    (actor : ι) :
    client.setPlace actor (client.place actor) = client := by
  simp [setPlace]

end Client

section Requests

variable {tolerance : GeneratorTolerance} {phase : Phase} {request : Request}

/-- What a function does with the write lock that it asked for. -/
theorem Request.receive_write
    (asks : (request.call tolerance).how phase = .write) :
    (∃ access task closing code,
        request = .access access ∧
          access.enter tolerance phase = some (task, code) ∧
            request.receive tolerance (some (.write ⟨phase, phase⟩)) =
              .working task closing code false) ∨
      (request = .finalizeCallback ∧
        phase.intersects .initialized = true ∧
          request.receive tolerance (some (.write ⟨phase, phase⟩)) =
            .working .finalize .drop (StaticInit.finalizeCallback phase)
              false) ∨
      request ≠ .finalizeCallback ∧
        request.receive tolerance (some (.write ⟨phase, phase⟩)) =
          .guarding := by
  cases request with
  | access access =>
      left
      cases shallInit : tolerance.shallInit phase with
      | true =>
          have enters :
              access.enter tolerance phase =
                some (.initializing, lazyInitialization tolerance phase) := by
            cases access <;> simp [Access.enter, shallInit]
          cases access with
          | init => exact ⟨_, _, .drop, _, rfl, enters, rfl⟩
          | initThenReadGuard => exact ⟨_, _, .convert, _, rfl, enters, rfl⟩
          | tryInitThenReadGuard => exact ⟨_, _, .convert, _, rfl, enters, rfl⟩
          | initThenWriteGuard =>
              exact ⟨_, _, .either, _, rfl, enters, if_pos shallInit⟩
          | tryInitThenWriteGuard =>
              exact ⟨_, _, .either, _, rfl, enters, if_pos shallInit⟩
      | false =>
          have keeps :
              initializeIfShall tolerance ⟨phase, phase⟩ =
                .working .write .either .done false := by
            simp [initializeIfShall, shallInit]
          cases access with
          | init => simp [Request.call, Call.how, shallInit] at asks
          | initThenReadGuard => simp [Request.call, Call.how, shallInit] at asks
          | tryInitThenReadGuard =>
              simp [Request.call, Call.how, shallInit] at asks
          | initThenWriteGuard =>
              exact ⟨_, .write, .either, .done, rfl,
                by simp [Access.enter, shallInit], keeps⟩
          | tryInitThenWriteGuard =>
              exact ⟨_, .write, .either, .done, rfl,
                by simp [Access.enter, shallInit], keeps⟩
  | finalizeCallback =>
      right
      left
      refine ⟨rfl, ?_, rfl⟩
      by_contra absent
      simp [Request.call, Call.how, finalizeHow, absent] at asks
  | lock lockNature hint => exact .inr (.inr ⟨by simp, rfl⟩)
  | tryLock lockNature hint => exact .inr (.inr ⟨by simp, rfl⟩)

/-- A read lock that was asked for is left to the caller. -/
theorem Request.receive_read
    (asks : (request.call tolerance).how phase = .read) :
    request ≠ .finalizeCallback ∧
      request.receive tolerance (some (.read ⟨phase⟩)) = .outside := by
  cases request with
  | access access =>
      cases shallInit : tolerance.shallInit phase <;> cases access <;>
        simp_all [Request.receive, Request.call, Call.how]
  | finalizeCallback =>
      cases initialized : phase.intersects .initialized <;>
        simp_all [Request.call, Call.how, finalizeHow]
  | lock lockNature hint => simp [Request.receive]
  | tryLock lockNature hint => simp [Request.receive]

/-- A call that returns none leaves the actor outside. -/
theorem Request.receive_none
    (asks : (request.call tolerance).MayReturnNone phase) :
    (request = .finalizeCallback → phase.intersects .initialized = false) ∧
      request.receive tolerance (some (.none phase)) = .outside := by
  cases request with
  | access access =>
      cases shallInit : tolerance.shallInit phase <;> cases access <;>
        simp_all [Request.receive, Request.call, Call.MayReturnNone]
  | finalizeCallback =>
      cases initialized : phase.intersects .initialized <;>
        simp_all [Request.receive, Request.call, Call.MayReturnNone,
          finalizeHow]
  | lock lockNature hint => simp [Request.receive]
  | tryLock lockNature hint => simp [Request.receive]

/-- A failed attempt leaves the actor outside. -/
theorem Request.receive_failed
    {how : Phase → LockNature}
    {hint : Phase}
    (tries : request.call tolerance = .tryLock how hint) :
    request ≠ .finalizeCallback ∧
      request.receive tolerance none = .outside := by
  cases request with
  | access access =>
      cases access <;> simp_all [Request.receive, Request.call]
  | finalizeCallback => cases tries
  | lock lockNature hint => cases tries
  | tryLock lockNature hint => simp [Request.receive]

end Requests

end StaticInit.Lazily
