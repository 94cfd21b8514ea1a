import Mathlib.Data.Fintype.Card
import StaticInit.GenericLazy.Accessors
import StaticInit.Stacks

namespace StaticInit.Cyclic

/-!
# Circular initialization

In `debug_mode` a sequentializer keeps the id of the thread that runs the
generator.  One thread is followed here: its call stack has a frame for each
generator that runs, and every generator makes a sequence of accesses that
may initialize other lazies, or the lazies below it on the stack.  A guard is
dropped as soon as its access is over.
-/

/-- The accessors that initialize and wait for the lock. -/
inductive InitAccessor where
  | get
  | deref
  | init
  | read
  | write
  | primedRead
  | primedWrite
  deriving Repr, DecidableEq

def InitAccessor.accessor : InitAccessor → Accessor
  | .get | .deref => .get
  | .init => .init
  | .read => .read
  | .write => .write
  | .primedRead => .primedRead
  | .primedWrite => .primedWrite

/-- An access in the code of a generator. -/
structure Call (ι : Type) where
  lazy : ι
  accessor : InitAccessor
  /-- Whether the code goes on after a panic of the access. -/
  caught : Bool

/-- What a generator does. -/
inductive Action (ι : Type) where
  | access (call : Call ι)
  | userPanic

/-- Lazies and their generators; each attempt may do something else. -/
structure Lazies (ι : Type) where
  type : ι → LazyType
  tolerance : ι → GeneratorTolerance
  generator : ι → Nat → List (Action ι)
  /-- How the registration for finalization ends, for each attempt. -/
  registration : ι → Nat → CallOutcome
  /-- The `StaticInfo` of a lazy, as it is printed. -/
  info : ι → Option String

/-- The payloads of panics. -/
inductive Payload where
  /-- `CyclicPanic`. -/
  | cyclic
  /-- The message of `may_debug`. -/
  | circular (message : String)
  /-- An `AccessError` that was unwrapped. -/
  | accessError (phase : Phase)
  | user
  | assertion (assertion : DebugAssertion)

/-- A generator that runs, and the access that runs it. -/
structure Frame (ι : Type) where
  call : Call ι
  onSuccess : Phase
  onPanic : Phase
  /-- What the caller does after the access. -/
  saved : List (Action ι)

inductive Status (ι : Type) where
  | running
  /-- An access of the code on top of the stack panics. -/
  | access (payload : Payload) (call : Call ι)
  /-- The code on top of the stack panics. -/
  | code (payload : Payload)
  /-- The thread waits for a lock that it holds itself. -/
  | waiting (lazy : ι)

structure Thread (ι : Type) where
  /-- The phase in the word of each lazy. -/
  shown : ι → Phase
  /-- Whether the word is write locked. -/
  locked : ι → Bool
  /-- Whether the id stored in the sequentializer is that of this thread. -/
  owner : ι → Bool
  attempts : ι → Nat
  /-- The generators that run, innermost first. -/
  frames : List (Frame ι)
  /-- What the code on top of the stack still does. -/
  rest : List (Action ι)
  status : Status ι

/-- How far an initialization goes before user code is run. -/
inductive Progress where
  | released (phase : Phase)
  /-- The generator is called; nothing follows it. -/
  | generating (onSuccess onPanic : Phase)
  /-- The registration panicked. -/
  | unwound (phase : Phase)
  | failed (phase : Phase) (assertion : DebugAssertion)

/-- Run a program under the write guard up to its call of the generator. -/
def advance
    (registration : CallOutcome) : GuardCode → Phase → Progress
  | .done, phase => .released phase
  | .setPhase phase next, _ => advance registration next phase
  | .transition .init onSuccess onPanic _, _ =>
      .generating onSuccess onPanic
  | .transition _ onSuccess onPanic next, _ =>
      match registration with
      | .returned value => advance registration (next value) onSuccess
      | .panicked => .unwound onPanic
  | .failed assertion, phase => .failed phase assertion

/-- The functions of the sequentializers that initialize. -/
inductive Opening where
  | init
  | initThenReadGuard
  | initThenWriteGuard
  deriving Repr, DecidableEq

/-- The function behind an accessor. -/
def opening (type : LazyType) : InitAccessor → Opening
  | .get | .deref => .init
  | .init =>
      match type with
      | .lazy | .lazyFinalize => .init
      | _ => .initThenWriteGuard
  | .read | .primedRead => .initThenReadGuard
  | .write | .primedWrite => .initThenWriteGuard

/-- Whether a phase that fails the check makes the accessor panic. -/
def unwraps : InitAccessor → Bool
  | .primedRead | .primedWrite => false
  | _ => true

/-- `may_debug`. -/
def mayDebug (info : Option String) : Payload → Payload
  | .cyclic =>
      match info with
      | some info => .circular ("Circular initialization of " ++ info)
      | none => .circular "Circular lazy initialization detected"
  | payload => payload

variable {ι : Type}

namespace Lazies

def shallInit (lazies : Lazies ι) (lazy : ι) (phase : Phase) : Bool :=
  ((lazies.type lazy).policy (lazies.tolerance lazy)).shallInit phase

def opening (lazies : Lazies ι) (call : Call ι) : Opening :=
  Cyclic.opening (lazies.type call.lazy) call.accessor

/-- The check after an access, once its guard is dropped. -/
def check
    (lazies : Lazies ι)
    (call : Call ι)
    (phase : Phase)
    (thread : Thread ι) : Thread ι :=
  match (lazies.type call.lazy).check (lazies.tolerance call.lazy)
      call.accessor.accessor phase with
  | .error phase =>
      if unwraps call.accessor then
        { thread with status := .access (.accessError phase) call }
      else
        { thread with status := .running }
  | _ => { thread with status := .running }

end Lazies

/-- `CyclicPanic` is raised. -/
def Thread.cyclicPanic (call : Call ι) (thread : Thread ι) : Thread ι :=
  { thread with status := .access .cyclic call }

section Machine

variable [DecidableEq ι]

/-- The write guard is dropped, then the `DebugGuard`. -/
def Thread.release
    (lazy : ι)
    (phase : Phase)
    (thread : Thread ι) : Thread ι :=
  { thread with
    shown := Function.update thread.shown lazy phase
    locked := Function.update thread.locked lazy false
    owner := Function.update thread.owner lazy false }

/-- The write lock is taken, and `debug_save_thread` stores the id. -/
def Thread.acquire (lazy : ι) (thread : Thread ι) : Thread ι :=
  { thread with
    locked := Function.update thread.locked lazy true
    owner := Function.update thread.owner lazy true
    attempts :=
      Function.update thread.attempts lazy (thread.attempts lazy + 1) }

namespace Lazies

/-- `lazy_initialization_only` or `lazy_initialization`, up to the generator. -/
def initialization
    (lazies : Lazies ι)
    (call : Call ι)
    (thread : Thread ι) : Thread ι :=
  let lazy := call.lazy
  let attempt := thread.attempts lazy
  let locked := thread.acquire lazy
  match advance (lazies.registration lazy attempt)
      ((lazies.type lazy).initialization (lazies.tolerance lazy)
        (thread.shown lazy))
      (thread.shown lazy) with
  | .released phase => lazies.check call phase (locked.release lazy phase)
  | .generating onSuccess onPanic =>
      { locked with
        frames := ⟨call, onSuccess, onPanic, thread.rest⟩ :: thread.frames
        rest := lazies.generator lazy attempt
        status := .running }
  | .unwound phase =>
      { locked.release lazy phase with status := .access .user call }
  | .failed phase assertion =>
      { locked.release lazy phase with
        status := .access (.assertion assertion) call }

/-- The lock nature asked for a write lock, after `debug_test`. -/
def testThenLock
    (lazies : Lazies ι)
    (call : Call ι)
    (thread : Thread ι) : Thread ι :=
  if thread.owner call.lazy then
    thread.cyclicPanic call
  else if thread.locked call.lazy then
    { thread with status := .waiting call.lazy }
  else
    lazies.initialization call thread

/-- An access up to its end, or up to the generator. -/
def access
    (lazies : Lazies ι)
    (call : Call ι)
    (thread : Thread ι) : Thread ι :=
  let shown := thread.shown call.lazy
  match lazies.opening call with
  | .init =>
      if lazies.shallInit call.lazy shown then
        lazies.testThenLock call thread
      else
        lazies.check call shown thread
  | .initThenReadGuard =>
      if lazies.shallInit call.lazy shown then
        lazies.testThenLock call thread
      else if thread.locked call.lazy then
        { thread with status := .waiting call.lazy }
      else
        lazies.check call shown thread
  | .initThenWriteGuard =>
      -- The write lock comes first, and `debug_test` only under it.
      if thread.locked call.lazy then
        { thread with status := .waiting call.lazy }
      else if lazies.shallInit call.lazy shown then
        if thread.owner call.lazy then
          thread.cyclicPanic call
        else
          lazies.initialization call thread
      else
        lazies.check call shown thread

/-- One step of the thread, unless it has ended or waits. -/
def step (lazies : Lazies ι) (thread : Thread ι) : Option (Thread ι) :=
  match thread.status, thread.rest, thread.frames with
  | .running, .access call :: rest, _ =>
      some (lazies.access call { thread with rest := rest })
  | .running, .userPanic :: _, _ =>
      some { thread with status := .code .user }
  | .running, [], frame :: frames =>
      some <|
        lazies.check frame.call frame.onSuccess
          { thread.release frame.call.lazy frame.onSuccess with
            frames := frames
            rest := frame.saved }
  | .running, [], [] => none
  | .access payload call, _, _ =>
      if call.caught then
        some { thread with status := .running }
      else
        some
          { thread with
            status := .code (mayDebug (lazies.info call.lazy) payload) }
  | .code payload, _, frame :: frames =>
      some
        { thread.release frame.call.lazy frame.onPanic with
          frames := frames
          rest := frame.saved
          status := .access payload frame.call }
  | .code _, _, [] => none
  | .waiting _, _, _ => none

/-- A thread that starts to run its code. -/
def start (main : List (Action ι)) : Thread ι where
  shown := fun _ => .empty
  locked := fun _ => false
  owner := fun _ => false
  attempts := fun _ => 0
  frames := []
  rest := main
  status := .running

/-- The states of a run. -/
def Reachable
    (lazies : Lazies ι)
    (main : List (Action ι))
    (thread : Thread ι) : Prop :=
  Reaches lazies.step (start main) thread

end Lazies

end Machine

/-- The generator of a lazy is on the call stack. -/
def Thread.runs (thread : Thread ι) (lazy : ι) : Prop :=
  lazy ∈ thread.frames.map fun frame => frame.call.lazy

/-- The next action is an access to a lazy whose generator runs. -/
def Thread.Meets (thread : Thread ι) (call : Call ι) : Prop :=
  thread.status = .running ∧
    (∃ rest, thread.rest = .access call :: rest) ∧ thread.runs call.lazy

/-- Circular initialization is detected in a run. -/
structure Detects [DecidableEq ι]
    (lazies : Lazies ι)
    (main : List (Action ι)) : Prop where
  /-- An access to a lazy whose generator runs ends with `CyclicPanic`. -/
  cyclic :
    ∀ thread, lazies.Reachable main thread →
      ∀ call, thread.Meets call →
        ∃ after,
          lazies.step thread = some after ∧
            after.status = .access .cyclic call
  /-- No access waits for a lock of its own thread. -/
  noWait :
    ∀ thread, lazies.Reachable main thread →
      ∀ lazy, thread.status ≠ .waiting lazy
  /-- The run ends. -/
  ends :
    ∃ final, lazies.Reachable main final ∧ lazies.step final = none

section Invariant

variable
  [DecidableEq ι] {lazies : Lazies ι} {thread after : Thread ι}
  {call : Call ι} {main : List (Action ι)}

/-- The locks and the ids tell which generators run. -/
structure Inv (lazies : Lazies ι) (thread : Thread ι) : Prop where
  distinct : (thread.frames.map fun frame => frame.call.lazy).Nodup
  running :
    ∀ lazy, thread.runs lazy →
      thread.owner lazy = true ∧
        lazies.shallInit lazy (thread.shown lazy) = true
  locked : ∀ lazy, thread.locked lazy = true ↔ thread.runs lazy
  idle : ∀ lazy, ¬ thread.runs lazy → thread.owner lazy = false

omit [DecidableEq ι] in
theorem Inv.start : Inv lazies (Lazies.start main) where
  distinct := .nil
  running := nofun
  locked := fun _ => ⟨nofun, nofun⟩
  idle := fun _ _ => rfl

omit [DecidableEq ι] in
/-- The check only decides how the access ends. -/
theorem check_eq (lazies : Lazies ι) (call : Call ι) (phase : Phase) :
    ∃ status : Status ι,
      (status = .running ∨ ∃ payload, status = .access payload call) ∧
        ∀ thread, lazies.check call phase thread =
          { thread with status := status } := by
  unfold Lazies.check
  split
  case h_1 refused _ =>
    cases unwraps call.accessor with
    | true => exact ⟨_, .inr ⟨_, rfl⟩, fun _ => rfl⟩
    | false => exact ⟨_, .inl rfl, fun _ => rfl⟩
  case h_2 => exact ⟨_, .inl rfl, fun _ => rfl⟩

/-- A lazy is locked for its initialization, and its generator is called. -/
theorem Inv.push
    {frame : Frame ι}
    {rest : List (Action ι)}
    {status : Status ι}
    (inv : Inv lazies thread)
    (idle : ¬ thread.runs frame.call.lazy)
    (due :
      lazies.shallInit frame.call.lazy (thread.shown frame.call.lazy) =
        true) :
    Inv lazies
      { thread.acquire frame.call.lazy with
        frames := frame :: thread.frames
        rest := rest
        status := status } := by
  refine ⟨List.nodup_cons.mpr ⟨idle, inv.distinct⟩, ?_, ?_, ?_⟩
  · intro lazy runs
    change Function.update thread.owner frame.call.lazy true lazy = true ∧ _
    by_cases same : lazy = frame.call.lazy
    · subst same
      exact ⟨Function.update_self .., due⟩
    · rw [Function.update_of_ne same]
      exact inv.running lazy (List.mem_of_ne_of_mem same runs)
  · intro lazy
    change Function.update thread.locked frame.call.lazy true lazy = true ↔
      lazy ∈ frame.call.lazy :: thread.frames.map fun frame => frame.call.lazy
    rw [List.mem_cons]
    by_cases same : lazy = frame.call.lazy
    · subst same
      rw [Function.update_self]
      exact ⟨fun _ => .inl rfl, fun _ => rfl⟩
    · rw [Function.update_of_ne same, or_iff_right same]
      exact inv.locked lazy
  · intro lazy other
    have apart := not_or.mp (mt List.mem_cons.mpr other)
    change Function.update thread.owner frame.call.lazy true lazy = false
    rw [Function.update_of_ne apart.1]
    exact inv.idle lazy apart.2

/-- The lock of one lazy is released, and the other lazies are as before. -/
theorem Inv.released
    {lazy : ι}
    {phase : Phase}
    {frames : List (Frame ι)}
    (inv : Inv lazies thread)
    (distinct : (frames.map fun frame => frame.call.lazy).Nodup)
    (others :
      ∀ other,
        other ∈ frames.map (fun frame => frame.call.lazy) ↔
          thread.runs other ∧ other ≠ lazy)
    (shown : after.shown = Function.update thread.shown lazy phase)
    (locked : after.locked = Function.update thread.locked lazy false)
    (owner : after.owner = Function.update thread.owner lazy false)
    (same : after.frames = frames) :
    Inv lazies after := by
  subst same
  refine ⟨distinct, ?_, ?_, ?_⟩
  · intro other runs
    obtain ⟨before, apart⟩ := (others other).mp runs
    rw [owner, shown, Function.update_of_ne apart, Function.update_of_ne apart]
    exact inv.running other before
  · intro other
    rw [locked, Thread.runs, others]
    by_cases released : other = lazy
    · subst released
      rw [Function.update_self]
      exact ⟨nofun, fun runs => absurd rfl runs.2⟩
    · rw [Function.update_of_ne released, and_iff_left released]
      exact inv.locked other
  · intro other idle
    rw [owner]
    by_cases released : other = lazy
    · subst released
      exact Function.update_self ..
    · rw [Function.update_of_ne released]
      refine inv.idle other fun runs => idle ?_
      exact (others other).mpr ⟨runs, released⟩

/-- The generator of the innermost frame is over. -/
theorem Inv.pop
    {frame : Frame ι}
    {frames : List (Frame ι)}
    {rest : List (Action ι)}
    {status : Status ι}
    (phase : Phase)
    (inv : Inv lazies thread)
    (top : thread.frames = frame :: frames) :
    Inv lazies
      { thread.release frame.call.lazy phase with
        frames := frames
        rest := rest
        status := status } := by
  have distinct := inv.distinct
  rw [top, List.map_cons, List.nodup_cons] at distinct
  refine inv.released distinct.2 ?_ rfl rfl rfl rfl
  intro other
  rw [Thread.runs, top, List.map_cons, List.mem_cons]
  constructor
  · intro inside
    refine ⟨.inr inside, ?_⟩
    rintro rfl
    exact distinct.1 inside
  · rintro ⟨first | inside, apart⟩
    · exact absurd first apart
    · exact inside

/-- A lazy is locked and released without a call of its generator. -/
theorem Inv.release
    {lazy : ι}
    {status : Status ι}
    (phase : Phase)
    (inv : Inv lazies thread)
    (idle : ¬ thread.runs lazy) :
    Inv lazies
      { (thread.acquire lazy).release lazy phase with status := status } := by
  have others :
      ∀ other,
        other ∈ thread.frames.map (fun frame => frame.call.lazy) ↔
          thread.runs other ∧ other ≠ lazy := by
    intro other
    refine ⟨fun runs => ⟨runs, ?_⟩, fun runs => runs.1⟩
    rintro rfl
    exact idle runs
  exact inv.released inv.distinct others rfl (Function.update_idem ..)
    (Function.update_idem ..) rfl

/-- What an access does to the thread. -/
inductive Opened
    (lazies : Lazies ι)
    (call : Call ι)
    (thread : Thread ι) : Thread ι → Prop where
  | ended
      {after : Thread ι}
      (inv : Inv lazies after)
      (frames : after.frames = thread.frames)
      (rest : after.rest = thread.rest)
      (status :
        after.status = .running ∨
          ∃ payload, after.status = .access payload call) :
      Opened lazies call thread after
  | waits
      (opening : lazies.opening call = .initThenWriteGuard)
      (runs : thread.runs call.lazy) :
      Opened lazies call thread
        { thread with status := .waiting call.lazy }
  | called
      {after : Thread ι}
      {frame : Frame ι}
      (inv : Inv lazies after)
      (frames : after.frames = frame :: thread.frames)
      (saved : frame.saved = thread.rest)
      (status : after.status = .running) :
      Opened lazies call thread after

omit [DecidableEq ι] in
/-- Only the status changes. -/
theorem Inv.withStatus
    (inv : Inv lazies thread)
    (status : Status ι) :
    Inv lazies { thread with status := status } :=
  ⟨inv.distinct, inv.running, inv.locked, inv.idle⟩

omit [DecidableEq ι] in
theorem Inv.opened_check
    (inv : Inv lazies thread)
    (call : Call ι)
    (phase : Phase) :
    Opened lazies call thread (lazies.check call phase thread) := by
  obtain ⟨status, ends, same⟩ := check_eq lazies call phase
  rw [same]
  exact .ended (inv.withStatus status) rfl rfl ends

/-- An initialization of a lazy whose generator does not run. -/
theorem Inv.opened_initialization
    (inv : Inv lazies thread)
    (idle : ¬ thread.runs call.lazy)
    (due : lazies.shallInit call.lazy (thread.shown call.lazy) = true) :
    Opened lazies call thread (lazies.initialization call thread) := by
  unfold Lazies.initialization
  dsimp only
  split
  case h_1 phase _ =>
    obtain ⟨status, ends, same⟩ := check_eq lazies call phase
    rw [same]
    exact .ended (inv.release phase idle) rfl rfl ends
  case h_2 onSuccess onPanic _ =>
    let frame : Frame ι := ⟨call, onSuccess, onPanic, thread.rest⟩
    have idle : ¬ thread.runs frame.call.lazy := idle
    exact .called (inv.push idle due) rfl rfl rfl
  case h_3 phase _ =>
    exact .ended (inv.release phase idle) rfl rfl (.inr ⟨_, rfl⟩)
  case h_4 phase assertion _ =>
    exact .ended (inv.release phase idle) rfl rfl (.inr ⟨_, rfl⟩)

/-- An access whose lock nature tests for a cycle. -/
theorem Inv.opened_testThenLock
    (inv : Inv lazies thread)
    (due : lazies.shallInit call.lazy (thread.shown call.lazy) = true) :
    Opened lazies call thread (lazies.testThenLock call thread) := by
  unfold Lazies.testThenLock
  by_cases runs : thread.runs call.lazy
  · rw [if_pos (inv.running _ runs).1]
    exact .ended (inv.withStatus _) rfl rfl (.inr ⟨_, rfl⟩)
  · have unlocked := mt (inv.locked call.lazy).mp runs
    rw [if_neg (Bool.eq_false_iff.mp (inv.idle _ runs)), if_neg unlocked]
    exact inv.opened_initialization runs due

/-- What an access does, in every reachable state. -/
theorem Inv.opened
    (inv : Inv lazies thread)
    (call : Call ι) :
    Opened lazies call thread (lazies.access call thread) := by
  unfold Lazies.access
  dsimp only
  split
  case h_1 =>
    split
    case isTrue due => exact inv.opened_testThenLock due
    case isFalse => exact inv.opened_check call _
  case h_2 =>
    split
    case isTrue due => exact inv.opened_testThenLock due
    case isFalse settled =>
      have idle : ¬ thread.runs call.lazy := fun runs =>
        settled (inv.running _ runs).2
      rw [if_neg (mt (inv.locked call.lazy).mp idle)]
      exact inv.opened_check call _
  case h_3 opening =>
    split
    case isTrue locked =>
      exact .waits opening ((inv.locked _).mp locked)
    case isFalse unlocked =>
      have idle := mt (inv.locked call.lazy).mpr unlocked
      split
      case isTrue due =>
        rw [if_neg (Bool.eq_false_iff.mp (inv.idle _ idle))]
        exact inv.opened_initialization idle due
      case isFalse => exact inv.opened_check call _

/-- Every step keeps the invariant. -/
theorem Inv.step
    (inv : Inv lazies thread)
    (steps : lazies.step thread = some after) :
    Inv lazies after := by
  unfold Lazies.step at steps
  split at steps
  case h_1 call rest _ _ =>
    obtain rfl := Option.some.inj steps
    have same : Inv lazies { thread with rest := rest } :=
      ⟨inv.distinct, inv.running, inv.locked, inv.idle⟩
    have opened := same.opened call
    generalize lazies.access call { thread with rest := rest } = after
      at opened
    cases opened with
    | ended inv => exact inv
    | waits => exact same.withStatus _
    | called inv => exact inv
  case h_2 =>
    obtain rfl := Option.some.inj steps
    exact inv.withStatus _
  case h_3 frame frames _ _ top =>
    obtain rfl := Option.some.inj steps
    obtain ⟨status, -, same⟩ := check_eq lazies frame.call frame.onSuccess
    rw [same]
    exact inv.pop frame.onSuccess top
  case h_4 => cases steps
  case h_5 =>
    split at steps
    case isTrue =>
      obtain rfl := Option.some.inj steps
      exact inv.withStatus _
    case isFalse =>
      obtain rfl := Option.some.inj steps
      exact inv.withStatus _
  case h_6 payload frame frames _ top =>
    obtain rfl := Option.some.inj steps
    exact inv.pop frame.onPanic top
  case h_7 => cases steps
  case h_8 => cases steps

theorem Inv.of_reachable
    (reachable : lazies.Reachable main thread) :
    Inv lazies thread :=
  reachable.invariant (fun _ _ inv steps => inv.step steps) .start

end Invariant

section Levels

/-- What the code on top of the stack may still do. -/
def Status.level (status : Status ι) (rest : Nat) : Nat :=
  match status with
  | .running => 2 * rest + 1
  | .access _ _ => 2 * rest + 2
  | .code _ => 0
  | .waiting _ => 0

/-- The stack of what is left to do, outermost first. -/
def levels (thread : Thread ι) : List Nat :=
  (thread.frames.map fun frame => 2 * frame.saved.length + 2).reverse ++
    [thread.status.level thread.rest.length]

variable
  [DecidableEq ι] {lazies : Lazies ι} {thread after : Thread ι}
  {call : Call ι} {main : List (Action ι)}

omit [DecidableEq ι] in
/-- A step of the code on top of the stack. -/
theorem lowers_of_frames
    (frames : after.frames = thread.frames)
    (lower :
      after.status.level after.rest.length <
        thread.status.level thread.rest.length) :
    Lowers (levels after) (levels thread) := by
  unfold levels
  rw [frames]
  exact (Lowers.counter lower [] []).append _

omit [DecidableEq ι] in
/-- A step that leaves a frame. -/
theorem lowers_of_pop
    {frame : Frame ι}
    {frames : List (Frame ι)}
    (top : thread.frames = frame :: frames)
    (left : after.frames = frames)
    (lower :
      after.status.level after.rest.length ≤ 2 * frame.saved.length + 2) :
    Lowers (levels after) (levels thread) := by
  unfold levels
  rw [top, left, List.map_cons, List.reverse_cons, List.append_assoc]
  exact (Lowers.returned lower _).append _

omit [DecidableEq ι] in
/-- A step that enters a frame. -/
theorem lowers_of_push
    {frame : Frame ι}
    (called : after.frames = frame :: thread.frames)
    (lower :
      2 * frame.saved.length + 2 < thread.status.level thread.rest.length) :
    Lowers (levels after) (levels thread) := by
  unfold levels
  rw [called, List.map_cons, List.reverse_cons, List.append_assoc]
  exact (Lowers.counter lower _ []).append _

omit [DecidableEq ι] in
theorem level_le
    {status : Status ι}
    (ends : status = .running ∨ ∃ payload, status = .access payload call)
    (rest : Nat) :
    status.level rest ≤ 2 * rest + 2 := by
  rcases ends with rfl | ⟨payload, rfl⟩
  · exact Nat.le_succ _
  · exact Nat.le_refl _

/-- Every step lowers what is left to do. -/
theorem Inv.lowers
    (inv : Inv lazies thread)
    (steps : lazies.step thread = some after) :
    Lowers (levels after) (levels thread) := by
  unfold Lazies.step at steps
  split at steps
  case h_1 call rest running made =>
    obtain rfl := Option.some.inj steps
    have same : Inv lazies { thread with rest := rest } :=
      ⟨inv.distinct, inv.running, inv.locked, inv.idle⟩
    have opened := same.opened call
    have before :
        thread.status.level thread.rest.length = 2 * (rest.length + 1) + 1 := by
      rw [running, made]
      rfl
    generalize lazies.access call { thread with rest := rest } = after
      at opened
    cases opened with
    | ended _ frames left ends =>
        have left : after.rest = rest := left
        have atMost := level_le ends rest.length
        refine lowers_of_frames frames ?_
        rw [before, left]
        omega
    | waits =>
        refine lowers_of_frames rfl ?_
        rw [before]
        exact Nat.succ_pos _
    | called _ frames saved =>
        refine lowers_of_push frames ?_
        rw [before, saved]
        dsimp only
        omega
  case h_2 rest running made =>
    obtain rfl := Option.some.inj steps
    refine lowers_of_frames rfl ?_
    rw [running]
    exact Nat.succ_pos _
  case h_3 frame frames _ _ top =>
    obtain rfl := Option.some.inj steps
    obtain ⟨status, ends, same⟩ := check_eq lazies frame.call frame.onSuccess
    rw [same]
    exact lowers_of_pop top rfl (level_le ends _)
  case h_4 => cases steps
  case h_5 payload call panics =>
    split at steps
    case isTrue =>
      obtain rfl := Option.some.inj steps
      refine lowers_of_frames rfl ?_
      rw [panics]
      exact Nat.lt_succ_self _
    case isFalse =>
      obtain rfl := Option.some.inj steps
      refine lowers_of_frames rfl ?_
      rw [panics]
      exact Nat.succ_pos _
  case h_6 payload frame frames _ top =>
    obtain rfl := Option.some.inj steps
    exact lowers_of_pop top rfl (Nat.le_refl _)
  case h_7 => cases steps
  case h_8 => cases steps

omit [DecidableEq ι] in
/-- The stack is no higher than there are lazies. -/
theorem Inv.bounded
    [Fintype ι]
    (inv : Inv lazies thread) :
    (levels thread).length ≤ Fintype.card ι + 1 := by
  have high := inv.distinct.length_le_card
  rw [List.length_map] at high
  rw [levels, List.length_append, List.length_reverse, List.length_map]
  exact Nat.succ_le_succ high

/-- Every run ends, or waits. -/
theorem run_stops
    [Fintype ι]
    (lazies : Lazies ι)
    (main : List (Action ι)) :
    ∃ final, lazies.Reachable main final ∧ lazies.step final = none := by
  have begins : Inv lazies (Lazies.start main) := .start
  exact ends_of_lowers (fun _ _ inv steps => inv.step steps)
    (fun _ inv => inv.bounded) (fun _ _ inv steps => inv.lowers steps) begins

end Levels

section Detection

variable
  [DecidableEq ι] {lazies : Lazies ι} {thread after : Thread ι}
  {call : Call ι} {main : List (Action ι)}

/-- An access to a lazy whose generator runs. -/
theorem Inv.access_running
    (inv : Inv lazies thread)
    (runs : thread.runs call.lazy) :
    lazies.access call thread =
      if lazies.opening call = .initThenWriteGuard then
        { thread with status := .waiting call.lazy }
      else
        thread.cyclicPanic call := by
  obtain ⟨owner, due⟩ := inv.running _ runs
  have locked := (inv.locked _).mpr runs
  unfold Lazies.access
  dsimp only
  cases opening : lazies.opening call with
  | init =>
      dsimp only
      rw [if_pos due, Lazies.testThenLock, if_pos owner]
      rfl
  | initThenReadGuard =>
      dsimp only
      rw [if_pos due, Lazies.testThenLock, if_pos owner]
      rfl
  | initThenWriteGuard =>
      dsimp only
      rw [if_pos locked]
      rfl

/-- The next step of a thread that meets a running generator. -/
theorem Inv.step_meets
    (inv : Inv lazies thread)
    (meets : thread.Meets call) :
    ∃ after,
      lazies.step thread = some after ∧
        after.status =
          if lazies.opening call = .initThenWriteGuard then
            .waiting call.lazy
          else
            .access .cyclic call := by
  obtain ⟨running, ⟨rest, made⟩, runs⟩ := meets
  have same : Inv lazies { thread with rest := rest } :=
    ⟨inv.distinct, inv.running, inv.locked, inv.idle⟩
  refine ⟨lazies.access call { thread with rest := rest }, ?_, ?_⟩
  · rw [Lazies.step, running, made]
  · have runs : Thread.runs { thread with rest := rest } call.lazy := runs
    rw [same.access_running runs]
    split
    case isTrue => rfl
    case isFalse => rfl

/-- Only an access that takes the write lock before it tests may wait. -/
theorem Inv.meets_of_waiting
    {lazy : ι}
    (inv : Inv lazies thread)
    (steps : lazies.step thread = some after)
    (waits : after.status = .waiting lazy) :
    ∃ call, thread.Meets call ∧
      lazies.opening call = .initThenWriteGuard := by
  unfold Lazies.step at steps
  split at steps
  case h_1 call rest running made =>
    obtain rfl := Option.some.inj steps
    have same : Inv lazies { thread with rest := rest } :=
      ⟨inv.distinct, inv.running, inv.locked, inv.idle⟩
    have opened := same.opened call
    generalize lazies.access call { thread with rest := rest } = after
      at opened waits
    cases opened with
    | ended _ _ _ ends =>
        rw [waits] at ends
        rcases ends with other | ⟨payload, other⟩
        · cases other
        · cases other
    | waits opening runs =>
        exact ⟨call, ⟨running, ⟨rest, made⟩, runs⟩, opening⟩
    | called _ _ _ other =>
        rw [waits] at other
        cases other
  case h_2 =>
    obtain rfl := Option.some.inj steps
    cases waits
  case h_3 frame frames _ _ _ =>
    obtain rfl := Option.some.inj steps
    obtain ⟨status, ends, same⟩ := check_eq lazies frame.call frame.onSuccess
    rw [same] at waits
    obtain rfl : status = .waiting lazy := waits
    rcases ends with other | ⟨payload, other⟩
    · cases other
    · cases other
  case h_4 => cases steps
  case h_5 =>
    split at steps
    case isTrue =>
      obtain rfl := Option.some.inj steps
      cases waits
    case isFalse =>
      obtain rfl := Option.some.inj steps
      cases waits
  case h_6 =>
    obtain rfl := Option.some.inj steps
    cases waits
  case h_7 => cases steps
  case h_8 => cases steps

/-- A thread waits only for a lock that it asks for before it tests. -/
theorem not_waiting
    (tested :
      ∀ thread, lazies.Reachable main thread →
        ∀ call, thread.Meets call →
          lazies.opening call ≠ .initThenWriteGuard)
    (reachable : lazies.Reachable main thread)
    (lazy : ι) :
    thread.status ≠ .waiting lazy := by
  intro waits
  rcases reachable.cases_tail with same | ⟨before, earlier, steps⟩
  · rw [same] at waits
    cases waits
  · obtain ⟨call, meets, asked⟩ :=
      (Inv.of_reachable earlier).meets_of_waiting steps waits
    exact tested before earlier call meets asked

/--
Circular initialization is detected exactly in the runs where no access that
takes the write lock before it tests reaches a lazy whose generator runs.
-/
theorem detects_iff
    [Fintype ι]
    (lazies : Lazies ι)
    (main : List (Action ι)) :
    Detects lazies main ↔
      ∀ thread, lazies.Reachable main thread →
        ∀ call, thread.Meets call →
          lazies.opening call ≠ .initThenWriteGuard := by
  constructor
  · intro detects thread reachable call meets asked
    obtain ⟨after, steps, status⟩ :=
      (Inv.of_reachable reachable).step_meets meets
    rw [if_pos asked] at status
    exact detects.noWait after (.tail reachable steps) _ status
  · intro tested
    refine ⟨?_, ?_, run_stops lazies main⟩
    · intro thread reachable call meets
      obtain ⟨after, steps, status⟩ :=
        (Inv.of_reachable reachable).step_meets meets
      rw [if_neg (tested thread reachable call meets)] at status
      exact ⟨after, steps, status⟩
    · intro thread reachable lazy
      exact not_waiting tested reachable lazy

/-- A locked lazy whose generator writes to it. -/
def selfWriting : Lazies Unit where
  type := fun _ => .lockedLazy
  tolerance := fun _ => ⟨true, false⟩
  generator := fun _ _ => [.access ⟨(), .write, false⟩]
  registration := fun _ _ => .returned true
  info := fun _ => none

/-- The thread waits for the lock under which it runs the generator. -/
theorem selfWriting_not_detected :
    LazyType.lockedLazy.offers .read = true ∧
      LazyType.lockedLazy.offers .write = true ∧
        ¬ Detects selfWriting [.access ⟨(), .read, false⟩] := by
  refine ⟨rfl, rfl, ?_⟩
  intro detects
  let generating := selfWriting.access ⟨(), .read, false⟩ (Lazies.start [])
  have called :
      selfWriting.step (Lazies.start [.access ⟨(), .read, false⟩]) =
        some generating :=
    rfl
  have waits : selfWriting.step generating = some _ := rfl
  exact detects.noWait _ (.tail (.tail .refl called) waits) () rfl

end Detection

end StaticInit.Cyclic
