import StaticInit.PhaseLocker.Natures
import StaticInit.PhaseLocker.Spinning.Exclusion
import StaticInit.PhaseLocker.Sync.Natures

namespace StaticInit.Spinning

/-!
# The spinning locker honours the natures that the closures ask for

A thread of the spinning locker gets its lock by an exchange that expects the
word on which it decided, so its places keep the decision on that word only.
-/

open Sync (Lock ReadLock Closures Call Result UserOp SpinWait Asks)
open LockWord (view)

section Honours

variable (call : Option Call) (shown : Phase → Prop)

/-- The thread is in a call that decides by this closure. -/
def Decides (how : Phase → LockNature) : Prop :=
  ∃ opened, call = some opened ∧ opened.how = how

/-- What the code at each place keeps of the words it has read. -/
def Pc.Honours : Pc → Prop
  | .optimistic opened => call = some opened
  | .tryWrite how cur =>
      Decides call how ∧ how (.fromBitsTruncate cur) = .write
  | .tryRead how cur =>
      Decides call how ∧ how (.fromBitsTruncate cur) = .read
  | .slowWrite how cur =>
      Decides call how ∧ how (.fromBitsTruncate cur) = .write
  | .slowRead how _ cur =>
      Decides call how ∧ how (.fromBitsTruncate cur) = .read
  | .slowReadLoad how _ => Decides call how
  | .slowLoad how => Decides call how
  | _ => True

/-- The place or the result that local code ends with, at the word it leaves. -/
def Next.Honours (word : U32) : Next → Prop
  | .goto pc => pc.Honours call
  | .ret result => result.Honours call shown word
  | .unreachable => True

end Honours

section LocalCode

variable {call : Option Call} {shown : Phase → Prop} {word cur : U32}
  {how : Phase → LockNature}

theorem Decides.asks
    {nature : LockNature}
    {phase : Phase}
    (decides : Decides call how)
    (asked : how phase = nature) :
    Asks call nature phase := by
  obtain ⟨opened, same, rfl⟩ := decides
  exact ⟨opened, same, asked⟩

theorem retNone_honours
    (decides : Decides call how)
    (now : shown (.fromBitsTruncate cur))
    (none : how (.fromBitsTruncate cur) = .none) :
    (Next.retNone (.fromBitsTruncate cur)).Honours call shown word := by
  obtain ⟨opened, same, rfl⟩ := decides
  exact ⟨opened, same, now, Call.mayReturnNone_of_how none⟩

theorem tryReadLoop_honours
    (decides : Decides call how)
    (read : how (.fromBitsTruncate cur) = .read) :
    (tryReadLoop how cur).Honours call shown word := by
  unfold tryReadLoop
  split
  case isTrue => exact ⟨decides, read⟩
  case isFalse => trivial

theorem tryReadFailed_honours
    (decides : Decides call how) :
    (tryReadFailed how cur).Honours call shown word := by
  unfold tryReadFailed
  split
  case isTrue read => exact tryReadLoop_honours decides read
  case isFalse => trivial

theorem trySecond_honours
    (decides : Decides call how)
    (now : shown (.fromBitsTruncate cur)) :
    (trySecond how cur).Honours call shown word := by
  unfold trySecond
  split
  case h_1 write =>
    split
    case isTrue => exact ⟨decides, write⟩
    case isFalse => trivial
  case h_2 read => exact tryReadLoop_honours decides read
  case h_3 none => exact retNone_honours decides now none

theorem slowReadLoop_honours
    {spinWait : SpinWait}
    (decides : Decides call how)
    (read : how (.fromBitsTruncate cur) = .read) :
    (slowReadLoop how spinWait cur).Honours call shown word := by
  unfold slowReadLoop
  split
  case isTrue => exact ⟨decides, read⟩
  case isFalse => exact decides

theorem slowReadLoaded_honours
    {spinWait : SpinWait}
    (decides : Decides call how) :
    (slowReadLoaded how spinWait cur).Honours call shown word := by
  unfold slowReadLoaded
  split
  case isTrue read => exact slowReadLoop_honours decides read
  case isFalse => exact decides

theorem slowLoop_honours
    (decides : Decides call how)
    (now : shown (.fromBitsTruncate cur)) :
    (slowLoop how cur).Honours call shown word := by
  unfold slowLoop
  split
  case h_1 write =>
    split
    case isTrue => exact ⟨decides, write⟩
    case isFalse => exact decides
  case h_2 read => exact slowReadLoop_honours decides read
  case h_3 none => exact retNone_honours decides now none

theorem second_honours
    {opened : Call}
    (same : call = some opened)
    (now : shown (.fromBitsTruncate cur)) :
    (second opened cur).Honours call shown word := by
  cases opened with
  | lock closures hint => exact slowLoop_honours ⟨_, same, rfl⟩ now
  | tryLock how hint => exact trySecond_honours ⟨_, same, rfl⟩ now

theorem optimisticNone_honours
    {opened : Call}
    (same : call = some opened)
    (now : shown (.fromBitsTruncate cur)) :
    (optimisticNone opened cur).Honours call shown word := by
  unfold optimisticNone
  split
  case isTrue none => exact retNone_honours ⟨opened, same, rfl⟩ now none
  case isFalse => exact second_honours same now

/-- A taken write lock leaves the phase on which the thread decided. -/
theorem retWrite_honours
    (asks : Asks call .write (.fromBitsTruncate cur)) :
    (Next.retWrite (.new cur)).Honours call shown (cur ||| lockedBit) := by
  change Asks call .write (.fromBitsTruncate (cur ||| lockedBit))
  rw [Sync.fromBitsTruncate_or_lockedBit]
  exact asks

/-- An added read lock leaves the phase on which the thread decided. -/
theorem retRead_honours
    (asks : Asks call .read (.fromBitsTruncate cur)) :
    (Next.retRead (.new cur)).Honours call shown (cur + readerUnity) := by
  change Asks call .read (.fromBitsTruncate (cur + readerUnity))
  rw [Sync.fromBitsTruncate_add_readerUnity]
  exact asks

/-- The two ends of an exchange. -/
theorem perform_exchange
    {weak spurious : Bool}
    {new after : U32}
    {ok next : Next}
    {err : U32 → Next}
    (taken : ok.Honours call shown new)
    (failed : (err word).Honours call shown word)
    (performs :
      (Instr.exchange weak cur new ok err).perform word spurious =
        some (after, next)) :
    next.Honours call shown after := by
  have performs := Option.some.inj performs
  split at performs
  case isTrue =>
    obtain ⟨rfl, rfl⟩ := Prod.mk.inj performs
    exact taken
  case isFalse =>
    obtain ⟨rfl, rfl⟩ := Prod.mk.inj performs
    exact failed

/-- The end of an instruction honours the closures if its place does. -/
theorem Pc.perform_honours
    {pc : Pc}
    {after : U32}
    {spurious : Bool}
    {next : Next}
    (now : shown (.fromBitsTruncate word))
    (honours : pc.Honours call)
    (performs : pc.instr.perform word spurious = some (after, next)) :
    next.Honours call shown after := by
  cases pc with
  | idle => cases performs
  | optimistic opened =>
      change (Spinning.optimistic opened).perform word spurious = _
        at performs
      unfold Spinning.optimistic at performs
      split at performs
      case h_1 =>
        obtain ⟨rfl, rfl⟩ := Prod.mk.inj (Option.some.inj performs)
        exact optimisticNone_honours honours now
      case h_2 write =>
        apply perform_exchange (retWrite_honours ⟨opened, honours, _⟩)
          (second_honours honours now) performs
        rw [Phase.fromBitsTruncate_bits]
        exact write
      case h_3 read =>
        apply perform_exchange (retRead_honours ⟨opened, honours, _⟩)
          (second_honours honours now) performs
        rw [Phase.fromBitsTruncate_bits]
        exact read
  | tryWrite how cur =>
      exact perform_exchange (retWrite_honours (honours.1.asks honours.2))
        (show Next.Honours call shown word (.ret (.locked none)) from trivial)
        performs
  | tryRead how cur =>
      exact perform_exchange (retRead_honours (honours.1.asks honours.2))
        (tryReadFailed_honours honours.1) performs
  | slowWrite how cur =>
      exact perform_exchange (retWrite_honours (honours.1.asks honours.2))
        (slowLoop_honours honours.1 now) performs
  | slowRead how spinWait cur =>
      exact perform_exchange (retRead_honours (honours.1.asks honours.2))
        (show (slowReadFailed how spinWait).Honours call shown word from
          honours.1)
        performs
  | slowReadLoad how spinWait =>
      obtain ⟨rfl, rfl⟩ := Prod.mk.inj (Option.some.inj performs)
      exact slowReadLoaded_honours honours
  | slowLoad how =>
      obtain ⟨rfl, rfl⟩ := Prod.mk.inj (Option.some.inj performs)
      exact slowLoop_honours honours now
  | dropLock lock =>
      exact perform_exchange
        (show Next.Honours call shown _ (.ret .dropped) from trivial)
        (show Next.Honours call shown word .unreachable from trivial)
        performs
  | convert lock cur =>
      obtain ⟨rfl, rfl⟩ := Prod.mk.inj (Option.some.inj performs)
      trivial
  | dropReadLock lock =>
      obtain ⟨rfl, rfl⟩ := Prod.mk.inj (Option.some.inj performs)
      trivial
  | cloneLoad guard =>
      obtain ⟨rfl, rfl⟩ := Prod.mk.inj (Option.some.inj performs)
      unfold cloneLoop
      split
      case isTrue => trivial
      case isFalse => trivial
  | cloneCas guard cur =>
      exact perform_exchange
        (show Next.Honours call shown _ (.ret (.cloned guard _)) from trivial)
        (show Next.Honours call shown word (.goto (.cloneLoad guard)) from
          trivial)
        performs

theorem Thread.start_honours
    {thread started : Thread}
    {op : UserOp}
    (starts : thread.start op = some started)
    (calls : ∀ opened, op.call = some opened → call = some opened) :
    started.pc.Honours call := by
  unfold Thread.start at starts
  split at starts
  case h_1 idle =>
    cases op with
    | lock closures hint =>
        obtain rfl := Option.some.inj starts
        exact calls _ rfl
    | tryLock how hint =>
        obtain rfl := Option.some.inj starts
        exact calls _ rfl
    | dropLock index =>
        obtain ⟨lock, found, rfl⟩ := Option.map_eq_some_iff.mp starts
        trivial
    | dropReadLock index =>
        obtain ⟨lock, found, rfl⟩ := Option.map_eq_some_iff.mp starts
        trivial
    | clone index =>
        obtain ⟨lock, found, rfl⟩ := Option.map_eq_some_iff.mp starts
        trivial
    | convert index =>
        obtain ⟨lock, found, rfl⟩ := Option.map_eq_some_iff.mp starts
        trivial
    | setPhase index phase =>
        obtain ⟨lock, found, rfl⟩ := Option.map_eq_some_iff.mp starts
        rw [idle]
        trivial
  case h_2 => cases starts

theorem Thread.continue_honours
    {thread continued : Thread}
    {next : Next}
    (continues : thread.continue next = .ok continued)
    (honours : next.Honours call shown word) :
    continued.pc.Honours call := by
  cases next with
  | goto pc =>
      obtain rfl := Except.ok.inj continues
      exact honours
  | ret result =>
      obtain rfl := Except.ok.inj continues
      trivial
  | unreachable => cases continues

end LocalCode

namespace State

variable {ι : Type} [DecidableEq ι]

/-- The call that an action starts in a thread. -/
def called (actor : ι) : Action ι → Option Call
  | .start starter op => if starter = actor then op.call else none
  | .run _ _ => none

/-- The result of `lock` or `try_lock` that an action returns. -/
def returned
    (state : State ι) :
    Action ι → Option (ι × LockResult ReadLock Lock)
  | .start _ _ => none
  | .run actor spurious =>
      match (state.thread actor).pc.instr.perform state.word spurious with
      | some (_, .ret (.locked (some result))) => some (actor, result)
      | _ => none

/-- The spinning locker, as its callers see it. -/
def system (ι : Type) [DecidableEq ι] :
    LockerSystem ι (State ι) (Action ι) where
  step := State.Step
  called := State.called
  returned := State.returned
  phase := State.phase

/-- A thread that starts a call has read nothing yet. -/
theorem opens_honours
    {state after : State ι}
    {action : Action ι}
    {actor : ι}
    {call : Call}
    (step : State.Step state action after)
    (called : State.called actor action = some call) :
    (after.thread actor).pc.Honours (some call) := by
  cases actorStep step with
  | start starts =>
      rw [State.called] at called
      split at called
      case isTrue same =>
        subst same
        rw [setThread_self]
        apply Thread.start_honours starts
        intro opened calls
        rw [← called, calls]
      case isFalse => cases called
  | instruction performs continues => cases called

/-- Every step keeps what the places of the other calls have decided. -/
theorem kept_honours
    {state after : State ι}
    {action : Action ι}
    {actor : ι}
    {call : Option Call}
    {shown : Phase → Prop}
    (step : State.Step state action after)
    (called : State.called actor action = none)
    (now : shown state.phase)
    (honours : (state.thread actor).pc.Honours call) :
    (after.thread actor).pc.Honours call := by
  cases actorStep step with
  | @start starter op thread starts =>
      by_cases moves : actor = starter
      · subst moves
        have called : op.call = none := (if_pos rfl).symm.trans called
        rw [setThread_self]
        apply Thread.start_honours starts
        intro opened calls
        rw [calls] at called
        cases called
      · rw [setThread_other _ _ moves]
        exact honours
  | @instruction runner spurious word next thread performs continues =>
      by_cases moves : actor = runner
      · subst moves
        rw [setThread_self]
        exact Thread.continue_honours continues
          (Pc.perform_honours now honours performs)
      · rw [setThread_other _ _ moves]
        exact honours

/-- A returned result agrees with the closures of the call. -/
theorem returns_honours
    {state after : State ι}
    {action : Action ι}
    {actor : ι}
    {call : Option Call}
    {shown : Phase → Prop}
    {result : LockResult ReadLock Lock}
    (step : State.Step state action after)
    (returned : state.returned action = some (actor, result))
    (now : shown state.phase)
    (honours : (state.thread actor).pc.Honours call) :
    ∃ opened,
      call = some opened ∧ opened.Agrees after.phase shown result := by
  cases actorStep step with
  | start starts => cases returned
  | instruction performs continues =>
      unfold State.returned at returned
      dsimp only at returned
      rw [performs] at returned
      split at returned
      case h_1 reached same =>
        obtain ⟨rfl, rfl⟩ := Prod.mk.inj (Option.some.inj returned)
        obtain ⟨-, rfl⟩ := Prod.mk.inj (Option.some.inj same)
        exact Pc.perform_honours now honours performs
      case h_2 => cases returned

/-- Each place of the spinning locker keeps what the closures said. -/
theorem keepsPlaces (phase : Phase) :
    (system ι).KeepsPlaces (State.init ι phase)
      (fun call _ state actor => (state.thread actor).pc.Honours call) where
  mono _ honours := honours
  fresh _ _ := trivial
  opens _ := opens_honours
  kept _ := kept_honours
  returns _ := returns_honours

end State

end StaticInit.Spinning
