import StaticInit.LazySequentializer.Lockers
import StaticInit.LazySequentializer.Registration
import StaticInit.LazySequentializer.Serial

namespace StaticInit.Lazily

/-!
# The accessors over the word of a locker

Down to the atomic instructions of a locker, threads that access a static do
what its accessors do one after the other: user code sees the same calls in
the same order, and where no thread is at work the word shows the same phase.
-/

open Accessor (Serial)

variable {ι : Type}

/-- The call of user code that starts now. -/
def Event.started : Event ι → Option UserCall
  | .call _ user => some user
  | _ => none

/-- The call of user code in which the holder is. -/
def Holder.running (holder : Holder ι) : Option UserCall :=
  match holder.code with
  | .transition call _ _ _ => if holder.calling then some call else none
  | _ => none

/-- A call that has ended did not panic. -/
def EndedCall.isReturned (ended : EndedCall) : Bool :=
  ended.2 ≠ .panicked

section Calls

variable {tolerance : GeneratorTolerance} {past : Summary}
  {holder : Holder ι} {state after : State ι} {event : Event ι}

theorem Holder.running_idle
    (idle : holder.calling = false) :
    holder.running = none := by
  unfold running
  split
  case h_1 => simp [idle]
  case h_2 => rfl

theorem Holder.running_eq
    {call : UserCall}
    {onSuccess onPanic : Phase}
    {next : Bool → GuardCode}
    (calling : holder.calling = true)
    (code : holder.code = .transition call onSuccess onPanic next) :
    holder.running = some call := by
  simp [running, code, calling]

/-- The call of user code in which a thread is. -/
def State.running (state : State ι) : List UserCall :=
  (state.holder.bind Holder.running).toList

theorem State.running_free
    (unheld : state.holder = none) :
    state.running = [] := by
  simp [running, unheld]

theorem State.running_held
    (held : state.holder = some holder) :
    state.running = holder.running.toList := by
  simp [running, held]

/-- A call starts when no other one runs, and it ends before the next. -/
theorem State.running_step
    (inv : State.Inv tolerance past state)
    (effect : State.Effect tolerance state event after) :
    state.running ++ event.started.toList =
      (event.ended.map Prod.fst).toList ++ after.running := by
  cases effect with
  | acquire actor access task code free =>
      rw [running_free free, running_held rfl, Holder.running_idle rfl]
      rfl
  | resume actor waiting free =>
      rw [running_free free]
      unfold State.resume
      split
      case isTrue =>
        rw [running_held rfl, Holder.running_idle rfl]
        rfl
      case isFalse => simp [running, free, Event.started, Event.ended]
  | call user holder next found starts =>
      obtain ⟨idle, onSuccess, onPanic, next, code, rfl⟩ :=
        Holder.start_eq starts
      have calls :
          Holder.running { holder with guard := onPanic, calling := true } =
            some user :=
        Holder.running_eq rfl code
      rw [running_held found, Holder.running_idle idle, running_held rfl,
        calls]
      rfl
  | returned user value holder next found finishes =>
      obtain ⟨calling, _, _, _, code, rfl⟩ := Holder.finish_eq finishes
      rw [running_held found, Holder.running_eq calling code,
        running_held rfl, Holder.running_idle rfl]
      rfl
  | setPhase holder next found sets =>
      obtain ⟨idle, -⟩ := (inv.held holder found).idle_of_setPhase sets
      obtain ⟨phase, next, -, rfl⟩ := Holder.setPhase_eq sets
      have moved :
          Holder.running { holder with guard := phase, code := next } = none :=
        Holder.running_idle idle
      rw [running_held found, Holder.running_idle idle, running_held rfl,
        moved]
      rfl
  | panicked user holder found running =>
      obtain ⟨calling, _, _, _, code⟩ := Holder.isCalling_eq running
      rw [running_held found, Holder.running_eq calling code,
        running_free rfl]
      rfl
  | release holder found finished =>
      have code := Holder.isDone_eq finished
      have none : holder.running = none := by simp [Holder.running, code]
      rw [running_held found, none, running_free rfl]
      rfl
  | failed assertion holder found fails =>
      exact absurd fails (inv.held holder found).no_failure
  | reach listed pending =>
      rw [State.reach_eq]
      exact (List.append_nil _).trans (List.nil_append _).symm

/-- The calls of a run start in the order in which they end. -/
theorem State.started_of_run
    [DecidableEq ι]
    {events : List (Event ι)}
    (run : Run (State.Step tolerance) (State.fresh ι) events state) :
    events.filterMap Event.started =
      (events.filterMap Event.ended).map Prod.fst ++ state.running := by
  induction run with
  | refl => rfl
  | @snoc events before after event earlier last inductionHypothesis =>
      have moves :=
        running_step (Inv.of_run earlier) (effect_of_step last)
      rw [List.filterMap_append, List.filterMap_append, inductionHypothesis,
        List.map_append, List.append_assoc, List.append_assoc]
      congr 1
      cases event with
      | call => exact moves
      | returned => exact moves
      | panicked => exact moves
      | _ => exact moves

/-- Calls that have not panicked end as user code sees it. -/
theorem filterMap_ended_visible (events : List (Event ι)) :
    (events.filterMap Event.visible).filterMap Event.ended =
      (events.filterMap Event.ended).filter EndedCall.isReturned := by
  rw [List.filterMap_filterMap, List.filter_filterMap]
  congr 1
  funext event
  cases event with
  | _ => rfl

theorem filterMap_started_visible (events : List (Event ι)) :
    (events.filterMap Event.visible).filterMap Event.started =
      events.filterMap Event.started := by
  rw [List.filterMap_filterMap]
  congr 1
  funext event
  cases event with
  | _ => rfl

end Calls

/-- What user code and the word show is what accessors do one after the other. -/
structure TakesTurns
    (tolerance : GeneratorTolerance)
    (type : LazyType)
    (trace : List (Event ι))
    (client : Client ι)
    (phase : Phase)
    (history : List Accessor.Event)
    (ended : List EndedCall)
    (static : Static) : Prop where
  serial : Serial tolerance type history ended static
  finalization : history.countP Accessor.Event.isFinalize ≤ 1
  phase : static.phase = phase
  listed : static.listed = client.listed
  generated : static.generated = true ↔ (summary trace).completions = 1
  started : trace.filterMap Event.started = ended.map Prod.fst
  returned :
    trace.filterMap Event.ended = ended.filter EndedCall.isReturned

section Lockers

variable [DecidableEq ι] {tolerance : GeneratorTolerance} {type : LazyType}
  {client : Client ι} {trace : List (Event ι)}

/-- Actors that are all outside hold no lock. -/
theorem Follows.free_of_outside
    {atomic : Atomic.State ι}
    {state : State ι}
    (follows : Follows tolerance (client, atomic) state)
    (outside : ∀ actor, client.place actor = .outside) :
    state.holder = none := by
  by_contra found
  obtain ⟨holder, held⟩ := Option.ne_none_iff_exists'.mp found
  obtain ⟨-, -, free⟩ := follows.fits (outside holder.actor)
  rw [State.heldBy_of_holder held, if_pos rfl] at free
  cases free

/-- The actors at the atomic locker take turns. -/
theorem takesTurns_of_atomic
    {atomic : Atomic.State ι}
    (exits : type.sequentializer = .exit)
    (exec :
      Exec (Composed (Client.Step tolerance) Atomic.State.Step)
        (Client.fresh ι, Atomic.State.init ι .empty) trace (client, atomic))
    (outside : ∀ actor, client.place actor = .outside) :
    ∃ history ended static,
      TakesTurns tolerance type trace client atomic.phase history ended
        static := by
  obtain ⟨state, answers, follows⟩ :=
    (Follows.simulates tolerance).exec (Follows.fresh tolerance) exec
  obtain ⟨events, run, rfl⟩ := answers.exists_run
  have unheld := follows.free_of_outside outside
  have inv := State.Inv.of_run run
  cases Serializes.of_run exits run with
  | held held => cases unheld.symm.trans held
  | free _ logged phase shows =>
      refine ⟨_, _, _, logged.serial, logged.once, phase.trans follows.phase,
        shows.listed.trans follows.listed, ?_, ?_,
        filterMap_ended_visible events⟩
      · have sound := Accessor.sound_of_run logged.serial.run
        rw [summary_filterMap, sound.generated, phase,
          (inv.unheld unheld).completed]
        simp
      · rw [filterMap_started_visible, State.started_of_run run,
          State.running_free unheld, List.append_nil]

variable [Fintype ι]

/--
Over the futex locker and over the spinning locker, in any interleaving of
their instructions: where all actors are outside, accesses and one exit
callback one after the other lead to what the word and the register show, and
user code has seen the calls that they make.
-/
theorem takesTurns_of_exec
    (exits : type.sequentializer = .exit) :
    (∀ (backend : Sync.Backend) (trace : List (Event ι)) (client : Client ι)
        (state : Sync.State ι),
      Exec (Composed (Client.Step tolerance) (Sync.State.Visible backend))
          (Client.fresh ι, Sync.State.init ι .empty) trace (client, state) →
        (∀ actor, client.place actor = .outside) →
          ∃ history ended static,
            TakesTurns tolerance type trace client state.phase history ended
              static) ∧
      ∀ (trace : List (Event ι)) (client : Client ι)
        (state : Spinning.State ι),
        Exec (Composed (Client.Step tolerance) Spinning.State.Visible)
            (Client.fresh ι, Spinning.State.init ι .empty) trace
            (client, state) →
          (∀ actor, client.place actor = .outside) →
            ∃ history ended static,
              TakesTurns tolerance type trace client state.phase history
                ended static := by
  constructor
  · intro backend trace client state exec outside
    obtain ⟨⟨user, atomic⟩, answers, rfl, refines⟩ :=
      (Sync.State.simulates backend).composed.exec
        (.of_related _ (Sync.State.Refines.init .empty)) exec
    rw [← refines.phase]
    exact takesTurns_of_atomic exits answers outside
  · intro trace client state exec outside
    obtain ⟨⟨user, atomic⟩, answers, rfl, refines⟩ :=
      Spinning.State.simulates.composed.exec
        (.of_related _ (Spinning.State.Refines.init .empty)) exec
    rw [← refines.phase]
    exact takesTurns_of_atomic exits answers outside

/-- A first access by `init`, over the futex locker. -/
theorem takesTurns_of_exec_init :
    let trace : List (Event (Fin 2)) :=
      [.call 0 .reg, .returned 0 .reg true, .call 0 .init,
        .returned 0 .init true]
    ∃ client state,
      Exec (Composed (Client.Step ⟨true, false⟩) (Sync.State.Visible .linux))
          (Client.fresh (Fin 2), Sync.State.init (Fin 2) .empty) trace
          (client, state) ∧
        ∃ history ended static,
          TakesTurns ⟨true, false⟩ .lockedLazyFinalize trace client
            state.phase history ended static := by
  intro trace
  obtain ⟨final, exec, outside⟩ := exists_exec_init
  exact ⟨_, _, exec, (takesTurns_of_exec rfl).1 _ _ _ _ exec outside⟩

end Lockers

end StaticInit.Lazily
