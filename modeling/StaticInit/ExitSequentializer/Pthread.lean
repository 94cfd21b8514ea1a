import StaticInit.Batches
import Mathlib.Data.Fintype.Option

namespace StaticInit.Pthread

/-!
# Thread exit with a `pthread` key

A static that registers makes the value of the key not null, so that the system
calls `execute_destroy` when the thread exits: in at most four rounds, in each
of which the keys have their turn in any order.  `ITERATION_COUNT` counts how
often the value was set.  The main thread has no rounds; there `execute_destroy`
is called once, among the program destructors.
-/

/-- `_POSIX_THREAD_DESTRUCTOR_ITERATIONS`. -/
def destructorIterations : Nat := 4

/-- A key with a destructor: no value is the key of `execute_destroy`. -/
abbrev Key (κ : Type) := Option κ

/-- How far the exit of the thread is. -/
inductive Progress (κ : Type) where
  | alive
  /-- In a round, in which some keys have had their turn. -/
  | round (number : Nat) (visited : Key κ → Bool)
  | ended

/-- What the thread is doing. -/
inductive Stage (ν : Type) where
  /-- Its own code, or between two destructors of a round. -/
  | outside
  /-- Inside the destructor of another key. -/
  | other
  /-- At the head of the loop of `execute_destroy`, with its `opt_head`. -/
  | loop (opt_head : Option ν)
  /-- Inside the call of `execute`. -/
  | executing (r : ν)
  /-- In the closure of `or_else`. -/
  | orElse
  deriving DecidableEq

/-- A thread; the statics are nodes, each keeps its `next` link itself. -/
structure State (ν κ : Type) where
  isMain : Bool
  /-- `DESTRUCTOR_KEY` holds a key. -/
  keyed : Bool
  /-- The value of that key is not null. -/
  specific : Bool
  iterationCount : Nat
  register : Option ν
  next : ν → Option ν
  /-- Which other keys have a value that is not null. -/
  others : κ → Bool
  /-- `force_main_thread_destructor` was called. -/
  forced : Bool
  progress : Progress κ
  stage : Stage ν

/-- A thread that has just started; the key may exist already. -/
def State.fresh (ν κ : Type) (isMain keyed : Bool) : State ν κ where
  isMain := isMain
  keyed := keyed
  specific := false
  iterationCount := 0
  register := none
  next := fun _ => none
  others := fun _ => false
  forced := false
  progress := .alive
  stage := .outside

/-- What happens: other code makes a call, or the thread exits step by step. -/
inductive Event (ν κ : Type) where
  /--
  `creates`: `get_key` finds or creates the key; `sets`: `pthread_setspecific`
  returns zero.
  -/
  | finalizeAtThreadExit (node : ν) (creates sets accepted : Bool)
  /-- Other code sets the value of its key. -/
  | setOther (key : κ) (value : Bool)
  | exit
  | forceMainThreadDestructor
  /-- The turn of a key in a round. -/
  | visit (key : Key κ)
  /-- The destructor of another key returns. -/
  | returned
  | nextRound
  | finish
  | execute (node : ν)
  | takeNext
  | orElse
  | destroyed
  deriving DecidableEq

/-- Code that may make calls is running. -/
def State.runsCode {ν κ : Type} (state : State ν κ) : Bool :=
  match state.stage, state.progress with
  | .outside, .alive => true
  | .other, _ => true
  | .executing _, _ => true
  | _, _ => false

/-- `execute_destroy` is running. -/
def Stage.walks {ν : Type} : Stage ν → Bool
  | .loop _ => true
  | .executing _ => true
  | .orElse => true
  | _ => false

section Steps

variable {ν κ : Type} [DecidableEq ν] [DecidableEq κ]

/-- `get_key`: a key that is stored stays; no value if none can be created. -/
def State.getKey
    (state : State ν κ)
    (creates : Bool) : State ν κ × Bool :=
  if state.keyed then
    (state, true)
  else
    ({ state with keyed := creates }, creates)

/-- The static pushes itself on the register. -/
def State.push (state : State ν κ) (st : ν) : State ν κ :=
  { state with
    next := Function.update state.next st state.register
    register := some st }

/-- `register_on_thread_exit`. -/
def State.registerOnThreadExit
    (state : State ν κ)
    (st : ν)
    (sets : Bool) : State ν κ × Bool :=
  if state.specific then
    (state.push st, true)
  else if state.iterationCount < destructorIterations then
    if sets then
      ({ state with
          specific := true
          iterationCount := state.iterationCount + 1 }.push st,
        true)
    else
      (state, false)
  else
    (state, false)

/-- `finalize_at_thread_exit`. -/
def State.finalizeAtThreadExit
    (state : State ν κ)
    (st : ν)
    (creates sets : Bool) : State ν κ × Bool :=
  match state.getKey creates with
  | (state, true) => state.registerOnThreadExit st sets
  | (state, false) => (state, false)

/-- The call of `execute_destroy`. -/
def State.executeDestroy (state : State ν κ) : State ν κ :=
  { state with register := none, stage := .loop state.register }

/-- The next step of `execute_destroy`. -/
def State.advance (state : State ν κ) : Option (State ν κ × Event ν κ) :=
  match state.stage with
  | .loop (some r) => some ({ state with stage := .executing r }, .execute r)
  | .loop none => some ({ state with stage := .outside }, .destroyed)
  | .executing r =>
      match state.next r with
      | some next =>
          some
            ({ state with
                next := Function.update state.next r none
                stage := .loop (some next) },
              .takeNext)
      | none => some ({ state with stage := .orElse }, .takeNext)
  | .orElse =>
      some
        ({ state with register := none, stage := .loop state.register },
          .orElse)
  | _ => none

/-- The system gives a key its turn: a value is set to null for its destructor. -/
def State.visit (state : State ν κ) (key : Key κ) : State ν κ :=
  match key with
  | none =>
      if state.specific then
        { state with specific := false }.executeDestroy
      else
        state
  | some other =>
      if state.others other then
        { state with
          others := Function.update state.others other false
          stage := .other }
      else
        state

variable [Fintype κ]

/-- Some value is not null. -/
def State.pending (state : State ν κ) : Bool :=
  state.specific || decide (∃ key, state.others key = true)

/-- One step, labelled by what happens. -/
inductive Step : State ν κ → Event ν κ → State ν κ → Prop where
  | finalizeAtThreadExit
      {state : State ν κ}
      (node : ν)
      (creates sets : Bool)
      (runs : state.runsCode = true) :
      Step state
        (.finalizeAtThreadExit node creates sets
          (state.finalizeAtThreadExit node creates sets).2)
        (state.finalizeAtThreadExit node creates sets).1
  | setOther
      {state : State ν κ}
      (key : κ)
      (value : Bool)
      (runs : state.runsCode = true) :
      Step state (.setOther key value)
        { state with others := Function.update state.others key value }
  | exit
      {state : State ν κ}
      (outside : state.stage = .outside)
      (alive : state.progress = .alive)
      (thread : state.isMain = false) :
      Step state .exit { state with progress := .round 1 fun _ => false }
  | forceMainThreadDestructor
      {state : State ν κ}
      (outside : state.stage = .outside)
      (alive : state.progress = .alive)
      (main : state.isMain = true)
      (once : state.forced = false) :
      Step state .forceMainThreadDestructor
        { state with forced := true }.executeDestroy
  | visit
      {state : State ν κ}
      {number : Nat}
      {visited : Key κ → Bool}
      (key : Key κ)
      (outside : state.stage = .outside)
      (inRound : state.progress = .round number visited)
      (turn : visited key = false) :
      Step state (.visit key)
        ({ state with
            progress := .round number (Function.update visited key true) }.visit
          key)
  | returned
      {state : State ν κ}
      (other : state.stage = .other) :
      Step state .returned { state with stage := .outside }
  | nextRound
      {state : State ν κ}
      {number : Nat}
      {visited : Key κ → Bool}
      (outside : state.stage = .outside)
      (inRound : state.progress = .round number visited)
      (all : ∀ key, visited key = true)
      (pending : state.pending = true)
      (more : number < destructorIterations) :
      Step state .nextRound
        { state with progress := .round (number + 1) fun _ => false }
  | finishRounds
      {state : State ν κ}
      {number : Nat}
      {visited : Key κ → Bool}
      (outside : state.stage = .outside)
      (inRound : state.progress = .round number visited)
      (all : ∀ key, visited key = true)
      (finished : state.pending = false ∨ destructorIterations ≤ number) :
      Step state .finish { state with progress := .ended }
  | finishMain
      {state : State ν κ}
      (outside : state.stage = .outside)
      (alive : state.progress = .alive)
      (forced : state.forced = true) :
      Step state .finish { state with progress := .ended }
  | advance
      {state after : State ν κ}
      {event : Event ν κ}
      (advances : state.advance = some (after, event)) :
      Step state event after

end Steps

/-- The thread has ended. -/
def State.ended {ν κ : Type} (state : State ν κ) : Prop :=
  state.progress = .ended

/-- `execute_destroy` will not be called any more, and is not running. -/
def State.Past {ν κ : Type} (state : State ν κ) : Prop :=
  state.stage.walks = false ∧
    match state.progress with
    | .alive => state.forced = true
    | .round number visited =>
        destructorIterations ≤ number ∧ visited none = true
    | .ended => True

/-- `finalize_at_thread_exit` returns true. -/
def State.Accepts
    {ν κ : Type}
    (state : State ν κ)
    (creates sets : Bool) : Prop :=
  (state.keyed = true ∨ creates = true) ∧
    (state.specific = true ∨
      state.iterationCount < destructorIterations ∧ sets = true)

/-- A call now comes too late for `execute_destroy`, and is not refused. -/
def State.TooLate
    {ν κ : Type}
    (state : State ν κ)
    (creates sets : Bool) : Prop :=
  state.Past ∧ state.Accepts creates sets

section Histories

variable {ν κ : Type}

/-- What an event does to the register. -/
def Event.effect : Event ν κ → Effect ν
  | .finalizeAtThreadExit node _ _ accepted => .called node accepted
  | .forceMainThreadDestructor => .detached
  | .visit none => .detached
  | .execute node => .executed node
  | .orElse => .detached
  | _ => .silent

/-- A step of the exit, and no step of the code that runs meanwhile. -/
def Event.isExit : Event ν κ → Bool
  | .finalizeAtThreadExit _ _ _ _ => false
  | .setOther _ _ => false
  | _ => true

/-- The statics for which `finalize_at_thread_exit` was called. -/
def calledNodes (events : List (Event ν κ)) : List ν :=
  Effect.calledNodes (events.map Event.effect)

/-- The statics for which `finalize_at_thread_exit` returned true. -/
def acceptedNodes (events : List (Event ν κ)) : List ν :=
  Effect.acceptedNodes (events.map Event.effect)

/-- The executed statics. -/
def executedNodes (events : List (Event ν κ)) : List ν :=
  Effect.executedNodes (events.map Event.effect)

/-- How many steps the exit has made. -/
def exitSteps (events : List (Event ν κ)) : Nat :=
  events.countP Event.isExit

end Histories

/-- How many steps a round takes at most, but for the statics. -/
def roundSteps (κ : Type) [Fintype κ] : Nat :=
  2 * Fintype.card (Key κ) + 1

/-- How many steps the exit takes at most, but for the statics. -/
def exitBound (κ : Type) [Fintype κ] : Nat :=
  destructorIterations * roundSteps κ + 1

section Correctness

variable {ν κ : Type} [DecidableEq ν] [DecidableEq κ] [Fintype κ]

/-- A call registers a static when `execute_destroy` is over. -/
def Late
    (initial : State ν κ)
    (events : List (Event ν κ))
    (node : ν) : Prop :=
  ∃ earlier creates sets accepted before,
    earlier ++ [.finalizeAtThreadExit node creates sets accepted] <+: events ∧
      Run Step initial earlier before ∧ before.TooLate creates sets

/-- What the thread-exit list promises at some point of a history. -/
structure Correct
    (events : List (Event ν κ))
    (state : State ν κ) : Prop where
  once : (executedNodes events).Nodup
  onlyAccepted : ∀ node ∈ executedNodes events, node ∈ acceptedNodes events
  /-- However the history goes on, all statics are executed when the thread ends. -/
  executes :
    ∀ later final,
      Run Step state later final →
        (calledNodes (events ++ later)).Nodup →
          final.ended →
            ∀ node ∈ acceptedNodes events,
              node ∈ executedNodes (events ++ later)
  proceeds :
    ¬ state.ended → ∃ event after, event.isExit = true ∧ Step state event after
  terminates :
    exitSteps events ≤ exitBound κ + 3 * (acceptedNodes events).length

end Correctness

section Events

variable
  {ν κ : Type} [DecidableEq ν] {state after : State ν κ} {event : Event ν κ}

/-- `execute_destroy` makes steps that are its own. -/
theorem advance_event
    (advances : state.advance = some (after, event)) :
    (∃ node, event = .execute node) ∨ event = .takeNext ∨ event = .orElse ∨
      event = .destroyed := by
  unfold State.advance at advances
  split at advances
  case h_1 r _ =>
    cases advances
    exact .inl ⟨r, rfl⟩
  case h_2 =>
    cases advances
    exact .inr (.inr (.inr rfl))
  case h_3 =>
    split at advances
    all_goals
      cases advances
      exact .inr (.inl rfl)
  case h_4 =>
    cases advances
    exact .inr (.inr (.inl rfl))
  case h_5 => cases advances

/-- While `execute_destroy` runs it can go on. -/
theorem advance_of_walks
    (walks : state.stage.walks = true) :
    ∃ after event, state.advance = some (after, event) := by
  unfold State.advance
  cases place : state.stage with
  | outside =>
      rw [place] at walks
      cases walks
  | other =>
      rw [place] at walks
      cases walks
  | loop opt_head =>
      cases opt_head with
      | none => exact ⟨_, _, rfl⟩
      | some r => exact ⟨_, _, rfl⟩
  | executing r =>
      dsimp only
      split
      all_goals exact ⟨_, _, rfl⟩
  | orElse => exact ⟨_, _, rfl⟩

/-- What a call does, when it is accepted and when it is refused. -/
theorem finalizeAtThreadExit_cases
    (state : State ν κ)
    (st : ν)
    (creates sets : Bool) :
    (state.Accepts creates sets ∧
        ∃ keyed count,
          state.finalizeAtThreadExit st creates sets =
            ({ state with
                keyed := keyed
                specific := true
                iterationCount := count
                next := Function.update state.next st state.register
                register := some st },
              true)) ∨
      (¬ state.Accepts creates sets ∧
        ∃ keyed,
          state.finalizeAtThreadExit st creates sets =
            ({ state with keyed := keyed }, false)) := by
  have registers :
      ∀ keyed : Bool, state.keyed = true ∨ creates = true →
        ((state.Accepts creates sets ∧
          ∃ count,
            State.registerOnThreadExit { state with keyed := keyed } st sets =
              ({ state with
                  keyed := keyed
                  specific := true
                  iterationCount := count
                  next := Function.update state.next st state.register
                  register := some st },
                true)) ∨
        (¬ state.Accepts creates sets ∧
          State.registerOnThreadExit { state with keyed := keyed } st sets =
            ({ state with keyed := keyed }, false))) := by
    intro keyed available
    unfold State.registerOnThreadExit State.Accepts
    dsimp only
    cases specific : state.specific with
    | true =>
        rw [if_pos rfl]
        refine .inl ⟨⟨available, .inl rfl⟩, state.iterationCount, ?_⟩
        rw [State.push, ← specific]
    | false =>
        rw [if_neg Bool.false_ne_true]
        split
        case isTrue below =>
          split
          case isTrue sets =>
            exact .inl ⟨⟨available, .inr ⟨below, sets⟩⟩, _, rfl⟩
          case isFalse unset =>
            refine .inr ⟨?_, by rw [← specific]⟩
            rintro ⟨-, (specific | ⟨-, sets⟩)⟩
            · cases specific
            · exact unset sets
        case isFalse above =>
          refine .inr ⟨?_, by rw [← specific]⟩
          rintro ⟨-, (specific | ⟨below, -⟩)⟩
          · cases specific
          · exact above below
  unfold State.finalizeAtThreadExit State.getKey
  cases keyed : state.keyed with
  | true =>
      rw [if_pos rfl]
      dsimp only
      rcases registers state.keyed (.inl keyed) with
        ⟨accepts, count, same⟩ | ⟨refuses, same⟩
      · exact .inl ⟨accepts, _, count, same⟩
      · exact .inr ⟨refuses, _, same⟩
  | false =>
      rw [if_neg Bool.false_ne_true]
      cases creates with
      | true =>
          rcases registers true (.inr rfl) with
            ⟨accepts, count, same⟩ | ⟨refuses, same⟩
          · exact .inl ⟨accepts, _, count, same⟩
          · exact .inr ⟨refuses, _, same⟩
      | false =>
          refine .inr ⟨?_, _, rfl⟩
          rintro ⟨(stored | created), -⟩
          · rw [keyed] at stored
            cases stored
          · cases created

variable [DecidableEq κ] [Fintype κ] {one other : State ν κ}

/-- The event determines the step. -/
theorem step_unique
    (first : Step state event one)
    (second : Step state event other) :
    one = other := by
  cases first with
  | advance advances =>
      cases second with
      | advance again =>
          rw [advances] at again
          cases again
          rfl
      | _ =>
          rcases advance_event advances with ⟨_, same⟩ | same | same | same
          all_goals cases same
  | visit key outside inRound turn =>
      cases second with
      | visit _ _ again _ =>
          rw [inRound] at again
          cases again
          rfl
      | advance advances =>
          rcases advance_event advances with ⟨_, same⟩ | same | same | same
          all_goals cases same
  | nextRound outside inRound all pending more =>
      cases second with
      | nextRound _ again _ _ _ =>
          rw [inRound] at again
          cases again
          rfl
      | advance advances =>
          rcases advance_event advances with ⟨_, same⟩ | same | same | same
          all_goals cases same
  | _ =>
      cases second with
      | advance advances =>
          rcases advance_event advances with ⟨_, same⟩ | same | same | same
          all_goals cases same
      | _ => rfl

end Events

section Histories

variable {ν κ : Type} (events : List (Event ν κ)) {event : Event ν κ}

theorem effects_snoc (event : Event ν κ) :
    (events ++ [event]).map Event.effect =
      events.map Event.effect ++ [event.effect] :=
  List.map_append

/-- A step of the exit calls nothing. -/
theorem effect_exit (exits : event.isExit = true) :
    event.effect.isCall = false := by
  cases event with
  | finalizeAtThreadExit node creates sets accepted => cases exits
  | visit key => cases key <;> rfl
  | _ => rfl

theorem calledNodes_append (earlier later : List (Event ν κ)) :
    calledNodes (earlier ++ later) = calledNodes earlier ++ calledNodes later := by
  unfold calledNodes
  rw [List.map_append, Effect.calledNodes_append]

theorem acceptedNodes_append (earlier later : List (Event ν κ)) :
    acceptedNodes (earlier ++ later) =
      acceptedNodes earlier ++ acceptedNodes later := by
  unfold acceptedNodes
  rw [List.map_append, Effect.acceptedNodes_append]

theorem acceptedNodes_subset : acceptedNodes events ⊆ calledNodes events :=
  (Effect.acceptedNodes_sublist _).subset

theorem exitSteps_snoc (event : Event ν κ) :
    exitSteps (events ++ [event]) =
      exitSteps events + event.isExit.toNat := by
  unfold exitSteps
  rw [List.countP_append, List.countP_singleton]
  cases event.isExit with
  | true => rfl
  | false => rfl

end Histories

section Lateness

variable
  {ν κ : Type} [DecidableEq ν] [DecidableEq κ] [Fintype κ]
  {initial state : State ν κ} {events : List (Event ν κ)} {node : ν}

/-- What came late stays so. -/
theorem Late.mono
    (late : Late initial events node)
    (later : List (Event ν κ)) :
    Late initial (events ++ later) node := by
  obtain ⟨earlier, creates, sets, accepted, before, leading, ran, tooLate⟩ :=
    late
  exact ⟨earlier, creates, sets, accepted, before,
    leading.trans (List.prefix_append _ _), ran, tooLate⟩

/-- A static that comes late was called. -/
theorem Late.called
    (late : Late initial events node) :
    node ∈ calledNodes events := by
  obtain ⟨earlier, creates, sets, accepted, before, ⟨later, whole⟩, -, -⟩ :=
    late
  rw [← whole, calledNodes_append, calledNodes_append]
  exact List.mem_append_left _
    (List.mem_append_right _ (List.mem_singleton_self node))

/-- A static that is not called any more came late before. -/
theorem Late.before
    {later : List (Event ν κ)}
    (late : Late initial (events ++ later) node)
    (uncalled : node ∉ calledNodes later) :
    Late initial events node := by
  obtain ⟨earlier, creates, sets, accepted, before, leading, ran, tooLate⟩ :=
    late
  have inside :
      earlier ++ [.finalizeAtThreadExit node creates sets accepted] <+:
        events := by
    rcases List.prefix_or_prefix_of_prefix leading
        (List.prefix_append events later) with inside | beyond
    · exact inside
    · rcases List.prefix_concat_iff.mp beyond with whole | shorter
      · rw [← whole]
      · obtain ⟨between, rfl⟩ := shorter
        obtain ⟨rest, whole⟩ := leading
        rw [List.append_assoc, List.append_assoc] at whole
        rw [← List.append_cancel_left whole, calledNodes_append,
          calledNodes_append] at uncalled
        exact absurd
          (List.mem_append_right _
            (List.mem_append_left _ (List.mem_singleton_self node)))
          uncalled
  exact ⟨earlier, creates, sets, accepted, before, inside, ran, tooLate⟩

/-- Only a call makes a static come late. -/
theorem late_other
    {event : Event ν κ}
    (other : event.effect.isCall = false) :
    Late initial (events ++ [event]) node ↔ Late initial events node := by
  constructor
  · rintro ⟨earlier, creates, sets, accepted, before, leading, ran, tooLate⟩
    rcases List.prefix_concat_iff.mp leading with whole | shorter
    · obtain ⟨-, same⟩ := List.append_inj' whole rfl
      cases same
      cases other
    · exact ⟨earlier, creates, sets, accepted, before, shorter, ran, tooLate⟩
  · exact fun late => late.mono [event]

/-- A call comes late if it is accepted when `execute_destroy` is over. -/
theorem late_call
    {called : ν}
    {creates sets accepted : Bool}
    (run : Run Step initial events state) :
    Late initial
        (events ++ [.finalizeAtThreadExit called creates sets accepted])
        node ↔
      node = called ∧ state.TooLate creates sets ∨
        Late initial events node := by
  constructor
  · rintro ⟨earlier, creates', sets', accepted', before, leading, ran, tooLate⟩
    rcases List.prefix_concat_iff.mp leading with whole | shorter
    · obtain ⟨rfl, same⟩ := List.append_inj' whole rfl
      cases same
      obtain rfl := ran.unique run fun _ => step_unique
      exact .inl ⟨rfl, tooLate⟩
    · exact .inr
        ⟨earlier, creates', sets', accepted', before, shorter, ran, tooLate⟩
  · rintro (⟨rfl, tooLate⟩ | late)
    · exact ⟨events, creates, sets, accepted, state, List.prefix_refl _, run,
        tooLate⟩
    · exact late.mono _

end Lateness

section Fuel

variable {ν κ : Type} [Fintype κ]

/-- How many steps a stage takes at most, but for the statics. -/
def Stage.fuel : Stage ν → Nat
  | .outside => 0
  | .other => 1
  | .loop _ => 1
  | .executing _ => 3
  | .orElse => 2

/-- How many keys are still to have their turn. -/
def unvisited (visited : Key κ → Bool) : Nat :=
  (Finset.univ.filter fun key => visited key = false).card

/-- How many steps the exit still takes at most, but for the statics. -/
def State.exitFuel (state : State ν κ) : Nat :=
  match state.progress with
  | .alive =>
      if state.isMain then
        if state.forced then 1 else 3
      else
        exitBound κ
  | .round number visited =>
      (destructorIterations - number) * roundSteps κ +
        2 * unvisited visited + 1
  | .ended => 0

theorem unvisited_none :
    unvisited (fun _ : Key κ => false) = Fintype.card (Key κ) := by
  unfold unvisited
  rw [Finset.filter_true_of_mem fun _ _ => rfl, Finset.card_univ]

/-- A key has had its turn. -/
theorem unvisited_visit
    [DecidableEq κ]
    {visited : Key κ → Bool}
    {key : Key κ}
    (turn : visited key = false) :
    unvisited (Function.update visited key true) + 1 = unvisited visited := by
  have member :
      key ∈ Finset.univ.filter fun key => visited key = false :=
    Finset.mem_filter.mpr ⟨Finset.mem_univ key, turn⟩
  have erased :
      (Finset.univ.filter fun other =>
          Function.update visited key true other = false) =
        (Finset.univ.filter fun other => visited other = false).erase key := by
    ext other
    by_cases same : other = key
    · subst same
      simp
    · simp [same]
  unfold unvisited
  rw [erased]
  exact Finset.card_erase_add_one member

theorem exitFuel_fresh (isMain keyed : Bool) :
    (State.fresh ν κ isMain keyed).exitFuel ≤ exitBound κ := by
  unfold State.exitFuel State.fresh exitBound roundSteps destructorIterations
  cases isMain with
  | true =>
      dsimp only
      rw [if_pos rfl, if_neg Bool.false_ne_true]
      omega
  | false => exact Nat.le_refl _

end Fuel

/-- Where the chain that is being executed goes on. -/
def State.head {ν κ : Type} (state : State ν κ) : Option ν :=
  match state.stage with
  | .loop opt_head => opt_head
  | .executing r => state.next r
  | _ => none

/-- The register of a thread follows the batches; what comes late keeps waiting. -/
structure Inv
    {ν κ : Type}
    [DecidableEq ν]
    [DecidableEq κ]
    [Fintype κ]
    (initial : State ν κ)
    (events : List (Event ν κ))
    (state : State ν κ)
    (batches : Batches ν) : Prop where
  run : Run Step initial events state
  follows :
    Follows (events.map Event.effect) state.next state.register state.head
      batches
  lost : batches.lost = []
  specific : state.specific = false → state.register = none
  main : state.forced = true → state.isMain = true
  late :
    ∀ node, Late initial events node ↔ state.Past ∧ node ∈ batches.waiting
  emptied : state.stage = .loop none → state.register = none
  closed : state.ended → state.stage = .outside
  executed :
    ∀ r, state.stage = .executing r → r ∈ executedNodes events
  fuel :
    exitSteps events +
        (3 * (batches.chain.length + batches.waiting.length) +
          state.stage.fuel + state.exitFuel) ≤
      exitBound κ + 3 * (acceptedNodes events).length

namespace Inv

variable
  {ν κ : Type} [DecidableEq ν] [DecidableEq κ] [Fintype κ]
  {initial state after : State ν κ} {events : List (Event ν κ)}
  {batches newer : Batches ν} {event : Event ν κ} {node : ν}

/-- A thread that has just started. -/
theorem fresh (isMain keyed : Bool) :
    Inv (State.fresh ν κ isMain keyed) [] (State.fresh ν κ isMain keyed)
      Batches.empty where
  run := .refl
  follows := .fresh
  lost := rfl
  specific _ := rfl
  main := nofun
  late node := by
    constructor
    · intro late
      cases late.called
    · rintro ⟨-, waits⟩
      cases waits
  emptied := nofun
  closed := nofun
  executed := nofun
  fuel := by
    have exit : (State.fresh ν κ isMain keyed).exitFuel ≤ exitBound κ :=
      exitFuel_fresh isMain keyed
    simpa [exitSteps, acceptedNodes, Effect.acceptedNodes, Batches.empty,
      State.fresh, Stage.fuel] using exit

/-- A static is refused. -/
theorem refuse
    {keyed creates sets : Bool}
    (inv : Inv initial events state batches)
    (refuses : ¬ state.Accepts creates sets)
    (last :
      Step state (.finalizeAtThreadExit node creates sets false)
        { state with keyed := keyed }) :
    Inv initial (events ++ [.finalizeAtThreadExit node creates sets false])
      { state with keyed := keyed } batches := by
  constructor
  case run => exact inv.run.snoc _ last
  case follows =>
    rw [effects_snoc]
    exact inv.follows.refuse
  case lost => exact inv.lost
  case specific => exact inv.specific
  case main => exact inv.main
  case late =>
    intro other
    rw [late_call inv.run]
    constructor
    · rintro (⟨-, -, accepts⟩ | late)
      · exact absurd accepts refuses
      · exact (inv.late other).mp late
    · exact fun waits => .inr ((inv.late other).mpr waits)
  case emptied => exact inv.emptied
  case closed => exact inv.closed
  case executed =>
    intro r place
    unfold executedNodes
    rw [effects_snoc, Effect.executedNodes_other _ rfl]
    exact inv.executed r place
  case fuel =>
    have accepted :
        acceptedNodes
            (events ++ [.finalizeAtThreadExit node creates sets false]) =
          acceptedNodes events := by
      unfold acceptedNodes
      rw [effects_snoc]
      exact Effect.acceptedNodes_refused _ node
    rw [exitSteps_snoc, accepted]
    exact inv.fuel

/-- A static is registered; late, if `execute_destroy` is over. -/
theorem accept
    {keyed creates sets : Bool}
    {count : Nat}
    (inv : Inv initial events state batches)
    (unused : node ∉ calledNodes events)
    (runs : state.runsCode = true)
    (accepts : state.Accepts creates sets)
    (last :
      Step state (.finalizeAtThreadExit node creates sets true)
        { state with
          keyed := keyed
          specific := true
          iterationCount := count
          next := Function.update state.next node state.register
          register := some node }) :
    Inv initial (events ++ [.finalizeAtThreadExit node creates sets true])
      { state with
        keyed := keyed
        specific := true
        iterationCount := count
        next := Function.update state.next node state.register
        register := some node }
      { batches with waiting := node :: batches.waiting } := by
  have notExecuted : ∀ r, state.stage = .executing r → r ≠ node := by
    rintro r place rfl
    have executed := inv.follows.ran.accepted (inv.executed r place)
    exact unused (acceptedNodes_subset events executed)
  constructor
  case run => exact inv.run.snoc _ last
  case follows =>
    have follows := inv.follows.accept unused
    have head :
        state.head =
          match state.stage with
          | .loop opt_head => opt_head
          | .executing r =>
              Function.update state.next node state.register r
          | _ => none := by
      unfold State.head
      cases place : state.stage with
      | executing r =>
          dsimp only
          rw [Function.update_of_ne (notExecuted r place)]
      | _ => rfl
    rw [effects_snoc]
    rw [head] at follows
    exact follows
  case lost => exact inv.lost
  case specific => exact nofun
  case main => exact inv.main
  case late =>
    intro other
    rw [late_call inv.run, inv.late other]
    constructor
    · rintro (⟨rfl, past, -⟩ | ⟨past, waits⟩)
      · exact ⟨past, List.mem_cons_self⟩
      · exact ⟨past, List.mem_cons_of_mem _ waits⟩
    · rintro ⟨past, waits⟩
      rcases List.mem_cons.mp waits with rfl | waits
      · exact .inl ⟨rfl, past, accepts⟩
      · exact .inr ⟨past, waits⟩
  case emptied =>
    intro ended
    have place : state.stage = .loop none := ended
    rw [State.runsCode, place] at runs
    cases runs
  case closed => exact inv.closed
  case executed =>
    intro r place
    unfold executedNodes
    rw [effects_snoc, Effect.executedNodes_other _ rfl]
    exact inv.executed r place
  case fuel =>
    have accepted :
        acceptedNodes
            (events ++ [.finalizeAtThreadExit node creates sets true]) =
          acceptedNodes events ++ [node] := by
      unfold acceptedNodes
      rw [effects_snoc]
      exact Effect.acceptedNodes_accepted _ node
    have steps :
        exitSteps
            (events ++ [.finalizeAtThreadExit node creates sets true]) =
          exitSteps events :=
      exitSteps_snoc events _
    have fuel := inv.fuel
    rw [steps, accepted, List.length_append, List.length_singleton,
      List.length_cons]
    unfold State.exitFuel at fuel ⊢
    dsimp only at fuel ⊢
    omega

/-- A call of `finalize_at_thread_exit`. -/
theorem finalizeAtThreadExit
    (inv : Inv initial events state batches)
    (unused : node ∉ calledNodes events)
    (creates sets : Bool)
    (runs : state.runsCode = true) :
    ∃ newer,
      Inv initial
        (events ++
          [.finalizeAtThreadExit node creates sets
            (state.finalizeAtThreadExit node creates sets).2])
        (state.finalizeAtThreadExit node creates sets).1 newer := by
  have last := Step.finalizeAtThreadExit node creates sets runs
  rcases finalizeAtThreadExit_cases state node creates sets with
    ⟨accepts, keyed, count, same⟩ | ⟨refuses, keyed, same⟩
  · rw [same] at last ⊢
    exact ⟨_, inv.accept unused runs accepts last⟩
  · rw [same] at last ⊢
    exact ⟨_, inv.refuse refuses last⟩

/-- Any other event, from what it does to the register. -/
theorem moves
    (inv : Inv initial events state batches)
    (other : event.effect.isCall = false)
    (last : Step state event after)
    (follows :
      Follows (events.map Event.effect ++ [event.effect]) after.next
        after.register after.head newer)
    (lost : newer.lost = batches.lost)
    (specific : after.specific = false → after.register = none)
    (main : after.forced = true → after.isMain = true)
    (late :
      ∀ node,
        state.Past ∧ node ∈ batches.waiting ↔
          after.Past ∧ node ∈ newer.waiting)
    (emptied : after.stage = .loop none → after.register = none)
    (closed : after.ended → after.stage = .outside)
    (executed :
      ∀ r, after.stage = .executing r →
        state.stage = .executing r ∨ event = .execute r)
    (fuel :
      3 * (newer.chain.length + newer.waiting.length) +
          after.stage.fuel + after.exitFuel + event.isExit.toNat ≤
        3 * (batches.chain.length + batches.waiting.length) +
          state.stage.fuel + state.exitFuel) :
    Inv initial (events ++ [event]) after newer := by
  have accepted : acceptedNodes (events ++ [event]) = acceptedNodes events := by
    unfold acceptedNodes
    rw [effects_snoc]
    exact Effect.acceptedNodes_other _ other
  rw [← effects_snoc] at follows
  refine ⟨inv.run.snoc _ last, follows, lost.trans inv.lost, specific, main, ?_,
    emptied, closed, ?_, ?_⟩
  · intro node
    rw [late_other other, inv.late node, late node]
  · intro r place
    unfold executedNodes
    rw [effects_snoc]
    rcases executed r place with before | rfl
    · have member := inv.executed r before
      unfold executedNodes at member
      unfold Effect.executedNodes at member ⊢
      rw [List.filterMap_append]
      exact List.mem_append_left _ member
    · dsimp only [Event.effect]
      rw [Effect.executedNodes_executed]
      exact List.mem_append_right _ (List.mem_singleton_self _)
  · have before := inv.fuel
    rw [exitSteps_snoc, accepted]
    omega

/-- Outside of all destructors nothing is being executed. -/
theorem headless
    (inv : Inv initial events state batches)
    (outside : state.stage = .outside) :
    Follows (events.map Event.effect) state.next state.register none
        batches ∧
      batches.chain = [] := by
  have follows := inv.follows
  have head : state.head = none := by
    rw [State.head, outside]
  rw [head] at follows
  exact ⟨follows, Chain.none_iff.mp follows.chain⟩

/-- Without a register nothing waits. -/
theorem nobody
    (inv : Inv initial events state batches)
    (empty : state.register = none) :
    batches.waiting = [] := by
  have waiting := inv.follows.waiting
  rw [empty] at waiting
  exact Chain.none_iff.mp waiting

/-- The code of another key's destructor sets a value. -/
theorem setOther
    {key : κ}
    {value : Bool}
    (inv : Inv initial events state batches)
    (last :
      Step state (.setOther key value)
        { state with others := Function.update state.others key value }) :
    Inv initial (events ++ [.setOther key value])
      { state with others := Function.update state.others key value }
      batches :=
  inv.moves rfl last inv.follows.silent rfl inv.specific inv.main
    (fun _ => Iff.rfl) inv.emptied inv.closed (fun _ => .inl)
    (Nat.le_refl _)

/-- The thread begins to exit. -/
theorem exit
    (inv : Inv initial events state batches)
    (alive : state.progress = .alive)
    (thread : state.isMain = false)
    (last :
      Step state .exit { state with progress := .round 1 fun _ => false }) :
    Inv initial (events ++ [.exit])
      { state with progress := .round 1 fun _ => false } batches := by
  refine inv.moves rfl last inv.follows.silent rfl inv.specific inv.main ?_
    inv.emptied nofun (fun _ => .inl) ?_
  · intro node
    constructor
    · rintro ⟨⟨-, forced⟩, -⟩
      rw [alive] at forced
      have main := inv.main forced
      rw [thread] at main
      cases main
    · rintro ⟨⟨-, -, visited⟩, -⟩
      cases visited
  · have before : state.exitFuel = exitBound κ := by
      unfold State.exitFuel
      rw [alive, thread]
      rfl
    unfold exitBound roundSteps destructorIterations at before
    rw [before]
    unfold State.exitFuel roundSteps destructorIterations
    dsimp only [Event.isExit, Bool.toNat_true]
    rw [unvisited_none]
    omega

/-- The main thread executes its statics. -/
theorem forceMainThreadDestructor
    (inv : Inv initial events state batches)
    (outside : state.stage = .outside)
    (alive : state.progress = .alive)
    (main : state.isMain = true)
    (once : state.forced = false)
    (last :
      Step state .forceMainThreadDestructor
        { state with forced := true }.executeDestroy) :
    ∃ newer,
      Inv initial (events ++ [.forceMainThreadDestructor])
        { state with forced := true }.executeDestroy newer := by
  obtain ⟨follows, ended⟩ := inv.headless outside
  refine ⟨_, inv.moves rfl last follows.detach rfl (fun _ => rfl)
    (fun _ => main) ?_ (fun _ => rfl) ?_ nofun ?_⟩
  · intro node
    constructor
    · rintro ⟨⟨-, forced⟩, -⟩
      rw [alive, once] at forced
      cases forced
    · rintro ⟨⟨walks, -⟩, -⟩
      cases walks
  · intro finished
    have progress : state.progress = .ended := finished
    rw [alive] at progress
    cases progress
  · have before : state.exitFuel = 3 := by
      unfold State.exitFuel
      rw [alive, main, once]
      rfl
    have after :
        ({ state with forced := true }.executeDestroy).exitFuel = 1 := by
      unfold State.exitFuel State.executeDestroy
      dsimp only
      rw [alive, main]
      rfl
    rw [before, after, ended, outside]
    dsimp only [State.executeDestroy, Stage.fuel, Event.isExit,
      Bool.toNat_true, List.length_nil]
    omega

/-- The turn of our key, whose value is not null. -/
theorem visitOwn
    {number : Nat}
    {visited : Key κ → Bool}
    (inv : Inv initial events state batches)
    (outside : state.stage = .outside)
    (inRound : state.progress = .round number visited)
    (turn : visited none = false)
    (last :
      Step state (.visit none)
        { state with
          progress := .round number (Function.update visited none true)
          specific := false
          register := none
          stage := .loop state.register }) :
    ∃ newer,
      Inv initial (events ++ [.visit none])
        { state with
          progress := .round number (Function.update visited none true)
          specific := false
          register := none
          stage := .loop state.register }
        newer := by
  obtain ⟨follows, ended⟩ := inv.headless outside
  refine ⟨_, inv.moves rfl last follows.detach rfl (fun _ => rfl) inv.main ?_
    (fun _ => rfl) nofun nofun ?_⟩
  · intro node
    constructor
    · rintro ⟨⟨-, past⟩, -⟩
      rw [inRound] at past
      obtain ⟨-, finished⟩ : _ ∧ visited none = true := past
      rw [turn] at finished
      cases finished
    · rintro ⟨⟨walks, -⟩, -⟩
      cases walks
  · have one := unvisited_visit turn
    rw [ended, outside]
    unfold State.exitFuel
    rw [inRound]
    dsimp only [Stage.fuel, Event.isExit, Bool.toNat_true, List.length_nil]
    omega

/-- The turn of our key, whose value is null. -/
theorem visitNull
    {number : Nat}
    {visited : Key κ → Bool}
    (inv : Inv initial events state batches)
    (outside : state.stage = .outside)
    (inRound : state.progress = .round number visited)
    (turn : visited none = false)
    (unset : state.specific = false)
    (last :
      Step state (.visit none)
        { state with
          progress := .round number (Function.update visited none true) }) :
    ∃ newer,
      Inv initial (events ++ [.visit none])
        { state with
          progress := .round number (Function.update visited none true) }
        newer := by
  obtain ⟨follows, ended⟩ := inv.headless outside
  have empty := inv.specific unset
  have nobody := inv.nobody empty
  have detached :
      Follows (events.map Event.effect ++ [.detached]) state.next
        state.register none
        { batches with waiting := [], chain := batches.waiting } := by
    have detached := follows.detach
    rw [empty] at detached ⊢
    exact detached
  have head :
      ({ state with
          progress :=
            .round number (Function.update visited none true) }).head =
        none := by
    unfold State.head
    dsimp only
    rw [outside]
  rw [← head] at detached
  refine ⟨_, inv.moves rfl last detached rfl inv.specific inv.main ?_
    inv.emptied nofun (fun _ => .inl) ?_⟩
  · intro node
    rw [nobody]
    constructor
    · rintro ⟨-, waits⟩
      cases waits
    · rintro ⟨-, waits⟩
      cases waits
  · have one := unvisited_visit turn
    rw [ended, nobody]
    unfold State.exitFuel
    rw [inRound]
    dsimp only [Event.isExit, Bool.toNat_true, List.length_nil]
    omega

/-- The turn of another key. -/
theorem visitOther
    {number : Nat}
    {visited : Key κ → Bool}
    {key : κ}
    {others : κ → Bool}
    {stage : Stage ν}
    (inv : Inv initial events state batches)
    (outside : state.stage = .outside)
    (inRound : state.progress = .round number visited)
    (turn : visited (some key) = false)
    (place : stage = .outside ∨ stage = .other)
    (last :
      Step state (.visit (some key))
        { state with
          progress := .round number (Function.update visited (some key) true)
          others := others
          stage := stage }) :
    Inv initial (events ++ [.visit (some key)])
      { state with
        progress := .round number (Function.update visited (some key) true)
        others := others
        stage := stage }
      batches := by
  obtain ⟨follows, -⟩ := inv.headless outside
  have head :
      ({ state with
          progress :=
            .round number (Function.update visited (some key) true)
          others := others
          stage := stage }).head =
        none := by
    unfold State.head
    rcases place with rfl | rfl
    · rfl
    · rfl
  rw [← head] at follows
  refine inv.moves rfl last follows.silent rfl inv.specific inv.main ?_ ?_
    nofun ?_ ?_
  · intro node
    have walks : stage.walks = false := by
      rcases place with rfl | rfl
      · rfl
      · rfl
    have own : Function.update visited (some key) true none = visited none :=
      Function.update_of_ne (Option.some_ne_none key).symm true visited
    unfold State.Past
    dsimp only
    rw [inRound, outside, walks, own]
    exact Iff.rfl
  · rintro (rfl : stage = .loop none)
    rcases place with same | same
    · cases same
    · cases same
  · rintro r (rfl : stage = .executing r)
    rcases place with same | same
    · cases same
    · cases same
  · have one := unvisited_visit turn
    have short : stage.fuel ≤ 1 := by
      rcases place with rfl | rfl
      · exact Nat.zero_le 1
      · exact Nat.le_refl 1
    have none : state.stage.fuel = 0 := by
      rw [outside]
      rfl
    unfold State.exitFuel
    rw [inRound, none]
    dsimp only [Event.isExit, Bool.toNat_true]
    omega

/-- The turn of a key. -/
theorem visit
    {number : Nat}
    {visited : Key κ → Bool}
    {key : Key κ}
    (inv : Inv initial events state batches)
    (outside : state.stage = .outside)
    (inRound : state.progress = .round number visited)
    (turn : visited key = false) :
    ∃ newer,
      Inv initial (events ++ [.visit key])
        ({ state with
            progress :=
              .round number (Function.update visited key true) }.visit
          key)
        newer := by
  have last := Step.visit key outside inRound turn
  cases key with
  | none =>
      unfold State.visit at last ⊢
      dsimp only at last ⊢
      cases specific : state.specific with
      | true =>
          rw [specific, if_pos rfl] at last
          rw [if_pos rfl]
          exact inv.visitOwn outside inRound turn last
      | false =>
          rw [specific, if_neg Bool.false_ne_true, ← specific] at last
          rw [if_neg Bool.false_ne_true, ← specific]
          exact inv.visitNull outside inRound turn specific last
  | some key =>
      unfold State.visit at last ⊢
      dsimp only at last ⊢
      split at last
      case isTrue set =>
        rw [if_pos set]
        exact ⟨_, inv.visitOther outside inRound turn (.inr rfl) last⟩
      case isFalse unset =>
        rw [if_neg unset]
        exact ⟨_, inv.visitOther outside inRound turn (.inl outside) last⟩

/-- The destructor of another key returns. -/
theorem returned
    (inv : Inv initial events state batches)
    (other : state.stage = .other)
    (last : Step state .returned { state with stage := .outside }) :
    Inv initial (events ++ [.returned]) { state with stage := .outside }
      batches := by
  have follows := inv.follows
  have head : state.head = none := by
    rw [State.head, other]
  rw [head] at follows
  refine inv.moves rfl last follows.silent rfl inv.specific inv.main ?_ nofun
    (fun _ => rfl) nofun ?_
  · intro node
    unfold State.Past
    rw [other]
    exact Iff.rfl
  · rw [other]
    exact Nat.le_of_eq (Nat.add_right_comm _ _ 1)

/-- Another round begins. -/
theorem nextRound
    {number : Nat}
    {visited : Key κ → Bool}
    (inv : Inv initial events state batches)
    (inRound : state.progress = .round number visited)
    (more : number < destructorIterations)
    (last :
      Step state .nextRound
        { state with progress := .round (number + 1) fun _ => false }) :
    Inv initial (events ++ [.nextRound])
      { state with progress := .round (number + 1) fun _ => false }
      batches := by
  refine inv.moves rfl last inv.follows.silent rfl inv.specific inv.main ?_
    inv.emptied nofun (fun _ => .inl) ?_
  · intro node
    constructor
    · rintro ⟨⟨-, past⟩, -⟩
      rw [inRound] at past
      obtain ⟨finished, -⟩ : destructorIterations ≤ number ∧ _ := past
      omega
    · rintro ⟨⟨-, -, visited⟩, -⟩
      cases visited
  · have rounds :
        (destructorIterations - number) * roundSteps κ =
          (destructorIterations - (number + 1)) * roundSteps κ +
            roundSteps κ := by
      rw [← Nat.succ_mul]
      congr 1
      omega
    unfold State.exitFuel
    rw [inRound]
    dsimp only [Event.isExit, Bool.toNat_true]
    rw [unvisited_none, rounds]
    unfold roundSteps
    omega

/-- The thread ends. -/
theorem finish
    (inv : Inv initial events state batches)
    (outside : state.stage = .outside)
    (finished : state.Past ∨ state.register = none)
    (left : 0 < state.exitFuel)
    (last : Step state .finish { state with progress := .ended }) :
    Inv initial (events ++ [.finish]) { state with progress := .ended }
      batches := by
  refine inv.moves rfl last inv.follows.silent rfl inv.specific inv.main ?_
    inv.emptied (fun _ => outside) (fun _ => .inl) ?_
  · intro node
    have past : ({ state with progress := .ended } : State ν κ).Past := by
      refine ⟨?_, trivial⟩
      dsimp only
      rw [outside]
      rfl
    rcases finished with before | empty
    · exact ⟨fun waits => ⟨past, waits.2⟩, fun waits => ⟨before, waits.2⟩⟩
    · rw [inv.nobody empty]
      constructor
      · rintro ⟨-, waits⟩
        cases waits
      · rintro ⟨-, waits⟩
        cases waits
  · have after : ({ state with progress := .ended }).exitFuel = 0 := rfl
    rw [after]
    dsimp only [Event.isExit, Bool.toNat_true]
    omega

/-- `execute_destroy` goes on, but does not return. -/
theorem walksOn
    (inv : Inv initial events state batches)
    (other : event.effect.isCall = false)
    (last : Step state event after)
    (follows :
      Follows (events.map Event.effect ++ [event.effect]) after.next
        after.register after.head newer)
    (lost : newer.lost = batches.lost)
    (specific : after.specific = false → after.register = none)
    (main : after.forced = true → after.isMain = true)
    (before : state.stage.walks = true)
    (still : after.stage.walks = true)
    (progress : after.progress = state.progress)
    (emptied : after.stage = .loop none → after.register = none)
    (executed :
      ∀ r, after.stage = .executing r →
        state.stage = .executing r ∨ event = .execute r)
    (fuel :
      3 * (newer.chain.length + newer.waiting.length) +
          after.stage.fuel + after.exitFuel + event.isExit.toNat ≤
        3 * (batches.chain.length + batches.waiting.length) +
          state.stage.fuel + state.exitFuel) :
    Inv initial (events ++ [event]) after newer := by
  refine inv.moves other last follows lost specific main ?_ emptied ?_ executed
    fuel
  · intro node
    constructor
    · rintro ⟨⟨finished, -⟩, -⟩
      rw [before] at finished
      cases finished
    · rintro ⟨⟨finished, -⟩, -⟩
      rw [still] at finished
      cases finished
  · intro finished
    have ended : state.ended := progress.symm.trans finished
    rw [inv.closed ended] at before
    cases before

/-- `execute_destroy` makes its next step. -/
theorem advance
    (inv : Inv initial events state batches)
    (distinct : (calledNodes events).Nodup)
    (advances : state.advance = some (after, event)) :
    ∃ newer, Inv initial (events ++ [event]) after newer := by
  have last := Step.advance advances
  have follows := inv.follows
  unfold State.head at follows
  unfold State.advance at advances
  cases place : state.stage with
  | outside =>
      rw [place] at advances
      cases advances
  | other =>
      rw [place] at advances
      cases advances
  | loop opt_head =>
      have walks : state.stage.walks = true := by
        rw [place]
        rfl
      rw [place] at advances follows
      cases opt_head with
      | none =>
          cases advances
          have nobody := inv.nobody (inv.emptied place)
          refine ⟨batches, inv.moves rfl last follows.silent rfl inv.specific
            inv.main ?_ nofun (fun _ => rfl) nofun ?_⟩
          · intro node
            rw [nobody]
            constructor
            · rintro ⟨-, waits⟩
              cases waits
            · rintro ⟨-, waits⟩
              cases waits
          · rw [place]
            exact Nat.le_of_eq (Nat.add_right_comm _ _ 1)
      | some r =>
          cases advances
          obtain ⟨later, same, -⟩ := Chain.some_iff.mp follows.chain
          refine ⟨_, inv.walksOn rfl last follows.execute rfl inv.specific
            inv.main walks rfl rfl nofun ?_ ?_⟩
          · intro other executing
            obtain rfl := Stage.executing.inj executing
            exact .inr rfl
          · have steady :
                ({ state with stage := .executing r }).exitFuel =
                  state.exitFuel :=
              rfl
            rw [place, same, steady]
            dsimp only [Stage.fuel, Event.isExit, Bool.toNat_true,
              List.length_cons, List.tail_cons]
            omega
  | executing r =>
      have walks : state.stage.walks = true := by
        rw [place]
        rfl
      rw [place] at advances follows
      dsimp only at advances follows
      split at advances
      case h_1 next linked =>
        cases advances
        rw [linked] at follows
        refine ⟨batches, inv.walksOn rfl last
          (follows.unlink distinct (inv.executed r place)).silent rfl
          inv.specific inv.main walks rfl rfl nofun nofun ?_⟩
        have steady :
            ({ state with
                next := Function.update state.next r none
                stage := .loop (some next) }).exitFuel =
              state.exitFuel :=
          rfl
        rw [place, steady]
        dsimp only [Stage.fuel, Event.isExit, Bool.toNat_true]
        omega
      case h_2 ended =>
        cases advances
        rw [ended] at follows
        refine ⟨batches, inv.walksOn rfl last follows.silent rfl inv.specific
          inv.main walks rfl rfl nofun nofun ?_⟩
        have steady :
            ({ state with stage := .orElse }).exitFuel = state.exitFuel :=
          rfl
        rw [place, steady]
        dsimp only [Stage.fuel, Event.isExit, Bool.toNat_true]
        omega
  | orElse =>
      have walks : state.stage.walks = true := by
        rw [place]
        rfl
      rw [place] at advances follows
      have ended := Chain.none_iff.mp follows.chain
      cases advances
      refine ⟨_, inv.walksOn rfl last follows.detach rfl (fun _ => rfl)
        inv.main walks rfl rfl (fun _ => rfl) nofun ?_⟩
      have steady :
          ({ state with
              register := none
              stage := .loop state.register }).exitFuel =
            state.exitFuel :=
        rfl
      rw [place, steady, ended]
      dsimp only [Stage.fuel, Event.isExit, Bool.toNat_true,
        List.length_nil]
      omega

/-- Every event keeps the invariant. -/
theorem step
    (inv : Inv initial events state batches)
    (distinct : (calledNodes (events ++ [event])).Nodup)
    (step : Step state event after) :
    ∃ newer, Inv initial (events ++ [event]) after newer := by
  rw [calledNodes_append] at distinct
  obtain ⟨shorter, -, apart⟩ := List.nodup_append.mp distinct
  cases step with
  | finalizeAtThreadExit node creates sets runs =>
      refine inv.finalizeAtThreadExit ?_ creates sets runs
      intro member
      exact apart node member node (List.mem_singleton_self node) rfl
  | setOther key value runs =>
      exact ⟨batches, inv.setOther (.setOther key value runs)⟩
  | exit outside alive thread =>
      exact ⟨batches, inv.exit alive thread (.exit outside alive thread)⟩
  | forceMainThreadDestructor outside alive main once =>
      exact inv.forceMainThreadDestructor outside alive main once
        (.forceMainThreadDestructor outside alive main once)
  | visit key outside inRound turn => exact inv.visit outside inRound turn
  | returned other => exact ⟨batches, inv.returned other (.returned other)⟩
  | nextRound outside inRound all pending more =>
      exact ⟨batches, inv.nextRound inRound more
        (.nextRound outside inRound all pending more)⟩
  | finishRounds outside inRound all finished =>
      refine ⟨batches, inv.finish outside ?_ ?_
        (.finishRounds outside inRound all finished)⟩
      · rcases finished with none | last
        · exact .inr (inv.specific (Bool.or_eq_false_iff.mp none).1)
        · refine .inl ⟨?_, ?_⟩
          · rw [outside]
            rfl
          · rw [inRound]
            exact ⟨last, all none⟩
      · unfold State.exitFuel
        rw [inRound]
        exact Nat.succ_pos _
  | finishMain outside alive forced =>
      refine ⟨batches, inv.finish outside (.inl ⟨?_, ?_⟩) ?_
        (.finishMain outside alive forced)⟩
      · rw [outside]
        rfl
      · rw [alive]
        exact forced
      · unfold State.exitFuel
        rw [alive, inv.main forced, forced]
        exact Nat.one_pos
  | advance advances => exact inv.advance shorter advances

/-- When the thread ends every static is executed, but those that came late. -/
theorem executed_of_ended
    (inv : Inv initial events state batches)
    (distinct : (calledNodes events).Nodup)
    (ended : state.ended)
    (accepted : node ∈ acceptedNodes events) :
    node ∈ executedNodes events ↔ ¬ Late initial events node := by
  have outside := inv.closed ended
  obtain ⟨-, chained⟩ := inv.headless outside
  have past : state.Past := by
    unfold State.Past
    rw [outside, show state.progress = .ended from ended]
    exact ⟨rfl, trivial⟩
  have ran := inv.follows.ran
  rw [inv.late node]
  constructor
  · rintro executed ⟨-, waits⟩
    exact (ran.left distinct (List.mem_append_left _ waits)).2 executed
  · intro early
    have shares := ran.shares.symm.subset accepted
    rw [chained, inv.lost] at shares
    rcases List.mem_append.mp shares with executed | waits
    · exact executed
    · rw [List.nil_append, List.append_nil] at waits
      exact absurd ⟨past, waits⟩ early

end Inv

section Runs

variable
  {ν κ : Type} [DecidableEq ν] [DecidableEq κ] [Fintype κ]
  {isMain keyed : Bool} {initial state : State ν κ}
  {events : List (Event ν κ)}

/-- Distinct statics keep the invariant throughout a history. -/
theorem inv_of_run
    (run : Run Step (State.fresh ν κ isMain keyed) events state)
    (distinct : (calledNodes events).Nodup) :
    ∃ batches, Inv (State.fresh ν κ isMain keyed) events state batches := by
  induction run with
  | refl => exact ⟨_, .fresh isMain keyed⟩
  | @snoc events before after event _ last inductionHypothesis =>
      have shorter : (calledNodes events).Nodup := by
        rw [calledNodes_append] at distinct
        exact (List.nodup_append.mp distinct).1
      obtain ⟨batches, inv⟩ := inductionHypothesis shorter
      exact inv.step distinct last

/-- Until the thread has ended its exit can go on. -/
theorem exit_of_not_ended
    (alive : ¬ state.ended) :
    ∃ event after, event.isExit = true ∧ Step state event after := by
  cases walks : state.stage.walks with
  | true =>
      obtain ⟨after, event, advances⟩ := advance_of_walks walks
      refine ⟨event, after, ?_, .advance advances⟩
      rcases advance_event advances with ⟨r, rfl⟩ | rfl | rfl | rfl
      all_goals rfl
  | false =>
      cases place : state.stage with
      | outside =>
          cases progress : state.progress with
          | alive =>
              cases main : state.isMain with
              | false =>
                  exact ⟨.exit, _, rfl, .exit place progress main⟩
              | true =>
                  cases forced : state.forced with
                  | false =>
                      exact ⟨.forceMainThreadDestructor, _, rfl,
                        .forceMainThreadDestructor place progress main forced⟩
                  | true =>
                      exact ⟨.finish, _, rfl,
                        .finishMain place progress forced⟩
          | round number visited =>
              by_cases all : ∀ key, visited key = true
              · by_cases finished :
                  state.pending = false ∨ destructorIterations ≤ number
                · exact ⟨.finish, _, rfl,
                    .finishRounds place progress all finished⟩
                · obtain ⟨pending, more⟩ := not_or.mp finished
                  exact ⟨.nextRound, _, rfl,
                    .nextRound place progress all
                      (Bool.eq_true_of_not_eq_false pending)
                      (Nat.lt_of_not_le more)⟩
              · obtain ⟨key, turn⟩ := not_forall.mp all
                exact ⟨.visit key, _, rfl,
                  .visit key place progress (Bool.eq_false_of_not_eq_true turn)⟩
          | ended => exact absurd progress alive
      | other => exact ⟨.returned, _, rfl, .returned place⟩
      | _ =>
          rw [place] at walks
          cases walks

/-- A history of which the calls are those of another one. -/
structure Underway
    (initial : State ν κ)
    (events history : List (Event ν κ))
    (state : State ν κ) : Prop where
  inv : ∃ batches, Inv initial history state batches
  called : calledNodes history = calledNodes events
  accepted : acceptedNodes history = acceptedNodes events

/-- Every history may go on, without more calls, until the thread has ended. -/
theorem ends
    {batches : Batches ν}
    (inv : Inv initial events state batches)
    (distinct : (calledNodes events).Nodup) :
    ∃ later final,
      Run Step state later final ∧
        calledNodes (events ++ later) = calledNodes events ∧ final.ended := by
  obtain ⟨later, final, run, -, underway, ended⟩ :=
    Run.completes (Underway initial events) State.ended Event.isExit
      (exitBound κ + 3 * (acceptedNodes events).length)
      (by
        intro history reached underway
        obtain ⟨batches, inv⟩ := underway.inv
        have fuel := inv.fuel
        rw [underway.accepted] at fuel
        exact (Nat.le_add_right _ _).trans fuel)
      (by
        intro history reached underway
        by_cases ended : reached.ended
        · exact .inl ended
        · right
          obtain ⟨event, after, exits, step⟩ := exit_of_not_ended ended
          have silent := effect_exit exits
          have called : calledNodes (history ++ [event]) = calledNodes events := by
            unfold calledNodes
            rw [effects_snoc, Effect.calledNodes_other _ silent]
            exact underway.called
          refine ⟨event, after, exits, step, ?_, called, ?_⟩
          · obtain ⟨batches, inv⟩ := underway.inv
            apply inv.step _ step
            rw [called]
            exact distinct
          · rw [← underway.accepted]
            unfold acceptedNodes
            rw [effects_snoc, Effect.acceptedNodes_other _ silent])
      ⟨⟨batches, inv⟩, rfl, rfl⟩
  exact ⟨later, final, run, underway.called, ended⟩

/--
The thread-exit list keeps its promises exactly if no call is accepted when
`execute_destroy` is over.
-/
theorem exit_correct_iff
    (isMain keyed : Bool)
    (events : List (Event ν κ))
    (state : State ν κ)
    (run : Run Step (State.fresh ν κ isMain keyed) events state)
    (distinct : (calledNodes events).Nodup) :
    Correct events state ↔
      ∀ node, ¬ Late (State.fresh ν κ isMain keyed) events node := by
  obtain ⟨batches, inv⟩ := inv_of_run run distinct
  have ran := inv.follows.ran
  constructor
  · intro correct node late
    obtain ⟨-, waits⟩ := (inv.late node).mp late
    have accepted := (ran.left distinct (List.mem_append_left _ waits)).1
    obtain ⟨later, final, goesOn, called, ended⟩ := ends inv distinct
    have still : (calledNodes (events ++ later)).Nodup := by
      rw [called]
      exact distinct
    have executed :=
      correct.executes later final goesOn still ended node accepted
    obtain ⟨left, whole⟩ := inv_of_run (run.append goesOn) still
    have everywhere : node ∈ acceptedNodes (events ++ later) := by
      rw [acceptedNodes_append]
      exact List.mem_append_left _ accepted
    exact (whole.executed_of_ended still ended everywhere).mp executed
      (late.mono later)
  · intro early
    constructor
    case once => exact ran.once distinct
    case onlyAccepted => exact fun node executed => ran.accepted executed
    case executes =>
      intro later final goesOn still ended node accepted
      obtain ⟨left, whole⟩ := inv_of_run (run.append goesOn) still
      have everywhere : node ∈ acceptedNodes (events ++ later) := by
        rw [acceptedNodes_append]
        exact List.mem_append_left _ accepted
      refine (whole.executed_of_ended still ended everywhere).mpr ?_
      intro late
      rw [calledNodes_append] at still
      have apart := (List.nodup_append.mp still).2.2
      have called := acceptedNodes_subset events accepted
      exact early node (late.before fun again => apart node called node again rfl)
    case proceeds => exact exit_of_not_ended
    case terminates => exact (Nat.le_add_right _ _).trans inv.fuel

/-- Another key's destructor registers a first static in the last round. -/
theorem registered_in_last_round_lost :
    ∃ (events : List (Event Nat Unit)) (state : State Nat Unit),
      Run Step (State.fresh Nat Unit false false) events state ∧
        (calledNodes events).Nodup ∧ state.ended ∧
        0 ∈ acceptedNodes events ∧ 0 ∉ executedNodes events := by
  let events : List (Event Nat Unit) :=
    [.setOther () true, .exit,
      .visit none, .visit (some ()), .setOther () true, .returned, .nextRound,
      .visit none, .visit (some ()), .setOther () true, .returned, .nextRound,
      .visit none, .visit (some ()), .setOther () true, .returned, .nextRound,
      .visit none, .visit (some ()), .finalizeAtThreadExit 0 true true true,
      .returned, .finish]
  have all :
      ∀ key : Key Unit,
        Function.update (Function.update (fun _ => false) none true) (some ())
          true key = true := by
    decide
  obtain ⟨state, run, ended⟩ :
      ∃ state,
        Run Step (State.fresh Nat Unit false false) events state ∧
          state.ended :=
    ⟨_,
      .cons (.setOther () true rfl) <|
        .cons (.exit rfl rfl rfl) <|
        .cons (.visit none rfl rfl rfl) <|
        .cons (.visit (some ()) rfl rfl rfl) <|
        .cons (.setOther () true rfl) <|
        .cons (.returned rfl) <|
        .cons (.nextRound rfl rfl all (by decide) (by decide)) <|
        .cons (.visit none rfl rfl rfl) <|
        .cons (.visit (some ()) rfl rfl rfl) <|
        .cons (.setOther () true rfl) <|
        .cons (.returned rfl) <|
        .cons (.nextRound rfl rfl all (by decide) (by decide)) <|
        .cons (.visit none rfl rfl rfl) <|
        .cons (.visit (some ()) rfl rfl rfl) <|
        .cons (.setOther () true rfl) <|
        .cons (.returned rfl) <|
        .cons (.nextRound rfl rfl all (by decide) (by decide)) <|
        .cons (.visit none rfl rfl rfl) <|
        .cons (.visit (some ()) rfl rfl rfl) <|
        .cons (.finalizeAtThreadExit 0 true true rfl) <|
        .cons (.returned rfl) <|
        .cons (.finishRounds rfl rfl all (.inr (by decide))) .refl,
      rfl⟩
  exact ⟨events, state, run, by decide, ended, by decide, by decide⟩

/-- A finalizer registers a second static, and both are executed in one round. -/
theorem exit_correct_iff_two :
    let events : List (Event Nat Empty) :=
      [.finalizeAtThreadExit 0 true true true, .exit, .visit none, .execute 0,
        .finalizeAtThreadExit 1 true true true, .takeNext, .orElse,
        .execute 1, .takeNext, .orElse, .destroyed, .nextRound, .visit none,
        .destroyed, .finish]
    ∃ state,
      Run Step (State.fresh Nat Empty false false) events state ∧
        state.ended ∧ executedNodes events = [0, 1] ∧
          (Correct events state ↔
            ∀ node,
              ¬ Late (State.fresh Nat Empty false false) events node) := by
  intro events
  have all :
      ∀ key : Key Empty,
        Function.update (fun _ => false) none true key = true := by
    decide
  obtain ⟨state, run, ended⟩ :
      ∃ state,
        Run Step (State.fresh Nat Empty false false) events state ∧
          state.ended :=
    ⟨_,
      .cons (.finalizeAtThreadExit 0 true true rfl) <|
        .cons (.exit rfl rfl rfl) <|
        .cons (.visit none rfl rfl rfl) <|
        .cons (.advance rfl) <|
        .cons (.finalizeAtThreadExit 1 true true rfl) <|
        .cons (.advance rfl) <|
        .cons (.advance rfl) <|
        .cons (.advance rfl) <|
        .cons (.advance rfl) <|
        .cons (.advance rfl) <|
        .cons (.advance rfl) <|
        .cons (.nextRound rfl rfl all (by decide) (by decide)) <|
        .cons (.visit none rfl rfl rfl) <|
        .cons (.advance rfl) <|
        .cons (.finishRounds rfl rfl all (.inl (by decide))) .refl,
      rfl⟩
  exact ⟨state, run, ended, by decide,
    exit_correct_iff false false events state run (by decide)⟩

end Runs

end StaticInit.Pthread
