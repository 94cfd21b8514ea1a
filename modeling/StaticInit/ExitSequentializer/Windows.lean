import StaticInit.Batches

namespace StaticInit.Windows

/-!
# Thread exit with a thread-local storage callback

The loader calls `destroy` when a thread is attached or detached.  At its end
the chain of detached statics is not replaced by what registered meanwhile: the
register is emptied and dropped.
-/

/-- Why the loader calls `destroy`. -/
inductive Reason where
  | processAttach
  | threadAttach
  | threadDetach
  | processDetach
  deriving DecidableEq, Repr

def Reason.detaches (reason : Reason) : Bool :=
  reason == .threadDetach || reason == .processDetach

/-- What a thread is doing. -/
inductive Stage (ν : Type) where
  /-- It runs code outside of `destroy`. -/
  | outside
  /-- At the head of the loop of `destroy`, with its variable `o_ptr`. -/
  | loop (o_ptr : Option ν)
  /-- Inside the call of `execute`. -/
  | executing (r : ν)
  /-- In the closure of `or_else`. -/
  | orElse
  deriving DecidableEq

/-- The statics are nodes; each keeps its `next` link itself. -/
structure State (ν : Type) where
  register : Option ν
  done : Bool
  next : ν → Option ν
  stage : Stage ν

/-- A thread that has just started. -/
def State.fresh (ν : Type) : State ν where
  register := none
  done := false
  next := fun _ => none
  stage := .outside

/-- What happens: a call and its result, or a step of `destroy`. -/
inductive Event (ν : Type) where
  | finalizeAtThreadExit (node : ν) (accepted : Bool)
  /-- `destroy` is called. -/
  | destroy (reason : Reason)
  | execute (node : ν)
  | takeNext
  | orElse
  | finished
  deriving DecidableEq

/-- Code that may call `finalize_at_thread_exit`. -/
def Stage.runsCode {ν : Type} : Stage ν → Bool
  | .outside => true
  | .executing _ => true
  | _ => false

/-- `destroy` is running. -/
def Stage.walks {ν : Type} (stage : Stage ν) : Bool :=
  match stage with
  | .outside => false
  | _ => true

section Steps

variable {ν : Type} [DecidableEq ν]

/-- `finalize_at_thread_exit`. -/
def State.finalizeAtThreadExit
    (state : State ν)
    (st : ν) : State ν × Bool :=
  if state.done then
    (state, false)
  else
    ({ state with
        next := Function.update state.next st state.register
        register := some st },
      true)

/-- The call of `destroy`. -/
def State.destroy (state : State ν) (reason : Reason) : State ν :=
  if reason.detaches then
    { state with register := none, stage := .loop state.register }
  else
    state

/-- The next step of `destroy`. -/
def State.advance (state : State ν) : Option (State ν × Event ν) :=
  match state.stage with
  | .outside => none
  | .loop (some r) => some ({ state with stage := .executing r }, .execute r)
  | .loop none =>
      some ({ state with done := true, stage := .outside }, .finished)
  | .executing r =>
      match state.next r with
      | some next =>
          some
            ({ state with
                next := Function.update state.next r none
                stage := .loop (some next) },
              .takeNext)
      | none => some ({ state with stage := .orElse }, .takeNext)
  | .orElse =>
      -- what is taken from the register is dropped, `o_ptr` stays empty
      some ({ state with register := none, stage := .loop none }, .orElse)

/-- One step, labelled by what happens. -/
inductive Step : State ν → Event ν → State ν → Prop where
  | finalizeAtThreadExit
      {state : State ν}
      (node : ν)
      (runs : state.stage.runsCode = true) :
      Step state
        (.finalizeAtThreadExit node (state.finalizeAtThreadExit node).2)
        (state.finalizeAtThreadExit node).1
  | destroy
      {state : State ν}
      (reason : Reason)
      (outside : state.stage = .outside) :
      Step state (.destroy reason) (state.destroy reason)
  | advance
      {state after : State ν}
      {event : Event ν}
      (advances : state.advance = some (after, event)) :
      Step state event after

end Steps

/-- `destroy` has returned. -/
def State.returned {ν : Type} (state : State ν) : Prop :=
  state.stage = .outside ∧ state.done = true

section Histories

variable {ν : Type}

/-- What an event does to the register. -/
def Event.effect : Event ν → Effect ν
  | .finalizeAtThreadExit node accepted => .called node accepted
  | .destroy reason => if reason.detaches then .detached else .silent
  | .execute node => .executed node
  | .orElse => .discarded
  | _ => .silent

/-- A step of `destroy` after its call. -/
def Event.isDestroy : Event ν → Bool
  | .finalizeAtThreadExit _ _ => false
  | .destroy _ => false
  | _ => true

/-- The statics for which `finalize_at_thread_exit` was called. -/
def calledNodes (events : List (Event ν)) : List ν :=
  Effect.calledNodes (events.map Event.effect)

/-- The statics for which `finalize_at_thread_exit` returned true. -/
def acceptedNodes (events : List (Event ν)) : List ν :=
  Effect.acceptedNodes (events.map Event.effect)

/-- The executed statics. -/
def executedNodes (events : List (Event ν)) : List ν :=
  Effect.executedNodes (events.map Event.effect)

/-- How many steps `destroy` has made. -/
def destroySteps (events : List (Event ν)) : Nat :=
  events.countP Event.isDestroy

/-- How often `destroy` was called. -/
def destroyCalls (events : List (Event ν)) : Nat :=
  events.countP fun event =>
    match event with
    | .destroy _ => true
    | _ => false

/-- Whether `destroy` runs, and what finalizers tried to register. -/
def watch (seen : Bool × List ν) : Event ν → Bool × List ν
  | .finalizeAtThreadExit node _ =>
      (seen.1, if seen.1 then node :: seen.2 else seen.2)
  | .destroy reason => (seen.1 || reason.detaches, seen.2)
  | .finished => (false, seen.2)
  | _ => seen

/-- The statics for which a finalizer called `finalize_at_thread_exit`. -/
def calledByFinalizers (events : List (Event ν)) : List ν :=
  (events.foldl watch (false, [])).2

end Histories

section Events

variable {ν : Type} [DecidableEq ν] {state after : State ν} {event : Event ν}

/-- `destroy` makes steps that are its own. -/
theorem advance_isDestroy
    (advances : state.advance = some (after, event)) :
    event.isDestroy = true := by
  unfold State.advance at advances
  split at advances
  case h_1 => cases advances
  case h_4 =>
    split at advances
    all_goals cases advances; rfl
  all_goals cases advances; rfl

/-- `destroy` goes on or returns. -/
theorem advance_stage
    (advances : state.advance = some (after, event)) :
    after.stage.walks = true ∨ after.returned := by
  unfold State.advance at advances
  split at advances
  case h_1 => cases advances
  case h_3 =>
    cases advances
    exact .inr ⟨rfl, rfl⟩
  case h_4 =>
    split at advances
    all_goals cases advances; exact .inl rfl
  all_goals cases advances; exact .inl rfl

/-- While `destroy` runs it can go on. -/
theorem advance_of_walks
    (walks : state.stage.walks = true) :
    ∃ after event, state.advance = some (after, event) := by
  unfold State.advance
  split
  case h_1 outside =>
    rw [outside] at walks
    cases walks
  case h_4 =>
    split
    all_goals exact ⟨_, _, rfl⟩
  all_goals exact ⟨_, _, rfl⟩

end Events

section Histories

variable {ν : Type} (events : List (Event ν)) {event : Event ν}

theorem effects_snoc (event : Event ν) :
    (events ++ [event]).map Event.effect =
      events.map Event.effect ++ [event.effect] :=
  List.map_append

/-- A step of `destroy` calls nothing. -/
theorem effect_destroy (destroys : event.isDestroy = true) :
    event.effect.isCall = false := by
  cases event with
  | finalizeAtThreadExit node accepted => cases destroys
  | destroy reason => cases destroys
  | _ => rfl

theorem destroySteps_destroy (destroys : event.isDestroy = true) :
    destroySteps (events ++ [event]) = destroySteps events + 1 := by
  simp [destroySteps, destroys]

theorem destroyCalls_destroy (destroys : event.isDestroy = true) :
    destroyCalls (events ++ [event]) = destroyCalls events := by
  cases event with
  | destroy reason => cases destroys
  | _ => simp [destroyCalls]

theorem destroySteps_other (other : event.isDestroy = false) :
    destroySteps (events ++ [event]) = destroySteps events := by
  simp [destroySteps, other]

theorem watch_snoc (event : Event ν) :
    (events ++ [event]).foldl watch (false, []) =
      watch (events.foldl watch (false, [])) event := by
  rw [List.foldl_append]
  rfl

theorem calledByFinalizers_destroy (destroys : event.isDestroy = true) :
    calledByFinalizers (events ++ [event]) = calledByFinalizers events := by
  unfold calledByFinalizers
  rw [watch_snoc]
  cases event with
  | finalizeAtThreadExit node accepted => cases destroys
  | _ => rfl

theorem calledNodes_append (earlier later : List (Event ν)) :
    calledNodes (earlier ++ later) = calledNodes earlier ++ calledNodes later := by
  unfold calledNodes
  rw [List.map_append, Effect.calledNodes_append]

theorem acceptedNodes_append (earlier later : List (Event ν)) :
    acceptedNodes (earlier ++ later) =
      acceptedNodes earlier ++ acceptedNodes later := by
  unfold acceptedNodes
  rw [List.map_append, Effect.acceptedNodes_append]

theorem acceptedNodes_subset : acceptedNodes events ⊆ calledNodes events :=
  (Effect.acceptedNodes_sublist _).subset

/-- What finalizers called stays recorded. -/
theorem calledByFinalizers_mono (later : List (Event ν)) :
    calledByFinalizers events ⊆ calledByFinalizers (events ++ later) := by
  unfold calledByFinalizers
  rw [List.foldl_append]
  generalize events.foldl watch (false, []) = seen
  induction later generalizing seen with
  | nil => exact List.Subset.refl _
  | cons event later inductionHypothesis =>
      refine List.Subset.trans ?_ (inductionHypothesis (watch seen event))
      cases event with
      | finalizeAtThreadExit node accepted =>
          dsimp only [watch]
          split
          case isTrue => exact List.subset_cons_self _ _
          case isFalse => exact List.Subset.refl _
      | _ => exact List.Subset.refl _

/-- A finalizer's call is a call. -/
theorem calledByFinalizers_subset
    {node : ν}
    (later : List (Event ν))
    (seen : Bool × List ν)
    (member : node ∈ (later.foldl watch seen).2) :
    node ∈ seen.2 ∨ node ∈ calledNodes later := by
  induction later generalizing seen with
  | nil => exact .inl member
  | cons event later inductionHypothesis =>
      have called : calledNodes later ⊆ calledNodes (event :: later) := by
        rw [← List.singleton_append, calledNodes_append]
        exact List.subset_append_right _ _
      rcases inductionHypothesis (watch seen event) member with first | rest
      · cases event with
        | finalizeAtThreadExit other accepted =>
            dsimp only [watch] at first
            split at first
            case isTrue =>
              rcases List.mem_cons.mp first with rfl | before
              · exact .inr List.mem_cons_self
              · exact .inl before
            case isFalse => exact .inl first
        | _ => exact .inl first
      · exact .inr (called rest)

end Histories

/-- What the thread-exit list promises at some point of a history. -/
structure Correct
    {ν : Type}
    [DecidableEq ν]
    (events : List (Event ν))
    (state : State ν) : Prop where
  once : (executedNodes events).Nodup
  onlyAccepted : ∀ node ∈ executedNodes events, node ∈ acceptedNodes events
  /-- However the history goes on, at the end all statics are executed. -/
  executes :
    ∀ later final,
      Run Step state later final →
        (calledNodes (events ++ later)).Nodup →
          final.returned →
            ∀ node ∈ acceptedNodes events,
              node ∈ executedNodes (events ++ later)
  refuses :
    state.returned →
      ∀ node, state.finalizeAtThreadExit node = (state, false)
  proceeds :
    state.stage.walks = true → ∃ event after, event.isDestroy = true ∧ Step state event after
  terminates :
    destroySteps events ≤
      3 * (acceptedNodes events).length + destroyCalls events

/-- Where the chain that is being executed goes on. -/
def State.head {ν : Type} (state : State ν) : Option ν :=
  match state.stage with
  | .loop o_ptr => o_ptr
  | .executing r => state.next r
  | _ => none

/-- How many steps a stage takes at most, but for the nodes. -/
def Stage.fuel {ν : Type} : Stage ν → Nat
  | .outside => 0
  | .loop _ => 1
  | .executing _ => 3
  | .orElse => 2

/-- The register of a thread follows the batches, and gives up what comes late. -/
structure Inv
    {ν : Type}
    [DecidableEq ν]
    (events : List (Event ν))
    (state : State ν)
    (batches : Batches ν) : Prop where
  follows :
    Follows (events.map Event.effect) state.next state.register state.head
      batches
  watched : (events.foldl watch (false, [])).1 = state.stage.walks
  late :
    ∀ node,
      node ∈ calledByFinalizers events ↔
        node ∈ batches.lost ∨
          state.stage.walks = true ∧ node ∈ batches.waiting
  emptied : state.stage = .loop none → state.register = none
  closed :
    state.done = true →
      state.register = none ∧
        (state.stage = .outside ∨ state.stage = .loop none)
  executed :
    ∀ r, state.stage = .executing r → r ∈ executedNodes events
  fuel :
    destroySteps events +
        (3 * (batches.chain.length + batches.waiting.length) +
          state.stage.fuel) ≤
      3 * (acceptedNodes events).length + destroyCalls events

namespace Inv

variable
  {ν : Type} [DecidableEq ν] {events : List (Event ν)}
  {state after : State ν} {batches : Batches ν} {event : Event ν}

/-- A thread that has just started. -/
theorem fresh (ν : Type) [DecidableEq ν] :
    Inv [] (State.fresh ν) Batches.empty where
  follows := .fresh
  watched := rfl
  late node := by simp [calledByFinalizers, Batches.empty, State.fresh, Stage.walks]
  emptied := nofun
  closed := nofun
  executed := nofun
  fuel := Nat.le_refl _

/-- A static is refused after `destroy`. -/
theorem refuse
    {node : ν}
    (inv : Inv events state batches)
    (outside : state.stage = .outside) :
    Inv (events ++ [.finalizeAtThreadExit node false]) state batches := by
  have walks : state.stage.walks = false := by
    rw [outside]
    rfl
  have watched := inv.watched
  rw [walks] at watched
  have same :
      (events ++ [Event.finalizeAtThreadExit node false]).foldl watch
          (false, []) =
        events.foldl watch (false, []) := by
    rw [watch_snoc]
    apply Prod.ext
    · rfl
    · dsimp only [watch]
      rw [watched, if_neg Bool.false_ne_true]
  constructor
  case follows =>
    rw [effects_snoc]
    exact inv.follows.refuse
  case watched =>
    rw [same]
    exact inv.watched
  case late =>
    unfold calledByFinalizers
    rw [same]
    exact inv.late
  case emptied => exact inv.emptied
  case closed => exact inv.closed
  case executed =>
    intro r place
    rw [outside] at place
    cases place
  case fuel =>
    have accepted :
        acceptedNodes (events ++ [Event.finalizeAtThreadExit node false]) =
          acceptedNodes events := by
      unfold acceptedNodes
      rw [effects_snoc]
      exact Effect.acceptedNodes_refused _ node
    have calls :
        destroyCalls (events ++ [Event.finalizeAtThreadExit node false]) =
          destroyCalls events := by
      simp [destroyCalls]
    rw [destroySteps_other events rfl, accepted, calls]
    exact inv.fuel

/-- A static is registered; late, if by a finalizer. -/
theorem accept
    {node : ν}
    (inv : Inv events state batches)
    (fresh : node ∉ calledNodes events)
    (runs : state.stage.runsCode = true)
    (opened : state.done = false) :
    Inv (events ++ [.finalizeAtThreadExit node true])
      { state with
        next := Function.update state.next node state.register
        register := some node }
      { batches with waiting := node :: batches.waiting } := by
  have follows := inv.follows.accept fresh
  have notExecuted : ∀ r, state.stage = .executing r → r ≠ node := by
    rintro r place rfl
    have executed := inv.follows.ran.accepted (inv.executed r place)
    exact fresh ((Effect.acceptedNodes_sublist _).subset executed)
  constructor
  case follows =>
    rw [effects_snoc]
    have head :
        state.head =
          match state.stage with
          | .loop o_ptr => o_ptr
          | .executing r =>
              Function.update state.next node state.register r
          | _ => none := by
      unfold State.head
      cases place : state.stage with
      | executing r =>
          dsimp only
          rw [Function.update_of_ne (notExecuted r place)]
      | _ => rfl
    rw [head] at follows
    exact follows
  case watched =>
    rw [watch_snoc]
    exact inv.watched
  case late =>
    intro other
    have late := inv.late other
    have watched := inv.watched
    unfold calledByFinalizers at late ⊢
    rw [watch_snoc]
    dsimp only [watch]
    rw [watched]
    cases walks : state.stage.walks with
    | true =>
        rw [walks] at late
        simp only [if_true, List.mem_cons, late, true_and]
        exact or_left_comm
    | false =>
        rw [walks] at late
        simpa using late
  case emptied =>
    intro ended
    rw [show state.stage = .loop none from ended] at runs
    cases runs
  case closed =>
    intro done
    rw [show state.done = true from done] at opened
    cases opened
  case executed =>
    intro r place
    unfold executedNodes
    rw [effects_snoc, Effect.executedNodes_other _ rfl]
    exact inv.executed r place
  case fuel =>
    have fuel := inv.fuel
    have accepted :
        acceptedNodes (events ++ [Event.finalizeAtThreadExit node true]) =
          acceptedNodes events ++ [node] := by
      unfold acceptedNodes
      rw [effects_snoc]
      exact Effect.acceptedNodes_accepted _ node
    have calls :
        destroyCalls (events ++ [Event.finalizeAtThreadExit node true]) =
          destroyCalls events := by
      simp [destroyCalls]
    rw [destroySteps_other events rfl, accepted, calls, List.length_append,
      List.length_singleton, List.length_cons]
    dsimp only
    omega

/-- A call of `finalize_at_thread_exit`. -/
theorem finalizeAtThreadExit
    {node : ν}
    (inv : Inv events state batches)
    (fresh : node ∉ calledNodes events)
    (runs : state.stage.runsCode = true) :
    ∃ newer,
      Inv
        (events ++
          [.finalizeAtThreadExit node (state.finalizeAtThreadExit node).2])
        (state.finalizeAtThreadExit node).1 newer := by
  unfold State.finalizeAtThreadExit
  cases done : state.done with
  | true =>
      rw [if_pos rfl]
      rcases (inv.closed done).2 with outside | ended
      · exact ⟨batches, inv.refuse outside⟩
      · rw [ended] at runs
        cases runs
  | false =>
      rw [if_neg Bool.false_ne_true, ← done]
      exact ⟨_, inv.accept fresh runs done⟩

/-- The call of `destroy`. -/
theorem destroy
    (inv : Inv events state batches)
    (reason : Reason)
    (outside : state.stage = .outside) :
    ∃ newer,
      Inv (events ++ [.destroy reason]) (state.destroy reason) newer := by
  have walks : state.stage.walks = false := by
    rw [outside]
    rfl
  have watched := inv.watched
  rw [walks] at watched
  have follows := inv.follows
  have headless : state.head = none := by
    rw [State.head, outside]
  rw [headless] at follows
  have ended := Chain.none_iff.mp follows.chain
  have accepted :
      acceptedNodes (events ++ [Event.destroy reason]) =
        acceptedNodes events := by
    unfold acceptedNodes
    rw [effects_snoc]
    apply Effect.acceptedNodes_other
    unfold Event.effect
    dsimp only
    split
    case isTrue => rfl
    case isFalse => rfl
  have calls :
      destroyCalls (events ++ [Event.destroy reason]) =
        destroyCalls events + 1 := by
    simp [destroyCalls]
  have fuel := inv.fuel
  rw [outside, ended] at fuel
  unfold State.destroy
  cases detaches : reason.detaches with
  | true =>
      rw [if_pos rfl]
      refine ⟨{ batches with waiting := [], chain := batches.waiting },
        ?_, ?_, ?_, ?_, ?_, nofun, ?_⟩
      · rw [effects_snoc, Event.effect, if_pos detaches]
        exact follows.detach
      · rw [watch_snoc]
        simp [watch, detaches, Stage.walks]
      · intro node
        have late := inv.late node
        unfold calledByFinalizers at late ⊢
        rw [watch_snoc]
        rw [walks] at late
        simpa [watch] using late
      · exact fun _ => rfl
      · intro done
        obtain ⟨empty, -⟩ := inv.closed done
        exact ⟨rfl, .inr (congrArg Stage.loop empty)⟩
      · rw [destroySteps_other events rfl, accepted, calls]
        dsimp only [Stage.fuel, List.length_nil] at fuel ⊢
        omega
  | false =>
      rw [if_neg Bool.false_ne_true]
      have same :
          (events ++ [Event.destroy reason]).foldl watch (false, []) =
            events.foldl watch (false, []) := by
        rw [watch_snoc]
        apply Prod.ext
        · dsimp only [watch]
          rw [detaches, Bool.or_false]
        · rfl
      refine ⟨batches, ?_, ?_, ?_, inv.emptied, inv.closed, ?_, ?_⟩
      · rw [effects_snoc, Event.effect, detaches,
          if_neg Bool.false_ne_true, headless]
        exact follows.silent
      · rw [same]
        exact inv.watched
      · unfold calledByFinalizers
        rw [same]
        exact inv.late
      · intro r place
        rw [outside] at place
        cases place
      · rw [destroySteps_other events rfl, accepted, calls, ended, outside]
        dsimp only [Stage.fuel, List.length_nil] at fuel ⊢
        omega

/-- A step of `destroy`, from what it does to the register. -/
theorem moves
    {newer : Batches ν}
    (inv : Inv events state batches)
    (destroys : event.isDestroy = true)
    (follows :
      Follows (events.map Event.effect ++ [event.effect]) after.next
        after.register after.head newer)
    (watched :
      (watch (events.foldl watch (false, [])) event).1 = after.stage.walks)
    (late :
      ∀ node,
        node ∈ newer.lost ∨
            after.stage.walks = true ∧ node ∈ newer.waiting ↔
          node ∈ batches.lost ∨ node ∈ batches.waiting)
    (walks : state.stage.walks = true)
    (emptied : after.stage = .loop none → after.register = none)
    (closed :
      after.done = true →
        after.register = none ∧
          (after.stage = .outside ∨ after.stage = .loop none))
    (executed :
      ∀ r, after.stage = .executing r →
        r ∈ executedNodes (events ++ [event]))
    (fuel :
      3 * (newer.chain.length + newer.waiting.length) +
          after.stage.fuel + 1 ≤
        3 * (batches.chain.length + batches.waiting.length) +
          state.stage.fuel) :
    Inv (events ++ [event]) after newer := by
  have accepted : acceptedNodes (events ++ [event]) = acceptedNodes events := by
    unfold acceptedNodes
    rw [effects_snoc]
    exact Effect.acceptedNodes_other _ (effect_destroy destroys)
  rw [← effects_snoc] at follows
  rw [← watch_snoc] at watched
  refine ⟨follows, watched, ?_, emptied, closed, executed, ?_⟩
  · intro node
    have before := inv.late node
    rw [calledByFinalizers_destroy events destroys, late node, before, walks]
    simp
  · have before := inv.fuel
    rw [destroySteps_destroy events destroys, accepted,
      destroyCalls_destroy events destroys]
    omega

/-- `destroy` keeps the invariant. -/
theorem advance
    (inv : Inv events state batches)
    (distinct : (calledNodes events).Nodup)
    (advances : state.advance = some (after, event)) :
    ∃ newer, Inv (events ++ [event]) after newer := by
  have watched := inv.watched
  have follows := inv.follows
  unfold State.head at follows
  unfold State.advance at advances
  cases place : state.stage with
  | outside =>
      rw [place] at advances
      cases advances
  | loop o_ptr =>
      have walks : state.stage.walks = true := by
        rw [place]
        rfl
      rw [place] at advances follows
      cases o_ptr with
      | none =>
          cases advances
          have empty := inv.emptied place
          have none := follows.waiting
          rw [empty] at none
          have nobody := Chain.none_iff.mp none
          refine ⟨batches, inv.moves rfl follows.silent rfl ?_ walks nofun
            ?_ nofun ?_⟩
          · intro node
            simp [nobody, Stage.walks]
          · exact fun _ => ⟨empty, .inl rfl⟩
          · rw [place]
            exact Nat.le_refl _
      | some r =>
          cases advances
          obtain ⟨later, same, -⟩ := Chain.some_iff.mp follows.chain
          refine ⟨_, inv.moves rfl follows.execute ?_ ?_ walks nofun ?_ ?_ ?_⟩
          · exact watched.trans walks
          · intro node
            simp [Stage.walks]
          · intro done
            rcases (inv.closed done).2 with outside | ended
            · rw [place] at outside
              cases outside
            · rw [place] at ended
              cases ended
          · intro r executing
            obtain rfl := Stage.executing.inj executing
            unfold executedNodes
            rw [effects_snoc]
            dsimp only [Event.effect]
            rw [Effect.executedNodes_executed]
            exact List.mem_append_right _ (List.mem_singleton_self _)
          · rw [place, same]
            dsimp only [Stage.fuel, List.length_cons, List.tail_cons]
            omega
  | executing r =>
      have walks : state.stage.walks = true := by
        rw [place]
        rfl
      have opened : state.done ≠ true := by
        intro done
        rcases (inv.closed done).2 with outside | ended
        · rw [place] at outside
          cases outside
        · rw [place] at ended
          cases ended
      rw [place] at advances follows
      dsimp only at advances follows
      split at advances
      case h_1 next linked =>
        cases advances
        rw [linked] at follows
        refine ⟨batches, inv.moves rfl
          (follows.unlink distinct (inv.executed r place)).silent
          (watched.trans walks) ?_ walks nofun
          (fun done => absurd done opened) nofun ?_⟩
        · intro node
          simp [Stage.walks]
        · rw [place]
          dsimp only [Stage.fuel]
          omega
      case h_2 ended =>
        cases advances
        rw [ended] at follows
        refine ⟨batches, inv.moves rfl follows.silent
          (watched.trans walks) ?_ walks nofun
          (fun done => absurd done opened) nofun ?_⟩
        · intro node
          simp [Stage.walks]
        · rw [place]
          dsimp only [Stage.fuel]
          omega
  | orElse =>
      have walks : state.stage.walks = true := by
        rw [place]
        rfl
      rw [place] at advances follows
      cases advances
      refine ⟨_, inv.moves rfl follows.discard (watched.trans walks) ?_ walks
        (fun _ => rfl) (fun _ => ⟨rfl, .inr rfl⟩) nofun ?_⟩
      · intro node
        simp [Stage.walks, or_comm]
      · rw [place]
        dsimp only [Stage.fuel, List.length_nil]
        omega

/-- Every event keeps the invariant. -/
theorem step
    (inv : Inv events state batches)
    (distinct : (calledNodes (events ++ [event])).Nodup)
    (step : Step state event after) :
    ∃ newer, Inv (events ++ [event]) after newer := by
  have shorter : (calledNodes events).Nodup := by
    rw [calledNodes_append] at distinct
    exact (List.nodup_append.mp distinct).1
  cases step with
  | finalizeAtThreadExit node runs =>
      apply inv.finalizeAtThreadExit _ runs
      intro member
      rw [calledNodes_append] at distinct
      have apart := (List.nodup_append.mp distinct).2.2
      exact apart node member node (List.mem_singleton_self node) rfl
  | destroy reason outside => exact inv.destroy reason outside
  | advance advances => exact inv.advance shorter advances

/-- At the end every static is executed, but those that were registered late. -/
theorem executed_of_returned
    {node : ν}
    (inv : Inv events state batches)
    (distinct : (calledNodes events).Nodup)
    (returned : state.returned)
    (accepted : node ∈ acceptedNodes events) :
    node ∈ executedNodes events ↔ node ∉ calledByFinalizers events := by
  obtain ⟨outside, done⟩ := returned
  have chain := inv.follows.chain
  rw [State.head, outside] at chain
  have chained := Chain.none_iff.mp chain
  have waiting := inv.follows.waiting
  rw [(inv.closed done).1] at waiting
  have waits := Chain.none_iff.mp waiting
  have late := inv.late node
  rw [waits, outside] at late
  rw [late]
  have ran := inv.follows.ran
  constructor
  · rintro executed (lost | ⟨walks, -⟩)
    · exact (ran.left distinct (List.mem_append_right _ lost)).2 executed
    · cases walks
  · intro kept
    have shares := ran.shares.symm.subset accepted
    rw [chained, waits] at shares
    rcases List.mem_append.mp shares with executed | lost
    · exact executed
    · exact absurd (.inl lost) kept

end Inv

section Runs

variable {ν : Type} [DecidableEq ν] {events : List (Event ν)} {state : State ν}

/-- Distinct statics keep the invariant throughout a history. -/
theorem inv_of_run
    (run : Run Step (State.fresh ν) events state)
    (distinct : (calledNodes events).Nodup) :
    ∃ batches, Inv events state batches := by
  induction run with
  | refl => exact ⟨_, .fresh ν⟩
  | @snoc events before after event _ last inductionHypothesis =>
      have shorter : (calledNodes events).Nodup := by
        rw [calledNodes_append] at distinct
        exact (List.nodup_append.mp distinct).1
      obtain ⟨batches, inv⟩ := inductionHypothesis shorter
      exact inv.step distinct last

/-- A history in which `destroy` goes on, or has returned. -/
structure Underway
    (events history : List (Event ν))
    (state : State ν) : Prop where
  inv : ∃ batches, Inv history state batches
  distinct : (calledNodes history).Nodup
  accepted : acceptedNodes history = acceptedNodes events
  calls : destroyCalls history = destroyCalls events
  stage : state.stage.walks = true ∨ state.returned

/-- `destroy` goes on until it returns. -/
theorem Underway.returns
    (underway : Underway events events state) :
    ∃ later final,
      Run Step state later final ∧
        (∀ event ∈ later, event.isDestroy = true) ∧ final.returned := by
  obtain ⟨later, final, run, own, -, returned⟩ :=
    Run.completes (Underway events) State.returned Event.isDestroy
      (3 * (acceptedNodes events).length + destroyCalls events)
      (by
        intro history reached underway
        obtain ⟨batches, inv⟩ := underway.inv
        have fuel := inv.fuel
        rw [underway.accepted, underway.calls] at fuel
        exact (Nat.le_add_right _ _).trans fuel)
      (by
        intro history reached underway
        rcases underway.stage with walks | returned
        · right
          obtain ⟨batches, inv⟩ := underway.inv
          obtain ⟨after, event, advances⟩ := advance_of_walks walks
          have destroys := advance_isDestroy advances
          have silent := effect_destroy destroys
          refine ⟨event, after, destroys, Step.advance advances, ?_⟩
          constructor
          case inv => exact inv.advance underway.distinct advances
          case distinct =>
            unfold calledNodes
            rw [effects_snoc, Effect.calledNodes_other _ silent]
            exact underway.distinct
          case accepted =>
            rw [← underway.accepted]
            unfold acceptedNodes
            rw [effects_snoc, Effect.acceptedNodes_other _ silent]
          case calls =>
            rw [destroyCalls_destroy history destroys]
            exact underway.calls
          case stage => exact advance_stage advances
        · exact .inl returned)
      underway
  exact ⟨later, final, run, own, returned⟩

omit [DecidableEq ν] in
theorem calledNodes_destroySteps
    {later : List (Event ν)}
    (own : ∀ event ∈ later, event.isDestroy = true) :
    calledNodes later = [] := by
  induction later with
  | nil => rfl
  | cons event later inductionHypothesis =>
      rw [List.forall_mem_cons] at own
      have rest := inductionHypothesis own.2
      have destroys := own.1
      cases event with
      | finalizeAtThreadExit node accepted => cases destroys
      | destroy reason => cases destroys
      | _ => exact rest

/-- Every history may go on, without more calls, until `destroy` has returned. -/
theorem returns
    (run : Run Step (State.fresh ν) events state)
    (distinct : (calledNodes events).Nodup) :
    ∃ later final,
      Run Step state later final ∧ calledNodes later = [] ∧
        final.returned := by
  obtain ⟨batches, inv⟩ := inv_of_run run distinct
  cases walks : state.stage.walks with
  | true =>
      have underway : Underway events events state :=
        ⟨⟨batches, inv⟩, distinct, rfl, rfl, .inl walks⟩
      obtain ⟨later, final, goesOn, own, returned⟩ := underway.returns
      exact ⟨later, final, goesOn, calledNodes_destroySteps own, returned⟩
  | false =>
      have outside : state.stage = .outside := by
        cases place : state.stage with
        | outside => rfl
        | _ =>
            rw [place] at walks
            cases walks
      let begins : Event ν := .destroy .threadDetach
      have unchanged : calledNodes (events ++ [begins]) = calledNodes events := by
        rw [calledNodes_append]
        exact List.append_nil _
      have again : (calledNodes (events ++ [begins])).Nodup := by
        rw [unchanged]
        exact distinct
      have underway :
          Underway (events ++ [begins]) (events ++ [begins])
            (state.destroy .threadDetach) :=
        ⟨inv.destroy .threadDetach outside, again, rfl, rfl, .inl rfl⟩
      obtain ⟨later, final, goesOn, own, returned⟩ := underway.returns
      refine ⟨begins :: later, final,
        .cons (.destroy .threadDetach outside) goesOn, ?_, returned⟩
      exact (calledNodes_append [begins] later).trans
        (calledNodes_destroySteps own)

/--
The thread-exit list keeps its promises exactly if no finalizer registers a
static while `destroy` runs.
-/
theorem destroy_correct_iff
    (events : List (Event ν))
    (state : State ν)
    (run : Run Step (State.fresh ν) events state)
    (distinct : (calledNodes events).Nodup) :
    Correct events state ↔ calledByFinalizers events = [] := by
  obtain ⟨batches, inv⟩ := inv_of_run run distinct
  constructor
  · intro correct
    by_contra some
    obtain ⟨node, late⟩ := List.exists_mem_of_ne_nil _ some
    have waits : node ∈ batches.waiting ++ batches.lost := by
      rcases (inv.late node).mp late with lost | ⟨-, waiting⟩
      · exact List.mem_append_right _ lost
      · exact List.mem_append_left _ waiting
    have accepted := (inv.follows.ran.left distinct waits).1
    obtain ⟨later, final, goesOn, uncalled, returned⟩ := returns run distinct
    have still : (calledNodes (events ++ later)).Nodup := by
      rw [calledNodes_append, uncalled, List.append_nil]
      exact distinct
    have executed :=
      correct.executes later final goesOn still returned node accepted
    obtain ⟨ended, whole⟩ := inv_of_run (run.append goesOn) still
    have everywhere : node ∈ acceptedNodes (events ++ later) := by
      rw [acceptedNodes_append]
      exact List.mem_append_left _ accepted
    exact (whole.executed_of_returned still returned everywhere).mp executed
      (calledByFinalizers_mono events later late)
  · intro none
    have ran := inv.follows.ran
    constructor
    case once => exact ran.once distinct
    case onlyAccepted => exact fun node executed => ran.accepted executed
    case executes =>
      intro later final goesOn still returned node accepted
      obtain ⟨ended, whole⟩ := inv_of_run (run.append goesOn) still
      have everywhere : node ∈ acceptedNodes (events ++ later) := by
        rw [acceptedNodes_append]
        exact List.mem_append_left _ accepted
      refine (whole.executed_of_returned still returned everywhere).mpr ?_
      intro late
      unfold calledByFinalizers at late none
      rw [List.foldl_append] at late
      rcases calledByFinalizers_subset later _ late with before | called
      · rw [none] at before
        cases before
      · rw [calledNodes_append] at still
        have apart := (List.nodup_append.mp still).2.2
        exact apart node (acceptedNodes_subset events accepted) node called rfl
    case refuses =>
      rintro ⟨-, done⟩ node
      rw [State.finalizeAtThreadExit, if_pos done]
    case proceeds =>
      intro walks
      obtain ⟨after, event, advances⟩ := advance_of_walks walks
      exact ⟨event, after, advance_isDestroy advances, .advance advances⟩
    case terminates => exact (Nat.le_add_right _ _).trans inv.fuel

/-- A finalizer registers a second static, and it is dropped from the register. -/
theorem registered_by_finalizer_lost :
    ∃ (events : List (Event Nat)) (state : State Nat),
      Run Step (State.fresh Nat) events state ∧ state.returned ∧
        1 ∈ acceptedNodes events ∧ 1 ∉ executedNodes events := by
  let events : List (Event Nat) :=
    [.finalizeAtThreadExit 0 true, .destroy .threadDetach, .execute 0,
      .finalizeAtThreadExit 1 true, .takeNext, .orElse, .finished]
  obtain ⟨state, run, returned⟩ :
      ∃ state,
        Run Step (State.fresh Nat) events state ∧ state.returned :=
    ⟨_,
      .cons (.finalizeAtThreadExit 0 rfl) <|
        .cons (.destroy .threadDetach rfl) <|
        .cons (.advance rfl) <|
        .cons (.finalizeAtThreadExit 1 rfl) <|
        .cons (.advance rfl) <|
        .cons (.advance rfl) <|
        .cons (.advance rfl) .refl,
      rfl, rfl⟩
  exact ⟨events, state, run, returned, by decide, by decide⟩

/-- Two statics register before the thread is detached, and one is refused after. -/
theorem destroy_correct_iff_two :
    let events : List (Event Nat) :=
      [.finalizeAtThreadExit 0 true, .finalizeAtThreadExit 1 true,
        .destroy .threadDetach, .execute 1, .takeNext, .execute 0, .takeNext,
        .orElse, .finished, .finalizeAtThreadExit 2 false]
    ∃ state,
      Run Step (State.fresh Nat) events state ∧
        state.returned ∧ executedNodes events = [1, 0] ∧
          (Correct events state ↔ calledByFinalizers events = []) := by
  intro events
  obtain ⟨state, run, returned⟩ :
      ∃ state,
        Run Step (State.fresh Nat) events state ∧ state.returned :=
    ⟨_,
      .cons (.finalizeAtThreadExit 0 rfl) <|
        .cons (.finalizeAtThreadExit 1 rfl) <|
        .cons (.destroy .threadDetach rfl) <|
        .cons (.advance rfl) <|
        .cons (.advance rfl) <|
        .cons (.advance rfl) <|
        .cons (.advance rfl) <|
        .cons (.advance rfl) <|
        .cons (.advance rfl) <|
        .cons (.finalizeAtThreadExit 2 rfl) .refl,
      rfl, rfl⟩
  exact ⟨state, run, returned, by decide,
    destroy_correct_iff events state run (by decide)⟩

end Runs

end StaticInit.Windows
