import StaticInit.PhaseLocker.Sync.Invariant

namespace StaticInit.Sync

/-!
# How the step of a thread ends

`State.ending` is the end of the local code after the instruction of an
action: the place where the thread goes on, or the result that it returns.
`actorStep` says what a step does to its own thread; what every end of the
instruction has in common holds after the step.
-/

/-- Every way an instruction can end has a property of the word and the code. -/
def Instr.Ends
    (word : U32)
    (property : U32 → Next → Prop) : Instr → Prop
  | .fetch update next => property (update word) (next word)
  | .exchange _ cur new ok err =>
      (word = cur → property new ok) ∧ property word (err word)
  | .fetchWriterCount _ next => ∀ count, property word (next count)
  | .fetchFairness _ next => ∀ fairness, property word (next fairness)
  | .wait _ parked failed =>
      property word (.goto parked) ∧ property word failed
  | .wakeOneWriter next => ∀ woken, property word (next woken)
  | .wakeReaders next => ∀ count, property word (next count)
  | .rest => True

namespace State

variable {ι : Type} [DecidableEq ι] [Fintype ι]

/-- The end of the local code after an instruction that is not a wake. -/
def runEnding (state : State ι) (spurious : Bool) : Instr → Option Next
  | .fetch _ next => some (next state.word)
  | .exchange weak cur _ ok err =>
      some <|
        if state.word = cur ∧ (weak && spurious) = false then
          ok
        else
          err state.word
  | .fetchWriterCount _ next => some (next state.writerCount)
  | .fetchFairness _ next => some (next state.fairness)
  | .wait value parked failed =>
      some (if state.word = value then .goto parked else failed)
  | _ => none

/-- The end of the local code after a wake. -/
def wakeEnding (picked : List ι) : Instr → Option Next
  | .wakeOneWriter next => some (next (picked.length == 1))
  | .wakeReaders next => some (next picked.length)
  | _ => none

/-- The end of the local code after the instruction of an action. -/
def ending (backend : Backend) (state : State ι) : Action ι → Option Next
  | .run actor spurious =>
      state.runEnding spurious ((state.thread actor).pc.instr backend)
  | .wake actor picked =>
      wakeEnding picked ((state.thread actor).pc.instr backend)
  | _ => none

/-- What a step does to its own thread. -/
inductive ActorStep
    (backend : Backend)
    (state after : State ι) : Action ι → Prop where
  | start
      {actor : ι}
      {op : UserOp}
      {thread : Thread}
      (starts : (state.thread actor).start op = some thread)
      (result : after = state.setThread actor thread) :
      ActorStep backend state after (.start actor op)
  | interrupt
      {actor : ι}
      {pc : Pc}
      (interrupts : (state.thread actor).pc.interrupted = some pc)
      (result :
        after =
          state.setThread actor { state.thread actor with pc := pc }) :
      ActorStep backend state after (.interrupt actor)
  | instruction
      {action : Action ι}
      {next : Next}
      (ending : state.ending backend action = some next)
      (continues :
        (state.thread action.actor).continue next =
          .ok (after.thread action.actor))
      (ends :
        ∀ property : U32 → Next → Prop,
          ((state.thread action.actor).pc.instr backend).Ends
              state.word property →
            property after.word next) :
      ActorStep backend state after action

omit [Fintype ι] in
/-- Its own thread and the word after the end of local code. -/
theorem finish_actor
    {state after : State ι}
    {actor : ι}
    {next : Next}
    (finishes : state.finish actor next = .ok after) :
    (state.thread actor).continue next = .ok (after.thread actor) ∧
      after.word = state.word := by
  obtain ⟨thread, continues, rfl⟩ := finish_ok finishes
  have self := state.setThread_self actor thread
  exact ⟨self.symm ▸ continues, rfl⟩

omit [Fintype ι] in
/-- An instruction that is not a wake, for its own thread. -/
theorem runInstr_actor
    {state after : State ι}
    {actor : ι}
    {spurious : Bool}
    {instr : Instr}
    (runs : state.runInstr actor spurious instr = some (.ok after)) :
    ∃ next,
      state.runEnding spurious instr = some next ∧
        (state.thread actor).continue next = .ok (after.thread actor) ∧
        ∀ property, instr.Ends state.word property →
          property after.word next := by
  cases instr with
  | fetch update next =>
      obtain ⟨continues, word⟩ := finish_actor (Option.some.inj runs)
      exact ⟨_, rfl, continues, fun property ends => word ▸ ends⟩
  | exchange weak cur new ok err =>
      have runs := Option.some.inj runs
      rw [runEnding]
      split at runs
      case isTrue taken =>
        obtain ⟨continues, word⟩ := finish_actor runs
        exact ⟨_, congrArg some (if_pos taken), continues,
          fun property ends => word ▸ ends.1 taken.1⟩
      case isFalse notTaken =>
        obtain ⟨continues, word⟩ := finish_actor runs
        exact ⟨_, congrArg some (if_neg notTaken), continues,
          fun property ends => word ▸ ends.2⟩
  | fetchWriterCount update next =>
      obtain ⟨continues, word⟩ := finish_actor (Option.some.inj runs)
      exact ⟨_, rfl, continues, fun property ends => word ▸ ends _⟩
  | fetchFairness update next =>
      obtain ⟨continues, word⟩ := finish_actor (Option.some.inj runs)
      exact ⟨_, rfl, continues, fun property ends => word ▸ ends _⟩
  | wait value parked failed =>
      have runs := Option.some.inj runs
      rw [runEnding]
      split at runs
      case isTrue same =>
        obtain ⟨continues, word⟩ := finish_actor runs
        exact ⟨_, congrArg some (if_pos same), continues,
          fun property ends => word ▸ ends.1⟩
      case isFalse different =>
        obtain ⟨continues, word⟩ := finish_actor runs
        exact ⟨_, congrArg some (if_neg different), continues,
          fun property ends => word ▸ ends.2⟩
  | wakeOneWriter next => cases runs
  | wakeReaders next => cases runs
  | rest => cases runs

/-- A wake, for its own thread. -/
theorem wakeInstr_actor
    {backend : Backend}
    {state after : State ι}
    {actor : ι}
    {picked : List ι}
    (runs :
      state.wakeInstr actor picked ((state.thread actor).pc.instr backend) =
        some (.ok after)) :
    ∃ next,
      wakeEnding picked ((state.thread actor).pc.instr backend) = some next ∧
        (state.thread actor).continue next = .ok (after.thread actor) ∧
        ∀ property,
          ((state.thread actor).pc.instr backend).Ends
              state.word property →
            property after.word next := by
  rcases wakeInstr_outcome runs with
    ⟨next, instr, canWake, finishes⟩ | ⟨next, instr, canWake, finishes⟩
  · obtain ⟨continues, word⟩ := finish_actor finishes.symm
    rw [wakePicked_self canWake (wokenWriter_none_of_wake instr)] at continues
    rw [instr]
    exact ⟨_, rfl, continues, fun property ends => word ▸ ends _⟩
  · obtain ⟨continues, word⟩ := finish_actor finishes.symm
    rw [wakePicked_self canWake (wokenReader_none_of_wake instr)] at continues
    rw [instr]
    exact ⟨_, rfl, continues, fun property ends => word ▸ ends _⟩

/-- A step does to its own thread what its action says. -/
theorem actorStep
    {backend : Backend}
    {state after : State ι}
    {action : Action ι}
    (step : State.Step backend state action after) :
    ActorStep backend state after action := by
  unfold State.Step at step
  cases action with
  | start actor op =>
      rw [State.exec, Option.map_eq_some_iff] at step
      obtain ⟨thread, starts, same⟩ := step
      exact .start starts (Except.ok.inj same).symm
  | run actor spurious =>
      obtain ⟨next, ending, continues, ends⟩ := runInstr_actor step
      exact .instruction ending continues ends
  | wake actor picked =>
      obtain ⟨next, ending, continues, ends⟩ := wakeInstr_actor step
      exact .instruction ending continues ends
  | interrupt actor =>
      rw [State.exec, Option.map_eq_some_iff] at step
      obtain ⟨pc, interrupts, same⟩ := step
      exact .interrupt interrupts (Except.ok.inj same).symm

end State

end StaticInit.Sync
