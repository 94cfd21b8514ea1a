import StaticInit.Batches

namespace StaticInit

/-!
# The order of batches

Of two nodes that are registered one after the other, the later one is
executed first, unless the register was detached between the registrations.
All nodes form one line: the executed ones, those of the batch that is being
executed and those that wait.  A node enters the line in front of those that
wait, and nodes in the line keep their order.
-/

/-- Two members of a sublist are in the same order there. -/
theorem pair_sublist_of_sublist
    {ν : Type*}
    {first second : ν}
    {part whole : List ν}
    (pair : [first, second].Sublist whole)
    (sublist : part.Sublist whole)
    (distinct : whole.Nodup)
    (firstIn : first ∈ part)
    (secondIn : second ∈ part) :
    [first, second].Sublist part := by
  induction sublist with
  | slnil => exact pair
  | @cons part whole head sublist inductionHypothesis =>
      obtain ⟨absent, distinct⟩ := List.nodup_cons.mp distinct
      cases pair with
      | cons _ pair => exact inductionHypothesis pair distinct firstIn secondIn
      | cons_cons => exact absurd (sublist.subset firstIn) absent
  | @cons_cons part whole head sublist inductionHypothesis =>
      obtain ⟨absent, distinct⟩ := List.nodup_cons.mp distinct
      have stays {node : ν} (later : node ∈ whole) :
          node ∈ head :: part → node ∈ part := by
        apply List.mem_of_ne_of_mem
        rintro rfl
        exact absent later
      cases pair with
      | cons _ pair =>
          have firstIn := stays (pair.subset List.mem_cons_self) firstIn
          have secondLater := pair.subset (List.mem_cons_of_mem _ List.mem_cons_self)
          exact .cons _ <|
            inductionHypothesis pair distinct firstIn (stays secondLater secondIn)
      | cons_cons _ rest =>
          have later := rest.subset List.mem_cons_self
          exact (List.singleton_sublist.mpr (stays later secondIn)).cons_cons _

namespace Effect

variable {ν : Type*} [DecidableEq ν]

/--
Registered nodes are executed in the reverse order, but after those that were
detached before.
-/
def InOrder (effects : List (Effect ν)) : Prop :=
  ∀ first second earlier between later,
    effects =
        earlier ++ .called first true ::
          (between ++ .called second true :: later) →
      first ∈ executedNodes effects →
        second ∈ executedNodes effects →
          (if .detached ∈ between then
            [first, second]
          else
            [second, first]).Sublist (executedNodes effects)

end Effect

namespace Batches

variable {ν : Type*} [DecidableEq ν]

/-- All nodes in the order in which they are executed. -/
def line (effects : List (Effect ν)) (batches : Batches ν) : List ν :=
  Effect.executedNodes effects ++ (batches.chain ++ batches.waiting)

variable {effects : List (Effect ν)} {before after : Batches ν}
  {effect : Effect ν} {node first second : ν}

/-- How an effect changes the line. -/
inductive Moves
    (effects : List (Effect ν))
    (before after : Batches ν)
    (effect : Effect ν) : Prop where
  | enters
      (node : ν)
      (called : effect = .called node true)
      (moved : after = { before with waiting := node :: before.waiting })
  | stays (same : line (effects ++ [effect]) after = line effects before)
  | loses
      (front :
        line effects before =
          line (effects ++ [effect]) after ++ before.waiting)

theorem moves_of_step
    (effects : List (Effect ν))
    (step : before.step effect = some after) :
    Moves effects before after effect := by
  cases effect with
  | called node accepted =>
      cases accepted with
      | true => exact .enters node rfl (Option.some.inj step).symm
      | false =>
          obtain rfl := Option.some.inj step
          refine .stays ?_
          rw [line, Effect.executedNodes_other _ rfl, line]
  | detached =>
      obtain ⟨ended, same⟩ := Option.ite_none_right_eq_some.mp step
      obtain rfl := Option.some.inj same
      refine .stays ?_
      rw [line, Effect.executedNodes_other _ rfl, line, ended]
      simp
  | executed node =>
      obtain ⟨first, same⟩ := Option.ite_none_right_eq_some.mp step
      obtain rfl := Option.some.inj same
      refine .stays ?_
      rw [line, Effect.executedNodes_executed, line, List.append_assoc,
        List.singleton_append, ← List.cons_append, List.cons_head?_tail first]
  | discarded =>
      obtain rfl := Option.some.inj step
      refine .loses ?_
      rw [line, line, Effect.executedNodes_other _ rfl]
      simp
  | silent =>
      obtain rfl := Option.some.inj step
      refine .stays ?_
      rw [line, Effect.executedNodes_other _ rfl, line]

/-- Only a call brings a node into the line. -/
theorem mem_line_of_step
    (step : before.step effect = some after)
    (uncalled : node ∉ Effect.calledNodes [effect])
    (member : node ∈ line (effects ++ [effect]) after) :
    node ∈ line effects before := by
  cases moves_of_step effects step with
  | enters other called moved =>
      subst called moved
      rw [line, Effect.executedNodes_other _ rfl] at member
      simp only [line, List.mem_append, List.mem_cons] at member ⊢
      obtain executed | chained | rfl | waits := member
      · exact .inl executed
      · exact .inr (.inl chained)
      · simp [Effect.calledNodes] at uncalled
      · exact .inr (.inr waits)
  | stays same => exact same ▸ member
  | loses front =>
      rw [front]
      exact List.mem_append_left _ member

/-- Nodes that stay in the line keep their order. -/
theorem pair_of_step
    (step : before.step effect = some after)
    (distinct : (line effects before).Nodup)
    (pair : [first, second].Sublist (line effects before))
    (firstStays : first ∈ line (effects ++ [effect]) after)
    (secondStays : second ∈ line (effects ++ [effect]) after) :
    [first, second].Sublist (line (effects ++ [effect]) after) := by
  cases moves_of_step effects step with
  | enters other called moved =>
      subst called moved
      rw [line, Effect.executedNodes_other _ rfl]
      refine pair.trans ?_
      exact ((List.sublist_cons_self other _).append_left _).append_left _
  | stays same => exact same.symm ▸ pair
  | loses front =>
      rw [front] at pair distinct
      exact pair_sublist_of_sublist pair (List.sublist_append_left _ _) distinct
        firstStays secondStays

namespace Ran

variable {earlier later : List (Effect ν)} {middle final : Batches ν}

/-- No node is twice in the line. -/
theorem line_nodup
    (ran : Ran effects before)
    (distinct : (Effect.calledNodes effects).Nodup) :
    (line effects before).Nodup := by
  have nodup := ran.nodup distinct
  rw [← List.append_assoc before.chain, ← List.append_assoc] at nodup
  exact (List.nodup_append.mp nodup).1

/-- The steps after some effects. -/
abbrev Later (middle : Batches ν) (later : List (Effect ν)) (final : Batches ν) :
    Prop :=
  Run (fun before effect after => before.step effect = some after)
    middle later final

/-- Who is in the line in the end was in it before, or was called since. -/
theorem mem_line
    (run : Later middle later final)
    (uncalled : node ∉ Effect.calledNodes later)
    (member : node ∈ line (earlier ++ later) final) :
    node ∈ line earlier middle := by
  induction run with
  | refl => exact List.append_nil earlier ▸ member
  | snoc effect _ last inductionHypothesis =>
      rw [Effect.calledNodes_append, List.mem_append, not_or] at uncalled
      rw [← List.append_assoc] at member
      exact inductionHypothesis uncalled.1
        (mem_line_of_step last uncalled.2 member)

/-- Two nodes that are in the line in the end keep their order. -/
theorem pair_line
    (ran : Ran earlier middle)
    (run : Later middle later final)
    (distinct : (Effect.calledNodes (earlier ++ later)).Nodup)
    (pair : [first, second].Sublist (line earlier middle))
    (firstUncalled : first ∉ Effect.calledNodes later)
    (secondUncalled : second ∉ Effect.calledNodes later)
    (firstStays : first ∈ line (earlier ++ later) final)
    (secondStays : second ∈ line (earlier ++ later) final) :
    [first, second].Sublist (line (earlier ++ later) final) := by
  induction run with
  | refl => exact (List.append_nil earlier).symm ▸ pair
  | @snoc later before after effect run last inductionHypothesis =>
      rw [← List.append_assoc] at distinct firstStays secondStays ⊢
      rw [Effect.calledNodes_append] at firstUncalled secondUncalled
      rw [List.mem_append, not_or] at firstUncalled secondUncalled
      rw [Effect.calledNodes_append] at distinct
      have shorter := (List.nodup_append.mp distinct).1
      have firstIn := mem_line_of_step last firstUncalled.2 firstStays
      have secondIn := mem_line_of_step last secondUncalled.2 secondStays
      have kept :=
        inductionHypothesis shorter firstUncalled.1 secondUncalled.1 firstIn
          secondIn
      have nodup := Ran.line_nodup (ran.append run) shorter
      exact pair_of_step last nodup kept firstStays secondStays

/-- As long as nothing is detached a node does not get out of those that wait. -/
theorem outside_of_attached
    (run : Later middle later final)
    (attached : .detached ∉ later)
    (outside : node ∉ Effect.executedNodes earlier ++ middle.chain) :
    node ∉ Effect.executedNodes (earlier ++ later) ++ final.chain := by
  induction run with
  | refl => exact (List.append_nil earlier).symm ▸ outside
  | @snoc later before after effect _ last inductionHypothesis =>
      rw [List.mem_append, not_or] at attached
      have kept := inductionHypothesis attached.1
      rw [← List.append_assoc]
      cases effect with
      | called other accepted =>
          rw [Effect.executedNodes_other _ rfl]
          cases accepted with
          | true =>
              obtain rfl := Option.some.inj last
              exact kept
          | false =>
              obtain rfl := Option.some.inj last
              exact kept
      | detached => exact absurd List.mem_cons_self attached.2
      | executed other =>
          obtain ⟨head, same⟩ := Option.ite_none_right_eq_some.mp last
          obtain rfl := Option.some.inj same
          rw [Effect.executedNodes_executed, List.append_assoc,
            List.singleton_append, List.cons_head?_tail head]
          exact kept
      | discarded =>
          obtain rfl := Option.some.inj last
          rw [Effect.executedNodes_other _ rfl]
          exact kept
      | silent =>
          obtain rfl := Option.some.inj last
          rw [Effect.executedNodes_other _ rfl]
          exact kept

/-- A node that does not wait does not wait later. -/
theorem not_waiting
    (run : Later middle later final)
    (uncalled : node ∉ Effect.calledNodes later)
    (absent : node ∉ middle.waiting) :
    node ∉ final.waiting := by
  induction run with
  | refl => exact absent
  | snoc effect _ last inductionHypothesis =>
      rw [Effect.calledNodes_append, List.mem_append, not_or] at uncalled
      have kept := inductionHypothesis uncalled.1
      cases effect with
      | called other accepted =>
          cases accepted with
          | true =>
              obtain rfl := Option.some.inj last
              have different : node ≠ other := by
                rintro rfl
                simp [Effect.calledNodes] at uncalled
              exact List.not_mem_cons_of_ne_of_not_mem different kept
          | false =>
              obtain rfl := Option.some.inj last
              exact kept
      | detached =>
          obtain ⟨-, same⟩ := Option.ite_none_right_eq_some.mp last
          obtain rfl := Option.some.inj same
          exact List.not_mem_nil
      | executed other =>
          obtain ⟨-, same⟩ := Option.ite_none_right_eq_some.mp last
          obtain rfl := Option.some.inj same
          exact kept
      | discarded =>
          obtain rfl := Option.some.inj last
          exact List.not_mem_nil
      | silent =>
          obtain rfl := Option.some.inj last
          exact kept

/-- Once the register was detached no earlier node waits. -/
theorem not_waiting_of_detached
    (run : Later middle later final)
    (detached : .detached ∈ later)
    (uncalled : node ∉ Effect.calledNodes later) :
    node ∉ final.waiting := by
  obtain ⟨leading, trailing, rfl⟩ := List.append_of_mem detached
  obtain ⟨between, -, second⟩ := run.split
  obtain ⟨next, step, rest⟩ := second.uncons
  obtain ⟨-, same⟩ := Option.ite_none_right_eq_some.mp step
  obtain rfl := Option.some.inj same
  refine not_waiting rest ?_ List.not_mem_nil
  rw [Effect.calledNodes_append, List.mem_append, not_or] at uncalled
  intro called
  exact uncalled.2 (by simpa [Effect.calledNodes] using called)

omit [DecidableEq ν] in
/-- A node that is called once is called nowhere else. -/
theorem uncalled_elsewhere
    {accepted : Bool}
    (distinct :
      (Effect.calledNodes
        (earlier ++ .called node accepted :: later)).Nodup) :
    node ∉ Effect.calledNodes earlier ∧ node ∉ Effect.calledNodes later := by
  rw [Effect.calledNodes_append] at distinct
  have apart := (List.nodup_append.mp distinct).2
  refine ⟨?_, (List.nodup_cons.mp apart.1).1⟩
  intro called
  exact apart.2 node called node List.mem_cons_self rfl

/-- Where a node enters the line it is in front of those that wait. -/
theorem pair_of_enters
    (second : ν)
    (effects : List (Effect ν))
    (batches : Batches ν)
    (alive : first ∈ line effects batches) :
    (if first ∈ batches.waiting then
      [second, first]
    else
      [first, second]).Sublist
        (line (effects ++ [.called second true])
          { batches with waiting := second :: batches.waiting }) := by
  rw [line, Effect.executedNodes_other _ rfl, ← List.append_assoc]
  split
  case isTrue waits =>
    refine .trans ?_ (List.sublist_append_right _ _)
    exact (List.singleton_sublist.mpr waits).cons_cons second
  case isFalse absent =>
    rw [line, ← List.append_assoc, List.mem_append] at alive
    have front := alive.resolve_right absent
    refine (List.singleton_sublist.mpr front).append ?_
    exact List.singleton_sublist.mpr List.mem_cons_self

/-- A node that was not called is not in the line. -/
theorem outside_of_uncalled
    (ran : Ran effects before)
    (uncalled : node ∉ Effect.calledNodes effects) :
    node ∉ Effect.executedNodes effects ++ before.chain := by
  intro member
  refine uncalled ((Effect.acceptedNodes_sublist effects).subset ?_)
  apply ran.shares.subset
  rw [← List.append_assoc]
  exact List.mem_append_left _ member

/-- A node waits exactly as long as nothing is detached. -/
theorem waiting_iff
    (run : Later middle later final)
    (outside : node ∉ Effect.executedNodes earlier ++ middle.chain)
    (uncalled : node ∉ Effect.calledNodes later)
    (alive : node ∈ line (earlier ++ later) final) :
    node ∈ final.waiting ↔ .detached ∉ later := by
  constructor
  · intro waits detached
    exact not_waiting_of_detached run detached uncalled waits
  · intro attached
    rw [line, ← List.append_assoc, List.mem_append] at alive
    exact alive.resolve_left (outside_of_attached run attached outside)

/-- What is executed is in the line, in this order. -/
theorem executed_of_line
    {batches : Batches ν}
    (ran : Ran effects batches)
    (distinct : (Effect.calledNodes effects).Nodup)
    (firstExecuted : first ∈ Effect.executedNodes effects)
    (secondExecuted : second ∈ Effect.executedNodes effects)
    (pair : [first, second].Sublist (line effects batches)) :
    [first, second].Sublist (Effect.executedNodes effects) :=
  pair_sublist_of_sublist pair (List.sublist_append_left _ _)
    (ran.line_nodup distinct) firstExecuted secondExecuted

/-- A node enters after another one, and both are executed. -/
theorem executed_of_enters
    {accepted : Batches ν}
    (ran : Ran earlier accepted)
    (run :
      Later { accepted with waiting := second :: accepted.waiting } later
        final)
    (distinct :
      (Effect.calledNodes
        (earlier ++ .called second true :: later)).Nodup)
    (firstUncalled :
      first ∉ Effect.calledNodes (.called second true :: later))
    (firstExecuted :
      first ∈
        Effect.executedNodes (earlier ++ .called second true :: later))
    (secondExecuted :
      second ∈
        Effect.executedNodes (earlier ++ .called second true :: later)) :
    (if first ∈ accepted.waiting then
      [second, first]
    else
      [first, second]).Sublist
        (Effect.executedNodes (earlier ++ .called second true :: later)) := by
  have enters :
      accepted.step (.called second true) =
        some { accepted with waiting := second :: accepted.waiting } :=
    rfl
  have whole : Ran (earlier ++ .called second true :: later) final :=
    Run.append ran (.cons enters run)
  have firstStays := List.mem_append_left (final.chain ++ final.waiting)
    firstExecuted
  have secondStays := List.mem_append_left (final.chain ++ final.waiting)
    secondExecuted
  have alive := mem_line (Run.cons enters run) firstUncalled firstStays
  have pair := pair_of_enters second earlier accepted alive
  have secondLater := (uncalled_elsewhere distinct).2
  have firstLater : first ∉ Effect.calledNodes later :=
    fun called => firstUncalled (List.mem_cons_of_mem second called)
  have same :
      earlier ++ .called second true :: later =
        earlier ++ [.called second true] ++ later := by
    simp
  rw [same] at distinct firstStays secondStays whole
  rw [same] at firstExecuted secondExecuted ⊢
  have entered : Ran (earlier ++ [.called second true]) _ :=
    .snoc _ ran enters
  by_cases waits : first ∈ accepted.waiting
  · rw [if_pos waits] at pair ⊢
    exact whole.executed_of_line distinct secondExecuted firstExecuted
      (pair_line entered run distinct pair secondLater firstLater secondStays
        firstStays)
  · rw [if_neg waits] at pair ⊢
    exact whole.executed_of_line distinct firstExecuted secondExecuted
      (pair_line entered run distinct pair firstLater secondLater firstStays
        secondStays)

/-- The nodes are executed in order. -/
theorem inOrder
    {batches : Batches ν}
    (ran : Ran effects batches)
    (distinct : (Effect.calledNodes effects).Nodup) :
    Effect.InOrder effects := by
  rintro first second earlier between later rfl firstExecuted secondExecuted
  obtain ⟨unknown, firstLater⟩ := uncalled_elsewhere distinct
  have same :
      earlier ++ .called first true ::
          (between ++ .called second true :: later) =
        earlier ++ [.called first true] ++ between ++
          .called second true :: later := by
    simp
  rw [same] at ran distinct firstExecuted secondExecuted ⊢
  rw [Effect.calledNodes_append, List.mem_append, not_or] at firstLater
  obtain ⟨next, leading, rest⟩ := ran.split
  obtain ⟨last, follows, rest⟩ := rest.uncons
  obtain ⟨middle, started, meanwhile⟩ := leading.split
  obtain ⟨start, before, enters⟩ := started.unsnoc
  obtain rfl := Option.some.inj enters
  obtain rfl := Option.some.inj follows
  have outside := outside_of_uncalled before unknown
  rw [← Effect.executedNodes_other (.called first true) rfl] at outside
  have alive :=
    mem_line (.cons follows rest) firstLater.2
      (List.mem_append_left _ firstExecuted)
  have waits := waiting_iff meanwhile outside firstLater.1 alive
  have pair :=
    executed_of_enters leading rest distinct firstLater.2 firstExecuted
      secondExecuted
  by_cases detached : .detached ∈ between
  · rw [if_neg (mt waits.mp (not_not.mpr detached))] at pair
    rw [if_pos detached]
    exact pair
  · rw [if_pos (waits.mpr detached)] at pair
    rw [if_neg detached]
    exact pair

end Ran

end Batches

end StaticInit
