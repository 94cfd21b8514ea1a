import StaticInit.Chain
import StaticInit.Runs
import Mathlib.Data.List.Perm.Basic

namespace StaticInit

/-!
# Nodes that are registered one by one and executed in batches

Nodes are pushed on a register.  Now and then the whole register is detached,
and its nodes are executed one after the other, the last registered first; what
is registered meanwhile waits for the next batch.  `Batches` is this machine on
lists; `Follows` says that a linked list kept by the nodes themselves does the
same.
-/

/-- What happens to the nodes. -/
inductive Effect (ν : Type*) where
  | called (node : ν) (accepted : Bool)
  | detached
  | executed (node : ν)
  /-- The register is emptied and nothing is done with its nodes. -/
  | discarded
  | silent
  deriving DecidableEq

namespace Effect

variable {ν : Type*}

/-- The nodes that were to be registered. -/
def calledNodes (effects : List (Effect ν)) : List ν :=
  effects.filterMap fun effect =>
    match effect with
    | .called node _ => some node
    | _ => none

/-- The nodes that were registered. -/
def acceptedNodes (effects : List (Effect ν)) : List ν :=
  effects.filterMap fun effect =>
    match effect with
    | .called node true => some node
    | _ => none

def executedNodes (effects : List (Effect ν)) : List ν :=
  effects.filterMap fun effect =>
    match effect with
    | .executed node => some node
    | _ => none

theorem calledNodes_append (earlier later : List (Effect ν)) :
    calledNodes (earlier ++ later) = calledNodes earlier ++ calledNodes later :=
  List.filterMap_append

theorem acceptedNodes_append (earlier later : List (Effect ν)) :
    acceptedNodes (earlier ++ later) =
      acceptedNodes earlier ++ acceptedNodes later :=
  List.filterMap_append

variable (effects : List (Effect ν)) (node : ν) (accepted : Bool)

@[simp] theorem calledNodes_called :
    calledNodes (effects ++ [.called node accepted]) =
      calledNodes effects ++ [node] :=
  List.filterMap_append

@[simp] theorem acceptedNodes_accepted :
    acceptedNodes (effects ++ [.called node true]) =
      acceptedNodes effects ++ [node] :=
  List.filterMap_append

@[simp] theorem acceptedNodes_refused :
    acceptedNodes (effects ++ [.called node false]) =
      acceptedNodes effects := by
  simp [acceptedNodes]

@[simp] theorem executedNodes_executed :
    executedNodes (effects ++ [.executed node]) =
      executedNodes effects ++ [node] :=
  List.filterMap_append

def isCall : Effect ν → Bool
  | .called _ _ => true
  | _ => false

def isExecution : Effect ν → Bool
  | .executed _ => true
  | _ => false

variable {effects} (effect : Effect ν)

theorem calledNodes_other (elsewhere : effect.isCall = false) :
    calledNodes (effects ++ [effect]) = calledNodes effects := by
  cases effect with
  | called node accepted => cases elsewhere
  | _ => simp [calledNodes]

theorem acceptedNodes_other (elsewhere : effect.isCall = false) :
    acceptedNodes (effects ++ [effect]) = acceptedNodes effects := by
  cases effect with
  | called node accepted => cases elsewhere
  | _ => simp [acceptedNodes]

theorem executedNodes_other (elsewhere : effect.isExecution = false) :
    executedNodes (effects ++ [effect]) = executedNodes effects := by
  cases effect with
  | executed node => cases elsewhere
  | _ => simp [executedNodes]

theorem acceptedNodes_sublist (effects : List (Effect ν)) :
    (acceptedNodes effects).Sublist (calledNodes effects) := by
  induction effects with
  | nil => exact .slnil
  | cons effect effects inductionHypothesis =>
      cases effect with
      | called node accepted =>
          cases accepted with
          | true => exact inductionHypothesis.cons_cons node
          | false => exact inductionHypothesis.cons node
      | _ => exact inductionHypothesis

end Effect

/-- The nodes that are registered, those to be executed, and those given up. -/
structure Batches (ν : Type*) where
  waiting : List ν
  chain : List ν
  lost : List ν

namespace Batches

variable {ν : Type*} [DecidableEq ν]

/-- Nothing is registered. -/
def empty : Batches ν := ⟨[], [], []⟩

/-- Perform an effect, if it is its turn. -/
def step (batches : Batches ν) : Effect ν → Option (Batches ν)
  | .called node true =>
      some { batches with waiting := node :: batches.waiting }
  | .called _ false => some batches
  | .detached =>
      if batches.chain = [] then
        some { batches with waiting := [], chain := batches.waiting }
      else
        none
  | .executed node =>
      if batches.chain.head? = some node then
        some { batches with chain := batches.chain.tail }
      else
        none
  | .discarded =>
      some
        { batches with
          waiting := []
          lost := batches.waiting ++ batches.lost }
  | .silent => some batches

/-- The effects happen in their order. -/
def Ran (effects : List (Effect ν)) (batches : Batches ν) : Prop :=
  Run (fun before effect after => before.step effect = some after)
    empty effects batches

namespace Ran

variable {effects : List (Effect ν)} {batches : Batches ν} {node : ν}

/-- Every registered node waits, is about to be executed, was executed or given up. -/
theorem shares (ran : Ran effects batches) :
    (Effect.executedNodes effects ++
        (batches.chain ++ (batches.waiting ++ batches.lost))).Perm
      (Effect.acceptedNodes effects) := by
  induction ran with
  | refl => exact .refl _
  | @snoc effects before after effect _ last inductionHypothesis =>
      cases effect with
      | called node accepted =>
          cases accepted with
          | true =>
              obtain rfl := Option.some.inj last
              rw [Effect.executedNodes_other _ rfl, Effect.acceptedNodes_accepted]
              have front :
                  (Effect.executedNodes effects ++
                      (before.chain ++
                        (node :: before.waiting ++ before.lost))).Perm
                    (node ::
                      (Effect.executedNodes effects ++
                        (before.chain ++
                          (before.waiting ++ before.lost)))) := by
                rw [← List.append_assoc, ← List.append_assoc
                  (Effect.executedNodes effects)]
                exact List.perm_middle
              exact (front.trans (inductionHypothesis.cons node)).trans
                (List.perm_append_singleton node _).symm
          | false =>
              obtain rfl := Option.some.inj last
              rw [Effect.executedNodes_other _ rfl, Effect.acceptedNodes_refused]
              exact inductionHypothesis
      | detached =>
          dsimp only [step] at last
          split at last
          case isTrue empty =>
            obtain rfl := Option.some.inj last
            rw [Effect.executedNodes_other .detached rfl,
              Effect.acceptedNodes_other .detached rfl]
            rw [empty] at inductionHypothesis
            exact inductionHypothesis
          case isFalse => cases last
      | executed node =>
          dsimp only [step] at last
          split at last
          case isTrue first =>
            obtain rfl := Option.some.inj last
            rw [Effect.executedNodes_executed, Effect.acceptedNodes_other _ rfl,
              List.append_assoc, List.singleton_append, ← List.cons_append,
              List.cons_head?_tail first]
            exact inductionHypothesis
          case isFalse => cases last
      | discarded =>
          obtain rfl := Option.some.inj last
          rw [Effect.executedNodes_other .discarded rfl,
            Effect.acceptedNodes_other .discarded rfl]
          exact inductionHypothesis
      | silent =>
          obtain rfl := Option.some.inj last
          rw [Effect.executedNodes_other .silent rfl,
            Effect.acceptedNodes_other .silent rfl]
          exact inductionHypothesis

theorem nodup
    (ran : Ran effects batches)
    (distinct : (Effect.calledNodes effects).Nodup) :
    (Effect.executedNodes effects ++
      (batches.chain ++ (batches.waiting ++ batches.lost))).Nodup :=
  ran.shares.nodup_iff.mpr
    ((Effect.acceptedNodes_sublist effects).nodup distinct)

/-- No node is executed twice. -/
theorem once
    (ran : Ran effects batches)
    (distinct : (Effect.calledNodes effects).Nodup) :
    (Effect.executedNodes effects).Nodup :=
  (List.nodup_append.mp (ran.nodup distinct)).1

/-- Only registered nodes are executed. -/
theorem accepted
    (ran : Ran effects batches)
    (executed : node ∈ Effect.executedNodes effects) :
    node ∈ Effect.acceptedNodes effects :=
  ran.shares.subset (List.mem_append_left _ executed)

/-- When nothing waits, all registered nodes were executed. -/
theorem executed
    (ran : Ran effects batches)
    (chain : batches.chain = [])
    (waiting : batches.waiting = [])
    (lost : batches.lost = [])
    (accepted : node ∈ Effect.acceptedNodes effects) :
    node ∈ Effect.executedNodes effects := by
  have shares := ran.shares
  rw [chain, waiting, lost, List.append_nil, List.append_nil,
    List.append_nil] at shares
  exact shares.symm.subset accepted

/-- A node that waits or was given up was registered and is not executed. -/
theorem left
    (ran : Ran effects batches)
    (distinct : (Effect.calledNodes effects).Nodup)
    (waits : node ∈ batches.waiting ++ batches.lost) :
    node ∈ Effect.acceptedNodes effects ∧
      node ∉ Effect.executedNodes effects := by
  have remains : node ∈ batches.chain ++ (batches.waiting ++ batches.lost) :=
    List.mem_append_right _ waits
  refine ⟨ran.shares.subset (List.mem_append_right _ remains), ?_⟩
  intro executed
  have apart := (List.nodup_append.mp (ran.nodup distinct)).2.2
  exact apart node executed node remains rfl

end Ran

end Batches

/-- Linked lists kept by the nodes do what the lists of the batches do. -/
structure Follows
    {ν : Type*}
    [DecidableEq ν]
    (effects : List (Effect ν))
    (next : ν → Option ν)
    (register head : Option ν)
    (batches : Batches ν) : Prop where
  ran : Batches.Ran effects batches
  waiting : Chain next register batches.waiting
  chain : Chain next head batches.chain
  unlinked : ∀ node, node ∉ Effect.calledNodes effects → next node = none

namespace Follows

variable
  {ν : Type*} [DecidableEq ν] {effects : List (Effect ν)}
  {next : ν → Option ν} {register head : Option ν} {batches : Batches ν}
  {node : ν}

/-- Nothing is registered. -/
theorem fresh :
    Follows [] (fun _ : ν => none) none none Batches.empty :=
  ⟨.refl, rfl, rfl, fun _ _ => rfl⟩

/-- A node that was never to be registered is in no list. -/
theorem absent
    (follows : Follows effects next register head batches)
    (fresh : node ∉ Effect.calledNodes effects) :
    node ∉ Effect.executedNodes effects ∧ node ∉ batches.chain ∧
      node ∉ batches.waiting := by
  have apart :
      node ∉
        Effect.executedNodes effects ++
          (batches.chain ++ (batches.waiting ++ batches.lost)) :=
    fun member =>
      fresh
        ((Effect.acceptedNodes_sublist effects).subset
          (follows.ran.shares.subset member))
  simp only [List.mem_append, not_or] at apart
  exact ⟨apart.1, apart.2.1, apart.2.2.1⟩

/-- A node links to the register and becomes its head. -/
theorem accept
    (follows : Follows effects next register head batches)
    (fresh : node ∉ Effect.calledNodes effects) :
    Follows (effects ++ [.called node true])
      (Function.update next node register) (some node) head
      { batches with waiting := node :: batches.waiting } := by
  obtain ⟨-, notChained, notWaiting⟩ := follows.absent fresh
  constructor
  case ran => exact .snoc _ follows.ran rfl
  case waiting => exact follows.waiting.cons notWaiting
  case chain => exact follows.chain.update register notChained
  case unlinked =>
    intro other uncalled
    rw [Effect.calledNodes_called, List.mem_append, List.mem_singleton,
      not_or] at uncalled
    rw [Function.update_of_ne uncalled.2]
    exact follows.unlinked other uncalled.1

/-- A node is refused. -/
theorem refuse
    (follows : Follows effects next register head batches) :
    Follows (effects ++ [.called node false]) next register head batches := by
  refine ⟨.snoc _ follows.ran rfl, follows.waiting, follows.chain, ?_⟩
  intro other uncalled
  rw [Effect.calledNodes_called, List.mem_append, not_or] at uncalled
  exact follows.unlinked other uncalled.1

/-- Nothing happens to the nodes. -/
theorem silent
    (follows : Follows effects next register head batches) :
    Follows (effects ++ [.silent]) next register head batches := by
  refine ⟨.snoc _ follows.ran rfl, follows.waiting, follows.chain, ?_⟩
  intro other uncalled
  rw [Effect.calledNodes_other .silent rfl] at uncalled
  exact follows.unlinked other uncalled

/-- The register is detached once the chain is at its end. -/
theorem detach
    (follows : Follows effects next register none batches) :
    Follows (effects ++ [.detached]) next none register
      { batches with waiting := [], chain := batches.waiting } := by
  have ended := Chain.none_iff.mp follows.chain
  refine ⟨.snoc _ follows.ran (if_pos ended), rfl, follows.waiting, ?_⟩
  intro other uncalled
  rw [Effect.calledNodes_other .detached rfl] at uncalled
  exact follows.unlinked other uncalled

/-- The register is emptied and its nodes are given up. -/
theorem discard
    (follows : Follows effects next register head batches) :
    Follows (effects ++ [.discarded]) next none head
      { batches with
        waiting := []
        lost := batches.waiting ++ batches.lost } := by
  refine ⟨.snoc _ follows.ran rfl, rfl, follows.chain, ?_⟩
  intro other uncalled
  rw [Effect.calledNodes_other .discarded rfl] at uncalled
  exact follows.unlinked other uncalled

/-- The head is executed, and the chain goes on at its link. -/
theorem execute
    (follows : Follows effects next register (some node) batches) :
    Follows (effects ++ [.executed node]) next register (next node)
      { batches with chain := batches.chain.tail } := by
  obtain ⟨later, same, chain⟩ := Chain.some_iff.mp follows.chain
  constructor
  case ran =>
    apply Run.snoc _ follows.ran
    rw [Batches.step, same]
    exact if_pos rfl
  case waiting => exact follows.waiting
  case chain =>
    rw [same]
    exact chain
  case unlinked =>
    intro other uncalled
    rw [Effect.calledNodes_other (.executed node) rfl] at uncalled
    exact follows.unlinked other uncalled

/-- An executed node gives up its link. -/
theorem unlink
    (follows : Follows effects next register head batches)
    (distinct : (Effect.calledNodes effects).Nodup)
    (executed : node ∈ Effect.executedNodes effects) :
    Follows effects (Function.update next node none) register head
      batches := by
  have apart :
      node ∉ batches.chain ++ (batches.waiting ++ batches.lost) := by
    intro member
    have apart := (List.nodup_append.mp (follows.ran.nodup distinct)).2.2
    exact apart node executed node member rfl
  simp only [List.mem_append, not_or] at apart
  obtain ⟨notChained, notWaiting, -⟩ := apart
  refine ⟨follows.ran, follows.waiting.update none notWaiting,
    follows.chain.update none notChained, ?_⟩
  intro other uncalled
  by_cases same : other = node
  · subst same
    rw [Function.update_self]
  · rw [Function.update_of_ne same]
    exact follows.unlinked other uncalled

end Follows

end StaticInit
