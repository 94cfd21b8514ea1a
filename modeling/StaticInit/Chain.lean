import Mathlib.Logic.Function.Basic

namespace StaticInit

/-!
# Intrusive singly linked lists

The links are kept by the nodes themselves: `next` gives the successor of each
node.  `Chain next head nodes` says that following the links from `head` meets
exactly `nodes`.
-/

variable {ν : Type*}

/-- The nodes met from `head` on. -/
def Chain (next : ν → Option ν) (head : Option ν) : List ν → Prop
  | [] => head = none
  | node :: nodes => head = some node ∧ Chain next (next node) nodes

namespace Chain

variable {next : ν → Option ν} {head : Option ν} {nodes : List ν}

/-- An empty chain is at its end. -/
theorem none_iff :
    Chain next none nodes ↔ nodes = [] := by
  cases nodes with
  | nil => exact ⟨fun _ => rfl, fun _ => rfl⟩
  | cons node nodes =>
      constructor
      · rintro ⟨head, -⟩
        cases head
      · intro empty
        cases empty

/-- A chain with a head continues at the successor of its head. -/
theorem some_iff {node : ν} :
    Chain next (some node) nodes ↔
      ∃ later, nodes = node :: later ∧ Chain next (next node) later := by
  cases nodes with
  | nil =>
      constructor
      · intro head
        cases head
      · rintro ⟨later, same, -⟩
        cases same
  | cons first nodes =>
      constructor
      · rintro ⟨head, later⟩
        cases head
        exact ⟨nodes, rfl, later⟩
      · rintro ⟨later, same, chain⟩
        cases same
        exact ⟨rfl, chain⟩

/-- A chain does not see the links of other nodes. -/
theorem update
    [DecidableEq ν]
    {node : ν}
    (link : Option ν)
    (absent : node ∉ nodes)
    (chain : Chain next head nodes) :
    Chain (Function.update next node link) head nodes := by
  induction nodes generalizing head with
  | nil => exact chain
  | cons first nodes inductionHypothesis =>
      obtain ⟨same, later⟩ := chain
      rw [List.mem_cons, not_or] at absent
      refine ⟨same, ?_⟩
      rw [Function.update_of_ne (Ne.symm absent.1)]
      exact inductionHypothesis absent.2 later

/-- Linking a new node to the head puts it in front. -/
theorem cons
    [DecidableEq ν]
    {node : ν}
    (absent : node ∉ nodes)
    (chain : Chain next head nodes) :
    Chain (Function.update next node head) (some node) (node :: nodes) := by
  refine ⟨rfl, ?_⟩
  rw [Function.update_self]
  exact chain.update head absent

end Chain

end StaticInit
