import StaticInit.Decimal
import StaticInit.Macro.Options

namespace StaticInit.Macro

/-!
# The sections of constructors and destructors

A constructor is a pointer in a section whose name holds its priority; the
linker sorts the sections by name and the runtime runs the pointers of a family
of sections in a direction of its own.
-/

inductive Target where
  | elf
  | machO
  | coff
  | other
  deriving Repr, DecidableEq

/-- `support_priority`. -/
def Target.supportPriority : Target → Bool
  | .elf | .coff => true
  | .machO | .other => false

def constDtorNoSupport : CompileError :=
  .message
    [.text "program constructors/destructors not supported on this target"]

/-- The name of a section with `{:05}` of `65535 - priority` at its end. -/
def numbered (family : String) (priority : UInt16) : String :=
  family ++ String.ofList (padded 5 (65535 - priority).toNat)

def initSection
    (target : Target)
    (priority : UInt16) : Except CompileError String :=
  match target with
  | .elf => .ok (numbered ".init_array." priority)
  | .machO =>
      if priority ≠ 0 then
        .error <| .message
          [.text "Constructor priority other than 0 not supported on this plateform."]
      else
        .ok "__DATA,__mod_init_func"
  | .coff => .ok (numbered ".CRT$XCU" priority)
  | .other => .error constDtorNoSupport

def finiSection
    (target : Target)
    (priority : UInt16) : Except CompileError String :=
  match target with
  | .elf => .ok (numbered ".fini_array." priority)
  | .machO =>
      if priority ≠ 0 then
        .error <| .message
          [.text "Constructor priority not supported on this plateform."]
      else
        .ok "__DATA,__mod_term_func"
  | .coff => .ok (numbered ".CRT$XPTZ" priority)
  | .other => .error constDtorNoSupport

/-- The arguments of `constructor` and `destructor`. -/
inductive PriorityArgs where
  | empty
  | ident (name : String)
  | lit (lit : Lit)
  | other (tokens : String)
  deriving Repr, DecidableEq

def parsePriority : PriorityArgs → Except CompileError UInt16
  | .empty => .ok 0
  | .ident name =>
      if name = "__lazy_init" then
        .ok 1
      else if name = "__lazy_init_finished" then
        .ok 0
      else
        .error .syntaxError
  | .lit lit => parsePriorityLiteral lit
  | .other _ => .error .syntaxError

inductive Kind where
  | constructor
  | destructor
  deriving Repr, DecidableEq

/-- A function with one of the attributes, which accepts its arguments. -/
structure Entry where
  name : String
  kind : Kind
  args : PriorityArgs
  priority : UInt16
  parsed : parsePriority args = .ok priority

/-- The section of the pointer to a function. -/
def Entry.linkSection
    (target : Target)
    (entry : Entry) : Except CompileError String :=
  match entry.kind with
  | .constructor => initSection target entry.priority
  | .destructor => finiSection target entry.priority

/-- `#[constructor(#priority)]` and `#[destructor(#priority)]`. -/
def rawArgs (priority : UInt16) : PriorityArgs :=
  .lit (.int priority.toNat)

/-- The attributes of the functions that `gen_dyn_init` generates. -/
def generatedAttributes
    (target : Target)
    (threadLocal : Bool)
    (mode : DynMode) : List (Kind × PriorityArgs) :=
  (match mode.init with
    | .dynamic priority => [(.constructor, rawArgs priority)]
    | .lesserLazy =>
        if !threadLocal && target.supportPriority then
          [(.constructor, .ident "__lazy_init")]
        else
          []
    | .const | .lazy => []) ++
  match mode.drop with
  | .dynamic priority => [(.destructor, rawArgs priority)]
  | _ => []

/-- The pointers of one kind, in sections that are sorted by name. -/
structure Layout (target : Target) (kind : Kind) (entries : List Entry) where
  order : List Entry
  complete : order.Perm (entries.filter fun entry => entry.kind == kind)
  sorted :
    order.Pairwise fun first second =>
      ∀ name later,
        first.linkSection target = .ok name →
          second.linkSection target = .ok later → name ≤ later

/-- The order in which the runtime runs the pointers. -/
def Layout.execution
    {target : Target}
    {kind : Kind}
    {entries : List Entry}
    (layout : Layout target kind entries) : List Entry :=
  match target, kind with
  | .elf, .destructor => layout.order.reverse
  | _, _ => layout.order

/-- No run of the second is before a run of the first. -/
def RunsBefore (execution : List Entry) (first second : Entry) : Prop :=
  ∀ i j : Nat,
    execution[i]? = some first → execution[j]? = some second → i < j

/-- The documented order. -/
structure Ordered (target : Target) (entries : List Entry) : Prop where
  constructors :
    ∀ (layout : Layout target .constructor entries) (first second : Entry),
      second.priority < first.priority →
        RunsBefore layout.execution first second
  destructors :
    ∀ (layout : Layout target .destructor entries) (first second : Entry),
      first.priority < second.priority →
        RunsBefore layout.execution first second
  absent : ∀ entry ∈ entries, entry.args = .empty → entry.priority = 0
  raw :
    ∀ entry ∈ entries,
      ∀ priority, entry.args = rawArgs priority → entry.priority = priority
  lazies :
    ∀ (layout : Layout target .constructor entries) (first second : Entry),
      first.args = .ident "__lazy_init" →
        second.args = .ident "__lazy_init_finished" →
          RunsBefore layout.execution first second

section Names

theorem le_max (priority : UInt16) : priority ≤ 65535 := by
  rw [UInt16.le_iff_toNat_le]
  exact Nat.le_of_lt_succ priority.toNat_lt

/-- A larger priority makes a smaller name. -/
theorem numbered_lt
    (family : String)
    {lower higher : UInt16}
    (less : lower < higher) :
    numbered family higher < numbered family lower := by
  have bound := higher.toNat_lt
  rw [UInt16.lt_iff_toNat_lt] at less
  have numbers : (65535 - higher).toNat < (65535 - lower).toNat := by
    rw [UInt16.toNat_sub_of_le _ _ (le_max higher),
      UInt16.toNat_sub_of_le _ _ (le_max lower)]
    change 65535 - higher.toNat < 65535 - lower.toNat
    omega
  rw [numbered, numbered, String.lt_iff, String.toList_append,
    String.toList_append, String.toList_ofList, String.toList_ofList]
  apply List.append_left_lt
  apply padded_lt_padded numbers
  exact Nat.lt_trans (UInt16.toNat_lt _) (by decide)

/-- The priority of an option is that of the attribute. -/
theorem parsePriority_rawArgs (priority : UInt16) :
    parsePriority (rawArgs priority) = .ok priority := by
  simp only [rawArgs, parsePriority, parsePriorityLiteral]
  rw [if_pos priority.toNat_lt, UInt16.ofNat_toNat]

theorem Entry.priority_of_args
    {entry : Entry}
    {args : PriorityArgs}
    {priority : UInt16}
    (given : entry.args = args)
    (accepted : parsePriority args = .ok priority) :
    entry.priority = priority := by
  have parsed := entry.parsed
  rw [given, accepted] at parsed
  exact (Except.ok.inj parsed).symm

end Names

section Orders

variable {target : Target} {kind : Kind} {entries : List Entry}

/-- What is in a layout is given and of its kind. -/
theorem Layout.mem_of_place
    (layout : Layout target kind entries)
    {entry : Entry}
    {i : Nat}
    (present : layout.order[i]? = some entry) :
    entry ∈ entries ∧ entry.kind = kind := by
  have member := layout.complete.mem_iff.mp (List.mem_of_getElem? present)
  rw [List.mem_filter, beq_iff_eq] at member
  exact member

/-- A smaller name is laid out earlier. -/
theorem Layout.before
    (layout : Layout target kind entries)
    {first second : Entry}
    {name later : String}
    (firstName : first.linkSection target = .ok name)
    (secondName : second.linkSection target = .ok later)
    (less : name < later) :
    RunsBefore layout.order first second := by
  intro i j isFirst isSecond
  by_contra above
  rcases Nat.lt_or_eq_of_le (Nat.le_of_not_lt above) with above | rfl
  · obtain ⟨inside, isFirst⟩ := List.getElem?_eq_some_iff.mp isFirst
    obtain ⟨inside', isSecond⟩ := List.getElem?_eq_some_iff.mp isSecond
    have ordered :=
      List.pairwise_iff_getElem.mp layout.sorted j i inside' inside above
    rw [isFirst, isSecond] at ordered
    exact absurd less (String.not_lt.mpr (ordered _ _ secondName firstName))
  · obtain rfl := Option.some.inj (isFirst.symm.trans isSecond)
    obtain rfl := Except.ok.inj (firstName.symm.trans secondName)
    exact absurd less (String.lt_irrefl _)

/-- What is run backwards runs in the other order. -/
theorem RunsBefore.reverse
    {execution : List Entry}
    {first second : Entry}
    (before : RunsBefore execution first second) :
    RunsBefore execution.reverse second first := by
  intro i j isSecond isFirst
  have iInside := (List.getElem?_eq_some_iff.mp isSecond).1
  have jInside := (List.getElem?_eq_some_iff.mp isFirst).1
  rw [List.length_reverse] at iInside jInside
  rw [List.getElem?_reverse iInside] at isSecond
  rw [List.getElem?_reverse jInside] at isFirst
  have less := before _ _ isFirst isSecond
  omega

/-- What the linker sorts by. -/
def Entry.sortKey (target : Target) (entry : Entry) : String :=
  (entry.linkSection target).toOption.getD ""

/-- The linker always finds a layout. -/
theorem Layout.exists_layout
    (target : Target)
    (kind : Kind)
    (entries : List Entry) :
    Nonempty (Layout target kind entries) := by
  have sorted :
      ((entries.filter fun entry => entry.kind == kind).mergeSort
        fun first second =>
          decide (first.sortKey target ≤ second.sortKey target)).Pairwise
        fun first second =>
          decide (first.sortKey target ≤ second.sortKey target) = true := by
    apply List.pairwise_mergeSort
    · intro first second third one two
      exact decide_eq_true
        (String.le_trans (of_decide_eq_true one) (of_decide_eq_true two))
    · intro first second
      simpa using String.le_total _ _
  refine ⟨⟨_, List.mergeSort_perm _ _, sorted.imp ?_⟩⟩
  intro first second ordered name later firstName secondName
  simpa [Entry.sortKey, firstName, secondName, Except.toOption] using ordered

/-- On targets with priorities the name of a constructor is its number. -/
theorem Layout.constructor_before
    (supported : target.supportPriority = true)
    (layout : Layout target .constructor entries)
    {first second : Entry}
    (less : second.priority < first.priority) :
    RunsBefore layout.execution first second := by
  intro i j isFirst isSecond
  have same : layout.execution = layout.order := by
    cases target <;> rfl
  rw [same] at isFirst isSecond
  have firstKind := (layout.mem_of_place isFirst).2
  have secondKind := (layout.mem_of_place isSecond).2
  cases target with
  | machO => cases supported
  | other => cases supported
  | elf =>
      refine layout.before ?_ ?_ (numbered_lt ".init_array." less) i j isFirst
        isSecond
      · simp [Entry.linkSection, firstKind, initSection]
      · simp [Entry.linkSection, secondKind, initSection]
  | coff =>
      refine layout.before ?_ ?_ (numbered_lt ".CRT$XCU" less) i j isFirst
        isSecond
      · simp [Entry.linkSection, firstKind, initSection]
      · simp [Entry.linkSection, secondKind, initSection]

/-- The destructors of an elf file run backwards. -/
theorem Layout.elf_destructor_before
    (layout : Layout .elf .destructor entries)
    {first second : Entry}
    (less : first.priority < second.priority) :
    RunsBefore layout.execution first second := by
  refine RunsBefore.reverse ?_
  intro i j isSecond isFirst
  refine layout.before ?_ ?_ (numbered_lt ".fini_array." less) i j isSecond
    isFirst
  · simp [Entry.linkSection, (layout.mem_of_place isSecond).2, finiSection]
  · simp [Entry.linkSection, (layout.mem_of_place isFirst).2, finiSection]

/-- The destructors of a coff file run forwards. -/
theorem Layout.coff_destructor_before
    (layout : Layout .coff .destructor entries)
    {first second : Entry}
    (less : first.priority < second.priority) :
    RunsBefore layout.execution second first := by
  intro i j isSecond isFirst
  have isSecond' : layout.order[i]? = some second := isSecond
  have isFirst' : layout.order[j]? = some first := isFirst
  refine layout.before ?_ ?_ (numbered_lt ".CRT$XPTZ" less) i j isSecond'
    isFirst'
  · simp [Entry.linkSection, (layout.mem_of_place isSecond').2, finiSection]
  · simp [Entry.linkSection, (layout.mem_of_place isFirst').2, finiSection]

/-- A layout has a place for each function of its kind. -/
theorem Layout.exists_place
    (layout : Layout target kind entries)
    {entry : Entry}
    (member : entry ∈ entries)
    (isKind : entry.kind = kind) :
    ∃ i : Nat, layout.order[i]? = some entry := by
  apply List.mem_iff_getElem?.mp
  rw [layout.complete.mem_iff, List.mem_filter]
  exact ⟨member, beq_iff_eq.mpr isKind⟩

/-- Destructors of a coff file are not ordered by their priorities. -/
theorem Ordered.coff_not_lt
    (ordered : Ordered .coff entries)
    {first second : Entry}
    (firstMember : first ∈ entries)
    (secondMember : second ∈ entries)
    (firstKind : first.kind = .destructor)
    (secondKind : second.kind = .destructor) :
    ¬first.priority < second.priority := by
  intro less
  obtain ⟨layout⟩ := Layout.exists_layout .coff .destructor entries
  obtain ⟨i, isFirst⟩ := layout.exists_place firstMember firstKind
  obtain ⟨j, isSecond⟩ := layout.exists_place secondMember secondKind
  have documented := ordered.destructors layout _ _ less i j isFirst isSecond
  have actual := layout.coff_destructor_before less j i isSecond isFirst
  omega

end Orders

/--
The functions run in the documented order, but for the destructors of a coff
file, which run in the opposite one.
-/
theorem ordered_iff
    (target : Target)
    (supported : target.supportPriority = true)
    (entries : List Entry) :
    Ordered target entries ↔
      target = .elf ∨
        ∀ first ∈ entries,
          ∀ second ∈ entries,
            first.kind = .destructor →
              second.kind = .destructor →
                first.priority = second.priority := by
  constructor
  · intro ordered
    cases target with
    | elf => exact .inl rfl
    | machO => cases supported
    | other => cases supported
    | coff =>
        refine .inr fun first firstMember second secondMember firstKind
          secondKind => ?_
        have notLess :=
          ordered.coff_not_lt firstMember secondMember firstKind secondKind
        have notGreater :=
          ordered.coff_not_lt secondMember firstMember secondKind firstKind
        exact UInt16.le_antisymm (UInt16.not_lt.mp notGreater)
          (UInt16.not_lt.mp notLess)
  · intro condition
    constructor
    case constructors =>
      intro layout first second less
      exact layout.constructor_before supported less
    case destructors =>
      intro layout first second less
      cases target with
      | elf => exact layout.elf_destructor_before less
      | machO => cases supported
      | other => cases supported
      | coff =>
          intro i j isFirst isSecond
          have firstMember := layout.mem_of_place isFirst
          have secondMember := layout.mem_of_place isSecond
          rcases condition with isElf | same
          · cases isElf
          · rw [same _ firstMember.1 _ secondMember.1 firstMember.2
              secondMember.2] at less
            exact absurd less (UInt16.lt_irrefl _)
    case absent =>
      intro entry _ given
      exact entry.priority_of_args given rfl
    case raw =>
      intro entry _ priority given
      exact entry.priority_of_args given (parsePriority_rawArgs priority)
    case lazies =>
      intro layout first second isLazy finished
      apply layout.constructor_before supported
      rw [first.priority_of_args isLazy rfl,
        second.priority_of_args finished rfl]
      decide

/-- A destructor whose argument is a priority. -/
def Entry.destructor (name : String) (priority : UInt16) : Entry :=
  { name := name
    kind := .destructor
    args := rawArgs priority
    priority := priority
    parsed := parsePriority_rawArgs priority }

theorem ordered_iff_elf :
    Ordered .elf [.destructor "dest_0" 0, .destructor "dest_1" 1] :=
  (ordered_iff .elf rfl _).mpr (.inl rfl)

/-- On coff the destructor of the larger priority runs first. -/
theorem coff_destructors_not_ordered :
    ¬Ordered .coff [.destructor "dest_0" 0, .destructor "dest_1" 1] := by
  intro ordered
  have notLess :=
    ordered.coff_not_lt List.mem_cons_self
      (List.mem_cons_of_mem _ List.mem_cons_self) rfl rfl
  exact notLess (by decide)

end StaticInit.Macro
