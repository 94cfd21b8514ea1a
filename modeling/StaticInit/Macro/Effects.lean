import StaticInit.Macro.Options
import Mathlib.Data.List.Induction

namespace StaticInit.Macro

/-!
# The order of the options

What an argument does to the variables of the parser does not depend on the
arguments before it, but for the conflicts: it has an effect, and the effects
of two arguments commute.
-/

/-- What an argument sets. -/
structure Effect where
  init : Option InitMode
  drop : Option DropMode
  tryInitOnce : Bool
  tolerateLeak : Bool
  prime : Bool
  deriving Repr, DecidableEq

namespace Effect

def nothing : Effect :=
  { init := none
    drop := none
    tryInitOnce := false
    tolerateLeak := false
    prime := false }

/-- Set what is not yet set. -/
def apply
    (effect : Effect)
    (state : ParserState) : Option ParserState :=
  if (effect.init.isSome && state.initSet) ||
      (effect.drop.isSome && state.dropSet) then
    none
  else
    some
      { opt :=
          { init := effect.init.getD state.opt.init
            drop := effect.drop.getD state.opt.drop
            tolerance :=
              { initFail := state.opt.tolerance.initFail && !effect.tryInitOnce
                registrationFail :=
                  state.opt.tolerance.registrationFail || effect.tolerateLeak }
            priming := state.opt.priming || effect.prime }
        initSet := state.initSet || effect.init.isSome
        dropSet := state.dropSet || effect.drop.isSome }

/-- Two effects commute. -/
theorem apply_comm
    (first second : Effect)
    (state : ParserState) :
    (first.apply state).bind second.apply =
      (second.apply state).bind first.apply := by
  obtain ⟨⟨init, mode, ⟨initFail, registrationFail⟩, priming⟩, initSet,
    dropSet⟩ := state
  obtain ⟨firstInit, firstDrop, firstOnce, firstLeak, firstPrime⟩ := first
  obtain ⟨secondInit, secondDrop, secondOnce, secondLeak, secondPrime⟩ := second
  cases initSet <;> cases dropSet <;> cases firstInit <;> cases secondInit <;>
    cases firstDrop <;> cases secondDrop <;>
    simp [apply, Bool.and_right_comm, Bool.or_right_comm]

end Effect

section Arguments

/-- The effect of a word. -/
def wordEffect (constructorDestructor : Bool) (id : String) : Option Effect :=
  if id = "init" then
    some { Effect.nothing with init := some (.dynamic 0) }
  else if id = "drop" then
    if constructorDestructor then
      some { Effect.nothing with drop := some .drop }
    else
      none
  else if id = "finalize" then
    if constructorDestructor then
      some { Effect.nothing with drop := some .finalize }
    else
      none
  else if id = "lazy" then
    some { Effect.nothing with init := some .lazy }
  else if id = "lesser_lazy" then
    some { Effect.nothing with init := some .lesserLazy }
  else if id = "try_init_once" then
    some { Effect.nothing with tryInitOnce := true }
  else if id = "tolerate_leak" then
    some { Effect.nothing with tolerateLeak := true }
  else if id = "prime" then
    some { Effect.nothing with prime := true }
  else
    none

/-- The effect of a priority under a name. -/
def valueEffect (id : String) (priority : UInt16) : Option Effect :=
  if id = "init" then
    some { Effect.nothing with init := some (.dynamic priority) }
  else if id = "drop" then
    some { Effect.nothing with drop := some (.dynamic priority) }
  else if id = "drop_only" then
    some
      { Effect.nothing with
        init := some .const
        drop := some (.dynamic priority) }
  else
    none

/-- The effect of an argument that is not rejected on its own. -/
def NestedMeta.effect
    (constructorDestructor : Bool)
    (arg : NestedMeta) : Option Effect :=
  match arg with
  | .item (.path path) => path.getIdent.bind (wordEffect constructorDestructor)
  | .item (.nameValue path literal) =>
      path.getIdent.bind fun id =>
        (parsePriorityLiteral literal).toOption.bind (valueEffect id)
  | .lit literal =>
      (parsePriorityLiteral literal).toOption.map fun priority =>
        { Effect.nothing with init := some (.dynamic priority) }
  | .item (.list _) => none

/-- An argument is the word. -/
def NestedMeta.isWord (word : String) : NestedMeta → Bool
  | .item (.path path) => path.getIdent == some word
  | _ => false

/-- An argument gives a value to the name. -/
def NestedMeta.isValue (name : String) : NestedMeta → Bool
  | .item (.nameValue path _) => path.getIdent == some name
  | _ => false

/-- An argument that selects an initialization. -/
def NestedMeta.givesInit (arg : NestedMeta) : Bool :=
  match arg with
  | .lit _ => true
  | arg =>
      arg.isWord "init" || arg.isWord "lazy" || arg.isWord "lesser_lazy" ||
        arg.isValue "init" || arg.isValue "drop_only"

/-- An argument that selects a drop. -/
def NestedMeta.givesDrop (arg : NestedMeta) : Bool :=
  arg.isWord "drop" || arg.isWord "finalize" || arg.isValue "drop" ||
    arg.isValue "drop_only"

/-- The effect of an argument is what the argument given. -/
structure Effect.Matches (effect : Effect) (arg : NestedMeta) : Prop where
  init : arg.givesInit = effect.init.isSome
  drop : arg.givesDrop = effect.drop.isSome
  bareDrop : arg.isWord "drop" = (effect.drop == some .drop)
  tryInitOnce : arg.isWord "try_init_once" = effect.tryInitOnce
  tolerateLeak : arg.isWord "tolerate_leak" = effect.tolerateLeak
  prime : arg.isWord "prime" = effect.prime
  const :
    effect.init = some .const →
      ∃ priority, effect.drop = some (.dynamic priority)
  someDrop : effect.drop ≠ some .none

theorem parseWord_toOption
    (constructorDestructor : Bool)
    (state : ParserState)
    (id : String) :
    (parseWord constructorDestructor state id).toOption =
      (wordEffect constructorDestructor id).bind fun effect =>
        effect.apply state := by
  obtain ⟨⟨init, mode, ⟨initFail, registrationFail⟩, priming⟩, initSet,
    dropSet⟩ := state
  unfold parseWord wordEffect
  split_ifs <;> cases initSet <;> cases dropSet <;>
    simp [ParserState.checkNoInit, ParserState.checkNoDrop,
      ParserState.setInit, ParserState.setDrop, Effect.apply, Effect.nothing,
      bind, Except.bind, Except.toOption, pure, Except.pure]

theorem parseNameValue_toOption
    (state : ParserState)
    (id : String)
    (lit : Lit) :
    (parseNameValue state id lit).toOption =
      (parsePriorityLiteral lit).toOption.bind fun priority =>
        (valueEffect id priority).bind fun effect => effect.apply state := by
  obtain ⟨⟨init, mode, ⟨initFail, registrationFail⟩, priming⟩, initSet,
    dropSet⟩ := state
  unfold parseNameValue valueEffect
  cases parsePriorityLiteral lit <;> split_ifs <;> cases initSet <;>
    cases dropSet <;>
      simp [ParserState.checkNoInit, ParserState.checkNoDrop,
        ParserState.setInit, ParserState.setDrop, Effect.apply, Effect.nothing,
        bind, Except.bind, Except.toOption, pure, Except.pure]

/-- The parser applies the effect of each argument. -/
theorem parseArg_toOption
    (constructorDestructor : Bool)
    (state : ParserState)
    (arg : NestedMeta) :
    (parseArg constructorDestructor state arg).toOption =
      (arg.effect constructorDestructor).bind fun effect =>
        effect.apply state := by
  cases arg with
  | lit lit =>
      obtain ⟨opt, initSet, dropSet⟩ := state
      simp only [parseArg, NestedMeta.effect]
      cases parsePriorityLiteral lit <;> cases initSet <;>
        simp [ParserState.checkNoInit, ParserState.setInit, Effect.apply,
          Effect.nothing, bind, Except.bind, Except.toOption, pure,
          Except.pure]
  | item item =>
      cases item with
      | list path => rfl
      | path path =>
          simp only [parseArg, NestedMeta.effect]
          cases path.getIdent with
          | none => rfl
          | some id => exact parseWord_toOption _ _ _
      | nameValue path lit =>
          simp only [parseArg, NestedMeta.effect]
          cases path.getIdent with
          | none => rfl
          | some id =>
              simp only [Option.bind_some, Option.bind_assoc]
              exact parseNameValue_toOption _ _ _

theorem wordEffect_matches
    {constructorDestructor : Bool}
    {path : Path}
    {id : String}
    {effect : Effect}
    (named : path.getIdent = some id)
    (has : wordEffect constructorDestructor id = some effect) :
    effect.Matches (.item (.path path)) := by
  unfold wordEffect at has
  split_ifs at has <;> cases has <;> constructor <;>
    simp_all [NestedMeta.givesInit, NestedMeta.givesDrop, NestedMeta.isWord,
      NestedMeta.isValue, Effect.nothing]

theorem valueEffect_matches
    {path : Path}
    {id : String}
    {lit : Lit}
    {priority : UInt16}
    {effect : Effect}
    (named : path.getIdent = some id)
    (has : valueEffect id priority = some effect) :
    effect.Matches (.item (.nameValue path lit)) := by
  unfold valueEffect at has
  split_ifs at has <;> cases has <;> constructor <;>
    simp_all [NestedMeta.givesInit, NestedMeta.givesDrop, NestedMeta.isWord,
      NestedMeta.isValue, Effect.nothing]

/-- An effect is what its argument given. -/
theorem NestedMeta.effect_matches
    {constructorDestructor : Bool}
    {arg : NestedMeta}
    {effect : Effect}
    (has : arg.effect constructorDestructor = some effect) :
    effect.Matches arg := by
  unfold NestedMeta.effect at has
  split at has
  · obtain ⟨id, named, has⟩ := Option.bind_eq_some_iff.mp has
    exact wordEffect_matches named has
  · obtain ⟨id, named, has⟩ := Option.bind_eq_some_iff.mp has
    obtain ⟨priority, -, has⟩ := Option.bind_eq_some_iff.mp has
    exact valueEffect_matches named has
  · obtain ⟨priority, -, rfl⟩ := Option.map_eq_some_iff.mp has
    constructor <;>
      simp [NestedMeta.givesInit, NestedMeta.givesDrop, NestedMeta.isWord,
        NestedMeta.isValue, Effect.nothing]
  · cases has

end Arguments

section Lists

/-- Apply the effects of all arguments. -/
def applyArgs
    (constructorDestructor : Bool)
    (state : Option ParserState)
    (args : List NestedMeta) : Option ParserState :=
  args.foldl
    (fun state arg =>
      state.bind fun state =>
        (arg.effect constructorDestructor).bind fun effect =>
          effect.apply state)
    state

theorem applyArgs_none
    (constructorDestructor : Bool)
    (args : List NestedMeta) :
    applyArgs constructorDestructor none args = none := by
  induction args with
  | nil => rfl
  | cons arg args inductionHypothesis => exact inductionHypothesis

/-- The loop applies the effects of all arguments. -/
theorem foldlM_toOption
    (constructorDestructor : Bool)
    (state : ParserState)
    (args : List NestedMeta) :
    (args.foldlM (parseArg constructorDestructor) state).toOption =
      applyArgs constructorDestructor (some state) args := by
  induction args generalizing state with
  | nil => rfl
  | cons arg args inductionHypothesis =>
      have parsed := parseArg_toOption constructorDestructor state arg
      rw [List.foldlM_cons, applyArgs, List.foldl_cons, Option.bind_some,
        ← parsed]
      cases parseArg constructorDestructor state arg with
      | error error => exact (applyArgs_none _ _).symm
      | ok next => exact inductionHypothesis next

/-- The order of the arguments does not matter to the loop. -/
theorem applyArgs_perm
    {constructorDestructor : Bool}
    {args others : List NestedMeta}
    (same : args.Perm others)
    (state : Option ParserState) :
    applyArgs constructorDestructor state args =
      applyArgs constructorDestructor state others := by
  unfold applyArgs
  apply same.foldl_eq'
  intro first _ second _ state
  cases state with
  | none => rfl
  | some state =>
      cases first.effect constructorDestructor with
      | none => cases second.effect constructorDestructor <;> simp
      | some one =>
          cases second.effect constructorDestructor with
          | none => simp
          | some two => exact one.apply_comm two state

/-- What the variables of the parser say of the arguments read so far. -/
structure ParserState.Describes
    (state : ParserState)
    (args : List NestedMeta) : Prop where
  inits : args.countP NestedMeta.givesInit = state.initSet.toNat
  drops : args.countP NestedMeta.givesDrop = state.dropSet.toNat
  defaultInit : state.initSet = false → state.opt.init = .lesserLazy
  defaultDrop : state.dropSet = false ↔ state.opt.drop = .none
  const :
    state.opt.init = .const →
      ∃ priority, state.opt.drop = .dynamic priority
  bareDrop : args.any (NestedMeta.isWord "drop") = (state.opt.drop == .drop)
  tryInitOnce :
    args.any (NestedMeta.isWord "try_init_once") =
      !state.opt.tolerance.initFail
  tolerateLeak :
    args.any (NestedMeta.isWord "tolerate_leak") =
      state.opt.tolerance.registrationFail
  prime : args.any (NestedMeta.isWord "prime") = state.opt.priming

namespace ParserState.Describes

theorem initial : ParserState.initial.Describes [] := by
  constructor <;> simp [ParserState.initial]

theorem apply
    {state next : ParserState}
    {args : List NestedMeta}
    {arg : NestedMeta}
    {effect : Effect}
    (describes : state.Describes args)
    (given : effect.Matches arg)
    (applied : effect.apply state = some next) :
    next.Describes (args ++ [arg]) := by
  unfold Effect.apply at applied
  split_ifs at applied with free
  cases applied
  simp only [Bool.or_eq_true, Bool.and_eq_true, not_or, not_and,
    Bool.not_eq_true] at free
  obtain ⟨freeInit, freeDrop⟩ := free
  constructor
  case inits =>
    rw [List.countP_append, List.countP_singleton, describes.inits, given.init]
    cases selected : effect.init <;> simp_all
  case drops =>
    rw [List.countP_append, List.countP_singleton, describes.drops, given.drop]
    cases selected : effect.drop <;> simp_all
  case defaultInit =>
    have old := describes.defaultInit
    cases selected : effect.init <;> simp_all
  case defaultDrop =>
    have old := describes.defaultDrop
    have some := given.someDrop
    cases selected : effect.drop <;> simp_all
  case const =>
    intro isConst
    cases selected : effect.init with
    | some init =>
        rw [selected] at isConst
        obtain ⟨priority, dropped⟩ :=
          given.const (selected.trans (congrArg _ isConst))
        exact ⟨priority, by simp [dropped]⟩
    | none =>
        rw [selected] at isConst
        obtain ⟨priority, dropped⟩ := describes.const isConst
        have kept : effect.drop = none := by
          by_contra some
          have unset :=
            describes.defaultDrop.mp
              (freeDrop (Option.isSome_iff_ne_none.mpr some))
          rw [unset] at dropped
          cases dropped
        exact ⟨priority, by simp [kept, dropped]⟩
  case bareDrop =>
    rw [List.any_append, describes.bareDrop, List.any_cons, List.any_nil,
      given.bareDrop]
    have old := describes.defaultDrop
    cases selected : effect.drop <;> simp_all
  case tryInitOnce =>
    rw [List.any_append, describes.tryInitOnce, List.any_cons, List.any_nil,
      given.tryInitOnce]
    simp
  case tolerateLeak =>
    rw [List.any_append, describes.tolerateLeak, List.any_cons, List.any_nil,
      given.tolerateLeak]
    simp
  case prime =>
    rw [List.any_append, describes.prime, List.any_cons, List.any_nil,
      given.prime]
    simp

/-- After the loop the variables describe all arguments. -/
theorem of_applyArgs
    {constructorDestructor : Bool}
    {args : List NestedMeta}
    {state : ParserState}
    (applied :
      applyArgs constructorDestructor (some .initial) args = some state) :
    state.Describes args := by
  induction args using List.reverseRecOn generalizing state with
  | nil =>
      obtain rfl := Option.some.inj applied
      exact initial
  | append_singleton args arg inductionHypothesis =>
      rw [applyArgs, List.foldl_append] at applied
      obtain ⟨before, earlier, later⟩ := Option.bind_eq_some_iff.mp applied
      obtain ⟨effect, has, last⟩ := Option.bind_eq_some_iff.mp later
      exact (inductionHypothesis earlier).apply (NestedMeta.effect_matches has) last

end ParserState.Describes

end Lists

section Modes

/-- The parser gives a mode after the checks on the variables. -/
theorem parseDynOptions_toOption
    (constructorDestructor : Bool)
    (args : List NestedMeta) :
    (parseDynOptions constructorDestructor args).toOption =
      (applyArgs constructorDestructor (some .initial) args).bind fun state =>
        (checkOptions constructorDestructor state.opt).toOption := by
  rw [← foldlM_toOption]
  unfold parseDynOptions
  cases args.foldlM (parseArg constructorDestructor) .initial <;> rfl

/-- What the generated code of a mode relies on. -/
structure Supported (args : List NestedMeta) (mode : DynMode) : Prop where
  lazyDrop :
    mode.init.isLazy = true →
      mode.drop = .none ∨ mode.drop = .drop ∨ mode.drop = .finalize
  dynamicDrop :
    ∀ priority,
      mode.init = .dynamic priority →
        mode.drop = .none ∨ ∃ dropPriority, mode.drop = .dynamic dropPriority
  dynamicBareDrop :
    ∀ priority,
      mode.init = .dynamic priority →
        args.any (NestedMeta.isWord "drop") = true →
          mode.drop = .dynamic priority
  dynamicTolerance :
    ∀ priority,
      mode.init = .dynamic priority →
        mode.tolerance = { initFail := true, registrationFail := false } ∧
          args.any (NestedMeta.isWord "try_init_once") = false ∧
          args.any (NestedMeta.isWord "tolerate_leak") = false
  constDrop :
    mode.init = .const → ∃ priority, mode.drop = .dynamic priority
  priming :
    mode.priming = true ∨ args.any (NestedMeta.isWord "prime") = true →
      mode.init.isLazy = true
  tolerateLeak :
    mode.tolerance.registrationFail = true ∨
        args.any (NestedMeta.isWord "tolerate_leak") = true →
      mode.drop ≠ .none
  inits : args.countP NestedMeta.givesInit ≤ 1
  drops : args.countP NestedMeta.givesDrop ≤ 1

/-- What the checks accept, for each kind of initialization. -/
inductive Checked (opt : DynMode) : DynMode → Prop where
  | isLazy
      (init : opt.init.isLazy = true)
      (drop : opt.drop = .none ∨ opt.drop = .drop ∨ opt.drop = .finalize)
      (leak : opt.tolerance.registrationFail = true → opt.drop ≠ .none) :
      Checked opt opt
  | const
      (init : opt.init = .const)
      (priming : opt.priming = false)
      (leak : opt.tolerance.registrationFail = true → opt.drop ≠ .none) :
      Checked opt opt
  | dynamic
      (priority : UInt16)
      (init : opt.init = .dynamic priority)
      (priming : opt.priming = false)
      (tolerance :
        opt.tolerance = { initFail := true, registrationFail := false })
      (drop : opt.drop = .none ∨ ∃ own, opt.drop = .dynamic own) :
      Checked opt opt
  | bareDrop
      (priority : UInt16)
      (init : opt.init = .dynamic priority)
      (priming : opt.priming = false)
      (tolerance :
        opt.tolerance = { initFail := true, registrationFail := false })
      (drop : opt.drop = .drop) :
      Checked opt { opt with drop := .dynamic priority }

theorem Checked.of_checkOptions
    {opt mode : DynMode}
    (checked : checkOptions true opt = .ok mode) :
    Checked opt mode := by
  obtain ⟨init, own, ⟨initFail, registrationFail⟩, priming⟩ := opt
  simp only [checkOptions, Bool.not_true, Bool.and_false, Bool.false_eq_true,
    if_false] at checked
  split at checked
  · cases checked
  rename_i leak
  split at checked
  · cases checked
  rename_i prime
  split at checked
  · cases checked
  rename_i kind
  have used : registrationFail = true → own ≠ .none := by
    rintro tolerated rfl
    exact leak (by rw [tolerated]; rfl)
  cases init with
  | const =>
      cases checked
      exact .const rfl (by simpa [InitMode.isLazy] using prime) used
  | lazy =>
      cases checked
      exact .isLazy rfl (by cases own <;> simp_all [InitMode.isLazy]) used
  | lesserLazy =>
      cases checked
      exact .isLazy rfl (by cases own <;> simp_all [InitMode.isLazy]) used
  | dynamic priority =>
      have unprimed : priming = false := by
        simpa [InitMode.isLazy] using prime
      dsimp only at checked
      split_ifs at checked with once tolerated
      have tolerance :
          (⟨initFail, registrationFail⟩ : Tolerance) = ⟨true, false⟩ := by
        simp_all
      cases own with
      | none =>
          cases checked
          exact .dynamic priority rfl unprimed tolerance (.inl rfl)
      | drop =>
          cases checked
          exact .bareDrop priority rfl unprimed tolerance rfl
      | finalize => cases checked
      | dynamic own =>
          cases checked
          exact .dynamic priority rfl unprimed tolerance (.inr ⟨own, rfl⟩)

/-- What passes the checks is supported. -/
theorem ParserState.Describes.supported
    {state : ParserState}
    {args : List NestedMeta}
    {mode : DynMode}
    (describes : state.Describes args)
    (checked : Checked state.opt mode) :
    Supported args mode := by
  have inits := Nat.le_trans (Nat.le_of_eq describes.inits) (Bool.toNat_le _)
  have drops := Nat.le_trans (Nat.le_of_eq describes.drops) (Bool.toNat_le _)
  have bare := describes.bareDrop
  have once := describes.tryInitOnce
  have leaks := describes.tolerateLeak
  have primes := describes.prime
  have const := describes.const
  cases checked with
  | isLazy init drop leak =>
      have other : ∀ priority, state.opt.init ≠ .dynamic priority := by
        intro priority same
        rw [same] at init
        cases init
      constructor <;> simp_all
  | const init priming leak =>
      constructor <;> simp_all [InitMode.isLazy]
  | dynamic priority init priming tolerance drop =>
      rcases drop with drop | ⟨own, drop⟩
      · constructor <;> simp_all [InitMode.isLazy]
      · constructor <;> simp_all [InitMode.isLazy]
  | bareDrop priority init priming tolerance drop =>
      constructor <;> simp_all [InitMode.isLazy]

/--
Permuted arguments give the same mode or are both rejected, and an accepted
mode is one that the generated code supports.
-/
theorem parseDynOptions_perm_supported (args : List NestedMeta) :
    (∀ others,
      args.Perm others →
        (parseDynOptions true args).toOption =
          (parseDynOptions true others).toOption) ∧
      ∀ mode, parseDynOptions true args = .ok mode → Supported args mode := by
  constructor
  · intro others same
    rw [parseDynOptions_toOption, parseDynOptions_toOption,
      applyArgs_perm same]
  · intro mode accepted
    have given := parseDynOptions_toOption true args
    rw [accepted] at given
    obtain ⟨state, applied, checked⟩ := Option.bind_eq_some_iff.mp given.symm
    have describes := ParserState.Describes.of_applyArgs applied
    cases outcome : checkOptions true state.opt with
    | error error =>
        rw [outcome] at checked
        cases checked
    | ok other =>
        rw [outcome] at checked
        obtain rfl := Option.some.inj checked
        exact describes.supported (.of_checkOptions outcome)

end Modes

end StaticInit.Macro
