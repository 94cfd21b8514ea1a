import StaticInit.Macro.Effects
import StaticInit.Macro.Sections

namespace StaticInit.Macro

/-!
# The type of a generated static

`gen_dyn_init` replaces the type of a static by one of `raw_static` or `lazy`,
according to the mode, to `mut` and to `#[thread_local]`.  The lazy types are
instances of two macros; their parameters say what the static does.
-/

/-- The types that `gen_dyn_init` may give to a static. -/
inductive GeneratedType where
  | constStatic
  | static
  | unSyncPrimedLockedLazy
  | unSyncPrimedLockedLazyDroped
  | primedLockedLazy
  | primedLesserLockedLazy
  | primedLockedLazyDroped
  | primedLesserLockedLazyDroped
  | unSyncLazyFinalize
  | unSyncLockedLazyFinalize
  | unSyncLazyDroped
  | unSyncLockedLazyDroped
  | unSyncLazy
  | unSyncLockedLazy
  | lesserLazyFinalize
  | lesserLockedLazyFinalize
  | lazyFinalize
  | lockedLazyFinalize
  | lockedLazyDroped
  | lesserLockedLazyDroped
  | lesserLazy
  | lesserLockedLazy
  | lazy
  | lockedLazy
  deriving Repr, DecidableEq

inductive Sequentializer where
  | sync
  | unSync
  | exit
  | threadExit
  deriving Repr, DecidableEq

inductive Checker where
  | initialized
  | initializedSoftFinalized
  | initializedSoftFinalizedLesser
  | initializedSoftFinalizedTL
  | initializedHardFinalized
  | initializedHardFinalizedLesser
  | initializedHardFinalizedTL
  deriving Repr, DecidableEq

inductive Data where
  | unInited
  | dropedUnInited
  | primed
  deriving Repr, DecidableEq

/-- The parameters of an instance of `impl_lazy!` or of `impl_mut_lazy!`. -/
structure LazyImpl where
  /-- `impl_mut_lazy!`: the value is behind guards. -/
  locked : Bool
  /-- The arms `global` and `global_primed_static`. -/
  usesGlobalHint : Bool
  sequentializer : Sequentializer
  checker : Checker
  data : Data
  deriving Repr, DecidableEq

/-- The instances in `lazy.rs`; raw statics are none. -/
def GeneratedType.lazyImpl : GeneratedType → Option LazyImpl
  | .constStatic => none
  | .static => none
  | .lazy => some ⟨false, false, .sync, .initialized, .unInited⟩
  | .lesserLazy => some ⟨false, true, .sync, .initialized, .unInited⟩
  | .lazyFinalize =>
      some ⟨false, false, .exit, .initializedSoftFinalized, .unInited⟩
  | .lesserLazyFinalize =>
      some ⟨false, true, .exit, .initializedSoftFinalizedLesser, .unInited⟩
  | .unSyncLazy => some ⟨false, false, .unSync, .initialized, .unInited⟩
  | .unSyncLazyFinalize =>
      some
        ⟨false, false, .threadExit, .initializedSoftFinalizedTL, .unInited⟩
  | .unSyncLazyDroped =>
      some
        ⟨false, false, .threadExit, .initializedHardFinalizedTL,
          .dropedUnInited⟩
  | .lockedLazy => some ⟨true, false, .sync, .initialized, .unInited⟩
  | .lesserLockedLazy => some ⟨true, true, .sync, .initialized, .unInited⟩
  | .primedLockedLazy => some ⟨true, false, .sync, .initialized, .primed⟩
  | .primedLesserLockedLazy =>
      some ⟨true, true, .sync, .initialized, .primed⟩
  | .lockedLazyFinalize =>
      some ⟨true, false, .exit, .initializedSoftFinalized, .unInited⟩
  | .lesserLockedLazyFinalize =>
      some ⟨true, true, .exit, .initializedSoftFinalizedLesser, .unInited⟩
  | .lockedLazyDroped =>
      some ⟨true, false, .exit, .initializedHardFinalized, .dropedUnInited⟩
  | .lesserLockedLazyDroped =>
      some
        ⟨true, true, .exit, .initializedHardFinalizedLesser,
          .dropedUnInited⟩
  | .primedLockedLazyDroped =>
      some ⟨true, false, .exit, .initializedHardFinalized, .primed⟩
  | .primedLesserLockedLazyDroped =>
      -- not the checker of the other lesser types
      some ⟨true, true, .exit, .initializedHardFinalized, .primed⟩
  | .unSyncLockedLazy =>
      some ⟨true, false, .unSync, .initialized, .unInited⟩
  | .unSyncPrimedLockedLazy =>
      some ⟨true, false, .unSync, .initialized, .primed⟩
  | .unSyncPrimedLockedLazyDroped =>
      some ⟨true, false, .threadExit, .initializedHardFinalizedTL, .primed⟩
  | .unSyncLockedLazyFinalize =>
      some
        ⟨true, false, .threadExit, .initializedSoftFinalizedTL, .unInited⟩
  | .unSyncLockedLazyDroped =>
      some
        ⟨true, false, .threadExit, .initializedHardFinalizedTL,
          .dropedUnInited⟩

/-- What happens to an initialized value at exit. -/
inductive Teardown where
  | nothing
  /-- `Finaly::finaly` of the value. -/
  | finaly
  | dropInPlace
  /-- `Uninit::uninit` of the value. -/
  | uninit
  deriving Repr, DecidableEq

/-- `Finaly` of the data. -/
def Data.finaly : Data → Teardown
  | .unInited => .finaly
  | .dropedUnInited => .dropInPlace
  | .primed => .uninit

namespace LazyImpl

/-- Whether the static belongs to one thread. -/
def isThreadLocal (impl : LazyImpl) : Bool :=
  impl.sequentializer == .unSync || impl.sequentializer == .threadExit

/-- Only the sequentializers of an exit register the static. -/
def teardown (impl : LazyImpl) : Teardown :=
  match impl.sequentializer with
  | .exit => impl.data.finaly
  | .threadExit => impl.data.finaly
  | _ => .nothing

/-- The checker takes the registration for granted once the hint is set. -/
def isLesserChecked (impl : LazyImpl) : Bool :=
  impl.checker == .initializedSoftFinalizedLesser ||
    impl.checker == .initializedHardFinalizedLesser

end LazyImpl

section Selection

/-- The error of a primed static that is not `mut`. -/
def primedNotMut : CompileError :=
  .message
    [.text "Primed statics are mutating (safe). Add the `mut` keyword."]

/-- The error of a dropped static that is not `mut`. -/
def dropedNotMut : CompileError :=
  .message [.text "Droped lazy must be mutable"]

/-- A type for a static that must be `mut`; the generated one is not. -/
def mutating
    (isMut : Bool)
    (error : CompileError)
    (type : GeneratedType) : Except CompileError (GeneratedType × Bool) :=
  if isMut then .ok (type, false) else .error error

/-- A type for a static and another one for a `mut` static. -/
def either
    (isMut : Bool)
    (type mutType : GeneratedType) :
    Except CompileError (GeneratedType × Bool) :=
  if isMut then .ok (mutType, false) else .ok (type, false)

/-- `gen_dyn_init` up to the type, and whether the generated static is `mut`. -/
def selectType
    (isThreadLocal isMut : Bool)
    (options : DynMode) : Except CompileError (GeneratedType × Bool) :=
  if isThreadLocal && !options.init.isLazy then
    .error <| .message
      [.text "Only statics with `#[dynamic(lazy)]` or `#[dynamic(lazy,drop)]` can also have `#[thread_local]` attribute"]
  else if !options.init.isLazy then
    if isMut then .ok (.static, true) else .ok (.constStatic, true)
  else if isThreadLocal && options.priming && options.drop == .none then
    mutating isMut primedNotMut .unSyncPrimedLockedLazy
  else if isThreadLocal && options.priming then
    mutating isMut primedNotMut .unSyncPrimedLockedLazyDroped
  else if options.priming && options.init == .lazy &&
      options.drop == .none then
    mutating isMut primedNotMut .primedLockedLazy
  else if options.priming && options.init == .lesserLazy &&
      options.drop == .none then
    mutating isMut primedNotMut .primedLesserLockedLazy
  else if options.priming && options.init == .lazy then
    mutating isMut primedNotMut .primedLockedLazyDroped
  else if options.priming && options.init == .lesserLazy then
    mutating isMut primedNotMut .primedLesserLockedLazyDroped
  else if isThreadLocal && options.drop == .finalize then
    either isMut .unSyncLazyFinalize .unSyncLockedLazyFinalize
  else if isThreadLocal && options.drop == .drop then
    either isMut .unSyncLazyDroped .unSyncLockedLazyDroped
  else if isThreadLocal then
    either isMut .unSyncLazy .unSyncLockedLazy
  else if options.drop == .finalize && options.init == .lesserLazy then
    either isMut .lesserLazyFinalize .lesserLockedLazyFinalize
  else if options.drop == .finalize && options.init == .lazy then
    either isMut .lazyFinalize .lockedLazyFinalize
  else if options.drop == .drop && options.init == .lazy then
    mutating isMut dropedNotMut .lockedLazyDroped
  else if options.drop == .drop && options.init == .lesserLazy then
    mutating isMut dropedNotMut .lesserLockedLazyDroped
  else if options.init == .lesserLazy then
    either isMut .lesserLazy .lesserLockedLazy
  else
    either isMut .lazy .lockedLazy

/-- Whether a constructor of the program is generated that initializes the static. -/
def generatesIniter
    (target : Target)
    (isThreadLocal : Bool)
    (options : DynMode) : Bool :=
  (generatedAttributes target isThreadLocal options).any fun generated =>
    generated.1 == .constructor

/-- `dynamic` on a static: the options, then the type. -/
def dynamicType
    (constructorDestructor isThreadLocal isMut : Bool)
    (args : List NestedMeta) :
    Except CompileError (DynMode × GeneratedType × Bool) := do
  let options ← parseDynOptions constructorDestructor args
  let type ← selectType isThreadLocal isMut options
  return (options, type)

end Selection

/-- What the mode asks for at exit. -/
def DynMode.teardown (options : DynMode) : Teardown :=
  match options.drop with
  | .none => .nothing
  | .dynamic _ => .nothing
  | .drop => if options.priming then .uninit else .dropInPlace
  | .finalize => if options.priming then .uninit else .finaly

/-- What a lazy type does for a mode and a static. -/
structure LazyFits
    (isThreadLocal isMut : Bool)
    (options : DynMode)
    (impl : LazyImpl) : Prop where
  locked : impl.locked = isMut
  threadLocal : impl.isThreadLocal = isThreadLocal
  primed : (impl.data == .primed) = options.priming
  teardown : impl.teardown = options.teardown
  /-- The accesses rely on the global hint where a constructor initializes the static. -/
  initer :
    ∀ target : Target,
      (target.supportPriority && impl.usesGlobalHint) =
        generatesIniter target isThreadLocal options
  lesser :
    impl.isLesserChecked =
      (impl.usesGlobalHint && impl.teardown != .nothing && !options.priming)

/-- What the type of a static is for a mode. -/
inductive TypeFits
    (isThreadLocal isMut : Bool)
    (options : DynMode) : GeneratedType × Bool → Prop where
  | raw
      (init : options.init.isLazy = false)
      (process : isThreadLocal = false) :
      TypeFits isThreadLocal isMut options
        (if isMut then .static else .constStatic, true)
  | isLazy
      (type : GeneratedType)
      (impl : LazyImpl)
      (init : options.init.isLazy = true)
      (same : type.lazyImpl = some impl)
      (fits : LazyFits isThreadLocal isMut options impl) :
      TypeFits isThreadLocal isMut options (type, false)

/-- The combinations for which there is no type. -/
def Untyped (isThreadLocal isMut : Bool) (options : DynMode) : Prop :=
  isThreadLocal = true ∧ options.init.isLazy = false ∨
    isMut = false ∧
      (options.priming = true ∨
        isThreadLocal = false ∧ options.init.isLazy = true ∧
          options.drop = .drop)

/-- What the parser makes sure of. -/
structure Plain (options : DynMode) : Prop where
  priming : options.priming = true → options.init.isLazy = true
  drops :
    options.init.isLazy = true →
      options.drop = .none ∨ options.drop = .drop ∨ options.drop = .finalize

/-- Without constructors a lesser lazy static is a lazy one. -/
theorem checkOptions_false (opt : DynMode) :
    checkOptions false opt =
      checkOptions true
        (if opt.init == .lesserLazy then { opt with init := .lazy } else opt) := by
  obtain ⟨init, teardown, tolerance, priming⟩ := opt
  cases init with
  | _ => rfl

theorem Checked.plain
    {opt options : DynMode}
    (checked : Checked opt options) :
    Plain options := by
  cases checked with
  | isLazy init drops => exact ⟨fun _ => init, fun _ => drops⟩
  | const init priming =>
      constructor
      · intro primes
        cases priming.symm.trans primes
      · rw [init]
        nofun
  | dynamic priority init priming =>
      constructor
      · intro primes
        cases priming.symm.trans primes
      · rw [init]
        nofun
  | bareDrop priority init priming =>
      constructor
      · intro primes
        cases priming.symm.trans primes
      · dsimp only
        rw [init]
        nofun

/-- What passes the parser is plain. -/
theorem plain_of_parse
    {constructorDestructor : Bool}
    {args : List NestedMeta}
    {options : DynMode}
    (parsed : parseDynOptions constructorDestructor args = .ok options) :
    Plain options := by
  unfold parseDynOptions at parsed
  cases folded :
    args.foldlM (parseArg constructorDestructor) ParserState.initial with
  | error error =>
      rw [folded] at parsed
      cases parsed
  | ok state =>
      rw [folded] at parsed
      change checkOptions constructorDestructor state.opt = .ok options
        at parsed
      cases constructorDestructor with
      | true => exact (Checked.of_checkOptions parsed).plain
      | false =>
          rw [checkOptions_false] at parsed
          exact (Checked.of_checkOptions parsed).plain

/-- The outcome of the selection for a plain mode. -/
inductive Selected (isThreadLocal isMut : Bool) (options : DynMode) :
    Except CompileError (GeneratedType × Bool) → Prop where
  | ok
      (type : GeneratedType × Bool)
      (typed : ¬ Untyped isThreadLocal isMut options)
      (fits : TypeFits isThreadLocal isMut options type) :
      Selected isThreadLocal isMut options (.ok type)
  | error
      (error : CompileError)
      (untyped : Untyped isThreadLocal isMut options) :
      Selected isThreadLocal isMut options (.error error)

/-- A raw static belongs to the process, and is `mut` in the end. -/
theorem selected_raw
    (isThreadLocal isMut : Bool)
    {options : DynMode}
    (plain : Plain options)
    (raw : options.init.isLazy = false) :
    Selected isThreadLocal isMut options
      (selectType isThreadLocal isMut options) := by
  have unprimed : options.priming = false := by
    cases priming : options.priming with
    | true => cases raw.symm.trans (plain.priming priming)
    | false => rfl
  cases isThreadLocal with
  | true =>
      simp only [selectType, raw, Bool.not_false, Bool.and_true, if_true]
      exact .error _ (.inl ⟨rfl, raw⟩)
  | false =>
      have typed : ¬ Untyped false isMut options := by
        simp [Untyped, raw, unprimed]
      simp only [selectType, raw, Bool.not_false, Bool.and_true,
        Bool.false_eq_true, if_false, if_true]
      rw [← apply_ite Except.ok, ← apply_ite (Prod.mk · true)]
      exact .ok _ typed (.raw raw rfl)

/-- A lazy static gets the type for its mode. -/
theorem selected_lazy
    (isThreadLocal isMut : Bool)
    {options : DynMode}
    (plain : Plain options)
    (isLazy : options.init.isLazy = true) :
    Selected isThreadLocal isMut options
      (selectType isThreadLocal isMut options) := by
  obtain ⟨init, teardown, tolerance, priming⟩ := options
  have drops := plain.drops isLazy
  -- one case for each row of the table that the selection walks through
  cases init with
  | const => cases isLazy
  | dynamic priority => cases isLazy
  | _ =>
      obtain rfl | rfl | rfl := drops
      all_goals
        cases isThreadLocal <;> cases isMut <;> cases priming
      all_goals
        first
        | exact .ok _ (by simp [Untyped, InitMode.isLazy])
            (.isLazy _ _ rfl rfl
              ⟨rfl, rfl, rfl, rfl, fun target => by cases target <;> rfl, rfl⟩)
        | exact .error _ (by simp [Untyped, InitMode.isLazy])

/-- A mode and a static select a type that fits, or there is none. -/
theorem selected
    (isThreadLocal isMut : Bool)
    {options : DynMode}
    (plain : Plain options) :
    Selected isThreadLocal isMut options
      (selectType isThreadLocal isMut options) := by
  cases isLazy : options.init.isLazy with
  | true => exact selected_lazy isThreadLocal isMut plain isLazy
  | false => exact selected_raw isThreadLocal isMut plain isLazy

/-- Accepted options select the type. -/
theorem dynamicType_of_parse
    {constructorDestructor : Bool}
    {args : List NestedMeta}
    {options : DynMode}
    (isThreadLocal isMut : Bool)
    (parsed : parseDynOptions constructorDestructor args = .ok options) :
    dynamicType constructorDestructor isThreadLocal isMut args =
      (options, ·) <$> selectType isThreadLocal isMut options := by
  unfold dynamicType
  rw [parsed]
  rfl

/--
`dynamic` gives a static a type that does what the accepted options ask for,
and rejects accepted options exactly where there is no such type.
-/
theorem dynamicType_fits
    (constructorDestructor isThreadLocal isMut : Bool)
    (args : List NestedMeta)
    (options : DynMode)
    (parsed : parseDynOptions constructorDestructor args = .ok options) :
    (∀ type,
      dynamicType constructorDestructor isThreadLocal isMut args =
          .ok (options, type) →
        TypeFits isThreadLocal isMut options type) ∧
      ((∃ error,
        dynamicType constructorDestructor isThreadLocal isMut args =
          .error error) ↔
        Untyped isThreadLocal isMut options) := by
  rw [dynamicType_of_parse isThreadLocal isMut parsed]
  have selects := selected isThreadLocal isMut (plain_of_parse parsed)
  generalize selectType isThreadLocal isMut options = outcome at selects ⊢
  cases selects with
  | error error untyped =>
      refine ⟨?_, fun _ => untyped, fun _ => ⟨error, rfl⟩⟩
      intro type selects
      cases selects
  | ok type typed fits =>
      refine ⟨?_, ?_, fun untyped => absurd untyped typed⟩
      case refine_1 =>
        rintro _ ⟨⟩
        exact fits
      case refine_2 =>
        rintro ⟨_, ⟨⟩⟩

theorem dynamicType_fits_primed :
    TypeFits false true
      { init := .lesserLazy
        drop := .finalize
        tolerance := { initFail := true, registrationFail := false }
        priming := true }
      (.primedLesserLockedLazyDroped, false) :=
  (dynamicType_fits true false true
    [.item (.path (.word "prime")), .item (.path (.word "finalize"))]
    { init := .lesserLazy
      drop := .finalize
      tolerance := { initFail := true, registrationFail := false }
      priming := true }
    rfl).1 _ rfl

end StaticInit.Macro
