import StaticInit.Macro.Syntax
import Mathlib.Data.List.Perm.Basic

namespace StaticInit.Macro

/-!
# The options of `dynamic`

The parser folds the arguments into a mode and two flags, then rejects the
combinations that are not supported and gives a bare `drop` of a raw static its
priority.
-/

inductive InitMode where
  | const
  | lazy
  | lesserLazy
  | dynamic (priority : UInt16)
  deriving Repr, DecidableEq

inductive DropMode where
  | none
  | drop
  | finalize
  | dynamic (priority : UInt16)
  deriving Repr, DecidableEq

structure Tolerance where
  initFail : Bool
  registrationFail : Bool
  deriving Repr, DecidableEq

structure DynMode where
  init : InitMode
  drop : DropMode
  tolerance : Tolerance
  priming : Bool
  deriving Repr, DecidableEq

/-- The variables of the parser. -/
structure ParserState where
  opt : DynMode
  initSet : Bool
  dropSet : Bool
  deriving Repr, DecidableEq

def ParserState.initial : ParserState where
  opt :=
    { init := .lesserLazy
      drop := .none
      tolerance := { initFail := true, registrationFail := false }
      priming := false }
  initSet := false
  dropSet := false

namespace ParserState

/-- `check_no_init!`. -/
def checkNoInit
    (state : ParserState)
    (id : Quoted) : Except CompileError ParserState :=
  if state.initSet then
    .error <| .message
      [.text "Initialization already specified `", .quoted id, .text "`"]
  else
    .ok { state with initSet := true }

/-- `check_no_drop!`. -/
def checkNoDrop
    (state : ParserState)
    (id : Quoted) : Except CompileError ParserState :=
  if state.dropSet then
    .error <| .message
      [.text "Drop already specified `", .quoted id, .text "`"]
  else
    .ok { state with dropSet := true }

def setInit (state : ParserState) (init : InitMode) : ParserState :=
  { state with opt := { state.opt with init := init } }

def setDrop (state : ParserState) (mode : DropMode) : ParserState :=
  { state with opt := { state.opt with drop := mode } }

end ParserState

/-- `unexpected_arg!`. -/
def unexpectedArg (id : Quoted) : CompileError :=
  .message
    [.text "Unexpected attribute argument `", .quoted id,
      .text "`. Expected either `init[=<u16>]`, `drop[=<u16>]`, `lazy`, `lesser_lazy`, `drop_only=<u16>`, `prime`, `tolerate_leak` or `try_init_once`."]

/-- An argument that is a single word. -/
def parseWord
    (constructorDestructor : Bool)
    (state : ParserState)
    (id : String) : Except CompileError ParserState :=
  if id = "init" then do
    let state ← state.checkNoInit (.ident id)
    return state.setInit (.dynamic 0)
  else if id = "drop" then
    if constructorDestructor then do
      let state ← state.checkNoDrop (.ident id)
      return state.setDrop .drop
    else
      .error <| .message
        [.text "Static drop mode only supported on unixes and windows"]
  else if id = "finalize" then
    if constructorDestructor then do
      let state ← state.checkNoDrop (.ident id)
      return state.setDrop .finalize
    else
      .error <| .message
        [.text "Static finalization mode only supported on unixes and windows"]
  else if id = "lazy" then do
    let state ← state.checkNoInit (.ident id)
    return state.setInit .lazy
  else if id = "lesser_lazy" then do
    let state ← state.checkNoInit (.ident id)
    return state.setInit .lesserLazy
  else if id = "try_init_once" then
    return { state with opt.tolerance.initFail := false }
  else if id = "tolerate_leak" then
    return { state with opt.tolerance.registrationFail := true }
  else if id = "prime" then
    return { state with opt.priming := true }
  else
    .error (unexpectedArg (.ident id))

/-- An argument of the form `id = lit`. -/
def parseNameValue
    (state : ParserState)
    (id : String)
    (lit : Lit) : Except CompileError ParserState :=
  if id = "init" then do
    let state ← state.checkNoInit (.ident id)
    let priority ← parsePriorityLiteral lit
    return state.setInit (.dynamic priority)
  else if id = "drop" then do
    let state ← state.checkNoDrop (.ident id)
    let priority ← parsePriorityLiteral lit
    return state.setDrop (.dynamic priority)
  else if id = "drop_only" then do
    let state ← state.checkNoInit (.ident id)
    let state ← state.checkNoDrop (.ident id)
    let priority ← parsePriorityLiteral lit
    return (state.setInit .const).setDrop (.dynamic priority)
  else
    .error (unexpectedArg (.ident id))

/-- The body of the loop over the arguments. -/
def parseArg
    (constructorDestructor : Bool)
    (state : ParserState)
    (arg : NestedMeta) : Except CompileError ParserState :=
  match arg with
  | .item (.path path) =>
      match path.getIdent with
      | some id => parseWord constructorDestructor state id
      | none => .error (unexpectedArg (.path path))
  | .item (.nameValue path lit) =>
      match path.getIdent with
      | some id => parseNameValue state id lit
      | none => .error (unexpectedArg (.path path))
  | .lit lit => do
      let state ← state.checkNoInit (.lit lit)
      let priority ← parsePriorityLiteral lit
      return state.setInit (.dynamic priority)
  | .item (.list path) =>
      .error (unexpectedArg (.argument (.item (.list path))))

def InitMode.isLazy (init : InitMode) : Bool :=
  init == .lazy || init == .lesserLazy

/-- What `parse_dyn_options` does after the loop. -/
def checkOptions
    (constructorDestructor : Bool)
    (opt : DynMode) : Except CompileError DynMode :=
  let opt :=
    if opt.init == .lesserLazy && !constructorDestructor then
      { opt with init := .lazy }
    else
      opt
  if opt.drop == .none && opt.tolerance.registrationFail then
    .error <| .message
      [.text "Unusefull `tolerate_leak`: this static is not dropped, it will always leak. Add `drop` or `finalize` attribute argument if the intent is that this static is dropped."]
  else if opt.priming && !opt.init.isLazy then
    .error <| .message [.text "Only lazy statics can be primed"]
  else if opt.init.isLazy &&
      !(opt.drop == .none || opt.drop == .finalize || opt.drop == .drop) then
    .error <| .message [.text "Drop mode not supported for lazy statics."]
  else
    match opt.init with
    | .dynamic priority =>
        if !opt.tolerance.initFail then
          .error <| .message
            [.text "Unusefull `try_init_once` attribute: raw statics initialization is attempted only once."]
        else if opt.tolerance.registrationFail then
          .error <| .message
            [.text "Unusefull `tolerate_leak` attribute: raw statics are registered for drop at compile time."]
        else
          match opt.drop with
          | .drop => .ok { opt with drop := .dynamic priority }
          | .finalize =>
              .error <| .message
                [.text "Drop mode finalize not supported for global dynamic statics."]
          | _ => .ok opt
    | _ => .ok opt

/-- `parse_dyn_options`. -/
def parseDynOptions
    (constructorDestructor : Bool)
    (args : List NestedMeta) : Except CompileError DynMode := do
  let state ← args.foldlM (parseArg constructorDestructor) .initial
  checkOptions constructorDestructor state.opt

end StaticInit.Macro
