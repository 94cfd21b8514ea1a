import Mathlib.Algebra.Group.Nat.Defs

namespace StaticInit.Macro

/-!
# The syntax that the macros look at

What the attribute macros read of the syntax trees of their input: paths,
literals, the arguments of an attribute, and the expression of a static.
-/

/-- A literal, with its digits if it is an integer. -/
inductive Lit where
  | int (digits : Nat)
  | other (text : String)
  deriving Repr, DecidableEq

structure PathSegment where
  ident : String
  /-- It has generic arguments. -/
  arguments : Bool
  deriving Repr, DecidableEq

/-- A path, which the parser only makes with a segment at least. -/
structure Path where
  leadingColon : Bool
  segments : List PathSegment
  nonempty : segments ≠ []
  /-- No list of the host takes more than `isize::MAX` bytes. -/
  fits : segments.length < 2 ^ 63
  deriving Repr, DecidableEq

/-- The path that is a word. -/
def Path.word (ident : String) : Path :=
  { leadingColon := false
    segments := [{ ident := ident, arguments := false }]
    nonempty := List.cons_ne_nil _ _
    fits := Nat.one_lt_two_pow (by decide) }

/-- `Path::get_ident`. -/
def Path.getIdent (path : Path) : Option String :=
  match path.leadingColon, path.segments with
  | false, [⟨ident, false⟩] => some ident
  | _, _ => none

/-- `Meta`, in an attribute. -/
inductive MetaItem where
  | path (path : Path)
  | list (path : Path)
  | nameValue (path : Path) (lit : Lit)
  deriving Repr, DecidableEq

/-- An argument of an attribute. -/
inductive NestedMeta where
  | item (item : MetaItem)
  | lit (lit : Lit)
  deriving Repr, DecidableEq

/-- A pattern, with the fields of a `PatIdent`. -/
inductive Pat where
  | ident (byRef : Bool) (mutability : Bool) (ident : String) (subpat : Option Pat)
  | other (tokens : String)
  deriving Repr

/-- An arm of a match. -/
structure Arm (expr : Type) where
  attrs : List String
  pat : Pat
  guard : Option expr
  body : expr
  deriving Repr

/-- An expression; of most only the tokens matter. -/
inductive Expr where
  | path (attrs : List String) (qself : Bool) (path : Path)
  | matching (attrs : List String) (expr : Expr) (arms : List (Arm Expr))
  | other (tokens : String)
  deriving Repr

/-- What an error message may quote. -/
inductive Quoted where
  | ident (ident : String)
  | path (path : Path)
  | lit (lit : Lit)
  | argument (argument : NestedMeta)
  deriving Repr, DecidableEq

/-- A part of an error message. -/
inductive Piece where
  | text (text : String)
  | quoted (quoted : Quoted)
  deriving Repr, DecidableEq

/-- A compile error: the message of `generate_error!`, or one of the parser. -/
inductive CompileError where
  | message (pieces : List Piece)
  /-- `base10_parse` of a literal that is not in the range. -/
  | outOfRange (lit : Lit)
  /-- The tokens are not what the parser expects. -/
  | syntaxError
  deriving Repr, DecidableEq

/-- Why a macro has no output. -/
inductive Abort where
  | error (error : CompileError)
  /-- The macro itself panics. -/
  | panicked
  deriving Repr, DecidableEq

/-- `parse_priority_literal`. -/
def parsePriorityLiteral : Lit → Except CompileError UInt16
  | .int digits =>
      if digits < 2 ^ 16 then
        .ok (.ofNat digits)
      else
        .error (.outOfRange (.int digits))
  | .other text =>
      .error <| .message
        [.text "Expected a priority in the range [0 ; 65535], found `",
          .quoted (.lit (.other text)), .text "`."]

end StaticInit.Macro
