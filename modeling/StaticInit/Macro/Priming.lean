import StaticInit.Macro.Syntax

namespace StaticInit.Macro

/-!
# The expression of a primed static

`gen_dyn_init` takes the expression of a primed static apart: the body of one
arm is its first value, the body of the other what the generator computes.
-/

/-- The bodies found so far, `DYN` first. -/
abbrev Bodies := Option Expr × Option Expr

/-- The body of the loop over the arms. -/
def selectArm (bodies : Bodies) (arm : Arm Expr) : Except Abort Bodies :=
  match arm.pat with
  | .ident false false ident none =>
      if ident = "PRIME" ∧ bodies.2.isNone then
        .ok (bodies.1, some arm.body)
      else if ident = "DYN" ∧ bodies.1.isNone then
        .ok (some arm.body, bodies.2)
      else
        .error <| .error <| .message
          [.text "Repeated match expression `", .quoted (.ident ident),
            .text "`. There must be one arm that matches `PRIME` and the other `DYN`."]
  | _ =>
      .error <| .error <| .message
        [.text "Expected either `DYN` or `PRIME` as the static has `#[dynamic(prime)]` attribute."]

def expectedInit : Abort :=
  .error <| .message
    [.text "Expected `INIT` because the static has `#[dynamic(prime)]` attribute."]

/-- The test of the scrutinee; the complement is taken before the comparison. -/
def checkScrutinee (scrutinee : Expr) : Except Abort Unit :=
  match scrutinee with
  | .path _ _ path =>
      if ~~~(UInt64.ofNat path.segments.length) = 1 then
        match path.segments.head? with
        | some first =>
            if first.ident = "INIT" then
              .error expectedInit
            else
              .ok ()
        | none => .error .panicked
      else
        .ok ()
  | _ => .error expectedInit

/-- The expressions of the generator and of the first value. -/
def primingExpression
    (priming : Bool)
    (expr : Expr) : Except Abort (Expr × Option Expr) :=
  if !priming then
    .ok (expr, none)
  else
    match expr with
    | .matching _ scrutinee arms => do
        checkScrutinee scrutinee
        if arms.length ≠ 2 then
          .error <| .error <| .message
            [.text "Expected two match arms as the static has `#[dynamic(prime)]` attribute."]
        else
          let bodies ← arms.foldlM selectArm (none, none)
          match bodies.1 with
          | some expr => .ok (expr, bodies.2)
          | none => .error .panicked
    | _ =>
        .error <| .error <| .message
          [.text "Expected an expression of the form `match INIT \x7b PRIME => /*expr/*, DYN => /*expr*/\x7d`"]

section Documentation

/-- `name => body`. -/
def plainArm (name : String) (body : Expr) : Arm Expr :=
  { attrs := []
    pat := .ident false false name none
    guard := none
    body := body }

/-- `match INIT` with two arms. -/
def matchInit (first second : Arm Expr) : Expr :=
  .matching [] (.path [] false (.word "INIT")) [first, second]

/-- The documented shape, with the first value and the generated one. -/
inductive Documented : Expr → Expr → Expr → Prop where
  | primeFirst
      (prime dyn : Expr) :
      Documented (matchInit (plainArm "PRIME" prime) (plainArm "DYN" dyn)) prime dyn
  | dynFirst
      (prime dyn : Expr) :
      Documented (matchInit (plainArm "DYN" dyn) (plainArm "PRIME" prime)) prime dyn

/-- The documented expressions are accepted as such, others rejected. -/
structure AcceptedExactly (expr : Expr) : Prop where
  accepted :
    (∃ parts, primingExpression true expr = .ok parts) ↔
      ∃ prime dyn, Documented expr prime dyn
  parts :
    ∀ prime dyn,
      Documented expr prime dyn →
        primingExpression true expr = .ok (dyn, some prime)
  noPanic : primingExpression true expr ≠ .error .panicked

/-- The patterns of two arms select two bodies, whatever else they hold. -/
inductive Arms (first second : Arm Expr) : Expr → Expr → Prop where
  | primeFirst
      (prime : first.pat = .ident false false "PRIME" none)
      (dyn : second.pat = .ident false false "DYN" none) :
      Arms first second first.body second.body
  | dynFirst
      (dyn : first.pat = .ident false false "DYN" none)
      (prime : second.pat = .ident false false "PRIME" none) :
      Arms first second second.body first.body

/-- There is more in the arm than a pattern and a body. -/
def Arm.Overfull (arm : Arm Expr) : Prop :=
  arm.attrs ≠ [] ∨ arm.guard.isSome

/--
A match on a path with the two arms of the documentation, where the path is
not `INIT` or the macro does not look at some part of the match.
-/
inductive Overlooked : Expr → Prop where
  | intro
      (attrs scrutineeAttrs : List String)
      (qself : Bool)
      (path : Path)
      {first second : Arm Expr}
      {prime dyn : Expr}
      (arms : Arms first second prime dyn)
      (overlooked :
        path ≠ .word "INIT" ∨ qself = true ∨ first.Overfull ∨
          second.Overfull ∨ attrs ≠ [] ∨ scrutineeAttrs ≠ []) :
      Overlooked (.matching attrs (.path scrutineeAttrs qself path) [first, second])

end Documentation

section Acceptance

/-- The complement of a length is not one. -/
theorem complement_ne_one
    {length : Nat}
    (fits : length < 2 ^ 63) :
    ~~~(UInt64.ofNat length) ≠ 1 := by
  intro complement
  have same : UInt64.ofNat length = ~~~1 := by
    rw [← complement, UInt64.not_not]
  have wide := congrArg UInt64.toNat same
  rw [UInt64.toNat_ofNat_of_lt' (Nat.lt_trans fits (by decide))] at wide
  rw [wide] at fits
  exact absurd fits (by decide)

/-- The test of the scrutinee accepts every path. -/
theorem checkScrutinee_path
    (attrs : List String)
    (qself : Bool)
    (path : Path) :
    checkScrutinee (.path attrs qself path) = .ok () := by
  simp only [checkScrutinee]
  rw [if_neg (complement_ne_one path.fits)]

/-- What the loop does with an arm. -/
theorem selectArm_cases
    (bodies : Bodies)
    (arm : Arm Expr) :
    (arm.pat = .ident false false "PRIME" none ∧ bodies.2 = none ∧
        selectArm bodies arm = .ok (bodies.1, some arm.body)) ∨
      (arm.pat = .ident false false "DYN" none ∧ bodies.1 = none ∧
        selectArm bodies arm = .ok (some arm.body, bodies.2)) ∨
      ∃ error, selectArm bodies arm = .error (.error error) := by
  unfold selectArm
  split
  · rename_i name plain
    by_cases isPrime : name = "PRIME" ∧ bodies.2.isNone
    · rw [if_pos isPrime]
      obtain ⟨rfl, free⟩ := isPrime
      exact .inl ⟨plain, Option.isNone_iff_eq_none.mp free, rfl⟩
    · rw [if_neg isPrime]
      by_cases isDyn : name = "DYN" ∧ bodies.1.isNone
      · rw [if_pos isDyn]
        obtain ⟨rfl, free⟩ := isDyn
        exact .inr (.inl ⟨plain, Option.isNone_iff_eq_none.mp free, rfl⟩)
      · rw [if_neg isDyn]
        exact .inr (.inr ⟨_, rfl⟩)
  · exact .inr (.inr ⟨_, rfl⟩)

/-- The loop accepts two arms if they select two bodies. -/
theorem foldlM_selectArm
    (first second : Arm Expr) :
    (∃ prime dyn,
        Arms first second prime dyn ∧
          [first, second].foldlM selectArm (none, none) =
            .ok (some dyn, some prime)) ∨
      ∃ error,
        [first, second].foldlM selectArm (none, none) =
          .error (.error error) := by
  rw [List.foldlM_cons]
  rcases selectArm_cases (none, none) first with
    ⟨one, -, same⟩ | ⟨one, -, same⟩ | ⟨error, same⟩
  · rw [same]
    rcases selectArm_cases (none, some first.body) second with
      ⟨-, used, -⟩ | ⟨two, -, next⟩ | ⟨error, next⟩
    · cases used
    · refine .inl ⟨_, _, .primeFirst one two, ?_⟩
      exact congrArg (· >>= pure) next
    · exact .inr ⟨error, congrArg (· >>= pure) next⟩
  · rw [same]
    rcases selectArm_cases (some first.body, none) second with
      ⟨two, -, next⟩ | ⟨-, used, -⟩ | ⟨error, next⟩
    · refine .inl ⟨_, _, .dynFirst one two, ?_⟩
      exact congrArg (· >>= pure) next
    · cases used
    · exact .inr ⟨error, congrArg (· >>= pure) next⟩
  · exact .inr ⟨error, by rw [same]; rfl⟩

/-- The expression is a match on a path with two arms that select two bodies. -/
inductive Accepted : Expr → Expr → Expr → Prop where
  | intro
      (attrs scrutineeAttrs : List String)
      (qself : Bool)
      (path : Path)
      {first second : Arm Expr}
      {prime dyn : Expr}
      (arms : Arms first second prime dyn) :
      Accepted
        (.matching attrs (.path scrutineeAttrs qself path) [first, second])
        prime dyn

/-- An expression is taken apart or rejected with an error. -/
theorem primingExpression_cases (expr : Expr) :
    (∃ prime dyn,
        Accepted expr prime dyn ∧
          primingExpression true expr = .ok (dyn, some prime)) ∨
      ∃ error, primingExpression true expr = .error (.error error) := by
  cases expr with
  | path attrs qself path => exact .inr ⟨_, rfl⟩
  | other tokens => exact .inr ⟨_, rfl⟩
  | matching attrs scrutinee arms =>
      cases scrutinee with
      | matching attrs scrutinee arms => exact .inr ⟨_, rfl⟩
      | other tokens => exact .inr ⟨_, rfl⟩
      | path scrutineeAttrs qself path =>
          simp only [primingExpression, Bool.not_true, Bool.false_eq_true,
            if_false, checkScrutinee_path]
          match arms with
          | [] => exact .inr ⟨_, rfl⟩
          | [_] => exact .inr ⟨_, rfl⟩
          | _ :: _ :: _ :: _ => exact .inr ⟨_, rfl⟩
          | [first, second] =>
              rcases foldlM_selectArm first second with
                ⟨prime, dyn, arms, same⟩ | ⟨error, same⟩
              · refine .inl ⟨prime, dyn, .intro _ _ _ _ arms, ?_⟩
                rw [same]
                rfl
              · exact .inr ⟨error, by rw [same]; rfl⟩

/-- Such a match is accepted. -/
theorem Accepted.primingExpression_eq
    {expr prime dyn : Expr}
    (accepted : Accepted expr prime dyn) :
    primingExpression true expr = .ok (dyn, some prime) := by
  obtain ⟨attrs, scrutineeAttrs, qself, path, arms⟩ := accepted
  simp only [primingExpression, Bool.not_true, Bool.false_eq_true, if_false,
    checkScrutinee_path]
  cases arms with
  | primeFirst prime dyn =>
      simp [List.foldlM, selectArm, prime, dyn, bind, Except.bind, pure,
        Except.pure]
  | dynFirst dyn prime =>
      simp [List.foldlM, selectArm, prime, dyn, bind, Except.bind, pure,
        Except.pure]

/-- The documented expressions are such matches. -/
theorem Documented.accepted
    {expr prime dyn : Expr}
    (documented : Documented expr prime dyn) :
    Accepted expr prime dyn := by
  cases documented with
  | primeFirst => exact .intro _ _ _ _ (.primeFirst rfl rfl)
  | dynFirst => exact .intro _ _ _ _ (.dynFirst rfl rfl)

/-- An arm that is not overfull is its pattern and its body. -/
theorem Arm.eq_plainArm
    {arm : Arm Expr}
    {name : String}
    (plain : arm.pat = .ident false false name none)
    (full : ¬arm.Overfull) :
    arm = plainArm name arm.body := by
  obtain ⟨attrs, pat, guard, body⟩ := arm
  simp only [Arm.Overfull, not_or, Decidable.not_not,
    Option.not_isSome_iff_eq_none] at full
  obtain ⟨rfl, rfl⟩ := full
  dsimp only at plain
  rw [plain]
  rfl

/-- A match of which nothing is overlooked is documented. -/
theorem Accepted.documented
    {expr prime dyn : Expr}
    (accepted : Accepted expr prime dyn)
    (seen : ¬Overlooked expr) :
    Documented expr prime dyn := by
  obtain ⟨attrs, scrutineeAttrs, qself, path, arms⟩ := accepted
  rename_i first second
  have nothing :
      ¬(path ≠ .word "INIT" ∨ qself = true ∨ first.Overfull ∨
        second.Overfull ∨ attrs ≠ [] ∨ scrutineeAttrs ≠ []) :=
    fun overlooked => seen (.intro _ _ _ _ arms overlooked)
  simp only [not_or, Decidable.not_not, Bool.not_eq_true] at nothing
  obtain ⟨rfl, rfl, firstFull, secondFull, rfl, rfl⟩ := nothing
  cases arms with
  | primeFirst isPrime isDyn =>
      rw [Arm.eq_plainArm isPrime firstFull, Arm.eq_plainArm isDyn secondFull]
      exact .primeFirst _ _
  | dynFirst isDyn isPrime =>
      rw [Arm.eq_plainArm isDyn firstFull, Arm.eq_plainArm isPrime secondFull]
      exact .dynFirst _ _

/-- Nothing of a documented expression is overlooked. -/
theorem Documented.seen
    {expr prime dyn : Expr}
    (documented : Documented expr prime dyn) :
    ¬Overlooked expr := by
  intro overlooked
  cases documented <;> cases overlooked with
  | intro attrs scrutineeAttrs qself path arms overlooked =>
      simp [Arm.Overfull, plainArm] at overlooked

/-- The macro is exact unless it overlooks something. -/
theorem primingExpression_exact_iff (expr : Expr) :
    AcceptedExactly expr ↔ ¬Overlooked expr := by
  constructor
  · intro exactly overlooked
    obtain ⟨attrs, scrutineeAttrs, qself, path, arms, -⟩ := id overlooked
    have accepted := Accepted.intro attrs scrutineeAttrs qself path arms
    obtain ⟨prime, dyn, documented⟩ :=
      exactly.accepted.mp ⟨_, accepted.primingExpression_eq⟩
    exact documented.seen overlooked
  · intro seen
    constructor
    case accepted =>
      constructor
      · rintro ⟨parts, same⟩
        rcases primingExpression_cases expr with
          ⟨prime, dyn, accepted, -⟩ | ⟨error, rejected⟩
        · exact ⟨prime, dyn, accepted.documented seen⟩
        · rw [rejected] at same
          cases same
      · rintro ⟨prime, dyn, documented⟩
        exact ⟨_, documented.accepted.primingExpression_eq⟩
    case parts =>
      intro prime dyn documented
      exact documented.accepted.primingExpression_eq
    case noPanic =>
      intro panicked
      rcases primingExpression_cases expr with
        ⟨prime, dyn, -, same⟩ | ⟨error, same⟩
      · rw [same] at panicked
        cases panicked
      · rw [same] at panicked
        cases panicked

/--
A match on another variable is accepted, and a guard is lost: `match ready`
and `DYN if late`.
-/
theorem other_scrutinee_and_guard_accepted :
    ¬AcceptedExactly
        (.matching [] (.path [] false (.word "ready"))
          [plainArm "PRIME" (.other "0"), plainArm "DYN" (.other "1")]) ∧
      ¬AcceptedExactly
        (matchInit (plainArm "PRIME" (.other "0"))
          { plainArm "DYN" (.other "1") with guard := some (.other "late") }) := by
  constructor
  · intro exactly
    obtain ⟨prime, dyn, documented⟩ :=
      exactly.accepted.mp
        ⟨_, (Accepted.intro [] [] false _ (.primeFirst rfl rfl)).primingExpression_eq⟩
    exact documented.seen
      (.intro _ _ _ _ (.primeFirst rfl rfl) (.inl (by decide)))
  · intro exactly
    obtain ⟨prime, dyn, documented⟩ :=
      exactly.accepted.mp
        ⟨_, (Accepted.intro [] [] false _ (.primeFirst rfl rfl)).primingExpression_eq⟩
    exact documented.seen
      (.intro _ _ _ _ (.primeFirst rfl rfl)
        (.inr (.inr (.inr (.inl (.inr rfl))))))

end Acceptance

end StaticInit.Macro
