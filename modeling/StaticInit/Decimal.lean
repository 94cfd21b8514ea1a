import Mathlib.Data.String.Basic

namespace StaticInit

/-!
# Decimal numbers of a fixed width

Zero-padded decimal numbers of one width are ordered as the numbers are.
-/

/-- A number in decimal digits, padded with zeros on the left. -/
def padded (width number : Nat) : List Char :=
  (Nat.toDigits 10 number).leftpad width '0'

/-- Lists of one length are ordered by what comes first. -/
theorem append_lt_append
    {first second : List Char}
    (less : first < second)
    (same : first.length = second.length)
    (one other : List Char) :
    first ++ one < second ++ other := by
  induction first generalizing second with
  | nil =>
      cases second with
      | nil => exact absurd less (List.lt_irrefl [])
      | cons => cases same
  | cons head tail inductionHypothesis =>
      cases second with
      | nil => cases same
      | cons head' tail' =>
          rw [List.cons_append, List.cons_append, List.cons_lt_cons_iff]
          rcases List.cons_lt_cons_iff.mp less with heads | ⟨rfl, tails⟩
          · exact .inl heads
          · exact .inr ⟨rfl, inductionHypothesis tails (Nat.succ.inj same)⟩

theorem digitChar_lt
    {first second : Nat}
    (less : first < second)
    (bound : second < 10) :
    first.digitChar < second.digitChar := by
  have small := Nat.toNat_digitChar_of_lt_ten (Nat.lt_trans less bound)
  have large := Nat.toNat_digitChar_of_lt_ten bound
  rw [Char.lt_def, UInt32.lt_iff_toNat_lt]
  change first.digitChar.toNat < second.digitChar.toNat
  omega

/-- The last digit of a padded number. -/
theorem padded_succ
    (width number : Nat) :
    padded (width + 2) number =
      padded (width + 1) (number / 10) ++ [(number % 10).digitChar] := by
  by_cases small : number < 10
  · rw [padded, padded, Nat.toDigits_of_lt_base small, Nat.div_eq_of_lt small,
      Nat.mod_eq_of_lt small, Nat.toDigits_zero]
    simp [List.leftpad, List.replicate_succ']
  · rw [padded, padded, Nat.toDigits_of_base_le (by decide) (Nat.le_of_not_lt small)]
    simp [List.leftpad]

theorem length_padded
    {width number : Nat}
    (bound : number < 10 ^ (width + 1)) :
    (padded (width + 1) number).length = width + 1 := by
  have short :=
    (Nat.length_toDigits_le_iff (show 1 < 10 by decide) (Nat.succ_pos width)).mpr
      bound
  rw [padded, List.length_leftpad]
  omega

/-- Padded numbers of one width are ordered as numbers. -/
theorem padded_lt_padded
    {width first second : Nat}
    (less : first < second)
    (bound : second < 10 ^ (width + 1)) :
    padded (width + 1) first < padded (width + 1) second := by
  induction width generalizing first second with
  | zero =>
      have firstBound : first < 10 := by omega
      rw [padded, padded, Nat.toDigits_of_lt_base firstBound,
        Nat.toDigits_of_lt_base (by omega)]
      exact List.cons_lt_cons_iff.mpr (.inl (digitChar_lt less (by omega)))
  | succ width inductionHypothesis =>
      have secondBound : second / 10 < 10 ^ (width + 1) := by
        rw [Nat.pow_succ] at bound
        exact Nat.div_lt_of_lt_mul (by omega)
      rw [padded_succ, padded_succ]
      rcases Nat.lt_or_ge (first / 10) (second / 10) with leading | trailing
      · apply append_lt_append (inductionHypothesis leading secondBound)
        rw [length_padded (by omega), length_padded secondBound]
      · have same : first / 10 = second / 10 := by omega
        rw [same]
        apply List.append_left_lt
        exact List.cons_lt_cons_iff.mpr
          (.inl (digitChar_lt (by omega) (by omega)))

end StaticInit
