import Mathlib.Data.Nat.Digits.Defs

/-! Texts of fixed-width decimal fields, each with a separator after it. They sort as
their numbers do. -/
namespace ArosKernel.TextOrder

def digits : Nat → Nat → List Char
  | 0, _ => []
  | width + 1, n => digits width (n / 10) ++ [Nat.digitChar (n % 10)]

def fixed : List (Nat × Char) → List Nat → List Char
  | (width, mark) :: layout, n :: ns => digits width n ++ mark :: fixed layout ns
  | _, _ => []

def Fits (layout : List (Nat × Char)) (ns : List Nat) : Prop := List.Forall₂ (fun field n => n < 10 ^ field.1) layout ns

def size (layout : List (Nat × Char)) : Nat := (layout.map (fun field => field.1 + 1)).sum

theorem digitsLength (width n : Nat) : (digits width n).length = width := by
  induction width generalizing n with
  | zero => rfl
  | succ width ih => rw [digits, List.length_append, ih, List.length_singleton]

theorem digitsZero (width : Nat) : digits width 0 = List.replicate width '0' := by
  induction width with
  | zero => rfl
  | succ width ih =>
    rw [digits, Nat.zero_div, ih, List.replicate_succ']
    rfl

theorem padDigits {width n : Nat} (fits : n < 10 ^ width) :
    List.replicate (width - (Nat.toDigits 10 n).length) '0' ++ Nat.toDigits 10 n = digits width n ∨ (width = 0 ∧ n = 0) := by
  induction width generalizing n with
  | zero => exact .inr ⟨rfl, Nat.lt_one_iff.mp fits⟩
  | succ width ih =>
    refine .inl ?_
    by_cases single : n < 10
    · rw [Nat.toDigits_of_lt_base single, digits, Nat.div_eq_of_lt single, digitsZero, Nat.mod_eq_of_lt single]
      rfl
    · have ten : 10 ≤ n := Nat.not_lt.mp single
      have shorter : n / 10 < 10 ^ width := Nat.div_lt_of_lt_mul (by rw [← Nat.pow_succ']; exact fits)
      have positive : 0 < n / 10 := Nat.div_pos ten (by decide)
      rcases ih shorter with same | ⟨_, zero⟩
      · rw [Nat.toDigits_of_base_le (by decide) ten, List.length_append, List.length_singleton, ← List.append_assoc,
          Nat.add_sub_add_right, same, digits]
      · omega

theorem digitCharLt {m n : Nat} (less : m < n) (small : n < 10) : Nat.digitChar m < Nat.digitChar n := by
  have first := Nat.toNat_digitChar_of_lt_ten (less.trans small)
  have second := Nat.toNat_digitChar_of_lt_ten small
  rw [Char.lt_def, UInt32.lt_iff_toNat_lt]
  show (Nat.digitChar m).toNat < (Nat.digitChar n).toNat
  omega

theorem appendLt {a b : List Char} (length : a.length = b.length) (less : a < b) (x y : List Char) : a ++ x < b ++ y := by
  induction a generalizing b with
  | nil =>
    cases b with
    | nil => exact absurd less (List.lt_irrefl _)
    | cons d b => contradiction
  | cons c a ih =>
    cases b with
    | nil => contradiction
    | cons d b =>
      rcases List.cons_lt_cons_iff.mp less with head | ⟨same, tail⟩
      · exact List.cons_lt_cons_iff.mpr (.inl head)
      · exact List.cons_lt_cons_iff.mpr (.inr ⟨same, ih (Nat.succ.inj length) tail⟩)

theorem prefixLt (a : List Char) {x y : List Char} (less : x < y) : a ++ x < a ++ y := by
  induction a with
  | nil => exact less
  | cons c a ih => exact List.cons_lt_cons_iff.mpr (.inr ⟨rfl, ih⟩)

theorem digitsLt {width m n : Nat} (fits : n < 10 ^ width) (less : m < n) : digits width m < digits width n := by
  induction width generalizing m n with
  | zero =>
    rw [Nat.pow_zero] at fits
    omega
  | succ width ih =>
    have shorter : n / 10 < 10 ^ width := Nat.div_lt_of_lt_mul (by rw [← Nat.pow_succ']; exact fits)
    rw [digits, digits]
    rcases Nat.lt_or_eq_of_le (Nat.div_le_div_right (Nat.le_of_lt less) : m / 10 ≤ n / 10) with high | same
    · exact appendLt (by rw [digitsLength, digitsLength]) (ih shorter high) _ _
    · rw [same]
      refine prefixLt _ (List.cons_lt_cons_iff.mpr (.inl (digitCharLt ?_ (Nat.mod_lt n (by decide)))))
      omega

theorem fixedLength {layout : List (Nat × Char)} {ns : List Nat} (fits : Fits layout ns) :
    (fixed layout ns).length = size layout := by
  induction fits with
  | nil => rfl
  | cons _ _ ih =>
    rw [fixed, List.length_append, List.length_cons, digitsLength, ih, size, size, List.map_cons, List.sum_cons]
    omega

theorem fixedLt {layout : List (Nat × Char)} {ms ns : List Nat} (first : Fits layout ms) (second : Fits layout ns)
    (less : ms < ns) : fixed layout ms < fixed layout ns := by
  induction first generalizing ns with
  | nil =>
    cases second
    exact absurd less (List.lt_irrefl _)
  | cons _ _ ih =>
    cases second with
    | cons bound rest =>
      rcases List.cons_lt_cons_iff.mp less with head | ⟨same, tail⟩
      · exact appendLt (by rw [digitsLength, digitsLength]) (digitsLt bound head) _ _
      · rw [fixed, fixed, same]
        exact prefixLt _ (List.cons_lt_cons_iff.mpr (.inr ⟨rfl, ih rest tail⟩))

end ArosKernel.TextOrder
