import Mathlib.Algebra.BigOperators.Group.Finset.Piecewise
import Mathlib.Algebra.Order.Ring.Nat

/-! Books over a list of open entries: how many entries an account has open, what they
amount to, and the total over all accounts. The order of the entries is immaterial, and
closing an entry undoes opening it. -/
namespace ArosKernel.Ledger
variable {τ κ : Type} [DecidableEq κ] (account : τ → κ) (amount : τ → Nat)

def count (k : κ) (entries : List τ) : Nat := entries.countP (fun x => account x = k)

def owed (k : κ) (entries : List τ) : Nat := ((entries.filter (fun x => account x = k)).map amount).sum

def total (entries : List τ) : Nat := (entries.map amount).sum

variable {account amount}

@[simp] theorem countNil (k : κ) : count account k [] = 0 := rfl
@[simp] theorem owedNil (k : κ) : owed account amount k [] = 0 := rfl
@[simp] theorem totalNil : total amount ([] : List τ) = 0 := rfl

theorem countCons (k : κ) (x : τ) (rest : List τ) :
    count account k (x :: rest) = count account k rest + if account x = k then 1 else 0 := by
  simp [count, List.countP_cons]

theorem owedCons (k : κ) (x : τ) (rest : List τ) :
    owed account amount k (x :: rest) = owed account amount k rest + if account x = k then amount x else 0 := by
  unfold owed
  by_cases mine : account x = k
  · simp [mine, Nat.add_comm]
  · simp [mine]

theorem totalCons (x : τ) (rest : List τ) : total amount (x :: rest) = total amount rest + amount x := by
  simp [total, Nat.add_comm]

theorem countPerm (k : κ) {l m : List τ} (perm : l.Perm m) : count account k l = count account k m :=
  perm.countP_eq _

theorem owedPerm (k : κ) {l m : List τ} (perm : l.Perm m) : owed account amount k l = owed account amount k m :=
  ((perm.filter _).map amount).sum_eq

theorem totalPerm {l m : List τ} (perm : l.Perm m) : total amount l = total amount m := (perm.map amount).sum_eq

theorem countAppend (k : κ) (l m : List τ) : count account k (l ++ m) = count account k l + count account k m :=
  List.countP_append

theorem owedAppend (k : κ) (l m : List τ) :
    owed account amount k (l ++ m) = owed account amount k l + owed account amount k m := by
  simp [owed]

theorem totalAppend (l m : List τ) : total amount (l ++ m) = total amount l + total amount m := by
  simp [total]

theorem countOpen (k : κ) (x : τ) (l : List τ) :
    count account k (l ++ [x]) = count account k l + if account x = k then 1 else 0 := by
  rw [countAppend, countCons, countNil, Nat.zero_add]

theorem owedOpen (k : κ) (x : τ) (l : List τ) :
    owed account amount k (l ++ [x]) = owed account amount k l + if account x = k then amount x else 0 := by
  rw [owedAppend, owedCons, owedNil, Nat.zero_add]

theorem totalOpen (x : τ) (l : List τ) : total amount (l ++ [x]) = total amount l + amount x := by
  rw [totalAppend, totalCons, totalNil, Nat.zero_add]

theorem closePerm {l : List τ} {i : Nat} {x : τ} (at_ : l[i]? = some x) : (x :: l.eraseIdx i).Perm l := by
  obtain ⟨lt, here⟩ := List.getElem?_eq_some_iff.mp at_
  exact here ▸ List.getElem_cons_eraseIdx_perm lt

theorem countClose {l : List τ} {i : Nat} {x : τ} (at_ : l[i]? = some x) (k : κ) :
    count account k l = count account k (l.eraseIdx i) + if account x = k then 1 else 0 := by
  rw [← countPerm k (closePerm at_), countCons]

theorem owedClose {l : List τ} {i : Nat} {x : τ} (at_ : l[i]? = some x) (k : κ) :
    owed account amount k l = owed account amount k (l.eraseIdx i) + if account x = k then amount x else 0 := by
  rw [← owedPerm k (closePerm at_), owedCons]

theorem owedSet {l : List τ} {i : Nat} {x : τ} (at_ : l[i]? = some x) (y : τ) (k : κ) :
    owed account amount k (l.set i y) + (if account x = k then amount x else 0) =
      owed account amount k l + if account y = k then amount y else 0 := by
  induction l generalizing i with
  | nil => simp at at_
  | cons z rest ih =>
    cases i with
    | zero =>
      cases at_
      rw [List.set_cons_zero, owedCons, owedCons, Nat.add_right_comm]
    | succ i =>
      have later := ih at_
      rw [List.set_cons_succ, owedCons, owedCons]
      omega

theorem owedPositive {k : κ} {l : List τ} (positive : 0 < owed account amount k l) :
    ∃ (i : Nat) (x : τ), l[i]? = some x ∧ account x = k ∧ 0 < amount x := by
  induction l with
  | nil => simp at positive
  | cons x rest ih =>
    by_cases here : account x = k ∧ 0 < amount x
    · exact ⟨0, x, rfl, here.1, here.2⟩
    · have later : 0 < owed account amount k rest := by
        rw [owedCons] at positive
        split at positive
        · rename_i mine
          have idle : ¬ 0 < amount x := fun some_ => here ⟨mine, some_⟩
          omega
        · exact positive
      obtain ⟨i, y, at_, mine, open_⟩ := ih later
      exact ⟨i + 1, y, at_, mine, open_⟩

theorem sumOwed [Fintype κ] (l : List τ) : (∑ k, owed account amount k l) = total amount l := by
  induction l with
  | nil => simp
  | cons x rest ih =>
    simp only [owedCons, totalCons, Finset.sum_add_distrib, ih, Finset.sum_ite_eq, Finset.mem_univ, if_true]

end ArosKernel.Ledger
