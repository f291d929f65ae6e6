import Mathlib.Algebra.BigOperators.Group.List.Basic
import Mathlib.Order.Monotone.Basic
import Mathlib.Tactic.IntervalCases

/-! The proleptic Gregorian calendar from year zero. Days are counted from 0000-01-01,
months and days of a month from zero. -/
namespace ArosKernel.Gregorian

def leap (y : Nat) : Bool := (y % 4 == 0 && y % 100 != 0) || y % 400 == 0

def monthDays (leap : Bool) : List Nat := [31, if leap then 29 else 28, 31, 30, 31, 30, 31, 31, 30, 31, 30, 31]

def yearDays (y : Nat) : Nat := if leap y then 366 else 365

def yearStart : Nat → Nat
  | 0 => 0
  | y + 1 => yearStart y + yearDays y

@[ext] structure Date where
  year : Nat
  month : Nat
  day : Nat
  inside : day < (monthDays (leap year)).getD month 0

namespace Date

def dayOfYear (d : Date) : Nat := ((monthDays (leap d.year)).take d.month).sum + d.day

def dayNumber (d : Date) : Nat := yearStart d.year + d.dayOfYear

end Date

def locate : List Nat → Nat → Nat × Nat
  | [], day => (0, day)
  | size :: rest, day =>
    if day < size then (0, day) else ((locate rest (day - size)).1 + 1, (locate rest (day - size)).2)

theorem locateBlock {sizes : List Nat} {k day : Nat} (inside : day < sizes.getD k 0) :
    locate sizes ((sizes.take k).sum + day) = (k, day) := by
  induction sizes generalizing k with
  | nil => simp at inside
  | cons size rest ih =>
    cases k with
    | zero =>
      have inside : day < size := inside
      simp [locate, inside]
    | succ k =>
      have later : (size :: rest).take (k + 1) = size :: rest.take k := rfl
      have sum : size + (rest.take k).sum + day - size = (rest.take k).sum + day := by omega
      rw [later, List.sum_cons, locate, if_neg (by omega), sum, ih inside]

theorem blockWithin {sizes : List Nat} {k day : Nat} (inside : day < sizes.getD k 0) :
    (sizes.take k).sum + day < sizes.sum := by
  induction sizes generalizing k with
  | nil => simp at inside
  | cons size rest ih =>
    cases k with
    | zero =>
      have inside : day < size := inside
      rw [List.take_zero, List.sum_nil, List.sum_cons]
      omega
    | succ k =>
      have := ih inside
      rw [List.take_succ_cons, List.sum_cons, List.sum_cons]
      omega

theorem blockExists {sizes : List Nat} {n : Nat} (within : n < sizes.sum) :
    ∃ k day, day < sizes.getD k 0 ∧ (sizes.take k).sum + day = n := by
  induction sizes generalizing n with
  | nil => simp at within
  | cons size rest ih =>
    rw [List.sum_cons] at within
    by_cases first : n < size
    · exact ⟨0, n, first, by simp⟩
    · obtain ⟨k, day, inside, sum⟩ := ih (n := n - size) (by omega)
      refine ⟨k + 1, day, inside, ?_⟩
      rw [List.take_succ_cons, List.sum_cons]
      omega

theorem monthDaysSum (y : Nat) : (monthDays (leap y)).sum = yearDays y := by
  unfold yearDays
  cases leap y <;> rfl

theorem yearDaysPos (y : Nat) : 0 < yearDays y := by
  unfold yearDays
  split <;> decide

theorem yearStartLt : StrictMono yearStart :=
  strictMono_nat_of_lt_succ (fun y => Nat.lt_add_of_pos_right (yearDaysPos y))

theorem Date.inYear (d : Date) : yearStart d.year ≤ d.dayNumber ∧ d.dayNumber < yearStart (d.year + 1) := by
  have bound := blockWithin d.inside
  rw [monthDaysSum] at bound
  exact ⟨Nat.le_add_right .., Nat.add_lt_add_left bound _⟩

theorem yearUnique {n y z : Nat} (first : yearStart y ≤ n ∧ n < yearStart (y + 1))
    (second : yearStart z ≤ n ∧ n < yearStart (z + 1)) : y = z := by
  have below := yearStartLt.lt_iff_lt.mp (first.1.trans_lt second.2)
  have above := yearStartLt.lt_iff_lt.mp (second.1.trans_lt first.2)
  omega

theorem yearExists (n : Nat) : ∃ y, yearStart y ≤ n ∧ n < yearStart (y + 1) := by
  induction n with
  | zero => exact ⟨0, Nat.le_refl _, yearDaysPos 0⟩
  | succ n ih =>
    obtain ⟨y, start, stop⟩ := ih
    by_cases last : n + 1 < yearStart (y + 1)
    · exact ⟨y, by omega, last⟩
    · have longer := yearDaysPos (y + 1)
      exact ⟨y + 1, by omega, by rw [yearStart]; omega⟩

theorem dateExists (n : Nat) : ∃ d : Date, d.dayNumber = n := by
  obtain ⟨y, start, stop⟩ := yearExists n
  have within : n - yearStart y < (monthDays (leap y)).sum := by
    rw [monthDaysSum]
    rw [yearStart] at stop
    omega
  obtain ⟨month, day, inside, sum⟩ := blockExists within
  refine ⟨⟨y, month, day, inside⟩, ?_⟩
  rw [Date.dayNumber, Date.dayOfYear, sum]
  exact Nat.add_sub_of_le start

theorem dayNumberInj {d e : Date} (same : d.dayNumber = e.dayNumber) : d = e := by
  have years : d.year = e.year := yearUnique d.inYear (same ▸ e.inYear)
  have days : d.dayOfYear = e.dayOfYear := by
    unfold Date.dayNumber at same
    rw [years] at same
    exact Nat.add_left_cancel same
  have place : (d.month, d.day) = (e.month, e.day) := by
    rw [← locateBlock d.inside, ← locateBlock e.inside]
    exact congrArg₂ locate (by rw [years]) days
  exact Date.ext years (congrArg Prod.fst place) (congrArg Prod.snd place)

/-! Years that begin in March, so that a leap day comes last. An era is 400 of them. -/

def marchStart (y : Nat) : Nat := 365 * y + y / 4 - y / 100 + y / 400

theorem marchStartSucc (y : Nat) : marchStart (y + 1) = marchStart y + yearDays (y + 1) := by
  have fewer : y / 100 ≤ y / 4 := Nat.div_le_div_left (by decide) (by decide)
  have fours : (y + 1) / 4 = y / 4 + if (y + 1) % 4 = 0 then 1 else 0 := by split <;> omega
  have hundreds : (y + 1) / 100 = y / 100 + if (y + 1) % 100 = 0 then 1 else 0 := by split <;> omega
  have eras : (y + 1) / 400 = y / 400 + if (y + 1) % 400 = 0 then 1 else 0 := by split <;> omega
  have ofHundred : (y + 1) % 4 ≠ 0 → (y + 1) % 100 ≠ 0 := by omega
  have ofEra : (y + 1) % 100 ≠ 0 → (y + 1) % 400 ≠ 0 := by omega
  rw [marchStart, fours, hundreds, eras, marchStart, yearDays, leap]
  generalize y / 4 = q, y / 100 = c, y / 400 = e at *
  by_cases four : (y + 1) % 4 = 0
  · by_cases hundred : (y + 1) % 100 = 0
    · by_cases era : (y + 1) % 400 = 0
      · simp only [four, hundred, era, if_true, beq_self_eq_true, Bool.or_true]
        omega
      · simp only [four, hundred, era, if_true, if_false, bne_self_eq_false, Bool.and_false, Bool.false_or, beq_iff_eq]
        omega
    · simp only [four, hundred, ofEra hundred, if_true, if_false, beq_self_eq_true, Bool.true_and, bne_iff_ne, ne_eq,
        not_false_eq_true, Bool.or_eq_true, true_or]
      omega
  · simp only [four, ofHundred four, ofEra (ofHundred four), if_false, Bool.or_eq_true, Bool.and_eq_true, beq_iff_eq,
      false_and, false_or]
    omega

theorem yearStartMarch (y : Nat) : yearStart (y + 1) = marchStart y + 366 := by
  induction y with
  | zero => rfl
  | succ y ih =>
    rw [yearStart, ih, marchStartSucc]
    omega

theorem marchStartEra (era : Nat) {y : Nat} (inside : y < 400) :
    marchStart (400 * era + y) = 146097 * era + (365 * y + y / 4 - y / 100) := by
  unfold marchStart
  omega

/- Counting a day out of every 1460, and one back for every century but the last, leaves
365 for each year. -/
theorem yearOfEra {century cycle year doy : Nat} (centuries : century ≤ 3) (cycles : cycle ≤ 24) (years : year ≤ 3)
    (days : doy ≤ 364 ∨ (doy = 365 ∧ year = 3 ∧ (cycle = 24 → century = 3))) {doe : Nat}
    (sum : doe = 36524 * century + 1461 * cycle + 365 * year + doy) :
    (doe - doe / 1460 + doe / 36524 - doe / 146096) / 365 = 100 * century + 4 * cycle + year := by
  have cyclesOut : doe / 1460 = 25 * century + cycle + (24 * century + cycle + 365 * year + doy) / 1460 := by
    have split : doe = (24 * century + cycle + 365 * year + doy) + 1460 * (25 * century + cycle) := by omega
    rw [split, Nat.add_mul_div_left _ _ (by decide), Nat.add_comm]
  have centuriesBack : doe / 36524 = century + doe / 146096 := by
    by_cases last : 1461 * cycle + 365 * year + doy = 36524
    · have full : doe = 146096 := by omega
      have three : century = 3 := by omega
      rw [full, three]
    · have zero : doe / 146096 = 0 := Nat.div_eq_of_lt (by omega)
      have split : doe = (1461 * cycle + 365 * year + doy) + 36524 * century := by omega
      rw [zero, split, Nat.add_mul_div_left _ _ (by decide), Nat.div_eq_of_lt (by omega), Nat.zero_add, Nat.add_zero]
  have low : 365 * year ≤ 365 * year + doy - (24 * century + cycle + 365 * year + doy) / 1460 := by omega
  have high : 365 * year + doy - (24 * century + cycle + 365 * year + doy) / 1460 < 365 * year + 365 := by omega
  omega

namespace Date

def marchYear (d : Date) : Nat := if d.month < 2 then d.year - 1 else d.year

def marchMonth (d : Date) : Nat := if d.month < 2 then d.month + 10 else d.month - 2

def marchDay (d : Date) : Nat := (153 * d.marchMonth + 2) / 5 + d.day

theorem monthLt (d : Date) : d.month < 12 := by
  have inside := d.inside
  by_contra beyond
  have none : (monthDays (leap d.year))[d.month]? = none := List.getElem?_eq_none (Nat.not_lt.mp beyond)
  rw [List.getD_eq_getElem?_getD, none] at inside
  exact absurd inside (Nat.not_lt_zero _)

theorem dayNumberMarch (d : Date) (positive : 1 ≤ d.year) : d.dayNumber = 60 + marchStart d.marchYear + d.marchDay := by
  obtain ⟨y, same⟩ : ∃ y, d.year = y + 1 := ⟨d.year - 1, by omega⟩
  have year := yearStartMarch y
  have next := marchStartSucc y
  have bound := d.monthLt
  rw [dayNumber, dayOfYear, marchDay, marchMonth, marchYear, same, year]
  rw [yearDays] at next
  generalize d.month = m at *
  cases long : leap (y + 1) <;> rw [long] at next <;> interval_cases m <;>
    simp [monthDays] <;> simp at next <;> omega

theorem monthOfMarchDay (d : Date) : (5 * d.marchDay + 2) / 153 = d.marchMonth := by
  have bound := d.monthLt
  have inside := d.inside
  rw [marchDay, marchMonth]
  generalize d.month = m at *
  cases long : leap d.year <;> rw [long] at inside <;> interval_cases m <;> simp [monthDays] at inside ⊢ <;> omega

theorem marchDayBound (d : Date) (positive : 1 ≤ d.year) :
    d.marchDay ≤ 364 ∨ (d.marchDay = 365 ∧ leap (d.marchYear + 1) = true) := by
  have bound := d.monthLt
  have inside := d.inside
  have year : d.year - 1 + 1 = d.year := Nat.sub_add_cancel positive
  rw [marchDay, marchMonth, marchYear]
  generalize d.month = m at *
  cases long : leap d.year <;> rw [long] at inside <;> interval_cases m <;>
    simp [monthDays, year, long] at inside ⊢ <;> omega

end Date
end ArosKernel.Gregorian
