import ArosKernel.Gregorian
import Mathlib.Data.Nat.Basic

/-! The two UTC formatters: `iso8601_now` of `envelope/task_envelope.rs`, from the
clock's seconds on, and `format_iso8601` of `hardware/snapshot.rs`. Sums and products
stay far below 64 bits; a difference that would be negative, or a year past `i32`,
is `none`. -/
namespace ArosKernel.Timestamp
open Gregorian

structure Fields where
  year : Int
  month : Nat
  day : Nat
  hours : Nat
  minutes : Nat
  seconds : Nat
  deriving DecidableEq, Repr

-- `{:0width}`
def padded (width : Nat) (n : Int) : String :=
  let sign := if n < 0 then "-" else ""
  let digits := toString n.natAbs
  sign ++ String.ofList (List.replicate (width - sign.length - digits.length) '0') ++ digits

def Fields.render (f : Fields) : String :=
  s!"{padded 4 f.year}-{padded 2 f.month}-{padded 2 f.day}T" ++
    s!"{padded 2 f.hours}:{padded 2 f.minutes}:{padded 2 f.seconds}Z"

def subtract (a b : Nat) : Option Nat := if b ≤ a then some (a - b) else none

def civilMonth (mp : Nat) : Option Nat := if mp < 10 then some (mp + 3) else subtract mp 9

def civilFromDays (days : Nat) : Option (Int × Nat × Nat) := do
  let z : Int := days + 719468
  let era := (if 0 ≤ z then z else z - 146096).tdiv 146097
  let doe := (z - era * 146097).toNat
  let whole ← subtract doe (doe / 1460)
  let whole ← subtract (whole + doe / 36524) (doe / 146096)
  let yoe := whole / 365
  let y : Int := yoe + era * 400
  let before ← subtract (365 * yoe + yoe / 4) (yoe / 100)
  let doy ← subtract doe before
  let mp := (5 * doy + 2) / 153
  let d ← subtract doy ((153 * mp + 2) / 5)
  let m ← civilMonth mp
  some (if m ≤ 2 then y + 1 else y, m, d + 1)

def iso8601Fields (secs : UInt64) : Option Fields := do
  let timeOfDay := secs.toNat % 86400
  let (y, m, d) ← civilFromDays (secs.toNat / 86400)
  some ⟨y, m, d, timeOfDay / 3600, (timeOfDay % 3600) / 60, timeOfDay % 60⟩

def iso8601Now (secs : UInt64) : Option String := (iso8601Fields secs).map Fields.render

def isLeap (year : Nat) : Bool := (year % 4 == 0 && year % 100 != 0) || year % 400 == 0

def daysInYear (year : Nat) : Nat := if isLeap year then 366 else 365

def yearLoop (days year : Nat) : Option (Nat × Nat) :=
  if days < daysInYear year then some (days, year)
  else if year < 2147483647 then yearLoop (days - daysInYear year) (year + 1)
  else none
termination_by days
decreasing_by
  have positive : 0 < daysInYear year := yearDaysPos year
  omega

def monthLoop : List Nat → (i : Nat) → (days : Nat) → Nat × Nat
  | [], _, days => (0, days)
  | md :: rest, i, days => if days < md then (i, days) else monthLoop rest (i + 1) (days - md)

def formatFields (epochSecs : UInt64) : Option Fields := do
  let daySecs := epochSecs.toNat % 86400
  let (days, year) ← yearLoop (epochSecs.toNat / 86400) 1970
  let monthDays :=
    if isLeap year then [31, 29, 31, 30, 31, 30, 31, 31, 30, 31, 30, 31]
    else [31, 28, 31, 30, 31, 30, 31, 31, 30, 31, 30, 31]
  let (month, days) := monthLoop monthDays 0 days
  some ⟨year, month + 1, days + 1, daySecs / 3600, (daySecs % 3600) / 60, daySecs % 60⟩

def formatIso8601 (epochSecs : UInt64) : Option String := (formatFields epochSecs).map Fields.render

theorem yearLoopSpec (d : Date) (fits : d.year ≤ 2147483647) (days year : Nat)
    (sum : yearStart year + days = d.dayNumber) : yearLoop days year = some (d.dayOfYear, d.year) := by
  have step : yearStart (year + 1) = yearStart year + daysInYear year := rfl
  have inYear := d.inYear
  fun_induction yearLoop days year with
  | case1 days year last =>
    have same : year = d.year := yearUnique ⟨by omega, by omega⟩ inYear
    subst same
    rw [Nat.add_left_cancel sum]
  | case2 days year more small ih =>
    exact ih (by omega) rfl
  | case3 days year more large =>
    have below := yearStartLt.lt_iff_lt.mp (show yearStart year < yearStart (d.year + 1) by omega)
    have above := yearStartLt.monotone (show d.year + 1 ≤ year + 1 by omega)
    omega

theorem monthLoopLocate {sizes : List Nat} {i days : Nat} (within : days < sizes.sum) :
    monthLoop sizes i days = (i + (locate sizes days).1, (locate sizes days).2) := by
  induction sizes generalizing i days with
  | nil => simp at within
  | cons md rest ih =>
    rw [List.sum_cons] at within
    rw [monthLoop, locate]
    split
    · rfl
    · rw [ih (by omega), Nat.add_assoc, Nat.add_comm 1]

def stamp (d : Date) (secs : UInt64) : Fields :=
  { year := d.year, month := d.month + 1, day := d.day + 1, hours := secs.toNat % 86400 / 3600,
    minutes := secs.toNat % 86400 % 3600 / 60, seconds := secs.toNat % 86400 % 60 }

theorem formatFieldsSpec (d : Date) (fits : d.year ≤ 2147483647) {secs : UInt64}
    (names : d.dayNumber = 719528 + secs.toNat / 86400) : formatFields secs = some (stamp d secs) := by
  have epoch : yearStart 1970 = 719528 := by decide +kernel
  have year := yearLoopSpec d fits (secs.toNat / 86400) 1970 (by rw [epoch, names])
  have months : (if isLeap d.year then [31, 29, 31, 30, 31, 30, 31, 31, 30, 31, 30, 31]
      else [31, 28, 31, 30, 31, 30, 31, 31, 30, 31, 30, 31]) = monthDays (leap d.year) := by
    show (if leap d.year then _ else _) = _
    cases leap d.year <;> rfl
  have month := monthLoopLocate (i := 0) (blockWithin d.inside)
  rw [locateBlock d.inside, Nat.zero_add] at month
  simp only [formatFields, year, Option.bind_eq_bind, Option.bind_some, months, Date.dayOfYear, month]
  rfl

theorem subtractOf {a b : Nat} (enough : b ≤ a) : subtract a b = some (a - b) := if_pos enough

theorem eraOf {era doe : Nat} (inside : doe < 146097) {z : Int} (sum : z = 146097 * era + doe) :
    (if 0 ≤ z then z else z - 146096).tdiv 146097 = era ∧ (z - era * 146097).toNat = doe := by
  have positive : 0 ≤ z := by omega
  rw [if_pos positive, Int.tdiv_eq_ediv_of_nonneg positive]
  omega

theorem yoeOf {y doy : Nat} (bound : doy ≤ 364 ∨ (doy = 365 ∧ leap (y + 1) = true)) {doe : Nat}
    (sum : doe = 365 * (y % 400) + y % 400 / 4 - y % 400 / 100 + doy) :
    doe < 146097 ∧ (doe - doe / 1460 + doe / 36524 - doe / 146096) / 365 = y % 400 := by
  have leapYear : leap (y + 1) = true → (y + 1) % 4 = 0 ∧ ((y + 1) % 100 ≠ 0 ∨ (y + 1) % 400 = 0) := by
    simp only [leap, Bool.or_eq_true, Bool.and_eq_true, beq_iff_eq, bne_iff_ne]
    omega
  have digits : y % 400 = 100 * (y % 400 / 100) + 4 * (y % 100 / 4) + y % 4 := by omega
  have parts : doe = 36524 * (y % 400 / 100) + 1461 * (y % 100 / 4) + 365 * (y % 4) + doy := by omega
  have days : doy ≤ 364 ∨ (doy = 365 ∧ y % 4 = 3 ∧ (y % 100 / 4 = 24 → y % 400 / 100 = 3)) := by
    rcases bound with short | ⟨last, long⟩
    · exact .inl short
    · have := leapYear long
      omega
  refine ⟨by omega, ?_⟩
  rw [yearOfEra (by omega) (by omega) (by omega) days parts]
  exact digits.symm

theorem monthOfMarch (d : Date) : civilMonth d.marchMonth = some (d.month + 1) := by
  have := d.monthLt
  unfold civilMonth Date.marchMonth
  by_cases early : d.month < 2
  · rw [if_pos early, if_neg (by omega), subtractOf (by omega)]
    exact congrArg some (by omega)
  · rw [if_neg early, if_pos (by omega)]
    exact congrArg some (by omega)

theorem dayOfMarch (d : Date) : subtract d.marchDay ((153 * d.marchMonth + 2) / 5) = some d.day := by
  rw [Date.marchDay, subtractOf (Nat.le_add_right ..), Nat.add_sub_cancel_left]

theorem yearOfMarch (d : Date) (positive : 1 ≤ d.year) :
    (if d.month + 1 ≤ 2 then (d.marchYear : Int) + 1 else d.marchYear) = d.year := by
  unfold Date.marchYear
  by_cases early : d.month < 2
  · rw [if_pos early, if_pos (by omega)]
    omega
  · rw [if_neg early, if_neg (by omega)]

theorem civilFromDaysSpec (d : Date) {days : Nat} (names : d.dayNumber = 719528 + days) :
    civilFromDays days = some ((d.year : Int), d.month + 1, d.day + 1) := by
  have positive : 1 ≤ d.year := by
    by_contra zero
    have stop := d.inYear.2
    rw [names, show d.year = 0 by omega] at stop
    exact absurd stop (by rw [show yearStart (0 + 1) = 366 from rfl]; omega)
  have march := d.dayNumberMarch positive
  have bound := d.marchDayBound positive
  generalize same : 365 * (d.marchYear % 400) + d.marchYear % 400 / 4 - d.marchYear % 400 / 100 + d.marchDay = doe
  obtain ⟨inEra, yoe⟩ := yoeOf bound same.symm
  have era : (days : Int) + 719468 = 146097 * (d.marchYear / 400 : Nat) + doe := by
    have split := marchStartEra (d.marchYear / 400) (Nat.mod_lt d.marchYear (show 0 < 400 by decide))
    rw [Nat.div_add_mod] at split
    omega
  obtain ⟨eraBack, doeBack⟩ := eraOf inEra era
  have first : subtract doe (doe / 1460) = some (doe - doe / 1460) := subtractOf (Nat.div_le_self ..)
  have second : subtract (doe - doe / 1460 + doe / 36524) (doe / 146096) =
      some (doe - doe / 1460 + doe / 36524 - doe / 146096) := by
    refine subtractOf ?_
    have : doe / 146096 ≤ doe / 36524 := Nat.div_le_div_left (by omega) (by omega)
    exact this.trans (Nat.le_add_left ..)
  have before : subtract (365 * (d.marchYear % 400) + d.marchYear % 400 / 4) (d.marchYear % 400 / 100) =
      some (365 * (d.marchYear % 400) + d.marchYear % 400 / 4 - d.marchYear % 400 / 100) := subtractOf (by omega)
  have doy : subtract doe (365 * (d.marchYear % 400) + d.marchYear % 400 / 4 - d.marchYear % 400 / 100) =
      some d.marchDay := by
    rw [← same, subtractOf (Nat.le_add_right ..), Nat.add_sub_cancel_left]
  have year : ((d.marchYear % 400 : Nat) : Int) + (d.marchYear / 400 : Nat) * 400 = d.marchYear := by omega
  simp only [civilFromDays, eraBack, doeBack, first, second, yoe, before, doy, d.monthOfMarchDay, dayOfMarch d,
    monthOfMarch d, year, yearOfMarch d positive, Option.bind_eq_bind, Option.bind_some]

theorem formattersAgree (secs : UInt64) : ∃ d : Date,
    (∀ other : Date, other.dayNumber = 719528 + secs.toNat / 86400 ↔ other = d) ∧
    (d.year ≤ 2147483647 → iso8601Fields secs = some (stamp d secs) ∧ formatFields secs = some (stamp d secs) ∧
      iso8601Now secs = some (stamp d secs).render ∧ formatIso8601 secs = some (stamp d secs).render) := by
  obtain ⟨d, names⟩ := dateExists (719528 + secs.toNat / 86400)
  refine ⟨d, fun other => ⟨fun also => dayNumberInj (also.trans names.symm), fun same => same ▸ names⟩, fun fits => ?_⟩
  have closed : iso8601Fields secs = some (stamp d secs) := by
    simp only [iso8601Fields, civilFromDaysSpec d names, Option.bind_eq_bind, Option.bind_some]
    rfl
  have loops := formatFieldsSpec d fits names
  exact ⟨closed, loops, congrArg (Option.map _) closed, congrArg (Option.map _) loops⟩

end ArosKernel.Timestamp
