import ArosKernel.TextOrder
import ArosKernel.Timestamp

/-! The timestamps of envelopes and snapshots as texts: until the year 10000 they sort as
the seconds they stand for. -/
namespace ArosKernel.Timestamp
open Gregorian TextOrder

def fiveDigits : Nat := 253402300800

def layout : List (Nat × Char) := [(4, '-'), (2, '-'), (2, 'T'), (2, ':'), (2, ':'), (2, 'Z')]

def parts (d : Date) (secs : UInt64) : List Nat :=
  [d.year, d.month + 1, d.day + 1, secs.toNat % 86400 / 3600, secs.toNat % 86400 % 3600 / 60, secs.toNat % 86400 % 60]

theorem paddedDigits {width n : Nat} (wide : 0 < width) (fits : n < 10 ^ width) : (padded width n).toList = digits width n := by
  have positive : ¬ (n : Int) < 0 := Int.not_lt.mpr (Int.natCast_nonneg n)
  have decimal : toString n = Nat.repr n := rfl
  have size : (Nat.repr n).length = (Nat.toDigits 10 n).length := by rw [← String.length_toList, Nat.toList_repr]
  simp only [padded, if_neg positive, Int.natAbs_natCast, String.toList_append, String.toList_ofList, decimal, Nat.toList_repr,
    String.length_empty, String.toList_empty, List.nil_append, Nat.sub_zero, size]
  rcases padDigits fits with same | ⟨none_, _⟩
  · exact same
  · omega

theorem renderFixed {d : Date} {secs : UInt64} (fits : Fits layout (parts d secs)) :
    (stamp d secs).render.toList = fixed layout (parts d secs) := by
  obtain ⟨year, rest⟩ := List.forall₂_cons.mp fits
  obtain ⟨month, rest⟩ := List.forall₂_cons.mp rest
  obtain ⟨day, rest⟩ := List.forall₂_cons.mp rest
  obtain ⟨hours, rest⟩ := List.forall₂_cons.mp rest
  obtain ⟨minutes, rest⟩ := List.forall₂_cons.mp rest
  obtain ⟨seconds, _⟩ := List.forall₂_cons.mp rest
  have text : (stamp d secs).render = padded 4 d.year ++ "-" ++ padded 2 (d.month + 1 : Nat) ++ "-" ++
      padded 2 (d.day + 1 : Nat) ++ "T" ++ (padded 2 (secs.toNat % 86400 / 3600 : Nat) ++ ":" ++
      padded 2 (secs.toNat % 86400 % 3600 / 60 : Nat) ++ ":" ++ padded 2 (secs.toNat % 86400 % 60 : Nat) ++ "Z") := rfl
  simp only [text, String.toList_append, paddedDigits (by decide) year, paddedDigits (by decide) month,
    paddedDigits (by decide) day, paddedDigits (by decide) hours, paddedDigits (by decide) minutes,
    paddedDigits (by decide) seconds]
  simp [fixed, layout, parts]

theorem blockBefore {sizes : List Nat} {k l day : Nat} (inside : day < sizes.getD k 0) (earlier : k < l) :
    (sizes.take k).sum + day < (sizes.take l).sum := by
  induction sizes generalizing k l with
  | nil => simp at inside
  | cons size rest ih =>
    cases l with
    | zero => contradiction
    | succ l =>
      rw [List.take_succ_cons, List.sum_cons]
      cases k with
      | zero =>
        have inside : day < size := inside
        rw [List.take_zero, List.sum_nil]
        omega
      | succ k =>
        have := ih inside (Nat.lt_of_succ_lt_succ earlier)
        rw [List.take_succ_cons, List.sum_cons]
        omega

theorem dateBefore {d e : Date} (before : d.dayNumber < e.dayNumber) :
    d.year < e.year ∨ (d.year = e.year ∧ (d.month < e.month ∨ (d.month = e.month ∧ d.day < e.day))) := by
  rcases Nat.lt_trichotomy d.year e.year with less | same | more
  · exact .inl less
  · refine .inr ⟨same, ?_⟩
    have within : d.dayOfYear < e.dayOfYear := by
      unfold Date.dayNumber at before
      rw [same] at before
      exact Nat.lt_of_add_lt_add_left before
    unfold Date.dayOfYear at within
    rcases Nat.lt_trichotomy d.month e.month with less | equal | more
    · exact .inl less
    · rw [same, equal] at within
      exact .inr ⟨equal, Nat.lt_of_add_lt_add_left within⟩
    · have later := blockBefore e.inside more
      rw [same] at within
      omega
  · have later := yearStartLt.monotone (show e.year + 1 ≤ d.year from more)
    have first := d.inYear.1
    have second := e.inYear.2
    omega

theorem monthFits (d : Date) : d.month + 1 < 100 := by
  have := d.monthLt
  omega

theorem dayFits (d : Date) : d.day + 1 < 100 := by
  have inside := d.inside
  have small : (monthDays (leap d.year)).getD d.month 0 ≤ 31 := by
    have month := d.monthLt
    generalize d.month = m at month ⊢
    cases leap d.year <;> interval_cases m <;> decide
  omega

theorem yearFits {d : Date} {secs : UInt64} (names : d.dayNumber = 719528 + secs.toNat / 86400)
    (early : secs.toNat < fiveDigits) : d.year < 10000 := by
  have start := d.inYear.1
  have tenThousand : yearStart 10000 = 3652425 := yearStartMarch 9999
  refine yearStartLt.lt_iff_lt.mp ?_
  unfold fiveDigits at early
  omega

theorem partsFit {d : Date} {secs : UInt64} (names : d.dayNumber = 719528 + secs.toNat / 86400)
    (early : secs.toNat < fiveDigits) : Fits layout (parts d secs) := by
  refine .cons (yearFits names early) (.cons (monthFits d) (.cons (dayFits d) (.cons ?_ (.cons ?_ (.cons ?_ .nil)))))
  · show secs.toNat % 86400 / 3600 < 100
    omega
  · show secs.toNat % 86400 % 3600 / 60 < 100
    omega
  · show secs.toNat % 86400 % 60 < 100
    omega

theorem partsBefore {d e : Date} {s t : UInt64} (first : d.dayNumber = 719528 + s.toNat / 86400)
    (second : e.dayNumber = 719528 + t.toNat / 86400) (before : s < t) : parts d s < parts e t := by
  have before := UInt64.lt_iff_toNat_lt.mp before
  simp only [parts, List.cons_lt_cons_iff]
  rcases Nat.lt_or_eq_of_le (Nat.div_le_div_right (Nat.le_of_lt before) : s.toNat / 86400 ≤ t.toNat / 86400) with days | day
  · rcases dateBefore (show d.dayNumber < e.dayNumber by omega) with year | ⟨year, month | ⟨month, day⟩⟩
    · exact .inl year
    · exact .inr ⟨year, .inl (Nat.succ_lt_succ month)⟩
    · exact .inr ⟨year, .inr ⟨congrArg Nat.succ month, .inl (Nat.succ_lt_succ day)⟩⟩
  · have same : d = e := dayNumberInj (by omega)
    subst same
    refine .inr ⟨rfl, .inr ⟨rfl, .inr ⟨rfl, ?_⟩⟩⟩
    omega

theorem formatted {secs : UInt64} (early : secs.toNat < fiveDigits) : ∃ d : Date,
    d.dayNumber = 719528 + secs.toNat / 86400 ∧ iso8601Now secs = some (stamp d secs).render ∧
      formatIso8601 secs = some (stamp d secs).render := by
  obtain ⟨d, names⟩ := dateExists (719528 + secs.toNat / 86400)
  have year : d.year ≤ 2147483647 := (yearFits names early).le.trans (by decide)
  have closed : iso8601Fields secs = some (stamp d secs) := by
    simp only [iso8601Fields, civilFromDaysSpec d names, Option.bind_eq_bind, Option.bind_some]
    rfl
  exact ⟨d, names, congrArg (Option.map _) closed, congrArg (Option.map _) (formatFieldsSpec d year names)⟩

theorem textBefore {s t : UInt64} {d e : Date} (first : d.dayNumber = 719528 + s.toNat / 86400)
    (second : e.dayNumber = 719528 + t.toNat / 86400) (early : s.toNat < fiveDigits) (early' : t.toNat < fiveDigits)
    (before : s < t) : (stamp d s).render < (stamp e t).render := by
  show (stamp d s).render.toList < (stamp e t).render.toList
  rw [renderFixed (partsFit first early), renderFixed (partsFit second early')]
  exact fixedLt (partsFit first early) (partsFit second early') (partsBefore first second before)

theorem textsChronological {s t : UInt64} (early : s.toNat < fiveDigits) (early' : t.toNat < fiveDigits) :
    ∃ a b : String, iso8601Now s = some a ∧ formatIso8601 s = some a ∧ iso8601Now t = some b ∧ formatIso8601 t = some b ∧
      a.length = 20 ∧ b.length = 20 ∧ (a < b ↔ s < t) := by
  obtain ⟨d, first, closed, loops⟩ := formatted early
  obtain ⟨e, second, closed', loops'⟩ := formatted early'
  have length : ∀ (f : Date) (u : UInt64), Fits layout (parts f u) → (stamp f u).render.length = 20 := by
    intro f u fits
    rw [← String.length_toList, renderFixed fits, fixedLength fits]
    rfl
  refine ⟨_, _, closed, loops, closed', loops', length d s (partsFit first early), length e t (partsFit second early'), ?_,
    textBefore first second early early'⟩
  intro less
  by_contra later
  rcases UInt64.lt_or_eq_of_le (UInt64.not_lt.mp later) with after | same
  · exact String.lt_asymm less (textBefore second first early' early after)
  · subst same
    cases dayNumberInj (first.trans second.symm)
    exact String.lt_irrefl _ less

theorem textsChronologicalNewYear : ∃ a b : String, iso8601Now 1704067199 = some a ∧ formatIso8601 1704067199 = some a ∧
    iso8601Now 1704067200 = some b ∧ formatIso8601 1704067200 = some b ∧ a.length = 20 ∧ b.length = 20 ∧
    (a < b ↔ (1704067199 : UInt64) < 1704067200) :=
  textsChronological (by decide) (by decide)

-- The bound is exact: the next text sorts first.
example : iso8601Now 253402300799 = some "9999-12-31T23:59:59Z" ∧ iso8601Now 253402300800 = some "10000-01-01T00:00:00Z" := by
  decide +kernel

end ArosKernel.Timestamp
