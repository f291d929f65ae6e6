import ArosKernel.Pressure
import ArosKernel.RecommenderFloat

/-! The thermal pressure of `hardware/thermal.rs` on Linux: the hottest readable zone of the
thermal directory in degrees, or else the load for each processor. A text is the list of
its characters. -/
namespace ArosKernel.Hardware
open Governor (MemoryPressureLevel)
open Scheduler (ThermalPressureLevel)
open Scheduler.Recommender (recommendThermalExact)
open Rounding

structure ThermalResult where
  level : ThermalPressureLevel
  source : String
  deriving DecidableEq

-- `White_Space` of Unicode.
def isWhitespace (c : Char) : Bool :=
  (0x9 ≤ c.toNat && c.toNat ≤ 0xD) || (0x2000 ≤ c.toNat && c.toNat ≤ 0x200A) ||
    [0x20, 0x85, 0xA0, 0x1680, 0x2028, 0x2029, 0x202F, 0x205F, 0x3000].contains c.toNat

def trim (text : List Char) : List Char := ((text.dropWhile isWhitespace).reverse.dropWhile isWhitespace).reverse

/-! `i64::from_str`: a sign and decimal digits, where an overflow is an error. -/

def checked (n : Int) : Option Int := if -2 ^ 63 ≤ n ∧ n < 2 ^ 63 then some n else none

def toDigit (c : Char) : Option Int := if '0' ≤ c ∧ c ≤ '9' then some (c.toNat - 48) else none

def accumulate (sign : Int) (digits : List Char) : Option Int :=
  digits.foldlM (fun result c => do
    let x ← toDigit c
    let shifted ← checked (result * 10)
    checked (shifted + sign * x)) 0

def parseI64 : List Char → Option Int
  | [] => none
  | ['+'] => none
  | ['-'] => none
  | '+' :: digits => accumulate 1 digits
  | '-' :: digits => accumulate (-1) digits
  | digits => accumulate 1 digits

def celsius (milli : Int) : Float := ofInt64 (.ofInt milli) / 1000.0

def parseZoneMillidegrees (raw : List Char) : Option Float := (parseI64 (trim raw)).map celsius

def hotter (acc : Option Float) (c : Float) : Option Float :=
  some (match acc with
    | none => c
    | some m => larger m c)

def maxZoneCelsius (zones : List (List Char)) : Option Float := (zones.filterMap parseZoneMillidegrees).foldl hotter none

def classifyCelsius (celsius : Float) : ThermalPressureLevel :=
  if celsius < 60.0 then .nominal
  else if celsius < 80.0 then .fair
  else if celsius < 95.0 then .serious
  else .critical

-- An entry of the directory that can be read, with the text of its `temp` file.
structure Zone where
  name : List Char
  temp : Option (List Char)
  deriving DecidableEq

-- `read_dir` may fail, and so may each entry.
abbrev Directory := Option (List (Option Zone))

def reading (entry : Option Zone) : Option (List Char) := do
  let zone ← entry
  if "thermal_zone".toList.isPrefixOf zone.name then zone.temp else none

def maxCelsius (directory : Directory) : Option Float := do
  let entries ← directory
  maxZoneCelsius (entries.filterMap reading)

def detectFromLoadRatio (resources : SystemResources) : ThermalResult :=
  if resources.cpuCount = 0 then { level := .nominal, source := "unavailable" }
  else
    let ratio := resources.loadAvg1 / resources.cpuCount.toFloat
    let level := if ratio < 0.70 then .nominal else if ratio < 1.00 then .fair else if ratio < 1.50 then .serious else .critical
    { level, source := "load_ratio" }

def detectThermal (directory : Directory) (resources : SystemResources) : ThermalResult :=
  match maxCelsius directory with
  | some celsius => { level := classifyCelsius celsius, source := "sys_thermal_zone" }
  | none => detectFromLoadRatio resources

theorem accumulateConcat (sign : Int) (first second : List Char) : accumulate sign (first ++ second) =
    (accumulate sign first).bind (fun start => second.foldlM (fun result c => do
      let x ← toDigit c
      let shifted ← checked (result * 10)
      checked (shifted + sign * x)) start) := List.foldlM_append ..

theorem toDigitChar {n : Nat} (small : n < 10) : toDigit (Nat.digitChar n) = some (n : Int) := by
  have value := Nat.toNat_digitChar_of_lt_ten small
  have bounds : '0' ≤ Nat.digitChar n ∧ Nat.digitChar n ≤ '9' := by
    rw [Char.le_def, Char.le_def, UInt32.le_iff_toNat_le, UInt32.le_iff_toNat_le]
    show ('0' : Char).toNat ≤ (Nat.digitChar n).toNat ∧ (Nat.digitChar n).toNat ≤ ('9' : Char).toNat
    rw [value]
    exact ⟨Nat.le_add_right _ _, by show 48 + n ≤ 57; omega⟩
  rw [toDigit, if_pos bounds, value]
  congr 1
  omega

def InRange (n : Int) : Prop := -2 ^ 63 ≤ n ∧ n < 2 ^ 63

theorem accumulateDigits {sign : Int} (unit : sign = 1 ∨ sign = -1) {n : Nat} (fits : InRange (sign * n)) :
    accumulate sign (Nat.toDigits 10 n) = some (sign * n) := by
  induction n using Nat.strongRecOn with
  | ind n ih =>
    obtain ⟨low, high⟩ := fits
    by_cases single : n < 10
    · rw [Nat.toDigits_of_lt_base single, accumulate, List.foldlM_cons, toDigitChar single]
      have zero : checked (0 * 10) = some 0 := by decide
      have one : checked (0 + sign * n) = some (sign * n) := by rw [checked, zero_add, if_pos ⟨low, high⟩]
      simp only [Option.bind_eq_bind, Option.bind_some, zero, one, List.foldlM_nil]
      rfl
    · have ten : 10 ≤ n := Nat.not_lt.mp single
      have split : (n : Int) = (n / 10 : Nat) * 10 + (n % 10 : Nat) := by omega
      have front : InRange (sign * (n / 10 : Nat)) := by
        rcases unit with same | same <;> rw [same] at low high ⊢ <;> exact ⟨by omega, by omega⟩
      have shifted : checked (sign * (n / 10 : Nat) * 10) = some (sign * (n / 10 : Nat) * 10) :=
        if_pos (by rcases unit with same | same <;> rw [same] at low high ⊢ <;> exact ⟨by omega, by omega⟩)
      have whole : sign * (n / 10 : Nat) * 10 + sign * (n % 10 : Nat) = sign * n := by
        rw [split]
        ring
      have last : checked (sign * (n / 10 : Nat) * 10 + sign * (n % 10 : Nat)) = some (sign * n) := by
        rw [whole]
        exact if_pos ⟨low, high⟩
      rw [Nat.toDigits_of_base_le (by decide) ten, accumulateConcat, ih (n / 10) (by omega) front, Option.bind_some,
        List.foldlM_cons, toDigitChar (Nat.mod_lt n (by decide))]
      simp only [Option.bind_eq_bind, Option.bind_some, shifted, last, List.foldlM_nil]
      rfl

-- `%d`, as the kernel writes a temperature.
def decimal (n : Int) : List Char := if n < 0 then '-' :: Nat.toDigits 10 n.natAbs else Nat.toDigits 10 n.natAbs

theorem digitRange {n : Nat} {c : Char} (member : c ∈ Nat.toDigits 10 n) : 48 ≤ c.toNat ∧ c.toNat ≤ 57 := by
  have digit := Nat.isDigit_of_mem_toDigits (by decide) (by decide) member
  simp only [Char.isDigit, Bool.and_eq_true, decide_eq_true_eq] at digit
  exact digit

theorem parseUnsigned {c : Char} {rest : List Char} (digit : 48 ≤ c.toNat ∧ c.toNat ≤ 57) :
    parseI64 (c :: rest) = accumulate 1 (c :: rest) := by
  have plus : c ≠ '+' := fun same => absurd (same ▸ digit) (by decide)
  have minus : c ≠ '-' := fun same => absurd (same ▸ digit) (by decide)
  unfold parseI64
  split
  · contradiction
  · rename_i same
    exact absurd (List.cons.inj same).1 plus
  · rename_i same
    exact absurd (List.cons.inj same).1 minus
  · rename_i same
    exact absurd (List.cons.inj same).1 plus
  · rename_i same
    exact absurd (List.cons.inj same).1 minus
  · rfl

theorem parseDecimal {n : Int} (fits : InRange n) : parseI64 (decimal n) = some n := by
  obtain ⟨first, rest, digits⟩ := List.exists_cons_of_ne_nil (@Nat.toDigits_ne_nil n.natAbs 10)
  rw [decimal]
  split
  · rename_i negative
    have magnitude : (-1 : Int) * n.natAbs = n := by omega
    have exact_ := accumulateDigits (.inr rfl) (magnitude.symm ▸ fits)
    rw [magnitude, digits] at exact_
    rw [digits]
    exact exact_
  · rename_i natural
    have magnitude : (1 : Int) * n.natAbs = n := by omega
    have exact_ := accumulateDigits (.inl rfl) (magnitude.symm ▸ fits)
    rw [magnitude, digits] at exact_
    have range := @digitRange n.natAbs first (by rw [digits]; exact List.mem_cons_self)
    rw [digits, parseUnsigned range]
    exact exact_

theorem notWhitespace {c : Char} (digit : 48 ≤ c.toNat ∧ c.toNat ≤ 57) : isWhitespace c = false := by
  have others : ∀ n ∈ [0x20, 0x85, 0xA0, 0x1680, 0x2028, 0x2029, 0x202F, 0x205F, 0x3000], ¬ (48 ≤ n ∧ n ≤ 57) := by decide
  have unlisted : [0x20, 0x85, 0xA0, 0x1680, 0x2028, 0x2029, 0x202F, 0x205F, 0x3000].contains c.toNat = false := by
    rw [List.contains_eq_mem, decide_eq_false_iff_not]
    exact fun member => others _ member digit
  rw [isWhitespace, unlisted, Bool.or_false, Bool.or_eq_false_iff]
  refine ⟨?_, ?_⟩
  · rw [Bool.and_eq_false_iff, decide_eq_false_iff_not, decide_eq_false_iff_not]
    omega
  · rw [Bool.and_eq_false_iff, decide_eq_false_iff_not, decide_eq_false_iff_not]
    omega

theorem trimFront {blank text : List Char} (white : ∀ c ∈ blank, isWhitespace c = true)
    (black : ∀ c ∈ text.head?, isWhitespace c = false) : (blank ++ text).dropWhile isWhitespace = text := by
  rw [List.dropWhile_append_of_pos white]
  cases text with
  | nil => rfl
  | cons c rest => exact List.dropWhile_cons_of_neg (by rw [black c rfl]; exact Bool.false_ne_true)

theorem trimmed {before text after : List Char} (white : ∀ c ∈ before, isWhitespace c = true)
    (white' : ∀ c ∈ after, isWhitespace c = true) (some_ : text ≠ []) (black : ∀ c ∈ text, isWhitespace c = false) :
    trim (before ++ (text ++ after)) = text := by
  have first : ∀ c ∈ (text ++ after).head?, isWhitespace c = false := by
    intro c head
    rw [List.head?_append_of_ne_nil _ some_] at head
    exact black c (List.mem_of_mem_head? head)
  have last : ∀ c ∈ text.reverse.head?, isWhitespace c = false :=
    fun c head => black c (List.mem_reverse.mp (List.mem_of_mem_head? head))
  rw [trim, trimFront white first, List.reverse_append,
    trimFront (fun c member => white' c (List.mem_reverse.mp member)) last, List.reverse_reverse]

theorem decimalBlack {n : Int} {c : Char} (member : c ∈ decimal n) : isWhitespace c = false := by
  rw [decimal] at member
  split at member
  · rcases List.mem_cons.mp member with sign | digit
    · rw [sign]
      decide
    · exact notWhitespace (digitRange digit)
  · exact notWhitespace (digitRange member)

theorem decimalSome (n : Int) : decimal n ≠ [] := by
  rw [decimal]
  split
  · exact List.cons_ne_nil _ _
  · exact Nat.toDigits_ne_nil

theorem decimalRead {n : Int} (fits : InRange n) {before after : List Char} (white : ∀ c ∈ before, isWhitespace c = true)
    (white' : ∀ c ∈ after, isWhitespace c = true) : parseI64 (trim (before ++ (decimal n ++ after))) = some n := by
  rw [trimmed white white' (decimalSome n) (fun c => decimalBlack), parseDecimal fits]

theorem checkedRange {n m : Int} (fine : checked n = some m) : InRange m := by
  rw [checked, Option.ite_none_right_eq_some] at fine
  exact Option.some.inj fine.2 ▸ fine.1

theorem accumulateRange {sign : Int} {digits : List Char} {n : Int} (read : accumulate sign digits = some n) : InRange n := by
  rcases List.eq_nil_or_concat digits with none | ⟨front, last, same⟩
  · rw [none] at read
    cases read
    exact ⟨by decide, by decide⟩
  · rw [same, List.concat_eq_append, accumulateConcat] at read
    obtain ⟨m, _, rest⟩ := Option.bind_eq_some_iff.mp read
    obtain ⟨k, found, over_⟩ := Option.bind_eq_some_iff.mp rest
    cases over_
    obtain ⟨x, _, found⟩ := Option.bind_eq_some_iff.mp found
    obtain ⟨shifted, _, found⟩ := Option.bind_eq_some_iff.mp found
    exact checkedRange found

theorem parseRange {text : List Char} {n : Int} (read : parseI64 text = some n) : InRange n := by
  unfold parseI64 at read
  split at read
  · cases read
  · cases read
  · cases read
  · exact accumulateRange read
  · exact accumulateRange read
  · exact accumulateRange read

theorem thousand : Denotes 1000.0 ((8796093022208000 : Nat) * 2 ^ (-43 : Int)) :=
  literalDenotes 8796093022208000 (-43) (by decide) (by rfl)

theorem wordBounds {n : Int} (fits : InRange n) {r : ℚ} (near : Faithful n r) : |r| ≤ 2 ^ 63 := by
  have top : Representable ((2 : ℚ) ^ 63) := ⟨1, 63, by decide, by decide, by norm_num⟩
  have low : -(2 : ℚ) ^ 63 ≤ n := by exact_mod_cast fits.1
  have high : (n : ℚ) ≤ 2 ^ 63 := by exact_mod_cast fits.2.le
  exact abs_le.mpr ⟨(near _ (representableNeg top)).1 low, (near _ top).2 high⟩

theorem degrees {n : Int} (fits : InRange n) :
    ∃ r, Denotes (celsius n) r ∧ ∀ t : Nat, 0 < t → t < 1024 → ((t : ℚ) ≤ r ↔ 1000 * (t : Int) ≤ n) := by
  have same : (Int64.ofInt n).toInt = n := Int64.toInt_ofInt_of_le (by exact fits.1) (by exact fits.2)
  obtain ⟨r, whole, near⟩ := int64Denotes (.ofInt n)
  rw [same] at near
  have thousand_ : Denotes 1000.0 1000 := by
    have value : ((8796093022208000 : Nat) : ℚ) * 2 ^ (-43 : Int) = 1000 := by norm_num
    exact value ▸ thousand
  have size : |r / 1000| < 2 ^ (1000 : Int) := by
    have bound := wordBounds fits near
    rw [abs_div, abs_of_pos (show (0 : ℚ) < 1000 by norm_num)]
    refine lt_trans ?_ word
    linarith
  obtain ⟨q, quotient, near'⟩ := divDenotes whole thousand_ (by norm_num) size
  clear size
  refine ⟨q, quotient, fun t positive few => ⟨fun met => ?_, fun met => ?_⟩⟩
  · by_contra missed
    -- One millidegree below `t` there is a float between the quotient and `t`.
    have below : (n : ℚ) ≤ ((1000 * t - 1 : Int) : ℚ) := by exact_mod_cast (show n ≤ 1000 * t - 1 by omega)
    have kept := (near _ (intRepresentable (by omega))).2 below
    push_cast at kept
    have cast : ((t * 1024 - 1 : Nat) : ℚ) = t * 1024 - 1 := by
      rw [Nat.cast_sub (by omega)]
      push_cast
      rfl
    have step : ((t * 1024 - 1 : Nat) : ℚ) * 2 ^ (-10 : Int) = t - 1 / 1024 := by
      rw [cast]
      norm_num
      ring
    have under : r / 1000 ≤ ((t * 1024 - 1 : Nat) : ℚ) * 2 ^ (-10 : Int) := by
      rw [step, div_le_iff₀ (by norm_num)]
      linarith
    have rounded := (near' _ (representableNat (by omega) (by decide))).2 under
    rw [step] at rounded
    linarith
  · have above : ((1000 * t : Int) : ℚ) ≤ n := by exact_mod_cast met
    have kept := (near _ (intRepresentable (by omega))).1 above
    push_cast at kept
    have whole_ : Representable (t : ℚ) := by
      have fits := @intRepresentable t (by omega)
      rwa [Int.cast_natCast] at fits
    refine (near' _ whole_).1 ?_
    rw [le_div_iff₀ (by norm_num)]
    linarith

theorem foldHotter {ms : List Int} (fits : ∀ m ∈ ms, InRange m) {f : Float} {q : ℚ} (denotes : Denotes f q) :
    ∃ g r, (ms.map celsius).foldl hotter (some f) = some g ∧ Denotes g r ∧
      ∀ t : Nat, 0 < t → t < 1024 → ((t : ℚ) ≤ r ↔ (t : ℚ) ≤ q ∨ ∃ m ∈ ms, 1000 * (t : Int) ≤ m) := by
  induction ms generalizing f q with
  | nil => exact ⟨f, q, rfl, denotes, fun t _ _ => by simp⟩
  | cons m rest ih =>
    obtain ⟨p, there, meets⟩ := degrees (fits m List.mem_cons_self)
    obtain ⟨g, r, folded, denotes', spec⟩ := ih (fun n member => fits n (List.mem_cons_of_mem m member))
      (largerDenotes denotes there)
    refine ⟨g, r, folded, denotes', fun t positive few => ?_⟩
    rw [spec t positive few, le_max_iff, meets t positive few]
    simp only [List.mem_cons, exists_eq_or_imp]
    exact or_assoc

theorem hottestMeets {first : Int} {rest : List Int} (fits : ∀ m ∈ first :: rest, InRange m) :
    ∃ g r, ((first :: rest).map celsius).foldl hotter none = some g ∧ Denotes g r ∧
      ∀ t : Nat, 0 < t → t < 1024 → ((t : ℚ) ≤ r ↔ ∃ m ∈ first :: rest, 1000 * (t : Int) ≤ m) := by
  obtain ⟨p, there, meets⟩ := degrees (fits first List.mem_cons_self)
  obtain ⟨g, r, folded, denotes, spec⟩ := foldHotter (fun m member => fits m (List.mem_cons_of_mem first member)) there
  refine ⟨g, r, folded, denotes, fun t positive few => ?_⟩
  rw [spec t positive few, meets t positive few]
  simp only [List.mem_cons, exists_eq_or_imp]

def millisRead (directory : Directory) : List Int :=
  ((directory.getD []).filterMap reading).filterMap (fun raw => parseI64 (trim raw))

def levelOfMillis (hottest : Int) : ThermalPressureLevel :=
  if hottest < 60000 then .nominal
  else if hottest < 80000 then .fair
  else if hottest < 95000 then .serious
  else .critical

theorem maxCelsiusFold (directory : Directory) : maxCelsius directory = ((millisRead directory).map celsius).foldl hotter none := by
  rw [millisRead, List.map_filterMap]
  cases directory with
  | none => rfl
  | some entries => rfl

theorem sixty : Denotes 60.0 ((8444249301319680 : Nat) * 2 ^ (-47 : Int)) :=
  literalDenotes 8444249301319680 (-47) (by decide) (by rfl)

theorem eighty : Denotes 80.0 ((5629499534213120 : Nat) * 2 ^ (-46 : Int)) :=
  literalDenotes 5629499534213120 (-46) (by decide) (by rfl)

theorem ninetyFive : Denotes 95.0 ((6685030696878080 : Nat) * 2 ^ (-46 : Int)) :=
  literalDenotes 6685030696878080 (-46) (by decide) (by rfl)

theorem classifyExact {f : Float} {r : ℚ} {hottest : Int} (denotes : Denotes f r)
    (meets : ∀ t : Nat, 0 < t → t < 1024 → ((t : ℚ) ≤ r ↔ 1000 * (t : Int) ≤ hottest)) :
    classifyCelsius f = levelOfMillis hottest := by
  have below {limit : Float} {m : Nat} {e : Int} (t : Nat) (threshold : Denotes limit (m * 2 ^ e)) (same : (m : ℚ) * 2 ^ e = t)
      (range : 0 < t ∧ t < 1024) : f < limit ↔ hottest < 1000 * t := by
    rw [denotesLt denotes threshold, same, ← not_le, meets t range.1 range.2, not_le]
  have first := below 60 sixty (by norm_num) (by decide)
  have second := below 80 eighty (by norm_num) (by decide)
  have third := below 95 ninetyFive (by norm_num) (by decide)
  simp only [classifyCelsius, levelOfMillis, first, second, third]
  rfl

theorem largestMeets {ms : List Int} {hottest : Int} (largest : hottest ∈ ms ∧ ∀ m ∈ ms, m ≤ hottest) (limit : Int) :
    (∃ m ∈ ms, limit ≤ m) ↔ limit ≤ hottest :=
  ⟨fun ⟨m, member, met⟩ => met.trans (largest.2 m member), fun met => ⟨hottest, largest.1, met⟩⟩

theorem detectExact (directory : Directory) (resources : SystemResources) : detectThermal directory resources =
    match (millisRead directory).max? with
    | some hottest => { level := levelOfMillis hottest, source := "sys_thermal_zone" }
    | none => detectFromLoadRatio resources := by
  have fits : ∀ m ∈ millisRead directory, InRange m := by
    intro m member
    obtain ⟨raw, _, read⟩ := List.mem_filterMap.mp member
    exact parseRange read
  rw [detectThermal, maxCelsiusFold]
  cases millis : millisRead directory with
  | nil => rfl
  | cons first rest =>
    rw [millis] at fits
    obtain ⟨f, r, folded, denotes, meets⟩ := hottestMeets fits
    obtain ⟨hottest, most⟩ := Option.isSome_iff_exists.mp (List.isSome_max?_of_ne_nil (List.cons_ne_nil first rest))
    have largest := List.max?_eq_some_iff.mp most
    rw [folded, most]
    have level := classifyExact denotes (fun t positive few => (meets t positive few).trans (largestMeets largest _))
    exact congrArg (fun level => ThermalResult.mk level "sys_thermal_zone") level

theorem levelMono {m n : Int} (le : m ≤ n) : (levelOfMillis m).ordinal ≤ (levelOfMillis n).ordinal := by
  unfold levelOfMillis
  repeat' split
  all_goals first | decide | omega

def SystemResources.scheduler (resources : SystemResources) : Scheduler.SystemResources :=
  { cpuCount := resources.cpuCount, ramAvailableMb := resources.ramAvailableMb }

def agents (r : Scheduler.Recommender) (directory : Directory) (resources : SystemResources) (ramPerAgentMb : UInt32) : UInt32 :=
  Scheduler.Recommender.F64.recommendMaxAgentsThermal r resources.scheduler (detectPressure resources).level
    (detectThermal directory resources).level ramPerAgentMb

def Hotter (directory other : Directory) : Prop := ∀ m ∈ millisRead directory, ∃ n ∈ millisRead other, m ≤ n

theorem hotterLevel {directory other : Directory} (some_ : millisRead directory ≠ []) (hot : Hotter directory other)
    (resources : SystemResources) :
    (detectThermal directory resources).level.ordinal ≤ (detectThermal other resources).level.ordinal := by
  obtain ⟨hottest, most⟩ := Option.isSome_iff_exists.mp (List.isSome_max?_of_ne_nil some_)
  obtain ⟨m, member, le⟩ := hot hottest (List.max?_eq_some_iff.mp most).1
  obtain ⟨hottest', most'⟩ := Option.isSome_iff_exists.mp (List.isSome_max?_of_ne_nil (List.ne_nil_of_mem member))
  rw [detectExact, detectExact, most, most']
  exact levelMono (le.trans ((List.max?_eq_some_iff.mp most').2 m member))

/- The level is that of the hottest zone in whole millidegrees, whatever the other entries of
the directory are; a zone that holds a number is read as it; and hotter zones never get more
agents recommended. -/
theorem thermalExact (directory : Directory) (resources : SystemResources) :
    (detectThermal directory resources =
      match (millisRead directory).max? with
      | some hottest => { level := levelOfMillis hottest, source := "sys_thermal_zone" }
      | none => detectFromLoadRatio resources) ∧
    (∀ name n before after, some ⟨name, some (before ++ (decimal n ++ after))⟩ ∈ directory.getD [] →
      "thermal_zone".toList <+: name → InRange n → (∀ c ∈ before, isWhitespace c = true) →
      (∀ c ∈ after, isWhitespace c = true) → n ∈ millisRead directory) ∧
    ∀ (r : Scheduler.Recommender) other ramPerAgentMb, millisRead directory ≠ [] → Hotter directory other →
      agents r other resources ramPerAgentMb ≤ agents r directory resources ramPerAgentMb := by
  refine ⟨detectExact directory resources, fun name n before after listed zone fits white white' => ?_,
    fun r other ramPerAgentMb some_ hot => ?_⟩
  · have text : reading (some ⟨name, some (before ++ (decimal n ++ after))⟩) = some (before ++ (decimal n ++ after)) :=
      if_pos (List.isPrefixOf_iff_prefix.mpr zone)
    exact List.mem_filterMap.mpr ⟨_, List.mem_filterMap.mpr ⟨_, listed, text⟩, decimalRead fits white white'⟩
  · rw [agents, agents, recommendThermalExact, recommendThermalExact]
    exact r.thermalMono resources.scheduler _ (hotterLevel some_ hot resources) ramPerAgentMb

def laptop : Directory :=
  some [some ⟨"thermal_zone0".toList, some "45000\n".toList⟩, none, some ⟨"cooling_device0".toList, none⟩,
    some ⟨"thermal_zone1".toList, some []⟩, some ⟨"thermal_zone2".toList, some "71000\n".toList⟩]

def warmer : Directory := some [some ⟨"thermal_zone0".toList, some "96500\n".toList⟩]

def laptopResources : SystemResources :=
  { cpuCount := 8, ramTotalMb := 16000, ramAvailableMb := 8000, loadAvg1 := 0.5, loadAvg5 := 0.5, loadAvg15 := 0.5 }

example : millisRead laptop = [45000, 71000] ∧ levelOfMillis 71000 = .fair := by decide +kernel

theorem thermalExactLaptop :
    detectThermal laptop laptopResources =
      (match (millisRead laptop).max? with
      | some hottest => { level := levelOfMillis hottest, source := "sys_thermal_zone" }
      | none => detectFromLoadRatio laptopResources) ∧
    71000 ∈ millisRead laptop ∧
    agents .withDefaults warmer laptopResources 250 ≤ agents .withDefaults laptop laptopResources 250 := by
  obtain ⟨level, reads, fewer⟩ := thermalExact laptop laptopResources
  refine ⟨level, ?_, ?_⟩
  · exact reads "thermal_zone2".toList 71000 [] ['\n'] (by decide +kernel) (List.prefix_append _ ['2']) ⟨by norm_num, by norm_num⟩
      (by simp) (fun c newline => by rw [List.mem_singleton.mp newline]; decide)
  · have one : millisRead warmer = [96500] := by decide +kernel
    have two : millisRead laptop = [45000, 71000] := by decide +kernel
    refine fewer .withDefaults warmer 250 (by rw [two]; decide) ?_
    rw [Hotter, one, two]
    decide

end ArosKernel.Hardware
