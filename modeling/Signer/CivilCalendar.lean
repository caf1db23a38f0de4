import Signer.CanonicalText
import Signer.Service.Calendar

/-!
# Civil time

The enclave and the gateway each turn a clock reading into a date by hand. Both agree with the
Gregorian calendar, and no intermediate value leaves the integer type it is computed in.
-/

namespace Signer

open Calendar

/-! ### Machine integers -/

/-- A value of type `i64`, if it fits. -/
def inI64 (x : ℤ) : Option ℤ := if -2 ^ 63 ≤ x ∧ x < 2 ^ 63 then some x else none

/-- A value of type `u32`, if it fits. -/
def inU32 (x : ℕ) : Option ℕ := if x < 2 ^ 32 then some x else none

/-- A cast from `i64` to `u32`, if it keeps the value. -/
def asU32 (x : ℤ) : Option ℕ := if 0 ≤ x then inU32 x.toNat else none

def subU32 (x y : ℕ) : Option ℕ := if y ≤ x then some (x - y) else none

theorem bind_inI64 {α : Type} {x : ℤ} {f : ℤ → Option α} (h : -2 ^ 63 ≤ x ∧ x < 2 ^ 63) :
    inI64 x >>= f = f x := by
  rw [inI64, if_pos h]
  rfl

theorem bind_inU32 {α : Type} {x : ℕ} {f : ℕ → Option α} (h : x < 2 ^ 32) :
    inU32 x >>= f = f x := by
  rw [inU32, if_pos h]
  rfl

theorem bind_subU32 {α : Type} {x y : ℕ} {f : ℕ → Option α} (h : y ≤ x) :
    subU32 x y >>= f = f (x - y) := by
  rw [subU32, if_pos h]
  rfl

/-- The date of `okx_iso8601_from_ms`, from the days since 1 March of the year 0. Every operation
fails if its result does not fit its type. -/
def checkedDate (z : ℤ) : Option (ℤ × ℕ × ℕ) := do
  let shifted ← inI64 (if 0 ≤ z then z else z - 146096)
  let era ← inI64 (shifted.tdiv 146097)
  let eraStart ← inI64 (era * 146097)
  let doe ← inI64 (z - eraStart)
  let doe ← asU32 doe
  let years ← subU32 doe (doe / 1460)
  let years ← inU32 (years + doe / 36524)
  let years ← subU32 years (doe / 146096)
  let yoe := years / 365
  let eraYears ← inI64 (era * 400)
  let y ← inI64 (yoe + eraYears)
  let yearStart ← inU32 (365 * yoe)
  let yearStart ← inU32 (yearStart + yoe / 4)
  let yearStart ← subU32 yearStart (yoe / 100)
  let doy ← subU32 doe yearStart
  let months ← inU32 (5 * doy)
  let months ← inU32 (months + 2)
  let mp := months / 153
  let monthStart ← inU32 (153 * mp)
  let monthStart ← inU32 (monthStart + 2)
  let d ← subU32 doy (monthStart / 5)
  let d ← inU32 (d + 1)
  let m ← (if mp < 10 then inU32 (mp + 3) else subU32 mp 9)
  let year ← inI64 (if m ≤ 2 then y + 1 else y)
  return (year, m, d)

/-- `okx_iso8601_from_ms` up to its formatting, with every operation checked. -/
def checkedCivilTime (timestampMs : UInt64) : Option CivilTime := do
  let totalSecs ← inI64 (timestampMs.toNat / 1000 : ℕ)
  let millis ← inU32 (timestampMs.toNat % 1000)
  let days ← inI64 (totalSecs / 86400)
  let secondsOfDay ← inU32 (totalSecs % 86400).toNat
  let z ← inI64 (days + 719468)
  let (year, m, d) ← checkedDate z
  return { year := year.toNat, month := m, day := d, hour := secondsOfDay / 3600
           minute := secondsOfDay % 3600 / 60, second := secondsOfDay % 60, millis }

/-! ### The year of a day -/

theorem exists_yearOfEra {doe : ℕ} (h : doe < 146097) :
    ∃ century cycle year day, century ≤ 3 ∧ cycle ≤ 24 ∧ year ≤ 3 ∧ day ≤ 365 ∧
      (day = 365 → year = 3 ∧ (cycle < 24 ∨ century = 3)) ∧
      doe = 36524 * century + 1461 * cycle + 365 * year + day ∧
      (doe - doe / 1460 + doe / 36524 - doe / 146096) / 365 =
        100 * century + 4 * cycle + year := by
  obtain ⟨century, r, hcentury, hr, rfl⟩ :
      ∃ century r, century ≤ 3 ∧ r ≤ 36523 + century / 3 ∧ doe = 36524 * century + r :=
    ⟨min 3 (doe / 36524), doe - 36524 * min 3 (doe / 36524), by omega, by omega, by omega⟩
  obtain ⟨year, day, hyear, hday, hs⟩ :
      ∃ year day, year ≤ 3 ∧ day ≤ 364 + year / 3 ∧ r % 1461 = 365 * year + day :=
    ⟨min 3 (r % 1461 / 365), r % 1461 - 365 * min 3 (r % 1461 / 365), by omega, by omega, by omega⟩
  refine ⟨century, r / 1461, year, day, hcentury, by omega, hyear, by omega, by omega, by omega, ?_⟩
  obtain ⟨cycle, hcycle⟩ : ∃ cycle, cycle = r / 1461 := ⟨_, rfl⟩
  have hr' : r = 1461 * cycle + 365 * year + day := by omega
  rw [← hcycle]
  clear hs hcycle
  subst hr'
  interval_cases century <;> interval_cases year <;> omega

structure MarchDay (z doe yoe doy : ℕ) : Prop where
  doe_eq : doe = z % 146097
  doe_lt : doe < 146097
  yoe_eq : (doe - doe / 1460 + doe / 36524 - doe / 146096) / 365 = yoe
  yoe_le : yoe ≤ 399
  doy_add : doe = 365 * yoe + yoe / 4 - yoe / 100 + doy
  doy_le : doy ≤ 365
  dayNumber_eq : dayNumber (yoe + z / 146097 * 400) 3 1 + doy = z + 60
  doy_lt : doy < 365 + leapDay (yoe + z / 146097 * 400 + 1)

theorem exists_marchDay (z : ℕ) : ∃ doe yoe doy, MarchDay z doe yoe doy := by
  obtain ⟨era, doe, hera, hmod, hlt⟩ : ∃ era doe, z / 146097 = era ∧ z % 146097 = doe ∧
      doe < 146097 := ⟨_, _, rfl, rfl, Nat.mod_lt z (by decide)⟩
  have hz : z = 146097 * era + doe := by rw [← hera, ← hmod, Nat.div_add_mod]
  obtain ⟨century, cycle, year, day, hcentury, hcycle, hyear, hday, hleap, hdoe, hyoe⟩ :=
    exists_yearOfEra hlt
  have h4 : (100 * century + 4 * cycle + year) / 4 = 25 * century + cycle := by omega
  have h100 : (100 * century + 4 * cycle + year) / 100 = century := by omega
  refine ⟨doe, _, day, hmod.symm, hlt, hyoe, by omega, by omega, hday, ?_, ?_⟩
  · have hmarch := dayNumber_march (100 * century + 4 * cycle + year + era * 400)
    have h4' : (100 * century + 4 * cycle + year + era * 400) / 4 =
        25 * century + cycle + 100 * era := by omega
    have h100' : (100 * century + 4 * cycle + year + era * 400) / 100 = century + 4 * era := by
      omega
    have h400' : (100 * century + 4 * cycle + year + era * 400) / 400 = era := by omega
    rw [h4', h100', h400'] at hmarch
    rw [hera]
    omega
  · rw [hera, leapDay]
    clear hyoe hz hmod hera hlt hdoe h4 h100
    split <;> omega

/-! ### The date of a day -/

def marchMonth (doy : ℕ) : ℕ := (5 * doy + 2) / 153

theorem marchMonth_le {doy : ℕ} (h : doy ≤ 365) : marchMonth doy ≤ 11 := by
  rw [marchMonth]
  omega

theorem monthStart_le (doy : ℕ) : (153 * marchMonth doy + 2) / 5 ≤ doy := by
  rw [marchMonth]
  omega

def marchDate (y doy : ℕ) : ℕ × ℕ × ℕ :=
  let mp := marchMonth doy
  (if mp < 10 then y else y + 1, if mp < 10 then mp + 3 else mp - 9,
    doy - (153 * mp + 2) / 5 + 1)

section

variable {z doe yoe doy : ℕ}

theorem marchDate_spec (h : MarchDay z doe yoe doy) :
    let date := marchDate (yoe + z / 146097 * 400) doy
    ValidDate date.1 date.2.1 date.2.2 ∧ dayNumber date.1 date.2.1 date.2.2 = z + 60 := by
  have hmonth := marchMonth_le h.doy_le
  have hstart := Nat.add_sub_cancel' (monthStart_le doy)
  refine ⟨validDate_of_march hmonth ?_ ?_, ?_⟩
  · rw [hstart]
    exact h.doy_lt
  · rw [hstart]
    rfl
  · rw [marchDate, dayNumber_of_march hmonth, Nat.add_assoc, hstart, h.dayNumber_eq]

theorem checkedDate_eq (h : MarchDay z doe yoe doy) (hz : z < 2 ^ 60) :
    checkedDate z = some (((marchDate (yoe + z / 146097 * 400) doy).1 : ℤ),
      (marchDate (yoe + z / 146097 * 400) doy).2) := by
  obtain ⟨hdoe, hlt, hyoe, hyoe_le, hadd, hdoy, -, -⟩ := h
  obtain ⟨era, hera⟩ : ∃ era, z / 146097 = era := ⟨_, rfl⟩
  have hdiv : (z : ℤ).tdiv 146097 = (era : ℤ) := by rw [← hera]; rfl
  have hrest : (z : ℤ) - (era : ℤ) * 146097 = (doe : ℤ) := by omega
  have hyear : 365 * yoe + yoe / 4 - yoe / 100 = doe - doy := by omega
  have hday : doe - (doe - doy) = doy := by omega
  have hstart := monthStart_le doy
  have hmonth := marchMonth_le hdoy
  have hbound : era < 2 ^ 45 := by omega
  rw [hera]
  clear hdoe hera
  unfold checkedDate
  rw [if_pos (Int.natCast_nonneg z), bind_inI64 (by omega), hdiv, bind_inI64 (by omega),
    bind_inI64 (by omega), hrest, bind_inI64 (by omega), asU32, if_pos (Int.natCast_nonneg doe),
    Int.toNat_natCast, bind_inU32 (by omega), bind_subU32 (by omega), bind_inU32 (by omega),
    bind_subU32 (by omega)]
  dsimp only
  clear hrest hdiv hz
  rw [hyoe, bind_inI64 (by omega), bind_inI64 (by omega), bind_inU32 (by omega),
    bind_inU32 (by omega), bind_subU32 (by omega), hyear, bind_subU32 (by omega), hday,
    bind_inU32 (by omega),
    bind_inU32 (by omega), ← marchMonth, bind_inU32 (by omega), bind_inU32 (by omega),
    bind_subU32 hstart, bind_inU32 (by omega)]
  clear hyear hday hyoe hadd hstart
  rw [marchDate]
  dsimp only
  split
  · rw [bind_inU32 (by omega), if_neg (by omega), bind_inI64 (by omega)]
    push_cast
    rfl
  · rw [bind_subU32 (by omega), if_pos (by omega), bind_inI64 (by omega)]
    push_cast
    rfl

end

theorem civilTime_eq {ts : UInt64} {doe yoe doy : ℕ}
    (h : MarchDay (ts.toNat / 1000 / 86400 + 719468) doe yoe doy) :
    civilTime ts =
      let date := marchDate (yoe + (ts.toNat / 1000 / 86400 + 719468) / 146097 * 400) doy
      let secondsOfDay := ts.toNat / 1000 % 86400
      { year := date.1, month := date.2.1, day := date.2.2, hour := secondsOfDay / 3600
        minute := secondsOfDay % 3600 / 60, second := secondsOfDay % 60
        millis := ts.toNat % 1000 } := by
  have hmonth := marchMonth_le h.doy_le
  have hdoe : ts.toNat / 1000 / 86400 + 719468 -
      (ts.toNat / 1000 / 86400 + 719468) / 146097 * 146097 = doe := by
    rw [h.doe_eq]
    omega
  have hdoy : doe - (365 * yoe + yoe / 4 - yoe / 100) = doy := by
    have := h.doy_add
    omega
  have hyear : ∀ y, (if (if marchMonth doy < 10 then marchMonth doy + 3 else marchMonth doy - 9) ≤ 2
      then y + 1 else y) = if marchMonth doy < 10 then y else y + 1 := by
    intro y
    split <;> split <;> first | rfl | omega
  simp only [civilTime, hdoe, h.yoe_eq, hdoy, marchDate]
  rw [← marchMonth, hyear]

theorem checkedCivilTime_eq (ts : UInt64) : checkedCivilTime ts = some (civilTime ts) := by
  obtain ⟨doe, yoe, doy, h⟩ := exists_marchDay (ts.toNat / 1000 / 86400 + 719468)
  have hts := ts.toNat_lt
  have hdays : (((ts.toNat / 1000 : ℕ) : ℤ) / 86400 + 719468) =
      ((ts.toNat / 1000 / 86400 + 719468 : ℕ) : ℤ) := by
    push_cast
    rfl
  rw [civilTime_eq h]
  unfold checkedCivilTime
  rw [bind_inI64 (by omega), bind_inU32 (by omega), bind_inI64 (by omega), bind_inU32 (by omega),
    hdays, bind_inI64 (by omega), checkedDate_eq h (by omega)]
  rfl

/-! ### The instant and its text -/

def CivilTime.Valid (c : CivilTime) : Prop :=
  ValidDate c.year c.month c.day ∧ c.hour < 24 ∧ c.minute < 60 ∧ c.second < 60 ∧ c.millis < 1000

def CivilTime.instant (c : CivilTime) : ℕ :=
  (((dayNumber c.year c.month c.day * 24 + c.hour) * 60 + c.minute) * 60 + c.second) * 1000 +
    c.millis

theorem dayNumber_epoch : dayNumber 1970 1 1 = 719528 := by
  have hdate := dayNumber_of_march (show 10 ≤ 11 by decide) 1969 0
  have hmarch := dayNumber_march 1969
  simp only [Nat.reduceLT, if_false, Nat.reduceAdd, Nat.reduceSub] at hdate
  omega

theorem civilTime_spec (ts : UInt64) :
    (civilTime ts).Valid ∧ (civilTime ts).instant = 719528 * 86400000 + ts.toNat := by
  obtain ⟨doe, yoe, doy, h⟩ := exists_marchDay (ts.toNat / 1000 / 86400 + 719468)
  obtain ⟨hvalid, hday⟩ := marchDate_spec h
  rw [civilTime_eq h, CivilTime.Valid, CivilTime.instant]
  dsimp only
  refine ⟨⟨hvalid, by omega, by omega, by omega, by omega⟩, ?_⟩
  rw [hday]
  omega

theorem ofDigitChars_padDecimal (width n : ℕ) : Nat.ofDigitChars 10 (padDecimal width n) 0 = n := by
  rw [padDecimal, Nat.ofDigitChars_append, Nat.ofDigitChars_replicate_zero, Nat.mul_zero,
    Nat.ofDigitChars_ten_toDigits]

theorem length_padDecimal {width n : ℕ} (hwidth : 0 < width) (h : n < 10 ^ width) :
    (padDecimal width n).length = width := by
  have hle := (Nat.length_toDigits_le_iff (b := 10) (by decide) hwidth).mpr h
  rw [padDecimal, List.length_append, List.length_replicate]
  omega

theorem padDecimal_append_inj {width n n' : ℕ} {mark : Char} {rest rest' : List Char}
    (hmark : mark.isDigit = false)
    (h : padDecimal width n ++ mark :: rest = padDecimal width n' ++ mark :: rest') :
    n = n' ∧ rest = rest' := by
  have hstop : ∀ tail, (mark :: tail).takeWhile Char.isDigit = [] := fun tail => by simp [hmark]
  obtain ⟨hdigits, hrest⟩ := append_inj_of_takeWhile (fun _ => isDigit_of_mem_padDecimal)
    (fun _ => isDigit_of_mem_padDecimal) (hstop rest) (hstop rest') h
  have hvalue := congrArg (Nat.ofDigitChars 10 · 0) hdigits
  simp only [ofDigitChars_padDecimal] at hvalue
  exact ⟨hvalue, (List.cons.inj hrest).2⟩

theorem stamp_inj {c c' : CivilTime} (h : c.stamp ++ ['Z'] = c'.stamp ++ ['Z']) : c = c' := by
  simp only [CivilTime.stamp, List.append_assoc, List.cons_append] at h
  obtain ⟨hyear, h⟩ := padDecimal_append_inj (by decide) h
  obtain ⟨hmonth, h⟩ := padDecimal_append_inj (by decide) h
  obtain ⟨hday, h⟩ := padDecimal_append_inj (by decide) h
  obtain ⟨hhour, h⟩ := padDecimal_append_inj (by decide) h
  obtain ⟨hminute, h⟩ := padDecimal_append_inj (by decide) h
  obtain ⟨hsecond, h⟩ := padDecimal_append_inj (by decide) h
  obtain ⟨hmillis, -⟩ := padDecimal_append_inj (by decide) h
  cases c
  cases c'
  simp_all

theorem okxIso8601FromMs_injective : Function.Injective okxIso8601FromMs := by
  intro ts ts' h
  have hinstant := congrArg CivilTime.instant (stamp_inj (String.ofList_injective h))
  rw [(civilTime_spec ts).2, (civilTime_spec ts').2] at hinstant
  exact UInt64.toNat_inj.mp (Nat.add_left_cancel hinstant)

/-! ### The gateway's date -/

/-- `utc_date` of the gateway's receipt archive. -/
def utcDate (nowUnix : UInt64) : String :=
  let days : ℤ := (nowUnix.toNat / 86400 : ℕ)
  let z := days + 719468
  let era := z / 146097
  let doe := z - era * 146097
  let yoe := (doe - doe.tdiv 1460 + doe.tdiv 36524 - doe.tdiv 146096).tdiv 365
  let y := yoe + era * 400
  let doy := doe - (365 * yoe + yoe.tdiv 4 - yoe.tdiv 100)
  let mp := (5 * doy + 2).tdiv 153
  let d := doy - (153 * mp + 2).tdiv 5 + 1
  let m := if mp < 10 then mp + 3 else mp - 9
  let y := if m ≤ 2 then y + 1 else y
  .ofList (padDecimal 4 y.toNat ++ '-' :: padDecimal 2 m.toNat ++ '-' :: padDecimal 2 d.toNat)

theorem utcDate_eq {now : UInt64} {doe yoe doy : ℕ}
    (h : MarchDay (now.toNat / 86400 + 719468) doe yoe doy) :
    let date := marchDate (yoe + (now.toNat / 86400 + 719468) / 146097 * 400) doy
    utcDate now = .ofList (padDecimal 4 date.1 ++ '-' :: padDecimal 2 date.2.1 ++
      '-' :: padDecimal 2 date.2.2) := by
  obtain ⟨hmod, hlt, hyoe, hyoe_le, hadd, hdoy, -, -⟩ := h
  have hstart := monthStart_le doy
  have hmonth := marchMonth_le hdoy
  obtain ⟨era, hera⟩ : ∃ era, (now.toNat / 86400 + 719468) / 146097 = era := ⟨_, rfl⟩
  have hera' : (((now.toNat / 86400 : ℕ) : ℤ) + 719468) / 146097 = (era : ℤ) := by omega
  have hdoe : ((now.toNat / 86400 : ℕ) : ℤ) + 719468 - (era : ℤ) * 146097 = (doe : ℤ) := by omega
  have hyears : ((doe : ℤ) - (doe : ℤ).tdiv 1460 + (doe : ℤ).tdiv 36524 -
      (doe : ℤ).tdiv 146096).tdiv 365 = (yoe : ℤ) := by
    have hsub : (doe : ℤ) - ((doe / 1460 : ℕ) : ℤ) + ((doe / 36524 : ℕ) : ℤ) -
        ((doe / 146096 : ℕ) : ℤ) =
          ((doe - doe / 1460 + doe / 36524 - doe / 146096 : ℕ) : ℤ) := by omega
    rw [← hyoe]
    exact congrArg (Int.tdiv · 365) hsub
  have hdays : (doe : ℤ) - (365 * (yoe : ℤ) + (yoe : ℤ).tdiv 4 - (yoe : ℤ).tdiv 100) =
      (doy : ℤ) := by
    change (doe : ℤ) - (365 * (yoe : ℤ) + ((yoe / 4 : ℕ) : ℤ) - ((yoe / 100 : ℕ) : ℤ)) = (doy : ℤ)
    omega
  have hmp : (5 * (doy : ℤ) + 2).tdiv 153 = (marchMonth doy : ℤ) :=
    congrArg (Int.tdiv · 153) (by push_cast; rfl : 5 * (doy : ℤ) + 2 = ((5 * doy + 2 : ℕ) : ℤ))
  have hd : (doy : ℤ) - (153 * (marchMonth doy : ℤ) + 2).tdiv 5 + 1 =
      ((doy - (153 * marchMonth doy + 2) / 5 + 1 : ℕ) : ℤ) := by
    have hcast : (153 * (marchMonth doy : ℤ) + 2).tdiv 5 =
        (((153 * marchMonth doy + 2) / 5 : ℕ) : ℤ) :=
      congrArg (Int.tdiv · 5) rfl
    rw [hcast]
    omega
  rw [hera]
  unfold utcDate
  simp only [hera', hdoe, hyears, hdays, hmp, hd, marchDate, Int.toNat_natCast]
  by_cases hspring : marchMonth doy < 10
  · have hspring' : (marchMonth doy : ℤ) < 10 := by omega
    rw [if_pos hspring', if_pos hspring, if_pos hspring, if_neg (by omega)]
    congr 4
  · have hspring' : ¬ (marchMonth doy : ℤ) < 10 := by omega
    rw [if_neg hspring', if_neg hspring, if_neg hspring, if_pos (by omega)]
    congr 4
    congr 2
    omega

/-- The date of a text is what stands before the `T`. -/
def datePart (text : String) : String := .ofList (text.toList.takeWhile (· ≠ 'T'))

theorem datePart_stamp (c : CivilTime) : datePart (.ofList (c.stamp ++ ['Z'])) =
    .ofList (padDecimal 4 c.year ++ '-' :: padDecimal 2 c.month ++ '-' :: padDecimal 2 c.day) := by
  have hdigits : ∀ width n, ∀ c ∈ padDecimal width n, (decide (c ≠ 'T')) = true := by
    intro width n c hc
    simpa using fun he : c = 'T' => absurd (he ▸ isDigit_of_mem_padDecimal hc) (by decide)
  simp only [datePart, CivilTime.stamp, String.toList_ofList, List.append_assoc, List.cons_append]
  rw [List.takeWhile_append_of_pos (hdigits _ _), List.takeWhile_cons_of_pos (by decide),
    List.takeWhile_append_of_pos (hdigits _ _), List.takeWhile_cons_of_pos (by decide),
    List.takeWhile_append_of_pos (hdigits _ _), List.takeWhile_cons_of_neg (by decide),
    List.append_nil]

theorem utcDate_eq_datePart {s : UInt64} (h : 1000 * s.toNat < 2 ^ 64) :
    utcDate s = datePart (okxIso8601FromMs (1000 * s)) := by
  have hsecs : (1000 * s).toNat / 1000 = s.toNat := by
    rw [UInt64.toNat_mul]
    simp only [UInt64.toNat_ofNat]
    omega
  obtain ⟨doe, yoe, doy, hday⟩ := exists_marchDay (s.toNat / 86400 + 719468)
  have hday' : MarchDay ((1000 * s).toNat / 1000 / 86400 + 719468) doe yoe doy := by rwa [hsecs]
  rw [utcDate_eq hday, okxIso8601FromMs, datePart_stamp, civilTime_eq hday', hsecs]

/-- **The calendar code is exact**: for every number of milliseconds no operation leaves its type,
the fields are those of a date of the Gregorian calendar and of a time of day, they name that
instant, and the milliseconds have three digits. Different numbers give different texts, and the
gateway's date of a second is the date the enclave writes for it. -/
theorem civil_time_exact :
    (∀ ts : UInt64, checkedCivilTime ts = some (civilTime ts) ∧ (civilTime ts).Valid ∧
      (civilTime ts).instant = dayNumber 1970 1 1 * 86400000 + ts.toNat ∧
      (padDecimal 3 (civilTime ts).millis).length = 3) ∧
    Function.Injective okxIso8601FromMs ∧
    ∀ s : UInt64, 1000 * s.toNat < 2 ^ 64 → utcDate s = datePart (okxIso8601FromMs (1000 * s)) := by
  refine ⟨fun ts => ?_, okxIso8601FromMs_injective, fun s => utcDate_eq_datePart⟩
  obtain ⟨hvalid, hinstant⟩ := civilTime_spec ts
  refine ⟨checkedCivilTime_eq ts, hvalid, ?_, length_padDecimal (by decide) hvalid.2.2.2.2⟩
  rw [hinstant, dayNumber_epoch]

end Signer
