import Mathlib
import AgentDeck.Time.Stamp

/-!
The civil calendar behind instants: `civilFromDays` gives a date of the proleptic Gregorian
calendar, with its month in 1..12 and its day within the month, and `daysFromCivil` takes
that date back to the day it came from (`civilFromDays_valid`).

Both count in eras of 400 years (146097 days) that begin on 1 March of a year divisible by
400, and within an era in years that begin on 1 March, so that the leap day is the last day
of a year. A day of an era falls in a century, a four-year cycle and a year of the cycle;
from that split the year of the era lies in 0..399 and the day of the year in 0..365, the
last only in a year that ends in a leap day (`dayOfYear_bounds`).
-/

namespace AgentDeck.Time

/-- The year, within its era, of the `doe`-th day of an era. -/
def yearOfEra (doe : Int) : Int := (doe - doe / 1460 + doe / 36524 - doe / 146096) / 365

/-- The day, counted from 1 March, within its year of the `doe`-th day of an era. -/
def dayOfYear (doe : Int) : Int :=
  doe - (365 * yearOfEra doe + yearOfEra doe / 4 - yearOfEra doe / 100)

/-- The civil date of day `doy`, counted from 1 March, of the year that begins in March of `y`. -/
def marchDate (y doy : Int) : Int × Nat × Nat :=
  let mp := (5 * doy + 2) / 153
  let d := doy - (153 * mp + 2) / 5 + 1
  let m := if mp < 10 then mp + 3 else mp - 9
  ((if m ≤ 2 then y + 1 else y), m.toNat, d.toNat)

/-- The days from 1970-01-01 to day `doy`, counted from 1 March, of the year that begins in
March of `y`. -/
def daysFromMarch (y doy : Int) : Int :=
  y / 400 * 146097 + (365 * (y % 400) + y % 400 / 4 - y % 400 / 100) + doy - 719468

theorem isLeapYear_add_era (y k : Int) : isLeapYear (y + k * 400) = isLeapYear y := by
  simp only [isLeapYear, decide_eq_decide]
  omega

/-- **Years of an era.** The year of the era lies in 0..399 and the day of the year in
0..365, where 365 is the leap day that ends a leap year. -/
theorem dayOfYear_bounds {doe : Int} (h0 : 0 ≤ doe) (h1 : doe ≤ 146096) :
    0 ≤ yearOfEra doe ∧ yearOfEra doe ≤ 399 ∧ 0 ≤ dayOfYear doe ∧ dayOfYear doe ≤ 365 ∧
      (dayOfYear doe = 365 → isLeapYear (yearOfEra doe + 1) = true) := by
  rcases (show doe = 146096 ∨ doe ≤ 146095 by omega) with rfl | hlt
  · -- the leap day that ends the era
    have hy : yearOfEra 146096 = 399 := by simp [yearOfEra]
    simp [dayOfYear, hy, isLeapYear]
  -- the day falls in century `f`, four-year cycle `q` of it, and day `s` of the cycle
  obtain ⟨f, hf, hf3⟩ : ∃ f, doe / 36524 = f ∧ f ≤ 3 := ⟨_, rfl, by omega⟩
  obtain ⟨q, s, hqs, hq0, hq24, hs0, hs⟩ : ∃ q s, doe = 36524 * f + 1461 * q + s ∧
      0 ≤ q ∧ q ≤ 24 ∧ 0 ≤ s ∧ s ≤ 1460 :=
    ⟨(doe - 36524 * f) / 1461, (doe - 36524 * f) % 1461, by omega, by omega, by omega, by omega,
      by omega⟩
  -- the cycle's days beyond its four 365-day years: none, or the leap day at its end
  obtain ⟨δ, hδ, hδ01⟩ : ∃ δ, (24 * f + q + s) / 1460 = δ ∧ (δ = 0 ∨ δ = 1) := ⟨_, rfl, by omega⟩
  obtain ⟨k, hk, hk0, hk3⟩ : ∃ k, (s - δ) / 365 = k ∧ 0 ≤ k ∧ k ≤ 3 := ⟨_, rfl, by omega, by omega⟩
  have hyoe : yearOfEra doe = 100 * f + 4 * q + k := by
    have he : doe / 1460 = 25 * f + q + δ := by omega
    have hg : doe / 146096 = 0 := by omega
    simp only [yearOfEra, he, hg, hf]
    omega
  have hdoy : dayOfYear doe = s - 365 * k := by
    have h4 : (100 * f + 4 * q + k) / 4 = 25 * f + q := by omega
    have h100 : (100 * f + 4 * q + k) / 100 = f := by omega
    simp only [dayOfYear, hyoe, h4, h100]
    omega
  rw [hdoy, hyoe]
  refine ⟨by omega, by omega, by omega, by omega, fun h365 => ?_⟩
  -- a 366th day only comes at the end of a cycle that is not the last of its century
  have hend : k = 3 ∧ q ≤ 23 := by omega
  simp only [isLeapYear, decide_eq_true_eq]
  omega

theorem civilFromDays_eq (z : Int) :
    civilFromDays z = marchDate (yearOfEra ((z + 719468) % 146097) + (z + 719468) / 146097 * 400)
      (dayOfYear ((z + 719468) % 146097)) := by
  simp only [civilFromDays, marchDate, yearOfEra, dayOfYear,
    Int.fdiv_eq_ediv_of_nonneg _ (show (0 : Int) ≤ 146097 by decide), Int.emod_def,
    Int.mul_comm 146097]

theorem daysFromCivil_marchDate {y doy : Int} (h0 : 0 ≤ doy) (h1 : doy ≤ 365) :
    daysFromCivil (marchDate y doy).1 (marchDate y doy).2.1 (marchDate y doy).2.2 =
      daysFromMarch y doy := by
  have hmp : 0 ≤ (5 * doy + 2) / 153 ∧ (5 * doy + 2) / 153 ≤ 11 := by omega
  simp only [marchDate, daysFromCivil, daysFromMarch,
    Int.fdiv_eq_ediv_of_nonneg _ (show (0 : Int) ≤ 400 by decide)]
  split_ifs <;> omega

theorem marchDate_valid {y doy : Int} (h0 : 0 ≤ doy) (h1 : doy ≤ 365)
    (hleap : doy = 365 → isLeapYear (y + 1) = true) :
    1 ≤ (marchDate y doy).2.1 ∧ (marchDate y doy).2.1 ≤ 12 ∧ 1 ≤ (marchDate y doy).2.2 ∧
      (marchDate y doy).2.2 ≤ daysInMonth (marchDate y doy).1 (marchDate y doy).2.1 := by
  -- `mp` counts months from March
  obtain ⟨mp, hmp, hlo, hhi⟩ : ∃ mp, (5 * doy + 2) / 153 = mp ∧ 153 * mp ≤ 5 * doy + 2 ∧
      5 * doy + 2 < 153 * mp + 153 := ⟨_, rfl, by omega, by omega⟩
  simp only [marchDate, hmp]
  rcases (show mp = 11 ∨ (0 ≤ mp ∧ mp ≤ 10) by omega) with rfl | ⟨hmp0, hmp10⟩
  · -- February ends the year and holds its leap day
    cases hL : isLeapYear (y + 1)
    · have h364 : doy ≠ 365 := fun h => absurd (hleap h) (by simp [hL])
      simp [daysInMonth, hL]
      omega
    · simp [daysInMonth, hL]
      omega
  · interval_cases mp <;> simp [daysInMonth] <;> omega

/-- **Civil dates.** The date of every day has its month in 1..12 and its day within the
month, and counting days up to that date gives the day back. -/
theorem civilFromDays_valid (z : Int) :
    1 ≤ (civilFromDays z).2.1 ∧ (civilFromDays z).2.1 ≤ 12 ∧ 1 ≤ (civilFromDays z).2.2 ∧
      (civilFromDays z).2.2 ≤ daysInMonth (civilFromDays z).1 (civilFromDays z).2.1 ∧
      daysFromCivil (civilFromDays z).1 (civilFromDays z).2.1 (civilFromDays z).2.2 = z := by
  -- the day is day `doe` of era `era`
  obtain ⟨era, doe, hera, hdoe, hsplit⟩ : ∃ era doe, (z + 719468) / 146097 = era ∧
      (z + 719468) % 146097 = doe ∧ z + 719468 = era * 146097 + doe :=
    ⟨_, _, rfl, rfl, by omega⟩
  obtain ⟨hy0, hy1, hd0, hd1, hleap⟩ := @dayOfYear_bounds doe (by omega) (by omega)
  have hleap' : dayOfYear doe = 365 → isLeapYear (yearOfEra doe + era * 400 + 1) = true := by
    intro h
    rw [show yearOfEra doe + era * 400 + 1 = yearOfEra doe + 1 + era * 400 by ring,
      isLeapYear_add_era]
    exact hleap h
  rw [civilFromDays_eq, hera, hdoe]
  obtain ⟨hm1, hm12, hd1', hdm⟩ := marchDate_valid hd0 hd1 hleap'
  refine ⟨hm1, hm12, hd1', hdm, ?_⟩
  rw [daysFromCivil_marchDate hd0 hd1, daysFromMarch]
  simp only [dayOfYear] at hd0 ⊢
  omega

/-- The dates of the years 0 to 9999 lie within ten million days of 1970. -/
theorem daysFromCivil_bounds {y : Int} {m d : Nat} (hy0 : 0 ≤ y) (hy : y ≤ 9999) (hm : 1 ≤ m)
    (hm12 : m ≤ 12) (hd : d ≤ 31) :
    -1000000 ≤ daysFromCivil y m d ∧ daysFromCivil y m d ≤ 10000000 := by
  simp only [daysFromCivil, Int.fdiv_eq_ediv_of_nonneg _ (show (0 : Int) ≤ 400 by decide)]
  split_ifs <;> omega

end AgentDeck.Time
