import NanoMQ.CmosClock

/-!
# The day count of the demo's clock

`days_from_civil` counts by eras of 400 years that begin in March, partly in `int64_t` and partly in
`unsigned`, where `m + -3U` wraps. Its computations are exact for years far beyond those of the
clock, and the result is the number of the day in the calendar.
-/

namespace NanoMQ

open CivilCalendar

section Exact

variable {a b : Int64}

theorem toInt_add_exact (hle : -2 ^ 63 ≤ a.toInt + b.toInt) (hlt : a.toInt + b.toInt < 2 ^ 63) :
    (a + b).toInt = a.toInt + b.toInt := by
  rw [Int64.toInt_add]
  exact Int.bmod_eq_of_le hle hlt

theorem toInt_sub_exact (hle : -2 ^ 63 ≤ a.toInt - b.toInt) (hlt : a.toInt - b.toInt < 2 ^ 63) :
    (a - b).toInt = a.toInt - b.toInt := by
  rw [Int64.toInt_sub]
  exact Int.bmod_eq_of_le hle hlt

theorem toInt_mul_exact (hle : -2 ^ 63 ≤ a.toInt * b.toInt) (hlt : a.toInt * b.toInt < 2 ^ 63) :
    (a * b).toInt = a.toInt * b.toInt := by
  rw [Int64.toInt_mul]
  exact Int.bmod_eq_of_le hle hlt

theorem toInt_add_ofNat {n : ℕ} (hle : -2 ^ 62 ≤ a.toInt) (hlt : a.toInt < 2 ^ 62)
    (hn : n < 2 ^ 32) : (a + Int64.ofNat n).toInt = a.toInt + n := by
  have hcast : (Int64.ofNat n).toInt = n := Int64.toInt_ofNat_of_lt (by omega)
  rw [toInt_add_exact (by omega) (by omega), hcast]

end Exact

section DayCount

variable {y : Int64} (hle : -2 ^ 41 ≤ y.toInt) (hlt : y.toInt < 2 ^ 41)

include hle hlt

/-- The division of the source rounds to zero, and with the correction down. -/
theorem toInt_era : ((if 0 ≤ y then y else y - 399) / 400).toInt = y.toInt / 400 := by
  have h399 : (399 : Int64).toInt = 399 := rfl
  have h400 : (400 : Int64).toInt = 400 := rfl
  have hmin : Int64.minValue.toInt = -2 ^ 63 := rfl
  have hsub : (y - 399).toInt = y.toInt - 399 := toInt_sub_exact (by omega) (by omega)
  split_ifs with hsign
  · rw [Int64.le_iff_toInt_le] at hsign
    have hne : y ≠ Int64.minValue := by
      rintro rfl
      omega
    rw [Int64.toInt_div_of_ne_left _ _ hne, h400, Int.tdiv_eq_ediv_of_nonneg hsign]
  · rw [Int64.le_iff_toInt_le, not_le] at hsign
    have hneg : y.toInt < 0 := hsign
    have hne : y - 399 ≠ Int64.minValue := by
      intro heq
      rw [heq] at hsub
      omega
    rw [Int64.toInt_div_of_ne_left _ _ hne, h400, hsub, Int.tdiv_eq_ediv]
    split_ifs with hexact
    · omega
    · rw [show Int.sign 400 = 1 from rfl]
      omega

theorem toNat_yoe {era : Int64} (hera : era.toInt = y.toInt / 400) :
    ((UInt32.ofInt (y - era * 400).toInt).toNat : ℤ) = y.toInt % 400 := by
  have h400 : (400 : Int64).toInt = 400 := rfl
  have hmul : (era * 400).toInt = era.toInt * 400 :=
    toInt_mul_exact (by rw [h400]; omega) (by rw [h400]; omega)
  rw [toInt_sub_exact (by omega) (by omega), hmul, UInt32.ofInt, UInt32.toNat_ofNat']
  omega

end DayCount

theorem toNat_doy {month day : ℕ} (hpos : 1 ≤ month) (hmonth : month ≤ 12) (hday : 1 ≤ day)
    (hday' : day ≤ 31) :
    ((153 * (UInt32.ofNat month + if 2 < UInt32.ofNat month then -3 else 9) + 2) / 5 +
        UInt32.ofNat day - 1).toNat =
      (153 * (if 2 < month then month - 3 else month + 9) + 2) / 5 + day - 1 := by
  have hbefore : ∀ k < 13, 1 ≤ k →
      ((153 * (UInt32.ofNat k + if 2 < UInt32.ofNat k then -3 else 9) + 2) / 5).toNat =
        (153 * (if 2 < k then k - 3 else k + 9) + 2) / 5 := by
    decide
  have hone : (1 : UInt32).toNat = 1 := rfl
  rw [UInt32.toNat_sub, UInt32.toNat_add, hbefore month (by omega) hpos, UInt32.toNat_ofNat', hone]
  split_ifs <;> omega

theorem toNat_doe {yoe doy : UInt32} (hyoe : yoe.toNat < 400) (hdoy : doy.toNat < 400) :
    (yoe * 365 + yoe / 4 - yoe / 100 + doy).toNat =
      yoe.toNat * 365 + yoe.toNat / 4 - yoe.toNat / 100 + doy.toNat := by
  simp only [UInt32.toNat_add, UInt32.toNat_sub, UInt32.toNat_mul, UInt32.toNat_div,
    UInt32.toNat_ofNat, Nat.reducePow, Nat.reduceMod]
  omega

/-- The count by eras of 400 years that begin in March, and the calendar's. -/
theorem march_count (year : ℤ) {month day : ℕ} (hpos : 1 ≤ month) (hmonth : month ≤ 12)
    (hday : 1 ≤ day) {y : ℤ} (hy : y = year - if month ≤ 2 then 1 else 0) :
    y / 400 * 146097 + (y % 400 * 365 + y % 400 / 4 - y % 400 / 100 +
        (((153 * (if 2 < month then month - 3 else month + 9) + 2) / 5 + day - 1 : ℕ) : ℤ)) -
        719468 =
      daysBeforeYear year - daysBeforeYear 1970 + daysBeforeMonth year month + day - 1 := by
  rw [daysBeforeMonth_eq year month hpos (by omega)]
  unfold daysBeforeYear
  by_cases hleap : IsLeap year
  · simp only [hleap, if_true]
    unfold IsLeap at hleap
    split_ifs at hy ⊢ <;> omega
  · simp only [hleap, if_false]
    unfold IsLeap at hleap
    split_ifs at hy ⊢ <;> omega

theorem toInt_eraDays {era : Int64} (hle : -2 ^ 41 ≤ era.toInt) (hlt : era.toInt < 2 ^ 41)
    (doe : UInt32) :
    (era * 146097 + Int64.ofNat doe.toNat - 719468).toInt =
      era.toInt * 146097 + doe.toNat - 719468 := by
  have hdoe := doe.toNat_lt
  have hdays : (146097 : Int64).toInt = 146097 := rfl
  have hshift : (719468 : Int64).toInt = 719468 := rfl
  have hmul : (era * 146097).toInt = era.toInt * 146097 :=
    toInt_mul_exact (by rw [hdays]; omega) (by rw [hdays]; omega)
  have hadd := toInt_add_ofNat (a := era * 146097) (by omega) (by omega) hdoe
  rw [hmul] at hadd
  rw [toInt_sub_exact (by omega) (by omega), hadd, hshift]

theorem daysFromCivil_eq (date : Date) {y : Int64} (hy : y.toInt = date.year)
    (hyear : |date.year| < 2 ^ 40) :
    (daysFromCivil y (UInt32.ofNat date.month) (UInt32.ofNat date.day)).toInt =
      dayNumber date := by
  obtain ⟨hlo, hhi⟩ := abs_lt.mp hyear
  have hpos := date.month_pos
  have hmonth := date.month_le
  have hday := date.day_le_thirtyOne
  have hmarch : UInt32.ofNat date.month ≤ 2 ↔ date.month ≤ 2 := by
    rw [UInt32.le_iff_toNat_le, UInt32.toNat_ofNat', Nat.mod_eq_of_lt (by omega)]
    rfl
  unfold daysFromCivil
  dsimp only
  rw [if_congr hmarch rfl rfl]
  generalize hy' : (y - if date.month ≤ 2 then 1 else 0) = y'
  have hy'_eq : y'.toInt = date.year - if date.month ≤ 2 then 1 else 0 := by
    have hone : (1 : Int64).toInt = 1 := rfl
    have hzero : (0 : Int64).toInt = 0 := rfl
    rw [← hy']
    split_ifs
    · rw [toInt_sub_exact (by omega) (by omega), hone, hy]
    · rw [toInt_sub_exact (by omega) (by omega), hzero, hy]
  have hle : -2 ^ 41 ≤ y'.toInt := by split_ifs at hy'_eq <;> omega
  have hlt : y'.toInt < 2 ^ 41 := by split_ifs at hy'_eq <;> omega
  have hera := toInt_era hle hlt
  have hyoe := toNat_yoe hle hlt hera
  have hdoy := toNat_doy hpos hmonth date.day_pos hday
  generalize (if 0 ≤ y' then y' else y' - 399) / 400 = era at hera hyoe ⊢
  generalize UInt32.ofInt (y' - era * 400).toInt = yoe at hyoe ⊢
  have hdoe := @toNat_doe yoe _ (by omega) (by rw [hdoy]; split_ifs <;> omega)
  rw [toInt_eraDays (by omega) (by omega), hdoe, hdoy, dayNumber,
    ← march_count date.year hpos hmonth date.day_pos hy'_eq, hera]
  omega

end NanoMQ
