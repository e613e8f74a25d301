import NanoMQ.DaysFromCivil

/-!
# Is the clock set to the right time?

For a time that the registers hold in one of their formats, the conversion gives the time back, the
checks pass and the clock is set to the seconds from 1970-01-01 on.
-/

namespace NanoMQ

open CivilCalendar

structure TimeOfDay where
  hour : ℕ
  min : ℕ
  sec : ℕ
  hour_lt : hour < 24
  min_lt : min < 60
  sec_lt : sec < 60

def secondsSinceEpoch (date : Date) (t : TimeOfDay) : ℤ :=
  dayNumber date * 86400 + t.hour * 3600 + t.min * 60 + t.sec

structure RtcFormat where
  binary : Bool
  h24 : Bool

def RtcFormat.byte (f : RtcFormat) (v : ℕ) : UInt8 :=
  if f.binary then UInt8.ofNat v else UInt8.ofNat (v / 10 * 16 + v % 10)

/-- The register of the hour: 12 AM, 1 AM to 11 AM, 12 PM, 1 PM to 11 PM, or 0 to 23. -/
def RtcFormat.hour (f : RtcFormat) (hour : ℕ) : UInt8 :=
  if f.h24 then f.byte hour
  else f.byte (if hour % 12 = 0 then 12 else hour % 12) ||| if 12 ≤ hour then 0x80 else 0

/-- The registers hold a date and a time, whenever they are read. -/
structure RtcHolds (rtc : ℕ → UInt8 → UInt8) (f : RtcFormat) (date : Date) (t : TimeOfDay) :
    Prop where
  sec : ∀ n, rtc n cmosRegSec = f.byte t.sec
  min : ∀ n, rtc n cmosRegMin = f.byte t.min
  hour : ∀ n, rtc n cmosRegHour = f.hour t.hour
  day : ∀ n, rtc n cmosRegDay = f.byte date.day
  mon : ∀ n, rtc n cmosRegMon = f.byte date.month
  year : ∀ n, rtc n cmosRegYear = f.byte (date.year % 100).toNat
  binary : ∀ n, (rtc n cmosRegStatB &&& cmosBinBit != 0) = f.binary
  h24 : ∀ n, (rtc n cmosRegStatB &&& cmos24hBit != 0) = f.h24

section Convert

variable {rtc : ℕ → UInt8 → UInt8} {f : RtcFormat} {date : Date} {t : TimeOfDay}

theorem cmosBcd2bin_byte {v : ℕ} (h : v < 100) :
    cmosBcd2bin (UInt8.ofNat (v / 10 * 16 + v % 10)) = UInt8.ofNat v := by
  have hlow : ∀ n : ℕ, n &&& 15 = n % 16 := fun n => Nat.and_two_pow_sub_one_eq_mod n 4
  have hhigh : ∀ n : ℕ, n >>> 4 = n / 16 := fun n => Nat.shiftRight_eq_div_pow n 4
  rw [← UInt8.toNat_inj]
  simp only [cmosBcd2bin, UInt8.toNat_add, UInt8.toNat_mul, UInt8.toNat_and, UInt8.toNat_shiftRight,
    UInt8.toNat_ofNat, UInt8.toNat_ofNat', Nat.reducePow, Nat.reduceMod, hlow, hhigh]
  have hbyte : (v / 10 * 16 + v % 10) % 256 = v / 10 * 16 + v % 10 := by omega
  have hten : (v / 10 * 16 + v % 10) / 16 = v / 10 := by omega
  have hone : (v / 10 * 16 + v % 10) % 16 = v % 10 := by omega
  have hdigit : v / 10 < 16 := by omega
  rw [hbyte, hten, hone, Nat.mod_eq_of_lt hdigit]
  omega

theorem converted_byte (f : RtcFormat) {v : ℕ} (h : v < 100) :
    (if f.binary then f.byte v else cmosBcd2bin (f.byte v)) = UInt8.ofNat v := by
  unfold RtcFormat.byte
  cases f.binary with
  | true => rfl
  | false => exact cmosBcd2bin_byte h

/-- The hour, with the flag taken off before the conversion. -/
def convertHour (f : RtcFormat) (hour : UInt8) : UInt8 :=
  let digits := if f.h24 then hour else hour &&& 0x7F
  let value := if f.binary then digits else cmosBcd2bin digits
  if f.h24 then value else hourOf12 (hour &&& 0x80 != 0) value

theorem RtcFormat.exists_byte (f : RtcFormat) {v : ℕ} (h : v ≤ 12) :
    ∃ x < 19, f.byte v = UInt8.ofNat x := by
  unfold RtcFormat.byte
  split_ifs
  · exact ⟨v, by omega, rfl⟩
  · exact ⟨v / 10 * 16 + v % 10, by omega, rfl⟩

/-- The flag can be taken off and leaves the hour. -/
theorem pm_flag {x : ℕ} (hx : x < 19) (pm : Bool) :
    ((UInt8.ofNat x ||| if pm then 0x80 else 0) &&& 0x7F) = UInt8.ofNat x ∧
      ((UInt8.ofNat x ||| if pm then 0x80 else 0) &&& 0x80 != 0) = pm := by
  have hall : ∀ pm, ∀ k < 19,
      ((UInt8.ofNat k ||| if pm then 0x80 else 0) &&& 0x7F) = UInt8.ofNat k ∧
      ((UInt8.ofNat k ||| if pm then 0x80 else 0) &&& 0x80 != 0) = pm := by
    decide
  exact hall pm x hx

theorem hourOf12_eq {hour : ℕ} (h : hour < 24) :
    hourOf12 (decide (12 ≤ hour)) (UInt8.ofNat (if hour % 12 = 0 then 12 else hour % 12)) =
      UInt8.ofNat hour := by
  have hall : ∀ k < 24,
      hourOf12 (decide (12 ≤ k)) (UInt8.ofNat (if k % 12 = 0 then 12 else k % 12)) =
        UInt8.ofNat k := by
    decide
  exact hall hour h

theorem convertHour_hour (f : RtcFormat) {hour : ℕ} (h : hour < 24) :
    convertHour f (f.hour hour) = UInt8.ofNat hour := by
  unfold convertHour RtcFormat.hour
  cases f.h24 with
  | true => exact converted_byte f (by omega)
  | false =>
    have hhour : (if hour % 12 = 0 then 12 else hour % 12) ≤ 12 := by
      split_ifs <;> omega
    obtain ⟨x, hx, heq⟩ := f.exists_byte hhour
    have hflag := pm_flag hx (decide (12 ≤ hour))
    simp only [decide_eq_true_eq] at hflag
    simp only [Bool.false_eq_true, if_false, heq, hflag.1, hflag.2]
    rw [← heq, converted_byte f (by omega), hourOf12_eq h]

theorem convertTime_eq {statB : UInt8} (hbinary : (statB &&& cmosBinBit != 0) = f.binary)
    (hh24 : (statB &&& cmos24hBit != 0) = f.h24) (r : CmosTime) :
    convertTime statB r =
      ⟨if f.binary then r.sec else cmosBcd2bin r.sec, if f.binary then r.min else cmosBcd2bin r.min,
        convertHour f r.hour, if f.binary then r.day else cmosBcd2bin r.day,
        if f.binary then r.mon else cmosBcd2bin r.mon,
        if f.binary then r.year else cmosBcd2bin r.year⟩ := by
  unfold convertTime convertHour
  rw [hbinary, hh24]
  cases f.binary <;> cases f.h24 <;> rfl

/-- The first reads agree, whatever the update flag says. -/
theorem RtcHolds.read (h : RtcHolds rtc f date t) (n tries : ℕ) :
    cmosReadDatetime rtc (tries + 1) n =
      (some ⟨f.byte t.sec, f.byte t.min, f.hour t.hour, f.byte date.day, f.byte date.month,
        f.byte (date.year % 100).toNat⟩, n + 7) := by
  rw [cmosReadDatetime, h.sec, h.sec, if_pos rfl, h.min, h.hour, h.day, h.mon, h.year]

theorem RtcHolds.converted (h : RtcHolds rtc f date t) :
    seedRealtimeFromCmos rtc =
      seedFrom ⟨UInt8.ofNat t.sec, UInt8.ofNat t.min, UInt8.ofNat t.hour, UInt8.ofNat date.day,
        UInt8.ofNat date.month, UInt8.ofNat (date.year % 100).toNat⟩ := by
  have hsec := t.sec_lt
  have hmin := t.min_lt
  have hday := date.day_le_thirtyOne
  have hmonth := date.month_le
  rw [seedRealtimeFromCmos, h.read]
  dsimp only
  rw [convertTime_eq (h.binary _) (h.h24 _), converted_byte f (by omega),
    converted_byte f (by omega), convertHour_hour f t.hour_lt, converted_byte f (by omega),
    converted_byte f (by omega), converted_byte f (by omega)]

end Convert

theorem toNat_byte {v : ℕ} (h : v < 100) : (UInt8.ofNat v).toNat = v := by
  rw [UInt8.toNat_ofNat']
  omega

theorem toUInt32_byte {v : ℕ} (h : v < 100) : (UInt8.ofNat v).toUInt32 = UInt32.ofNat v := by
  rw [← UInt32.toNat_inj, UInt8.toNat_toUInt32, toNat_byte h, UInt32.toNat_ofNat']
  omega

theorem toNat_yFull {year : ℤ} (hle : 2000 ≤ year) (hlt : year ≤ 2069) :
    ((if 70 ≤ UInt8.ofNat (year % 100).toNat then
        1900 + (UInt8.ofNat (year % 100).toNat).toUInt32
      else 2000 + (UInt8.ofNat (year % 100).toNat).toUInt32 : UInt32).toNat : ℤ) = year := by
  have hdigits : (UInt8.ofNat (year % 100).toNat).toNat = (year % 100).toNat :=
    toNat_byte (by omega)
  have h2000 : (2000 : UInt32).toNat = 2000 := rfl
  have hsmall : ¬ 70 ≤ UInt8.ofNat (year % 100).toNat := by
    rw [UInt8.le_iff_toNat_le, hdigits, show (70 : UInt8).toNat = 70 from rfl]
    omega
  rw [if_neg hsmall, UInt32.toNat_add, UInt8.toNat_toUInt32, hdigits, h2000]
  omega

/-- The sum of the days and the time does not overflow. -/
theorem toInt_epoch {days : Int64} (hle : -2 ^ 41 ≤ days.toInt) (hlt : days.toInt < 2 ^ 41)
    {hours mins secs : ℕ} (hhours : hours < 2 ^ 32) (hmins : mins < 2 ^ 32)
    (hsecs : secs < 2 ^ 32) :
    (days * 86400 + Int64.ofNat hours + Int64.ofNat mins + Int64.ofNat secs).toInt =
      days.toInt * 86400 + hours + mins + secs := by
  have hday : (86400 : Int64).toInt = 86400 := rfl
  have hdays : (days * 86400).toInt = days.toInt * 86400 :=
    toInt_mul_exact (by rw [hday]; omega) (by rw [hday]; omega)
  have hhour := toInt_add_ofNat (a := days * 86400) (by omega) (by omega) hhours
  have hmin := toInt_add_ofNat (a := days * 86400 + Int64.ofNat hours) (by omega) (by omega) hmins
  rw [toInt_add_ofNat (by omega) (by omega) hsecs, hmin, hhour, hdays]

/-- The days from 2000 to 2069 are far from the bounds of `int64_t`. -/
theorem dayNumber_bounds {date : Date} (hle : 2000 ≤ date.year) (hlt : date.year ≤ 2069) :
    -2 ^ 41 ≤ dayNumber date ∧ dayNumber date < 2 ^ 41 := by
  have hday := date.day_le_thirtyOne
  have hmonth := daysBeforeMonth_eq date.year date.month date.month_pos
    (date.month_le.trans (by decide))
  have hbefore : daysBeforeMonth date.year date.month ≤ 366 := by
    have := date.month_le
    rw [hmonth]
    split_ifs <;> omega
  have hepoch : daysBeforeYear 1970 = 719162 := rfl
  unfold dayNumber
  rw [hepoch]
  unfold daysBeforeYear
  omega

theorem seedFrom_eq {date : Date} (t : TimeOfDay) (hle : 2000 ≤ date.year)
    (hlt : date.year ≤ 2069) :
    ∃ ts, (seedFrom ⟨UInt8.ofNat t.sec, UInt8.ofNat t.min, UInt8.ofNat t.hour,
        UInt8.ofNat date.day, UInt8.ofNat date.month,
        UInt8.ofNat (date.year % 100).toNat⟩).clock = some ts ∧
      ts.tvSec.toInt = secondsSinceEpoch date t ∧ ts.tvNsec = 0 := by
  have hsec := toNat_byte (t.sec_lt.trans (by decide))
  have hmin := toNat_byte (t.min_lt.trans (by decide))
  have hhour := toNat_byte (t.hour_lt.trans (by decide))
  have hday := toNat_byte (date.day_le_thirtyOne.trans_lt (by decide))
  have hmonth := toNat_byte (date.month_le.trans_lt (by decide))
  have hyear := toNat_yFull hle hlt
  have hdays := dayNumber_bounds hle hlt
  have hsec_lt := t.sec_lt
  have hmin_lt := t.min_lt
  have hhour_lt := t.hour_lt
  have hday_pos := date.day_pos
  have hday_le := date.day_le_thirtyOne
  have hmonth_pos := date.month_pos
  have hmonth_le := date.month_le
  unfold seedFrom
  dsimp only
  generalize (if 70 ≤ UInt8.ofNat (date.year % 100).toNat then
      1900 + (UInt8.ofNat (date.year % 100).toNat).toUInt32
    else 2000 + (UInt8.ofNat (date.year % 100).toNat).toUInt32 : UInt32) = yFull at hyear ⊢
  rw [if_neg]
  · refine ⟨_, rfl, ?_, rfl⟩
    have hcast : (Int64.ofNat yFull.toNat).toInt = date.year := by
      rw [Int64.toInt_ofNat_of_lt (by omega), hyear]
    have hcount := daysFromCivil_eq date hcast (abs_lt.mpr ⟨by omega, by omega⟩)
    dsimp only
    rw [toUInt32_byte (by omega), toUInt32_byte (by omega), hhour, hmin, hsec,
      toInt_epoch (hcount ▸ hdays.1) (hcount ▸ hdays.2) (by omega) (by omega) (by omega), hcount,
      secondsSinceEpoch]
    push_cast
    rfl
  · simp only [UInt32.lt_iff_toNat_lt, UInt8.lt_iff_toNat_lt, hsec, hmin, hhour, hday, hmonth,
      UInt32.toNat_ofNat, UInt8.toNat_ofNat, Nat.reducePow, Nat.reduceMod]
    omega

/-- A time from 2000 to 2069 that the registers hold, in any of the formats, is the one that the
clock is set to; and `days_from_civil` numbers the days from 1970-01-01 on. -/
theorem cmos_clock_exact :
    (∀ rtc f (date : Date) t, RtcHolds rtc f date t → 2000 ≤ date.year → date.year ≤ 2069 →
      ∃ ts, (seedRealtimeFromCmos rtc).clock = some ts ∧
        ts.tvSec.toInt = secondsSinceEpoch date t ∧ ts.tvNsec = 0) ∧
    (∀ (date : Date) (y : Int64), y.toInt = date.year → |date.year| < 2 ^ 40 →
      (daysFromCivil y (UInt32.ofNat date.month) (UInt32.ofNat date.day)).toInt =
        dayNumber date) ∧
    dayNumber epoch = 0 ∧ ∀ date : Date, dayNumber date.next = dayNumber date + 1 := by
  refine ⟨?_, ?_, dayNumber_epoch, dayNumber_next⟩
  · intro rtc f date t h hle hlt
    rw [h.converted]
    exact seedFrom_eq t hle hlt
  · intro date y hy hyear
    exact daysFromCivil_eq date hy hyear

/-- 2024-02-29 12:34:56 in BCD with 12 hours. -/
def leapNoon (_ : ℕ) (reg : UInt8) : UInt8 :=
  if reg = cmosRegSec then 0x56
  else if reg = cmosRegMin then 0x34
  else if reg = cmosRegHour then 0x92
  else if reg = cmosRegDay then 0x29
  else if reg = cmosRegMon then 0x02
  else if reg = cmosRegYear then 0x24
  else 0

theorem cmos_clock_exact_leapNoon :
    ∃ ts, (seedRealtimeFromCmos leapNoon).clock = some ts ∧ ts.tvSec.toInt = 1709210096 ∧
      ts.tvNsec = 0 := by
  have hstatB : ∀ n, leapNoon n cmosRegStatB = 0 := fun _ => rfl
  obtain ⟨ts, hclock, hsec, hnsec⟩ := cmos_clock_exact.1 leapNoon ⟨false, false⟩
    ⟨2024, 2, 29, by decide, by decide, by decide, by decide⟩
    ⟨12, 34, 56, by decide, by decide, by decide⟩
    ⟨fun _ => rfl, fun _ => rfl, fun _ => rfl, fun _ => rfl, fun _ => rfl, fun _ => rfl,
      fun n => by rw [hstatB]; decide, fun n => by rw [hstatB]; decide⟩ (by decide) (by decide)
  exact ⟨ts, hclock, hsec.trans (by decide), hnsec⟩

end NanoMQ
