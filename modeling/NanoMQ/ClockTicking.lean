import NanoMQ.ClockSeeding

/-!
# A clock that goes on while it is read

The registers are read one after the other, and the clock may tick between two reads. An attempt
begins and ends with the seconds: if they agree, and the attempt took less than a minute, the clock
has not ticked in between, and everything that was read belongs to one second. A register is taken
to show the second that has begun; what a clock shows while it updates itself is not modelled.
-/

namespace NanoMQ

open CivilCalendar

structure ClockTime where
  date : Date
  time : TimeOfDay

def ClockTime.seconds (c : ClockTime) : ℤ := secondsSinceEpoch c.date c.time

def RtcFormat.registers (f : RtcFormat) (c : ClockTime) : CmosTime :=
  ⟨f.byte c.time.sec, f.byte c.time.min, f.hour c.time.hour, f.byte c.date.day,
    f.byte c.date.month, f.byte (c.date.year % 100).toNat⟩

/-- The registers show a clock that goes on from read to read. -/
structure RtcTicks (rtc : ℕ → UInt8 → UInt8) (f : RtcFormat) (clock : ℕ → ClockTime) : Prop where
  sec : ∀ n, rtc n cmosRegSec = (f.registers (clock n)).sec
  min : ∀ n, rtc n cmosRegMin = (f.registers (clock n)).min
  hour : ∀ n, rtc n cmosRegHour = (f.registers (clock n)).hour
  day : ∀ n, rtc n cmosRegDay = (f.registers (clock n)).day
  mon : ∀ n, rtc n cmosRegMon = (f.registers (clock n)).mon
  year : ∀ n, rtc n cmosRegYear = (f.registers (clock n)).year
  binary : ∀ n, (rtc n cmosRegStatB &&& cmosBinBit != 0) = f.binary
  h24 : ∀ n, (rtc n cmosRegStatB &&& cmos24hBit != 0) = f.h24
  mono : Monotone (fun n => (clock n).seconds)

theorem RtcFormat.byte_inj (f : RtcFormat) {v w : ℕ} (hv : v < 100) (hw : w < 100)
    (h : f.byte v = f.byte w) : v = w := by
  have heq : UInt8.ofNat v = UInt8.ofNat w := by
    rw [← converted_byte f hv, ← converted_byte f hw, h]
  rw [← toNat_byte hv, ← toNat_byte hw, heq]

theorem convertTime_registers {f : RtcFormat} {statB : UInt8}
    (hbinary : (statB &&& cmosBinBit != 0) = f.binary)
    (hh24 : (statB &&& cmos24hBit != 0) = f.h24) (c : ClockTime) :
    convertTime statB (f.registers c) =
      ⟨UInt8.ofNat c.time.sec, UInt8.ofNat c.time.min, UInt8.ofNat c.time.hour,
        UInt8.ofNat c.date.day, UInt8.ofNat c.date.month,
        UInt8.ofNat (c.date.year % 100).toNat⟩ := by
  have hsec := c.time.sec_lt
  have hmin := c.time.min_lt
  have hday := c.date.day_le_thirtyOne
  have hmonth := c.date.month_le
  rw [convertTime_eq hbinary hh24]
  dsimp only [RtcFormat.registers]
  rw [converted_byte f (by omega), converted_byte f (by omega), convertHour_hour f c.time.hour_lt,
    converted_byte f (by omega), converted_byte f (by omega), converted_byte f (by omega)]

namespace ClockTime

theorem seconds_emod (c : ClockTime) : c.seconds % 60 = c.time.sec := by
  have hsec := c.time.sec_lt
  rw [seconds, secondsSinceEpoch]
  omega

theorem registers_congr {c c' : ClockTime} (h : c.seconds = c'.seconds) (f : RtcFormat) :
    f.registers c = f.registers c' := by
  have hhour := c.time.hour_lt
  have hhour' := c'.time.hour_lt
  have hmin := c.time.min_lt
  have hmin' := c'.time.min_lt
  have hsec := c.time.sec_lt
  have hsec' := c'.time.sec_lt
  rw [seconds, seconds, secondsSinceEpoch, secondsSinceEpoch] at h
  have hdate : c.date = c'.date := dayNumber_injective (by omega)
  have hours : c.time.hour = c'.time.hour := by omega
  have mins : c.time.min = c'.time.min := by omega
  have secs : c.time.sec = c'.time.sec := by omega
  rw [RtcFormat.registers, RtcFormat.registers, hdate, hours, mins, secs]

end ClockTime

namespace RtcTicks

variable {rtc : ℕ → UInt8 → UInt8} {f : RtcFormat} {clock : ℕ → ClockTime} {n : ℕ}

theorem sec_eq_iff (h : RtcTicks rtc f clock)
    (hshort : (clock (n + 6)).seconds < (clock n).seconds + 60) :
    rtc n cmosRegSec = rtc (n + 6) cmosRegSec ↔ (clock n).seconds = (clock (n + 6)).seconds := by
  have hmono := h.mono (Nat.le_add_right n 6)
  have hfirst := (clock n).seconds_emod
  have hlast := (clock (n + 6)).seconds_emod
  dsimp only at hmono
  rw [h.sec, h.sec]
  constructor
  · intro heq
    have hsec := f.byte_inj ((clock n).time.sec_lt.trans (by decide))
      ((clock (n + 6)).time.sec_lt.trans (by decide)) heq
    omega
  · intro heq
    rw [ClockTime.registers_congr heq]

theorem reading (h : RtcTicks rtc f clock)
    (hstill : (clock n).seconds = (clock (n + 6)).seconds) :
    ⟨rtc n cmosRegSec, rtc (n + 1) cmosRegMin, rtc (n + 2) cmosRegHour, rtc (n + 3) cmosRegDay,
      rtc (n + 4) cmosRegMon, rtc (n + 5) cmosRegYear⟩ = f.registers (clock n) := by
  have hsame (k : ℕ) (hk : k ≤ 6) : f.registers (clock (n + k)) = f.registers (clock n) := by
    have hfrom := h.mono (Nat.le_add_right n k)
    have hto := h.mono (Nat.add_le_add_left hk n)
    exact ClockTime.registers_congr (le_antisymm (hto.trans hstill.ge) hfrom) f
  rw [h.sec, h.min, h.hour, h.day, h.mon, h.year, hsame 1 (by decide), hsame 2 (by decide),
    hsame 3 (by decide), hsame 4 (by decide), hsame 5 (by decide)]

/-- The loop takes an attempt in which the clock stood still, or the clock has ticked in each. -/
theorem readDatetime (h : RtcTicks rtc f clock)
    (hshort : ∀ n, (clock (n + 6)).seconds < (clock n).seconds + 60) (tries n : ℕ) :
    (∃ i < tries, cmosReadDatetime rtc tries n =
        (some (f.registers (clock (n + 7 * i))), n + 7 * i + 7)) ∨
      (cmosReadDatetime rtc tries n).1 = none ∧
        (clock n).seconds + tries ≤ (clock (n + 7 * tries)).seconds := by
  induction tries generalizing n with
  | zero => exact Or.inr ⟨rfl, by simp⟩
  | succ tries ih =>
    rw [cmosReadDatetime]
    by_cases heq : rtc n cmosRegSec = rtc (n + 6) cmosRegSec
    · left
      refine ⟨0, Nat.succ_pos tries, ?_⟩
      rw [if_pos heq, h.reading ((h.sec_eq_iff (hshort n)).mp heq)]
      rfl
    · rw [if_neg heq]
      rcases ih (n + 7) with ⟨i, hi, hread⟩ | ⟨hnone, hticks⟩
      · left
        refine ⟨i + 1, Nat.succ_lt_succ hi, ?_⟩
        have hplace : n + 7 + 7 * i = n + 7 * (i + 1) := by omega
        rw [hread, hplace]
      · right
        have hplace : n + 7 + 7 * tries = n + 7 * (tries + 1) := by omega
        have hfirst := h.mono (Nat.le_add_right n 6)
        have hnext := h.mono (show n + 6 ≤ n + 7 by omega)
        have hticked := mt (h.sec_eq_iff (hshort n)).mpr heq
        dsimp only at hfirst hnext
        rw [hplace] at hticks
        refine ⟨hnone, ?_⟩
        push_cast
        omega

end RtcTicks

/-- A clock that ticks while it is read sets the system clock to the second at the first read of one
of the eight attempts, or leaves it as it is; it sets it if eight attempts are over in less than
eight seconds. -/
theorem cmos_clock_not_torn {rtc : ℕ → UInt8 → UInt8} {f : RtcFormat} {clock : ℕ → ClockTime}
    (h : RtcTicks rtc f clock)
    (hyear : ∀ n, 2000 ≤ (clock n).date.year ∧ (clock n).date.year ≤ 2069)
    (hshort : ∀ n, (clock (n + 6)).seconds < (clock n).seconds + 60) :
    (seedRealtimeFromCmos rtc = .straddled ∨
      ∃ i < 8, ∃ ts, (seedRealtimeFromCmos rtc).clock = some ts ∧
        ts.tvSec.toInt = (clock (waitUpdate rtc 1000 0 + 7 * i)).seconds ∧ ts.tvNsec = 0) ∧
    ((∀ n, (clock (n + 56)).seconds < (clock n).seconds + 8) →
      seedRealtimeFromCmos rtc ≠ .straddled) := by
  rw [seedRealtimeFromCmos]
  generalize waitUpdate rtc 1000 0 = n
  rcases h.readDatetime hshort 8 n with ⟨i, hi, hread⟩ | ⟨hnone, hticks⟩
  · rw [hread]
    dsimp only
    obtain ⟨hle, hlt⟩ := hyear (n + 7 * i)
    rw [convertTime_registers (h.binary _) (h.h24 _)]
    obtain ⟨ts, hclock, hsec, hnsec⟩ := seedFrom_eq (clock (n + 7 * i)).time hle hlt
    refine ⟨Or.inr ⟨i, hi, ts, hclock, hsec, hnsec⟩, fun _ hstraddled => ?_⟩
    rw [hstraddled] at hclock
    cases hclock
  · cases hread : cmosReadDatetime rtc 8 n with
    | mk reading m =>
      rw [hread] at hnone
      obtain rfl : reading = none := hnone
      refine ⟨Or.inl rfl, fun hquick => ?_⟩
      exact absurd (hquick n) (not_lt.mpr hticks)

/-- The end of 29 February 2024, which comes between two reads of the first attempt. -/
def leapDay (n : ℕ) : ClockTime :=
  let date : Date := ⟨2024, 2, 29, by decide, by decide, by decide, by decide⟩
  if n < 4 then ⟨date, ⟨23, 59, 59, by decide, by decide, by decide⟩⟩
  else ⟨date.next, ⟨0, 0, 0, by decide, by decide, by decide⟩⟩

def leapDayRtc (n : ℕ) (reg : UInt8) : UInt8 :=
  let r := (⟨false, true⟩ : RtcFormat).registers (leapDay n)
  if reg = cmosRegSec then r.sec
  else if reg = cmosRegMin then r.min
  else if reg = cmosRegHour then r.hour
  else if reg = cmosRegDay then r.day
  else if reg = cmosRegMon then r.mon
  else if reg = cmosRegYear then r.year
  else if reg = cmosRegStatB then cmos24hBit
  else 0

theorem seconds_leapDay (n : ℕ) :
    (leapDay n).seconds = if n < 4 then 1709251199 else 1709251200 := by
  rw [leapDay]
  split_ifs <;> decide

theorem cmos_clock_not_torn_leapDay :
    (seedRealtimeFromCmos leapDayRtc = .straddled ∨
      ∃ i < 8, ∃ ts, (seedRealtimeFromCmos leapDayRtc).clock = some ts ∧
        ts.tvSec.toInt = (leapDay (waitUpdate leapDayRtc 1000 0 + 7 * i)).seconds ∧
        ts.tvNsec = 0) ∧
    ((∀ n, (leapDay (n + 56)).seconds < (leapDay n).seconds + 8) →
      seedRealtimeFromCmos leapDayRtc ≠ .straddled) := by
  have hstatB (n : ℕ) : leapDayRtc n cmosRegStatB = cmos24hBit := rfl
  have hticks : RtcTicks leapDayRtc ⟨false, true⟩ leapDay := by
    refine ⟨fun _ => rfl, fun _ => rfl, fun _ => rfl, fun _ => rfl, fun _ => rfl, fun _ => rfl,
      fun n => by rw [hstatB]; decide, fun n => by rw [hstatB]; decide,
      monotone_nat_of_le_succ fun n => ?_⟩
    rw [seconds_leapDay, seconds_leapDay]
    split_ifs <;> omega
  refine cmos_clock_not_torn hticks (fun n => ?_) (fun n => ?_)
  · rw [leapDay]
    split_ifs <;> decide
  · rw [seconds_leapDay, seconds_leapDay]
    split_ifs <;> omega

end NanoMQ
