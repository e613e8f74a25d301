import NanoMQ.CivilCalendar
import Mathlib.Algebra.Order.Group.Unbundled.Abs

/-!
# The clock of the demo on x86

`seed_realtime_from_cmos` reads the date and the time from the registers of the real-time clock and
sets the system clock to them. The registers may change between two reads: `rtc n reg` is what the
`n`-th read gives if it is of the register `reg`. Status register B tells whether the registers are
in BCD and whether hours go up to 24; with 12 hours bit 7 of the hour says PM. The `int` products of
`uint8_t` values are exact and `time_t` has 64 bits.
-/

namespace NanoMQ

def daysFromCivil (y : Int64) (m d : UInt32) : Int64 :=
  let y := y - if m ≤ 2 then 1 else 0
  let era := (if 0 ≤ y then y else y - 399) / 400
  let yoe := UInt32.ofInt (y - era * 400).toInt
  let doy := (153 * (m + if 2 < m then -3 else 9) + 2) / 5 + d - 1
  let doe := yoe * 365 + yoe / 4 - yoe / 100 + doy
  era * 146097 + Int64.ofNat doe.toNat - 719468

def cmosRegSec : UInt8 := 0x00
def cmosRegMin : UInt8 := 0x02
def cmosRegHour : UInt8 := 0x04
def cmosRegDay : UInt8 := 0x07
def cmosRegMon : UInt8 := 0x08
def cmosRegYear : UInt8 := 0x09
def cmosRegStatA : UInt8 := 0x0A
def cmosRegStatB : UInt8 := 0x0B
def cmosUipBit : UInt8 := 0x80
def cmos24hBit : UInt8 := 0x02
def cmosBinBit : UInt8 := 0x04

def cmosBcd2bin (v : UInt8) : UInt8 := ((v >>> 4) &&& 0x0F) * 10 + (v &&& 0x0F)

structure CmosTime where
  sec : UInt8
  min : UInt8
  hour : UInt8
  day : UInt8
  mon : UInt8
  year : UInt8
  deriving DecidableEq

/-- The loop that waits for the end of an update, with the number of reads before and behind it. -/
def waitUpdate (rtc : ℕ → UInt8 → UInt8) : ℕ → ℕ → ℕ
  | 0, n => n
  | tries + 1, n =>
    if rtc n cmosRegStatA &&& cmosUipBit = 0 then n + 1 else waitUpdate rtc tries (n + 1)

def cmosReadDatetime (rtc : ℕ → UInt8 → UInt8) : ℕ → ℕ → Option CmosTime × ℕ
  | 0, n => (none, n)
  | tries + 1, n =>
    if rtc n cmosRegSec = rtc (n + 6) cmosRegSec then
      (some ⟨rtc n cmosRegSec, rtc (n + 1) cmosRegMin, rtc (n + 2) cmosRegHour,
        rtc (n + 3) cmosRegDay, rtc (n + 4) cmosRegMon, rtc (n + 5) cmosRegYear⟩, n + 7)
    else cmosReadDatetime rtc tries (n + 7)

/-- The hour of the 12-hour mode, with the flag that was in its bit 7. -/
def hourOf12 (pm : Bool) (hour : UInt8) : UInt8 :=
  if pm then if hour ≠ 12 then hour + 12 else hour
  else if hour = 12 then 0 else hour

def convertTime (statB : UInt8) (t : CmosTime) : CmosTime :=
  let binary := statB &&& cmosBinBit != 0
  let h24 := statB &&& cmos24hBit != 0
  let pm := !h24 && t.hour &&& 0x80 != 0
  let t := if h24 then t else { t with hour := t.hour &&& 0x7F }
  let t := if binary then t else
    ⟨cmosBcd2bin t.sec, cmosBcd2bin t.min, cmosBcd2bin t.hour, cmosBcd2bin t.day,
      cmosBcd2bin t.mon, cmosBcd2bin t.year⟩
  if h24 then t else { t with hour := hourOf12 pm t.hour }

structure Timespec where
  tvSec : Int64
  tvNsec : ℕ
  deriving DecidableEq

inductive SeedResult
  | straddled
  | outOfRange (yFull : UInt32) (t : CmosTime)
  | seeded (ts : Timespec) (yFull : UInt32) (t : CmosTime)
  deriving DecidableEq

def SeedResult.clock : SeedResult → Option Timespec
  | .seeded ts _ _ => some ts
  | .straddled | .outOfRange _ _ => none

def seedFrom (t : CmosTime) : SeedResult :=
  let yFull : UInt32 := if 70 ≤ t.year then 1900 + t.year.toUInt32 else 2000 + t.year.toUInt32
  if yFull < 2000 ∨ 2099 < yFull ∨ t.mon < 1 ∨ 12 < t.mon ∨ t.day < 1 ∨ 31 < t.day ∨ 23 < t.hour ∨
      59 < t.min ∨ 59 < t.sec then
    .outOfRange yFull t
  else
    let epoch := daysFromCivil (Int64.ofNat yFull.toNat) t.mon.toUInt32 t.day.toUInt32 * 86400 +
      Int64.ofNat (t.hour.toNat * 3600) + Int64.ofNat (t.min.toNat * 60) + Int64.ofNat t.sec.toNat
    .seeded ⟨epoch, 0⟩ yFull t

def seedRealtimeFromCmos (rtc : ℕ → UInt8 → UInt8) : SeedResult :=
  let (t, n) := cmosReadDatetime rtc 8 (waitUpdate rtc 1000 0)
  match t with
  | none => .straddled
  | some t => seedFrom (convertTime (rtc n cmosRegStatB) t)

end NanoMQ
