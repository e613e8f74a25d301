import NanoMQ.SubHandling
import Mathlib.Algebra.Group.Nat.Defs

/-!
# When a message has expired

`check_msg_exp` compares the clock with the time a message came in and its expiry interval, which is
in seconds. The times have 64 bits, but the interval is multiplied by 1000 in its own 32 bits before
it is added. So an interval of more than 49 days counts for what is left of the product.
-/

namespace NanoMQ

open ByteBuffer

def expiryPassed (ntime rtime : UInt64) (interval : UInt32) : Bool :=
  ntime > rtime + (interval * 1000).toUInt64

/-- What the check is for: it refuses a message of MQTT 5 exactly when its interval has passed since
it came in, and no other message. -/
def ExpiresOnTime (nng : Nng) (conf : Conf) (clock : ℕ) (m : Msg) (prop : Option PropertyList) :
    Prop :=
  (∀ e, m.cmdType = .publishV5 → expiryInterval nng conf m prop = some e →
    (checkMsgExp nng conf clock m prop = false ↔ m.timestamp + 1000 * e.toNat < clock)) ∧
  (m.cmdType ≠ .publishV5 ∨ expiryInterval nng conf m prop = none →
    checkMsgExp nng conf clock m prop = true)

section Check

variable {nng : Nng} {conf : Conf} {clock : ℕ} {m : Msg} {prop : Option PropertyList} {e : UInt32}

theorem toNat_interval_mul (e : UInt32) : (e * 1000).toNat = 1000 * e.toNat % 2 ^ 32 := by
  rw [UInt32.toNat_mul, Nat.mul_comm]
  rfl

theorem checkMsgExp_of_interval (hv5 : m.cmdType = .publishV5)
    (he : expiryInterval nng conf m prop = some e) :
    checkMsgExp nng conf clock m prop = false ↔
      m.timestamp + 1000 * e.toNat % 2 ^ 32 < clock := by
  rw [checkMsgExp, if_pos hv5, he, Option.all_some, toNat_interval_mul, decide_eq_false_iff_not,
    not_le]

theorem checkMsgExp_of_none (h : m.cmdType ≠ .publishV5 ∨ expiryInterval nng conf m prop = none) :
    checkMsgExp nng conf clock m prop = true := by
  unfold checkMsgExp
  split_ifs with hv5
  · rw [h.resolve_left (not_not.mpr hv5)]
    rfl
  · rfl

/-- Times far from the end of their range are added without a carry. -/
theorem expiryPassed_iff (hclock : clock < 2 ^ 62) {rtime : ℕ} (hrtime : rtime < 2 ^ 62)
    (e : UInt32) :
    expiryPassed (UInt64.ofNat clock) (UInt64.ofNat rtime) e = true ↔
      rtime + 1000 * e.toNat % 2 ^ 32 < clock := by
  have hproduct : ((e * 1000).toUInt64).toNat = 1000 * e.toNat % 2 ^ 32 := by
    rw [UInt32.toNat_toUInt64, toNat_interval_mul]
  rw [expiryPassed, decide_eq_true_eq, gt_iff_lt, UInt64.lt_iff_toNat_lt, UInt64.toNat_add,
    hproduct, UInt64.toNat_ofNat', UInt64.toNat_ofNat']
  omega

/-- The product is too small by a multiple of its range exactly when it does not fit. -/
theorem product_agrees_iff (r n p : ℕ) :
    (r + p % 2 ^ 32 < n ↔ r + p < n) ↔ p < 2 ^ 32 ∨ n ≤ r + p % 2 ^ 32 ∨ r + p < n := by
  have hle := Nat.mod_le p (2 ^ 32)
  constructor
  · intro h
    by_cases hn : r + p % 2 ^ 32 < n
    · exact Or.inr (Or.inr (h.mp hn))
    · exact Or.inr (Or.inl (not_lt.mp hn))
  · rintro (hp | hn | hn)
    · rw [Nat.mod_eq_of_lt hp]
    · exact iff_of_false (not_lt.mpr hn) (by omega)
    · exact iff_of_true (by omega) hn

end Check

/-- Messages expire on time unless the interval does not fit in 32 bits as milliseconds and the
clock stands between the time that is left of it and the time it really means. -/
theorem expiresOnTime_iff (nng : Nng) (conf : Conf) {clock : ℕ} {m : Msg}
    (prop : Option PropertyList) (hclock : clock < 2 ^ 62) (htime : m.timestamp < 2 ^ 62) :
    (∀ e, m.cmdType = .publishV5 → expiryInterval nng conf m prop = some e →
      checkMsgExp nng conf clock m prop =
        !expiryPassed (UInt64.ofNat clock) (UInt64.ofNat m.timestamp) e) ∧
    (ExpiresOnTime nng conf clock m prop ↔
      ∀ e, m.cmdType = .publishV5 → expiryInterval nng conf m prop = some e →
        1000 * e.toNat < 2 ^ 32 ∨ clock ≤ m.timestamp + 1000 * e.toNat % 2 ^ 32 ∨
          m.timestamp + 1000 * e.toNat < clock) := by
  constructor
  · intro e hv5 he
    have hcheck : checkMsgExp nng conf clock m prop = false ↔
        expiryPassed (UInt64.ofNat clock) (UInt64.ofNat m.timestamp) e = true := by
      rw [checkMsgExp_of_interval hv5 he, expiryPassed_iff hclock htime]
    cases hpassed : expiryPassed (UInt64.ofNat clock) (UInt64.ofNat m.timestamp) e with
    | true => exact hcheck.mpr hpassed
    | false =>
      rw [hpassed] at hcheck
      exact Bool.eq_true_of_not_eq_false (fun hfalse => Bool.false_ne_true (hcheck.mp hfalse))
  · constructor
    · intro h e hv5 he
      have hexact := h.1 e hv5 he
      rw [checkMsgExp_of_interval hv5 he] at hexact
      exact (product_agrees_iff _ _ _).mp hexact
    · intro h
      refine ⟨fun e hv5 he => ?_, checkMsgExp_of_none⟩
      rw [checkMsgExp_of_interval hv5 he]
      exact (product_agrees_iff _ _ _).mpr (h e hv5 he)

def expiring (interval : UInt32) : PropertyList := [⟨messageExpiryIntervalId, .u32 interval⟩]

def Msg.received : Msg := { Msg.alloc with cmdType := .publishV5, timestamp := 0 }

theorem expiresOnTime_minute :
    ExpiresOnTime Nng.reference Conf.bare 60001 Msg.received (some (expiring 60)) ∧
      checkMsgExp Nng.reference Conf.bare 60001 Msg.received (some (expiring 60)) = false := by
  refine ⟨?_, by decide⟩
  apply (expiresOnTime_iff Nng.reference Conf.bare _ (by decide) (by decide)).2.mpr
  intro e _ he
  obtain rfl : 60 = e := Option.some.inj he
  exact Or.inl (by decide)

/-- An interval of 4294968 seconds is over after 704 milliseconds. -/
theorem expired_too_early :
    let prop := some (expiring 4294968)
    expiryInterval Nng.reference Conf.bare Msg.received prop = some 4294968 ∧
      checkMsgExp Nng.reference Conf.bare 705 Msg.received prop = false ∧
      ¬ ExpiresOnTime Nng.reference Conf.bare 705 Msg.received prop := by
  intro prop
  have hinterval : expiryInterval Nng.reference Conf.bare Msg.received prop = some 4294968 := by
    decide
  have hcheck : checkMsgExp Nng.reference Conf.bare 705 Msg.received prop = false := by decide
  refine ⟨hinterval, hcheck, fun h => ?_⟩
  have hlate := (h.1 4294968 rfl hinterval).mp hcheck
  exact absurd hlate (by decide)

end NanoMQ
