import NanoMQ.RuleFilter

/-!
# Tests of absent fields

A field of a message is absent if its pointer is `NULL`. No test passes on an absent field, but the
tests of the user name and of the password are not even defined on one, so that the loop over the
fields has to stop before it comes to them.
-/

namespace NanoMQ

open ByteBuffer

def Work.Absent (w : Work) : RuleField → Prop
  | .topic => w.packet.topicBody = none
  | .clientid => w.cparam.bind ConnParam.clientid = none
  | .username => w.cparam.bind ConnParam.username = none
  | .password => w.cparam.bind ConnParam.password = none
  | .payloadAll => w.packet.payloadData = none
  | .qos | .id | .timestamp => False

def RuleField.before (j : RuleField) : List RuleField := RuleField.all.takeWhile (fun i => i ≠ j)

section Fields

variable {time : ℕ} {w : Work} {info : Rule} {filter : RuleField → Option Bytes}

theorem cmpCstr_eq_none_iff {s : Option Bytes} {val : Bytes} {cmp : RuleCmp} :
    cmpCstr s val cmp = none ↔ s = none :=
  Option.map_eq_none_iff

/-- The tests that take the length of an absent string. -/
theorem fieldFilter_eq_none_iff (htopic : ¬ w.Absent .topic) (hclient : ¬ w.Absent .clientid)
    (j : RuleField) (val : Bytes) :
    fieldFilter time w info j val = none ↔ (j = .username ∨ j = .password) ∧ w.Absent j := by
  cases j
  case topic => simpa [fieldFilter, cmpCstr_eq_none_iff, Work.Absent] using htopic
  case clientid => simpa [fieldFilter, cmpCstr_eq_none_iff, Work.Absent] using hclient
  case username => simp [fieldFilter, cmpCstr_eq_none_iff, Work.Absent]
  case password => simp [fieldFilter, cmpCstr_eq_none_iff, Work.Absent]
  all_goals simp [fieldFilter]

theorem fieldFilter_of_absent {j : RuleField} (habs : w.Absent j) (val : Bytes) :
    fieldFilter time w info j val ≠ some true := by
  cases j
  case qos => exact habs.elim
  case id => exact habs.elim
  case timestamp => exact habs.elim
  case payloadAll =>
    have hdata : w.packet.payloadData = none := habs
    simp [fieldFilter, PubPacket.hasPayload, hdata]
  all_goals
    rw [fieldFilter, cmpCstr_eq_none_iff.mpr habs]
    exact Option.some_ne_none true |>.symm

/-- A statement about every place of a list is one about its head and one about the places behind
it. -/
theorem forall_split_cons {α : Type*} {P : List α → α → Prop} (k : α) (l : List α) :
    (∀ pre j post, k :: l = pre ++ j :: post → P pre j) ↔
      P [] k ∧ ∀ pre j post, l = pre ++ j :: post → P (k :: pre) j := by
  constructor
  · exact fun h => ⟨h [] k l rfl, fun pre j post heq => h (k :: pre) j post (by rw [heq]; rfl)⟩
  · intro h pre j post heq
    rcases List.cons_eq_append_iff.mp heq with ⟨rfl, heq'⟩ | ⟨pre', rfl, heq'⟩
    · obtain ⟨rfl, -⟩ := List.cons.inj heq'
      exact h.1
    · exact h.2 pre' j post heq'

/-- The loop over the fields is defined if a test that is not stands behind one that fails. -/
theorem fieldLoop_isSome_iff (js : List RuleField) :
    (fieldLoop time w info filter js).isSome ↔
      ∀ pre j post, js = pre ++ j :: post →
        (∃ val, filter j = some val ∧ fieldFilter time w info j val = none) →
          ∃ i ∈ pre, ∃ val, filter i = some val ∧ fieldFilter time w info i val = some false := by
  induction js with
  | nil => simp [fieldLoop]
  | cons k js ih =>
    rw [forall_split_cons, fieldLoop]
    cases hk : filter k with
    | none => simp [hk, ih]
    | some val => rcases hf : fieldFilter time w info k val with _ | _ | _ <;> simp [hk, hf, ih]

theorem fieldLoop_eq_true_iff (js : List RuleField) :
    fieldLoop time w info filter js = some true ↔
      ∀ j ∈ js, ∀ val, filter j = some val → fieldFilter time w info j val = some true := by
  induction js with
  | nil => simp [fieldLoop]
  | cons k js ih =>
    rw [fieldLoop]
    cases hk : filter k with
    | none => simp [hk, ih]
    | some val => rcases hf : fieldFilter time w info k val with _ | _ | _ <;> simp [hk, hf, ih]

theorem split_all {pre post : List RuleField} {j : RuleField}
    (heq : RuleField.all = pre ++ j :: post) : pre = j.before := by
  have hnodup : RuleField.all.Nodup := by decide
  have hpre : ∀ i ∈ pre, decide (i ≠ j) = true := by
    rintro i hi
    rw [heq, List.nodup_append] at hnodup
    exact decide_eq_true (hnodup.2.2 i hi j List.mem_cons_self)
  rw [RuleField.before, heq, List.takeWhile_append_of_pos hpre,
    List.takeWhile_cons_of_neg (by simp), List.append_nil]

theorem all_eq_before (j : RuleField) : ∃ post, RuleField.all = j.before ++ j :: post := by
  obtain ⟨pre, post, heq⟩ := List.append_of_mem j.mem_all
  exact ⟨post, by rw [← split_all heq]; exact heq⟩

theorem fieldLoop_all_isSome_iff (htopic : ¬ w.Absent .topic) (hclient : ¬ w.Absent .clientid) :
    (fieldLoop time w info filter RuleField.all).isSome ↔
      ∀ j, j = .username ∨ j = .password → (filter j).isSome → w.Absent j →
        ∃ i ∈ j.before, ∃ val, filter i = some val ∧
          fieldFilter time w info i val = some false := by
  rw [fieldLoop_isSome_iff]
  constructor
  · intro h j hj hsome habs
    obtain ⟨post, heq⟩ := all_eq_before j
    obtain ⟨val, hval⟩ := Option.isSome_iff_exists.mp hsome
    exact h _ j post heq
      ⟨val, hval, (fieldFilter_eq_none_iff htopic hclient j val).mpr ⟨hj, habs⟩⟩
  · rintro h pre j post heq ⟨val, hval, hnone⟩
    obtain ⟨hj, habs⟩ := (fieldFilter_eq_none_iff htopic hclient j val).mp hnone
    rw [split_all heq]
    exact h j hj (by rw [hval]; rfl) habs

end Fields

end NanoMQ
