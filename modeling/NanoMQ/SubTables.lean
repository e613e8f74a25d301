import NanoMQ.Work
import Mathlib.Data.Set.Insert
import Mathlib.Tactic.SplitIfs

/-!
# The two tables of subscriptions

`dbhash` records the filters of a pipe, and `dbtree` the pipes of a filter, by which messages are
routed. Nothing ties the two together but the order in which the handlers call them. `Represents`
says that both stand for the same set of subscriptions, and each group of calls that the handlers
make carries it on: to the set with a subscription added, with one taken out, or with all those of a
pipe taken out.
-/

namespace NanoMQ

open ByteBuffer

namespace Store

def checkTopic (st : Store) (pid : ℕ) (topic : Bytes) : Bool :=
  (st.dbhash pid).any (fun filters => filters.contains topic)

def insertClient (st : Store) (topic : Bytes) (pid : ℕ) : Store :=
  { st with db := st.db.insert (topic, pid) }

def insertTopic (st : Store) (pid : ℕ) (topic : Bytes) : Store :=
  { st with
    dbhash := fun p =>
      if p = pid then some (((st.dbhash pid).getD []).insert topic) else st.dbhash p }

def deleteClient (st : Store) (topic : Bytes) (pid : ℕ) : Store :=
  { st with db := st.db.filter (· ≠ (topic, pid)) }

def delTopic (st : Store) (pid : ℕ) (topic : Bytes) : Store :=
  { st with
    dbhash := fun p =>
      if p = pid then (st.dbhash pid).map (fun filters => filters.filter (· ≠ topic))
      else st.dbhash p }

/-- A filter that is not recorded yet goes into both tables. -/
def addSub (st : Store) (pid : ℕ) (topic : Bytes) : Store :=
  if st.checkTopic pid topic then st else (st.insertClient topic pid).insertTopic pid topic

/-- `sub_ctx_del`, which returns zero whether or not there was a subscription. -/
def subCtxDel (st : Store) (topic : Bytes) (pid : ℕ) : ℕ × Store :=
  (0, (st.deleteClient topic pid).delTopic pid topic)

def Recorded (st : Store) (pid : ℕ) (filter : Bytes) : Prop :=
  filter ∈ (st.dbhash pid).getD []

def Registered (st : Store) (pid : ℕ) (filter : Bytes) : Prop := (filter, pid) ∈ st.db

instance (st : Store) (pid : ℕ) (filter : Bytes) : Decidable (st.Recorded pid filter) :=
  inferInstanceAs (Decidable (_ ∈ _))

instance (st : Store) (pid : ℕ) (filter : Bytes) : Decidable (st.Registered pid filter) :=
  inferInstanceAs (Decidable (_ ∈ _))

theorem checkTopic_iff {st : Store} {pid : ℕ} {topic : Bytes} :
    st.checkTopic pid topic = true ↔ st.Recorded pid topic := by
  unfold checkTopic Recorded
  cases st.dbhash pid with
  | none => simp
  | some filters => simp

section Operations

variable {st : Store} {pid p : ℕ} {topic f : Bytes}

theorem recorded_insertTopic :
    (st.insertTopic pid topic).Recorded p f ↔ p = pid ∧ f = topic ∨ st.Recorded p f := by
  unfold insertTopic Recorded
  dsimp only
  split_ifs with hp
  · subst hp
    simp only [Option.getD_some, List.mem_insert_iff, true_and]
  · simp only [hp, false_and, false_or]

theorem registered_insertClient :
    (st.insertClient topic pid).Registered p f ↔ p = pid ∧ f = topic ∨ st.Registered p f := by
  unfold insertClient Registered
  simp only [List.mem_insert_iff, Prod.mk.injEq, and_comm]

theorem recorded_delTopic :
    (st.delTopic pid topic).Recorded p f ↔ st.Recorded p f ∧ ¬ (p = pid ∧ f = topic) := by
  unfold delTopic Recorded
  dsimp only
  split_ifs with hp
  · subst hp
    cases st.dbhash p <;> simp
  · simp only [hp, false_and, not_false_eq_true, and_true]

theorem registered_deleteClient :
    (st.deleteClient topic pid).Registered p f ↔ st.Registered p f ∧ ¬ (p = pid ∧ f = topic) := by
  unfold deleteClient Registered
  simp only [List.mem_filter, ne_eq, decide_eq_true_eq, Prod.mk.injEq, and_comm]

theorem recorded_destroySubClient :
    (st.destroySubClient pid).Recorded p f ↔ st.Recorded p f ∧ p ≠ pid := by
  unfold destroySubClient Recorded
  cases hpid : st.dbhash pid with
  | none =>
    constructor
    · intro h
      refine ⟨h, fun hp => ?_⟩
      rw [hp, hpid] at h
      cases h
    · exact And.left
  | some filters =>
    dsimp only
    split_ifs with hp
    · simp [hp]
    · simp [hp]

theorem registered_destroySubClient :
    (st.destroySubClient pid).Registered p f ↔
      st.Registered p f ∧ ¬ (p = pid ∧ st.Recorded pid f) := by
  unfold destroySubClient Registered Recorded
  cases st.dbhash pid with
  | none => simp
  | some filters => simp only [List.mem_filter, decide_eq_true_eq, Option.getD_some]

end Operations

end Store

structure Represents (st : Store) (subs : Set (ℕ × Bytes)) : Prop where
  recorded : ∀ p f, st.Recorded p f ↔ (p, f) ∈ subs
  registered : ∀ p f, st.Registered p f ↔ (p, f) ∈ subs

def Store.Agree (st : Store) : Prop := ∀ p f, st.Recorded p f ↔ st.Registered p f

theorem Store.agree_empty : Store.empty.Agree :=
  fun _ _ => iff_of_false List.not_mem_nil List.not_mem_nil

theorem Store.Agree.represents {st : Store} (h : st.Agree) :
    Represents st {s | st.Recorded s.1 s.2} :=
  ⟨fun _ _ => Iff.rfl, fun p f => (h p f).symm⟩

namespace Represents

variable {st : Store} {subs : Set (ℕ × Bytes)} {pid : ℕ} {topic : Bytes}

theorem empty : Represents Store.empty ∅ :=
  ⟨fun _ _ => iff_of_false List.not_mem_nil id, fun _ _ => iff_of_false List.not_mem_nil id⟩

theorem congr {st' : Store} (h : Represents st subs) (hdb : st'.db = st.db)
    (hhash : st'.dbhash = st.dbhash) : Represents st' subs := by
  refine ⟨fun p f => ?_, fun p f => ?_⟩
  · rw [← h.recorded p f, Store.Recorded, hhash]
    rfl
  · rw [← h.registered p f, Store.Registered, hdb]
    rfl

theorem addSub (h : Represents st subs) :
    Represents (st.addSub pid topic) (insert (pid, topic) subs) := by
  unfold Store.addSub
  split_ifs with hcheck
  · have hmem : (pid, topic) ∈ subs := (h.recorded pid topic).mp (Store.checkTopic_iff.mp hcheck)
    rwa [Set.insert_eq_of_mem hmem]
  · refine ⟨fun p f => ?_, fun p f => ?_⟩
    · rw [Store.recorded_insertTopic, Set.mem_insert_iff, Prod.mk.injEq, ← h.recorded p f]
      rfl
    · change (st.insertClient topic pid).Registered p f ↔ _
      rw [Store.registered_insertClient, Set.mem_insert_iff, Prod.mk.injEq, h.registered p f]

theorem subCtxDel (h : Represents st subs) :
    Represents (st.subCtxDel topic pid).2 (subs \ {(pid, topic)}) := by
  refine ⟨fun p f => ?_, fun p f => ?_⟩
  · change ((st.deleteClient topic pid).delTopic pid topic).Recorded p f ↔ _
    rw [Store.recorded_delTopic, Set.mem_sdiff, Set.mem_singleton_iff, Prod.mk.injEq,
      ← h.recorded p f]
    rfl
  · change (st.deleteClient topic pid).Registered p f ↔ _
    rw [Store.registered_deleteClient, Set.mem_sdiff, Set.mem_singleton_iff, Prod.mk.injEq,
      h.registered p f]

theorem destroySubClient (h : Represents st subs) :
    Represents (st.destroySubClient pid) {s ∈ subs | s.1 ≠ pid} := by
  refine ⟨fun p f => ?_, fun p f => ?_⟩
  · rw [Store.recorded_destroySubClient, h.recorded p f]
    rfl
  · rw [Store.registered_destroySubClient, h.registered p f, h.recorded pid f]
    constructor
    · rintro ⟨hmem, hkeep⟩
      refine ⟨hmem, fun hp => hkeep ⟨hp, ?_⟩⟩
      have hp' : p = pid := hp
      rwa [← hp']
    · rintro ⟨hmem, hp⟩
      exact ⟨hmem, fun hdel => hp hdel.1⟩

end Represents

end NanoMQ
