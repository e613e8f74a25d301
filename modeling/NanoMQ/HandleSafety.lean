import NanoMQ.RuleCalls
import NanoMQ.RuleIndex
import NanoMQ.RuleTables

/-!
# Is the handle of the database open?

An INSERT that fails closes the handle of the database, but the handle stays where the rules find
it, and the next message that matches uses it again. Until then everything is in order: a failed
INSERT ends the call of `rule_engine_insert_sql`.
-/

namespace NanoMQ

open ByteBuffer GuardedRun

/-- Statements are prepared and executed on an open handle only, and it is closed at most once. -/
structure HandleSafe (start : ClientSqlite) (calls : List DbCall) : Prop where
  created : start.created ≠ [] → start.rdb = true
  used : ∀ pre c post, calls = pre ++ c :: post → c ≠ .close →
    start.rdb = true ∧ DbCall.close ∉ pre
  closed : calls.count .close ≤ 1

/-- There is an open handle, or the message matches no rule for SQLite. -/
def KeepsHandle (nng : Nng) (cj : Cjson) (conf : Conf) (start : ClientSqlite) (st : RuleState)
    (m : RuleMessage) : Prop :=
  (start.rdb = true ∧ DbCall.close ∉ st.calls) ∨
    ∀ i, ¬ SqlMatch nng cj conf m.time m.work st.rules i

def insertMessage (nng : Nng) (cj : Cjson) (db : Sqlite) (conf : Conf) (st : RuleState)
    (m : RuleMessage) : Option RuleState :=
  (ruleEngineInsertSql nng cj db conf m.time m.work st).map InsertRun.st

def ClosedLast (calls : List DbCall) : Prop := ∃ pre, calls = pre ++ [.close] ∧ DbCall.close ∉ pre

section Loop

variable {nng : Nng} {cj : Cjson} {db : Sqlite} {conf : Conf} {pos : ℕ → ℕ} {m : RuleMessage}
  {r r' : InsertRun} {k i : ℕ} {start : ClientSqlite}

/-- Before an INSERT fails nothing is closed. -/
theorem Executed.close (h : Executed cj db m k r r') (hgo : r.failed = false)
    (hopen : DbCall.close ∉ r.st.calls) :
    (r'.failed = false ∧ DbCall.close ∉ r'.st.calls) ∨
      (r'.failed = true ∧ ClosedLast r'.st.calls) := by
  obtain ⟨r₁, info, c, hquiet, -, hc, rfl⟩ := h.made
  obtain ⟨table, htable, -, -⟩ := composeRow_spec hc
  obtain ⟨asked, cols, hcalls, -⟩ := composeRow_calls htable hc
  have hfresh : DbCall.close ∉ c.calls := by
    rw [hcalls]
    split_ifs <;> simp [hopen]
  have hgo₁ : r₁.failed = false := hquiet.failed.trans hgo
  obtain ⟨-, hcalls', hfailed⟩ | ⟨sql, -, ⟨hcalls', hfailed⟩ | ⟨hcalls', hfailed⟩⟩ :=
    executeRow_cases db k info _ r₁ c
  · exact Or.inl ⟨hfailed.trans hgo₁, by rw [hcalls']; exact hfresh⟩
  · exact Or.inl ⟨hfailed.trans hgo₁, by rw [hcalls']; simp [hfresh]⟩
  · refine Or.inr ⟨hfailed, c.calls ++ [.insert k sql], ?_, by simp [hfresh]⟩
    rw [hcalls', List.append_assoc]
    rfl

/-- A message that finds an open handle leaves it open or closes it last. -/
theorem insertSqlBy_of_open {st st' : RuleState} (hopen : DbCall.close ∉ st.calls)
    (h : insertSqlBy nng cj db conf pos m st = some st') :
    DbCall.close ∉ st'.calls ∨ ClosedLast st'.calls := by
  obtain ⟨out, hout, rfl⟩ := Option.map_eq_some_iff.mp h
  have hinv : (out.failed = false ∧ DbCall.close ∉ out.st.calls) ∨
      (out.failed = true ∧ ClosedLast out.st.calls) := by
    refine run_invariant_of_step (I := fun r : InsertRun =>
      (r.failed = false ∧ DbCall.close ∉ r.st.calls) ∨ (r.failed = true ∧ ClosedLast r.st.calls))
      ?_ (Or.inl ⟨rfl, hopen⟩) hout
    intro r i r' hr hstep
    obtain ⟨hgo, -, hexec⟩ | ⟨-, hquiet⟩ := ruleStepBy_cases hstep
    · rcases hr with ⟨-, hr⟩ | ⟨hfail, -⟩
      · exact hexec.close hgo hr
      · rw [hgo] at hfail
        cases hfail
    · rw [hquiet.failed, hquiet.calls]
      exact hr
  exact hinv.imp And.right And.right

theorem insertSqlBy_of_silent {st st' : RuleState}
    (hno : ∀ i, ¬ SqlMatch nng cj conf m.time m.work st.rules i)
    (h : insertSqlBy nng cj db conf pos m st = some st') : st'.calls = st.calls := by
  obtain ⟨out, hout, rfl⟩ := Option.map_eq_some_iff.mp h
  have hinv : out.st.calls = st.calls ∧ SamePlain out.st.rules st.rules := by
    refine run_invariant_of_step (s := ⟨st, false, false⟩) (I := fun r : InsertRun =>
      r.st.calls = st.calls ∧ SamePlain r.st.rules st.rules) ?_ ⟨rfl, rfl⟩ hout
    intro r i r' hr hstep
    obtain ⟨-, hmatch, -⟩ | ⟨-, hquiet⟩ := ruleStepBy_cases hstep
    · exact absurd (hmatch.congr hr.2) (hno i)
    · exact ⟨hquiet.calls.trans hr.1, Eq.trans hquiet.rules hr.2⟩
  exact hinv.1

structure HandleInv (start : ClientSqlite) (calls : List DbCall) : Prop where
  closed : DbCall.close ∉ calls ∨ ClosedLast calls
  unopened : start.rdb = false → calls = []

theorem HandleInv.step {st st' : RuleState} (hinv : HandleInv start st.calls)
    (hkeep : KeepsHandle nng cj conf start st m)
    (h : insertMessage nng cj db conf st m = some st') : HandleInv start st'.calls := by
  rw [insertMessage, ← insertSqlBy_id] at h
  rcases hkeep with ⟨hrdb, hopen⟩ | hno
  · refine ⟨insertSqlBy_of_open hopen h, fun hnone => ?_⟩
    rw [hrdb] at hnone
    cases hnone
  · rw [insertSqlBy_of_silent hno h]
    exact hinv

theorem ClosedLast.not_mem {calls pre post : List DbCall} {c : DbCall} (h : ClosedLast calls)
    (heq : calls = pre ++ c :: post) : DbCall.close ∉ pre := by
  obtain ⟨front, rfl, hfront⟩ := h
  intro hmem
  obtain ⟨rest, hrest⟩ : pre <+: front := by
    have hpre : pre <+: front ++ [.close] := ⟨c :: post, heq.symm⟩
    rcases List.prefix_concat_iff.mp hpre with hall | hpre
    · rw [hall] at heq
      have hlen := congrArg List.length heq
      simp at hlen
    · exact hpre
  exact hfront (hrest ▸ List.mem_append_left rest hmem)

theorem HandleInv.handleSafe {calls : List DbCall} (h : HandleInv start calls)
    (hcreated : start.created ≠ [] → start.rdb = true) : HandleSafe start calls where
  created := hcreated
  used pre c post heq _ := by
    constructor
    · cases hrdb : start.rdb with
      | true => rfl
      | false =>
        rw [h.unopened hrdb] at heq
        cases pre <;> cases heq
    · rcases h.closed with hopen | hlast
      · exact fun hmem => hopen (heq ▸ List.mem_append_left _ hmem)
      · exact hlast.not_mem heq
  closed := by
    rcases h.closed with hopen | ⟨pre, rfl, hpre⟩
    · rw [List.count_eq_zero.mpr hopen]
      omega
    · rw [List.count_append, List.count_eq_zero.mpr hpre]
      rfl

theorem created_nanomqClientSqlite (openOk : Bool) (execOk : List Bytes → Bytes → Bool)
    (rules : List Rule) :
    (nanomqClientSqlite openOk execOk false rules false).created ≠ [] →
      (nanomqClientSqlite openOk execOk false rules false).rdb = true := by
  cases openOk with
  | false => exact fun h => absurd rfl h
  | true => exact fun _ => rfl

end Loop

/-- In every run in which no message matches a rule for SQLite without an open handle, the handle is
used while it is open and closed at most once. -/
theorem handle_safe {nng : Nng} {cj : Cjson} {db : Sqlite} {conf : Conf} {openOk : Bool}
    {execOk : List Bytes → Bytes → Bool} {st st' : RuleState} {ms : List RuleMessage}
    (hnew : st.calls = [])
    (hkeep : AllSteps (insertMessage nng cj db conf)
      (KeepsHandle nng cj conf (nanomqClientSqlite openOk execOk false st.rules false)) st ms)
    (hrun : ms.foldlM (insertMessage nng cj db conf) st = some st') :
    HandleSafe (nanomqClientSqlite openOk execOk false st.rules false) st'.calls := by
  have hinv : HandleInv (nanomqClientSqlite openOk execOk false st.rules false) st'.calls := by
    refine run_invariant (I := fun st' : RuleState => HandleInv _ st'.calls)
      (fun _ _ _ hC hI hstep => hI.step hC hstep) hkeep ?_ hrun
    rw [hnew]
    exact ⟨Or.inl List.not_mem_nil, fun _ => rfl⟩
  exact hinv.handleSafe (created_nanomqClientSqlite openOk execOk st.rules)

def Sqlite.refusing : Sqlite where
  execOk _ _ := false
  columnNames _ _ := none

def topicRules : RuleState := ⟨[topicRule (ascii "t") (ascii "a")], true, [], []⟩

theorem handle_safe_one_failure :
    let step := insertMessage Nng.reference Cjson.integers Sqlite.refusing sqlRuleConf
    let start := nanomqClientSqlite true (fun _ _ => true) false topicRules.rules false
    ∃ st, [⟨0, publishedFive (ascii "c")⟩].foldlM step topicRules = some st ∧
      HandleSafe start st.calls ∧
      st.calls = [.insert 0 (ascii "INSERT INTO a (Topic) VALUES ('t') ;"), .close] := by
  intro step start
  have hrun : [⟨0, publishedFive (ascii "c")⟩].foldlM step topicRules = some _ := rfl
  have hkeep : AllSteps step (KeepsHandle Nng.reference Cjson.integers sqlRuleConf start) topicRules
      [⟨0, publishedFive (ascii "c")⟩] := ⟨Or.inl ⟨rfl, List.not_mem_nil⟩, trivial⟩
  exact ⟨_, hrun, handle_safe rfl hkeep hrun, by decide⟩

/-- The message behind a failed INSERT uses the closed handle and closes it again; and a database
that cannot be opened is used all the same. -/
theorem closed_handle_used :
    let m : RuleMessage := ⟨0, publishedFive (ascii "c")⟩
    let sql := ascii "INSERT INTO a (Topic) VALUES ('t') ;"
    ([m, m].foldlM (insertMessage Nng.reference Cjson.integers Sqlite.refusing sqlRuleConf)
        topicRules).map RuleState.calls = some [.insert 0 sql, .close, .insert 0 sql, .close] ∧
      ¬ HandleSafe (nanomqClientSqlite true (fun _ _ => true) false topicRules.rules false)
        [.insert 0 sql, .close, .insert 0 sql, .close] ∧
      ([m].foldlM (insertMessage Nng.reference Cjson.integers Sqlite.willing sqlRuleConf)
        topicRules).map RuleState.calls = some [.insert 0 sql] ∧
      ¬ HandleSafe (nanomqClientSqlite false (fun _ _ => true) false topicRules.rules false)
        [.insert 0 sql] := by
  intro m sql
  refine ⟨by decide, fun h => ?_, by decide, fun h => ?_⟩
  · exact absurd h.closed (by decide)
  · have hrdb := (h.used [] _ [] rfl (by decide)).1
    cases hrdb

end NanoMQ
