import NanoMQ.GuardedRun
import NanoMQ.RuleRounds

/-!
# What the rules ask of the database

A round of the loop over the rules is quiet, or it composes a row and executes it. Composing asks
whether columns are there and adds those that are not, and then comes the INSERT, with a close if it
fails. The rule that a row is composed from stands `pos i` behind the rule at `i` that matches: the
code passes `i` itself, and `0` would be the rule that matches.
-/

namespace NanoMQ

open ByteBuffer

structure RuleMessage where
  time : ℕ
  work : Work

section Insert

variable (nng : Nng) (cj : Cjson) (db : Sqlite) (conf : Conf) (pos : ℕ → ℕ) (m : RuleMessage)

def forwardRuleBy (i : ℕ) (info : Rule) (r : InsertRun) : Option InsertRun :=
  match info.forword with
  | .sqlite _ =>
    if sqliteOn conf then ruleEngineInsertSqlite cj db m.time m.work i (pos i) r else some r
  | _ => forwardRule cj db conf m.time m.work i info r

def ruleStepBy (r : InsertRun) (i : ℕ) : Option InsertRun :=
  if r.failed then some r
  else
    match r.st.rules[i]? with
    | none => some r
    | some info =>
      if info.enabled then
        match ruleEngineFilter nng cj m.time m.work info with
        | none => none
        | some (filter, info') =>
          let r := { r with st := { r.st with rules := r.st.rules.set i info' } }
          if filter then forwardRuleBy cj db conf pos m i info' r else some r
      else some r

/-- `rule_engine_insert_sql` with the rule for the row `pos i` behind the rule at `i`. -/
def insertSqlBy (st : RuleState) : Option RuleState :=
  ((List.range st.rules.length).foldlM (ruleStepBy nng cj db conf pos m) ⟨st, false, false⟩).map
    InsertRun.st

def insertRun (st : RuleState) (ms : List RuleMessage) : Option RuleState :=
  ms.foldlM (fun st m => insertSqlBy nng cj db conf pos m st) st

theorem forwardRuleBy_id (i : ℕ) (info : Rule) (r : InsertRun) :
    forwardRuleBy cj db conf id m i info r = forwardRule cj db conf m.time m.work i info r := by
  unfold forwardRuleBy
  cases hforword : info.forword
  case sqlite table =>
    unfold forwardRule
    rw [hforword]
    rfl
  all_goals rfl

/-- The code passes the position a second time. -/
theorem insertSqlBy_id (st : RuleState) :
    insertSqlBy nng cj db conf id m st =
      (ruleEngineInsertSql nng cj db conf m.time m.work st).map InsertRun.st := by
  have hforward : forwardRuleBy cj db conf id m = forwardRule cj db conf m.time m.work := by
    funext i info r
    exact forwardRuleBy_id cj db conf m i info r
  have hstep : ruleStepBy nng cj db conf id m = ruleStep nng cj db conf m.time m.work := by
    funext r i
    unfold ruleStepBy ruleStep
    generalize hf : forwardRuleBy cj db conf id m = f
    obtain rfl : forwardRule cj db conf m.time m.work = f := hforward.symm.trans hf
    rfl
  rw [insertSqlBy, hstep]
  rfl

end Insert

structure Quiet (r r' : InsertRun) : Prop where
  calls : r'.st.calls = r.st.calls
  isNeedSet : r'.isNeedSet = r.isNeedSet
  isFirstTime : r'.st.isFirstTime = r.st.isFirstTime
  failed : r'.failed = r.failed
  rules : SamePlain r'.st.rules r.st.rules

theorem Quiet.refl (r : InsertRun) : Quiet r r := ⟨rfl, rfl, rfl, rfl, rfl⟩

theorem Quiet.trans {a b c : InsertRun} (h : Quiet a b) (h' : Quiet b c) : Quiet a c :=
  ⟨h'.calls.trans h.calls, h'.isNeedSet.trans h.isNeedSet, h'.isFirstTime.trans h.isFirstTime,
    h'.failed.trans h.failed, Eq.trans h'.rules h.rules⟩

structure Executed (cj : Cjson) (db : Sqlite) (m : RuleMessage) (k : ℕ) (r r' : InsertRun) :
    Prop where
  made : ∃ r₁ info c, Quiet r r₁ ∧ r₁.st.rules[k]? = some info ∧
    composeRow cj db m.time m.work k info (r.isNeedSet || r.st.isFirstTime) r.st.calls = some c ∧
    r' = executeRow db k info (r.isNeedSet || r.st.isFirstTime) r₁ c

section Rounds

variable {nng : Nng} {cj : Cjson} {db : Sqlite} {conf : Conf} {pos : ℕ → ℕ} {m : RuleMessage}
  {r r' : InsertRun} {i : ℕ} {info : Rule}

theorem forwardRuleBy_cases (h : forwardRuleBy cj db conf pos m i info r = some r') :
    (info.sqliteTable.isSome ∧ sqliteOn conf = true ∧ Executed cj db m (i + pos i) r r') ∨
      (¬ (info.sqliteTable.isSome ∧ sqliteOn conf = true) ∧ Quiet r r') := by
  unfold forwardRuleBy at h
  unfold Rule.sqliteTable
  cases hforword : info.forword <;> rw [hforword] at h
  case sqlite table =>
    dsimp only at h
    split_ifs at h with hon
    · obtain ⟨info', hget, hrow⟩ := Option.bind_eq_some_iff.mp h
      obtain ⟨c, hc, rfl⟩ := Option.map_eq_some_iff.mp hrow
      exact Or.inl ⟨rfl, hon, r, info', c, Quiet.refl r, hget, hc, rfl⟩
    · obtain rfl := Option.some.inj h
      exact Or.inr ⟨fun hs => hon hs.2, Quiet.refl r⟩
  case repub repub =>
    unfold forwardRule at h
    rw [hforword] at h
    dsimp only at h
    refine Or.inr ⟨by simp, ?_⟩
    split_ifs at h <;> obtain rfl := Option.some.inj h
    · exact ⟨rfl, rfl, rfl, rfl, rfl⟩
    · exact Quiet.refl r
  all_goals
    unfold forwardRule at h
    rw [hforword] at h
    obtain rfl := Option.some.inj h
    exact Or.inr ⟨by simp, Quiet.refl r⟩

/-- A round composes and executes a row for a rule that matches, and is quiet otherwise. -/
theorem ruleStepBy_cases (h : ruleStepBy nng cj db conf pos m r i = some r') :
    (r.failed = false ∧ SqlMatch nng cj conf m.time m.work r.st.rules i ∧
        Executed cj db m (i + pos i) r r') ∨
      ((r.failed = false → ¬ SqlMatch nng cj conf m.time m.work r.st.rules i) ∧ Quiet r r') := by
  unfold ruleStepBy at h
  split_ifs at h with hfail
  · obtain rfl := Option.some.inj h
    exact Or.inr ⟨fun hgo => absurd hfail (by simp [hgo]), Quiet.refl r⟩
  · have hgo : r.failed = false := Bool.eq_false_of_not_eq_true hfail
    cases hr : r.st.rules[i]? with
    | none =>
      rw [hr] at h
      obtain rfl := Option.some.inj h
      refine Or.inr ⟨fun _ hm => ?_, Quiet.refl r⟩
      obtain ⟨info, hinfo, -⟩ := hm
      rw [hr] at hinfo
      cases hinfo
    | some info =>
      rw [hr] at h
      dsimp only at h
      split_ifs at h with hen
      · split at h
        · cases h
        · rename_i b info' hf
          have hplain := plain_ruleEngineFilter nng cj _ _ hf
          have hmatch : SqlMatch nng cj conf m.time m.work r.st.rules i ↔
              info'.sqliteTable.isSome ∧ sqliteOn conf = true ∧ b = true := by
            rw [sqlMatch_iff hr, hf, Option.map_some, Option.some.injEq, and_iff_right hen,
              sqliteTable_congr hplain]
          have hset : Quiet r { r with st := { r.st with rules := r.st.rules.set i info' } } :=
            ⟨rfl, rfl, rfl, rfl, SamePlain.set hr hplain⟩
          split_ifs at h with hb
          · obtain ⟨hsql, hon, r₁, target, c, hquiet, hget, hc, rfl⟩ | ⟨hno, hquiet⟩ :=
              forwardRuleBy_cases h
            · exact Or.inl ⟨hgo, hmatch.mpr ⟨hsql, hon, hb⟩, r₁, target, c, hset.trans hquiet,
                hget, hc, rfl⟩
            · exact Or.inr ⟨fun _ hm => hno ⟨(hmatch.mp hm).1, (hmatch.mp hm).2.1⟩,
                hset.trans hquiet⟩
          · obtain rfl := Option.some.inj h
            exact Or.inr ⟨fun _ hm => hb (hmatch.mp hm).2.2, hset⟩
      · obtain rfl := Option.some.inj h
        exact Or.inr ⟨fun _ hm => hen ((sqlMatch_iff hr).mp hm).1, Quiet.refl r⟩

end Rounds

def altersText (table : Bytes) (cols : List (Bytes × Option PayloadValue)) : Bytes :=
  cols.flatMap (fun x => alterText table x.1 x.2)

def pragmaText (table : Bytes) : Bytes := ascii "PRAGMA table_info(" ++ table ++ ascii ");"

/-- The database names the column when it is asked after these calls. -/
def Sqlite.Reports (db : Sqlite) (calls : List DbCall) (table col : Bytes) : Prop :=
  col ∈ (db.columnNames calls ((pragmaText table).take 255)).getD []

theorem altersText_eq_nil_iff (table : Bytes) (cols : List (Bytes × Option PayloadValue)) :
    altersText table cols = [] ↔ cols = [] := by
  cases cols with
  | nil => simp [altersText]
  | cons x cols => simp [altersText, alterText, ascii]

/-- The round for the fields of the payload, under way: the columns were asked for one by one, and
those that were not there are to be added. -/
structure AsksColumns (db : Sqlite) (table : Bytes) (names : List Bytes) (isNeedSet : Bool)
    (calls : List DbCall) (asked : List Bytes) (cols : List (Bytes × Option PayloadValue))
    (c : Composed) : Prop where
  calls_eq : c.calls = calls ++ asked.map .prepare
  alter : c.alter = altersText table cols
  covered : isNeedSet = true → ∀ name ∈ names,
    name ∈ cols.map Prod.fst ∨
      ∃ before : List Bytes, db.Reports (calls ++ before.map .prepare) table name

section Compose

variable {cj : Cjson} {db : Sqlite} {time : ℕ} {w : Work} {info : Rule} {table : Bytes}
  {isNeedSet : Bool} {calls : List DbCall} {c : Composed} {names asked : List Bytes}
  {cols : List (Bytes × Option PayloadValue)}

theorem AsksColumns.step (h : AsksColumns db table names isNeedSet calls asked cols c)
    (cj : Cjson) (htable : info.tableName = some table) (p : RulePayload) :
    ∃ asked' cols', AsksColumns db table (names ++ p.stored.toList) isNeedSet calls asked' cols'
      (storeStep cj db info isNeedSet c p) := by
  unfold storeStep
  cases p.stored with
  | none => exact ⟨asked, cols, h.calls_eq, h.alter, by simpa using h.covered⟩
  | some pas =>
    dsimp only
    rw [htable]
    cases isNeedSet with
    | false => exact ⟨asked, cols, h.calls_eq, h.alter, fun hno => absurd hno Bool.false_ne_true⟩
    | true =>
      have hcalls : c.calls ++ [.prepare ((pragmaText table).take 255)] =
          calls ++ (asked ++ [(pragmaText table).take 255]).map .prepare := by
        rw [h.calls_eq, List.map_append, List.append_assoc]
        rfl
      have hcovered := h.covered rfl
      by_cases hfound : db.Reports c.calls table pas
      · refine ⟨asked ++ [(pragmaText table).take 255], cols, hcalls, ?_, fun _ => ?_⟩
        · exact (if_pos (List.contains_iff_mem.mpr hfound)).trans h.alter
        · intro name hname
          rcases List.mem_append.mp hname with hname | hname
          · exact hcovered name hname
          · obtain rfl := List.mem_singleton.mp hname
            rw [h.calls_eq] at hfound
            exact Or.inr ⟨asked, hfound⟩
      · refine ⟨asked ++ [(pragmaText table).take 255], cols ++ [(pas, p.value)], hcalls, ?_,
          fun _ => ?_⟩
        · refine (if_neg (fun hc => hfound (List.contains_iff_mem.mp hc))).trans ?_
          rw [h.alter, altersText, altersText, List.flatMap_append, List.flatMap_singleton]
        · intro name hname
          rw [List.map_append, List.mem_append]
          rcases List.mem_append.mp hname with hname | hname
          · exact (hcovered name hname).imp_left Or.inl
          · obtain rfl := List.mem_singleton.mp hname
            exact Or.inl (Or.inr List.mem_cons_self)

theorem AsksColumns.foldl (h : AsksColumns db table names isNeedSet calls asked cols c)
    (htable : info.tableName = some table) (ps : List RulePayload) :
    ∃ asked' cols', AsksColumns db table (names ++ ps.filterMap RulePayload.stored) isNeedSet calls
      asked' cols' (ps.foldl (storeStep cj db info isNeedSet) c) := by
  induction ps generalizing names asked cols c with
  | nil => exact ⟨asked, cols, by simpa using h⟩
  | cons p ps ih =>
    have hnames : (p :: ps).filterMap RulePayload.stored =
        p.stored.toList ++ ps.filterMap RulePayload.stored := by
      cases hp : p.stored <;> simp [hp]
    obtain ⟨asked', cols', hstep⟩ := h.step cj htable p
    rw [hnames, ← List.append_assoc]
    exact ih hstep

theorem composeRow_calls {index : ℕ} (htable : info.sqliteTable = some table)
    (h : composeRow cj db time w index info isNeedSet calls = some c) :
    ∃ (asked : List Bytes) (cols : List (Bytes × Option PayloadValue)),
      c.calls = calls ++ asked.map .prepare ++
        (if cols = [] then [] else [.alter index (altersText table cols)]) ∧
      (isNeedSet = true → info.payloadFlag = true →
        ∀ name ∈ info.payload.filterMap RulePayload.stored,
          name ∈ cols.map Prod.fst ∨
            ∃ before : List Bytes, db.Reports (calls ++ before.map .prepare) table name) := by
  have hname : info.tableName = some table := by
    unfold Rule.sqliteTable at htable
    unfold Rule.tableName
    cases hforword : info.forword <;> rw [hforword] at htable
    case sqlite t => exact htable
    all_goals cases htable
  unfold composeRow at h
  rw [htable] at h
  dsimp only at h
  split at h
  · cases h
  · rename_i t ht
    obtain ⟨c₁, hc₁, rfl⟩ := Option.map_eq_some_iff.mp h
    have hasks : ∃ asked cols, AsksColumns db table
        (if info.payloadFlag then info.payload.filterMap RulePayload.stored else []) isNeedSet calls
          asked cols c₁ := by
      unfold payloadClause at hc₁
      cases hflag : info.payloadFlag with
      | false =>
        rw [hflag] at hc₁
        obtain rfl := Option.some.inj hc₁
        exact ⟨[], [], (List.append_nil _).symm, rfl, fun _ _ hn => absurd hn List.not_mem_nil⟩
      | true =>
        rw [hflag] at hc₁
        obtain ⟨-, -, rfl⟩ := Option.map_eq_some_iff.mp hc₁
        have hstart : AsksColumns db table [] isNeedSet calls [] [] ⟨t, [], calls, []⟩ :=
          ⟨(List.append_nil _).symm, rfl, fun _ _ hn => absurd hn List.not_mem_nil⟩
        exact hstart.foldl hname info.payload
    obtain ⟨asked, cols, hasks⟩ := hasks
    refine ⟨asked, cols, ?_, fun hneed hflag => ?_⟩
    · have hnil : c₁.alter = [] ↔ cols = [] := by rw [hasks.alter, altersText_eq_nil_iff]
      by_cases hcols : cols = []
      · rw [if_pos (hnil.mpr hcols), if_pos hcols, List.append_nil]
        exact hasks.calls_eq
      · rw [if_neg (mt hnil.mp hcols), if_neg hcols, ← hasks.alter, ← hasks.calls_eq]
    · have hcovered := hasks.covered hneed
      rwa [if_pos hflag] at hcovered

theorem executeRow_cases (db : Sqlite) (k : ℕ) (info : Rule) (isNeedSet : Bool) (r : InsertRun)
    (c : Composed) :
    (insertText c.text = none ∧ (executeRow db k info isNeedSet r c).st.calls = c.calls ∧
        (executeRow db k info isNeedSet r c).failed = r.failed) ∨
      ∃ sql, insertText c.text = some sql ∧
        (((executeRow db k info isNeedSet r c).st.calls = c.calls ++ [.insert k sql] ∧
            (executeRow db k info isNeedSet r c).failed = r.failed) ∨
          ((executeRow db k info isNeedSet r c).st.calls = c.calls ++ [.insert k sql, .close] ∧
            (executeRow db k info isNeedSet r c).failed = true)) := by
  unfold executeRow
  cases insertText c.text with
  | none => exact Or.inl ⟨rfl, rfl, rfl⟩
  | some sql =>
    dsimp only
    refine Or.inr ⟨sql, rfl, ?_⟩
    split_ifs
    · exact Or.inl ⟨rfl, rfl⟩
    · exact Or.inr ⟨rfl, rfl⟩

end Compose

theorem Executed.spec {cj : Cjson} {db : Sqlite} {m : RuleMessage} {k : ℕ} {r r' : InsertRun}
    (h : Executed cj db m k r r') :
    SamePlain r'.st.rules r.st.rules ∧ r.st.calls ⊆ r'.st.calls ∧
      r'.isNeedSet = (r.isNeedSet || r.st.isFirstTime) ∧ r'.st.isFirstTime = false := by
  obtain ⟨r₁, info, c, hquiet, hget, hc, rfl⟩ := h.made
  obtain ⟨table, htable, -, hstores⟩ := composeRow_spec hc
  obtain ⟨asked, cols, hcalls, -⟩ := composeRow_calls htable hc
  have hset : SamePlain (r₁.st.rules.set k { info with payload := c.payload }) r₁.st.rules :=
    SamePlain.set hget (congrArg (fun ps => { info with payload := ps }) hstores.payload)
  have hsub : r.st.calls ⊆ c.calls := by
    rw [hcalls, List.append_assoc]
    exact List.subset_append_left _ _
  unfold executeRow
  dsimp only
  split
  · exact ⟨Eq.trans hset hquiet.rules, hsub, rfl, rfl⟩
  · split_ifs
    · exact ⟨Eq.trans hset hquiet.rules, List.subset_append_of_subset_left _ hsub, rfl, rfl⟩
    · exact ⟨Eq.trans hset hquiet.rules, List.subset_append_of_subset_left _ hsub, rfl, rfl⟩

end NanoMQ
