import NanoMQ.RuleIndependence
import NanoMQ.TableColumns

/-!
# Do the columns of an INSERT exist?

The table of a rule starts with its fixed columns, and a stored field of the payload gets its column
by an ALTER TABLE in front of the first INSERT. But columns are added only in the first call of
`rule_engine_insert_sql` in which some rule for SQLite matches, so that a rule with stored fields
needs to match there for the first time.
-/

namespace NanoMQ

open ByteBuffer GuardedRun

def NamesColumns (start : ClientSqlite) (rules : List Rule) (before : List DbCall) (i : ℕ)
    (sql : Bytes) : Prop :=
  ∃ r table, rules[i]? = some r ∧ r.sqliteTable = some table ∧ InsertInto table r.columns sql ∧
    ∀ col ∈ r.columns, ColumnExists start rules before table col

def SchemaKept (start : ClientSqlite) (rules : List Rule) (calls : List DbCall) : Prop :=
  ∀ before i sql after, calls = before ++ .insert i sql :: after →
    NamesColumns start rules before i sql

/-- No rule for SQLite has matched yet, or each that matches the message has only columns that were
there from the start, or an INSERT before. -/
def ColumnsKnown (nng : Nng) (cj : Cjson) (conf : Conf) (st : RuleState) (m : RuleMessage) : Prop :=
  st.isFirstTime = true ∨
    ∀ i r, st.rules[i]? = some r → SqlMatch nng cj conf m.time m.work st.rules i →
      (r.payloadFlag = true →
        ∀ name ∈ r.payload.filterMap RulePayload.stored, name ∈ r.fixedColumns) ∨
      ∃ sql, DbCall.insert i sql ∈ st.calls

def KnownBefore (calls : List DbCall) (i : ℕ) (r : Rule) : Prop :=
  (r.payloadFlag = true →
    ∀ name ∈ r.payload.filterMap RulePayload.stored, name ∈ r.fixedColumns) ∨
  ∃ sql, DbCall.insert i sql ∈ calls

section Schema

variable {start : ClientSqlite} {rules : List Rule} {calls more : List DbCall}

theorem schemaKept_concat {c : DbCall} :
    SchemaKept start rules (calls ++ [c]) ↔
      SchemaKept start rules calls ∧
        ∀ i sql, c = .insert i sql → NamesColumns start rules calls i sql := by
  constructor
  · intro h
    constructor
    · intro before i sql after heq
      exact h before i sql (after ++ [c]) (by rw [heq]; simp)
    · rintro i sql rfl
      exact h calls i sql [] rfl
  · rintro ⟨hcalls, hlast⟩ before i sql after heq
    rcases List.eq_nil_or_concat after with rfl | ⟨after', d, rfl⟩
    · obtain ⟨rfl, hc⟩ := List.append_inj' heq rfl
      exact hlast i sql (List.singleton_inj.mp hc)
    · have heq' : calls ++ [c] = (before ++ .insert i sql :: after') ++ [d] := by
        rw [heq]
        simp
      exact hcalls before i sql after' (List.append_inj' heq' rfl).1

theorem SchemaKept.append (h : SchemaKept start rules calls)
    (hmore : ∀ c ∈ more, ∀ i sql, c ≠ .insert i sql) : SchemaKept start rules (calls ++ more) := by
  induction more generalizing calls with
  | nil => rwa [List.append_nil]
  | cons c more ih =>
    rw [List.forall_mem_cons] at hmore
    rw [List.append_cons]
    exact ih (schemaKept_concat.mpr ⟨h, fun i sql hc => absurd hc (hmore.1 i sql)⟩) hmore.2

end Schema

section Steps

variable {nng : Nng} {cj : Cjson} {db : Sqlite} {conf : Conf} {m : RuleMessage}
  {start : ClientSqlite} {rules : List Rule} {r r' : InsertRun} {i : ℕ}

theorem storedNames_congr {a b : Rule} (h : a.plain = b.plain) :
    b.payload.filterMap RulePayload.stored = a.payload.filterMap RulePayload.stored := by
  rw [← storedNames_plain b, ← h, storedNames_plain]

theorem KnownBefore.congr {calls more : List DbCall} {a b : Rule} (h : KnownBefore calls i a)
    (hsame : a.plain = b.plain) (hsub : calls ⊆ more) : KnownBefore more i b := by
  have hflag : a.plain.payloadFlag = b.plain.payloadFlag := congrArg Rule.payloadFlag hsame
  have hfixed : a.plain.fixedColumns = b.plain.fixedColumns := congrArg Rule.fixedColumns hsame
  rcases h with hnames | ⟨sql, hsql⟩
  · refine Or.inl (fun hf name hname => ?_)
    rw [storedNames_congr hsame] at hname
    exact hfixed ▸ hnames (hflag.trans hf) name hname
  · exact Or.inr ⟨sql, hsub hsql⟩

theorem columnExists_of_fixed (hmade : TablesMade start rules) {info : Rule} (hinfo : info ∈ rules)
    {table : Bytes} (htable : info.sqliteTable = some table) {calls : List DbCall} {col : Bytes}
    (hcol : col ∈ info.fixedColumns) : ColumnExists start rules calls table col := by
  rw [← hmade.columns info hinfo table htable] at hcol
  exact Or.inl hcol

theorem columnExists_of_reports (hmade : TablesMade start rules)
    (htruth : db.Truthful start rules) {info : Rule} (hinfo : info ∈ rules) {table : Bytes}
    (htable : info.sqliteTable = some table) {calls : List DbCall} {asked : List Bytes}
    {col : Bytes} (hreport : db.Reports (calls ++ asked.map .prepare) table col) :
    ColumnExists start rules calls table col := by
  unfold Sqlite.Reports at hreport
  rw [hmade.uncut info hinfo table htable] at hreport
  cases hnames : db.columnNames (calls ++ asked.map .prepare) (pragmaText table) with
  | none =>
    rw [hnames] at hreport
    cases hreport
  | some names =>
    rw [hnames] at hreport
    exact (htruth _ _ _ hnames col hreport).of_prepared

theorem SchemaKept.columnExists {calls : List DbCall} (h : SchemaKept start rules calls)
    {info : Rule} (hinfo : rules[i]? = some info) {table : Bytes}
    (htable : info.sqliteTable = some table) {sql : Bytes} (hsql : DbCall.insert i sql ∈ calls)
    {col : Bytes} (hcol : col ∈ info.columns) : ColumnExists start rules calls table col := by
  obtain ⟨before, after, rfl⟩ := List.append_of_mem hsql
  obtain ⟨q, t, hq, ht, -, hall⟩ := h before i sql after rfl
  obtain rfl := Option.some.inj (hinfo.symm.trans hq)
  obtain rfl := Option.some.inj (htable.symm.trans ht)
  exact (hall col hcol).mono (fun c hc => List.mem_append_left _ hc)

/-- The columns of a row are there, if they are added or were known before. -/
theorem columnExists_of_row (hmade : TablesMade start rules) (htruth : db.Truthful start rules)
    {info : Rule} (hinfo : rules[i]? = some info) {table : Bytes}
    (htable : info.sqliteTable = some table) {calls : List DbCall} {asked : List Bytes}
    {cols : List (Bytes × Option PayloadValue)}
    (hkept : SchemaKept start rules calls)
    (hknown : (info.payloadFlag = true → ∀ name ∈ info.payload.filterMap RulePayload.stored,
        name ∈ cols.map Prod.fst ∨
          ∃ before : List Bytes, db.Reports (calls ++ before.map .prepare) table name) ∨
      KnownBefore calls i info) {col : Bytes} (hcol : col ∈ info.columns) :
    ColumnExists start rules
      (calls ++ asked.map .prepare ++
        (if cols = [] then [] else [.alter i (altersText table cols)])) table col := by
  have hmem : info ∈ rules := List.mem_of_getElem? hinfo
  have hsub : calls ⊆ calls ++ asked.map .prepare ++
      (if cols = [] then [] else [.alter i (altersText table cols)]) :=
    fun c hc => List.mem_append_left _ (List.mem_append_left _ hc)
  rcases List.mem_append.mp hcol with hfield | hpayload
  · exact columnExists_of_fixed hmade hmem htable (List.mem_cons_of_mem _ hfield)
  · split_ifs at hpayload with hflag
    · rcases hknown with hneed | hnames | ⟨sql, hsql⟩
      · rcases hneed hflag col hpayload with hadded | ⟨before, hreport⟩
        · have hne : cols ≠ [] := by
            rintro rfl
            cases hadded
          refine Or.inr ⟨i, cols, List.mem_append_right _ ?_, hadded⟩
          rw [if_neg hne]
          exact List.mem_cons_self
        · exact (columnExists_of_reports hmade htruth hmem htable hreport).mono hsub
      · exact columnExists_of_fixed hmade hmem htable (hnames hflag col hpayload)
      · exact (hkept.columnExists hinfo htable hsql hcol).mono hsub
    · cases hpayload

/-- Questions to the database and an ALTER TABLE leave the schema kept. -/
theorem SchemaKept.append_alters {calls : List DbCall} (h : SchemaKept start rules calls)
    (asked : List Bytes) (cols : List (Bytes × Option PayloadValue)) (sql : Bytes) :
    SchemaKept start rules
      (calls ++ asked.map .prepare ++ (if cols = [] then [] else [.alter i sql])) := by
  refine (h.append ?_).append ?_
  · intro d hd
    obtain ⟨_, -, rfl⟩ := List.mem_map.mp hd
    exact fun _ _ hno => by cases hno
  · intro d hd
    split_ifs at hd
    · cases hd
    · rw [List.mem_singleton.mp hd]
      exact fun _ _ hno => by cases hno

/-- The statement made of a row is an INSERT with the columns and as many values. -/
theorem RowText.insertInto {table : Bytes} {columns values : List Bytes} {text : SqlText}
    (h : RowText table columns values text) {sql : Bytes} (hsql : insertText text = some sql) :
    InsertInto table columns sql := by
  have hne : columns ≠ [] := by
    rintro rfl
    rw [h.insertText_nil] at hsql
    cases hsql
  exact ⟨values, h.length_eq, Option.some.inj (hsql.symm.trans (h.insertText_eq hne))⟩

theorem Executed.schemaKept (hmade : TablesMade start rules) (htruth : db.Truthful start rules)
    (hplain : SamePlain r.st.rules rules) (hkept : SchemaKept start rules r.st.calls)
    (hknown : (r.isNeedSet || r.st.isFirstTime) = true ∨
      ∀ info, rules[i]? = some info → KnownBefore r.st.calls i info)
    (h : Executed cj db m i r r') :
    SchemaKept start rules r'.st.calls := by
  obtain ⟨r₁, info, c, hquiet, hget, hc, rfl⟩ := h.made
  obtain ⟨table, htable, -, hstores⟩ := composeRow_spec hc
  obtain ⟨asked, cols, hcalls, hcover⟩ := composeRow_calls htable hc
  obtain ⟨info₀, hinfo₀, hsame⟩ := SamePlain.getElem? (Eq.trans hquiet.rules hplain) hget
  have htable₀ : info₀.sqliteTable = some table := (sqliteTable_congr hsame).trans htable
  have hcolumns : info₀.columns = info.columns := by
    rw [← columns_plain, hsame, columns_plain]
  have hfresh : SchemaKept start rules c.calls := by
    rw [hcalls]
    exact hkept.append_alters asked cols _
  have hnames : ∀ sql, insertText c.text = some sql →
      NamesColumns start rules c.calls i sql := by
    intro sql hsql
    obtain ⟨values, htext⟩ := hstores.row
    refine ⟨info₀, table, hinfo₀, htable₀, ?_, fun col hcol => ?_⟩
    · rw [hcolumns]
      exact htext.insertInto hsql
    rw [hcalls]
    refine columnExists_of_row hmade htruth hinfo₀ htable₀ hkept ?_ hcol
    refine hknown.imp (fun hneed hflag name hname => ?_) (fun hbefore => hbefore info₀ hinfo₀)
    have hflag' : info₀.plain.payloadFlag = true := hflag
    rw [hsame] at hflag'
    rw [← storedNames_congr hsame] at hname
    exact hcover hneed hflag' name hname
  obtain ⟨-, hcalls', -⟩ | ⟨sql, hsql, ⟨hcalls', -⟩ | ⟨hcalls', -⟩⟩ :=
    executeRow_cases db i info (r.isNeedSet || r.st.isFirstTime) r₁ c
  · rw [hcalls']
    exact hfresh
  · rw [hcalls', schemaKept_concat]
    exact ⟨hfresh, by rintro _ _ ⟨⟩; exact hnames sql hsql⟩
  · rw [hcalls', show [DbCall.insert i sql, .close] = [.insert i sql] ++ [.close] from rfl,
      ← List.append_assoc, schemaKept_concat, schemaKept_concat]
    exact ⟨⟨hfresh, by rintro _ _ ⟨⟩; exact hnames sql hsql⟩, fun _ _ hno => by cases hno⟩

theorem insertSqlBy_schemaKept (hmade : TablesMade start rules) (htruth : db.Truthful start rules)
    {st st' : RuleState} (hplain : SamePlain st.rules rules)
    (hkept : SchemaKept start rules st.calls) (hknown : ColumnsKnown nng cj conf st m)
    (h : insertSqlBy nng cj db conf (fun _ => 0) m st = some st') :
    SamePlain st'.rules rules ∧ SchemaKept start rules st'.calls := by
  obtain ⟨out, hout, rfl⟩ := Option.map_eq_some_iff.mp h
  have hinv : SamePlain out.st.rules rules ∧ SchemaKept start rules out.st.calls ∧
      st.calls ⊆ out.st.calls ∧
      (st.isFirstTime = true → (out.isNeedSet || out.st.isFirstTime) = true) := by
    refine run_invariant_of_step (s := ⟨st, false, false⟩) (I := fun r : InsertRun =>
      SamePlain r.st.rules rules ∧ SchemaKept start rules r.st.calls ∧ st.calls ⊆ r.st.calls ∧
        (st.isFirstTime = true → (r.isNeedSet || r.st.isFirstTime) = true))
      ?_ ⟨hplain, hkept, List.Subset.refl _, fun hfirst => hfirst⟩ hout
    rintro r i r' ⟨hrules, hschema, hsub, hneed⟩ hstep
    obtain ⟨-, hmatch, hexec⟩ | ⟨-, hquiet⟩ := ruleStepBy_cases hstep
    · obtain ⟨hrules', hsub', hneed', -⟩ := hexec.spec
      refine ⟨Eq.trans hrules' hrules, hexec.schemaKept hmade htruth hrules hschema ?_,
        List.Subset.trans hsub hsub', fun hfirst => ?_⟩
      · rcases hknown with hfirst | hknown
        · exact Or.inl (hneed hfirst)
        · refine Or.inr (fun info hinfo => ?_)
          obtain ⟨info', hinfo', hsame⟩ := SamePlain.getElem? (Eq.symm hplain) hinfo
          have hmatch' := hmatch.congr (Eq.trans hrules (Eq.symm hplain))
          have hbefore : KnownBefore st.calls i info' := hknown i info' hinfo' hmatch'
          exact hbefore.congr hsame hsub
      · rw [hneed', hneed hfirst]
        rfl
    · refine ⟨Eq.trans hquiet.rules hrules, ?_, ?_, ?_⟩
      · rwa [hquiet.calls]
      · rwa [hquiet.calls]
      · rwa [hquiet.isNeedSet, hquiet.isFirstTime]
  exact ⟨hinv.1, hinv.2.1⟩

end Steps

/-- In every run in which each message that matches a rule for SQLite comes in the first call, or
finds the columns of the rule there, every INSERT names columns of its table. -/
theorem inserts_name_columns {nng : Nng} {cj : Cjson} {db : Sqlite} {conf : Conf}
    {execOk : List Bytes → Bytes → Bool} {st st' : RuleState} {ms : List RuleMessage}
    (htables : (st.rules.filterMap Rule.sqliteTable).Nodup)
    (hstart : (nanomqClientSqlite true execOk false st.rules false).result = 0)
    (htruth : db.Truthful (nanomqClientSqlite true execOk false st.rules false) st.rules)
    (hnew : st.calls = [])
    (hknown : AllSteps (fun st m => insertSqlBy nng cj db conf (fun _ => 0) m st)
      (ColumnsKnown nng cj conf) st ms)
    (hrun : insertRun nng cj db conf (fun _ => 0) st ms = some st') :
    SchemaKept (nanomqClientSqlite true execOk false st.rules false) st.rules st'.calls := by
  have hmade := tablesMade_of_result htables hstart
  have hinv : SamePlain st'.rules st.rules ∧
      SchemaKept (nanomqClientSqlite true execOk false st.rules false) st.rules st'.calls := by
    refine run_invariant (s := st) (I := fun st' : RuleState => SamePlain st'.rules st.rules ∧
      SchemaKept (nanomqClientSqlite true execOk false st.rules false) st.rules st'.calls)
      (fun _ _ _ hC hI hstep => insertSqlBy_schemaKept hmade htruth hI.1 hI.2 hC hstep) hknown
      ⟨rfl, ?_⟩ hrun
    rw [hnew]
    intro before i sql after heq
    cases before <;> cases heq
  exact hinv.2

def memberRule (topic table : Bytes) : Rule :=
  { topicRule topic table with
    payloadFlag := true
    payload := [⟨[ascii "a"], some (ascii "a"), true, none, .none, none⟩] }

def memberRules : RuleState :=
  ⟨[memberRule (ascii "t") (ascii "p"), memberRule (ascii "x") (ascii "q")], true, [], []⟩

def memberMessage (topic : Bytes) : RuleMessage :=
  ⟨0, publishedUnder topic (ascii "\x7b\"a\":5\x7d")⟩

def memberStart : ClientSqlite :=
  nanomqClientSqlite true (fun _ _ => true) false memberRules.rules false

/-- The two tables have their fixed columns, and `a` after an ALTER TABLE. -/
def memberDb : Sqlite where
  execOk _ _ := true
  columnNames calls sql :=
    ([ascii "p", ascii "q"].find? (fun table => pragmaText table = sql)).map (fun table =>
      [ascii "RowId", ascii "Topic"] ++
        if [0, 1].any (fun i =>
          DbCall.alter i (altersText table [(ascii "a", some (.number 5))]) ∈ calls)
        then [ascii "a"] else [])

theorem memberDb_truthful : memberDb.Truthful memberStart memberRules.rules := by
  intro calls table names hnames col hcol
  obtain ⟨t, hfind, rfl⟩ := Option.map_eq_some_iff.mp hnames
  have hsame : pragmaText t = pragmaText table := by simpa using List.find?_some hfind
  obtain rfl : t = table := List.append_cancel_left (List.append_cancel_right hsame)
  have hcreated : ∀ t ∈ [ascii "p", ascii "q"], createdColumns memberStart memberRules.rules t =
      [ascii "RowId", ascii "Topic"] := by decide
  rcases List.mem_append.mp hcol with hcol | hcol
  · left
    rwa [hcreated t (List.mem_of_find?_eq_some hfind)]
  · right
    split_ifs at hcol with halter
    · obtain ⟨i, -, halter⟩ := List.any_eq_true.mp halter
      exact ⟨i, _, of_decide_eq_true halter, hcol⟩
    · cases hcol

theorem inserts_name_columns_first :
    ∃ st, insertRun Nng.reference Cjson.twoDocuments memberDb sqlRuleConf (fun _ => 0)
        memberRules [memberMessage (ascii "t")] = some st ∧
      SchemaKept memberStart memberRules.rules st.calls ∧
      insertsOf st.calls = [(0, ascii "INSERT INTO p (Topic, a) VALUES ('t', 5) ;")] ∧
      memberDb.columnNames st.calls (pragmaText (ascii "p")) =
        some [ascii "RowId", ascii "Topic", ascii "a"] := by
  have hrun : insertRun Nng.reference Cjson.twoDocuments memberDb sqlRuleConf (fun _ => 0)
      memberRules [memberMessage (ascii "t")] = some _ := rfl
  have hknown : AllSteps (fun st m => insertSqlBy Nng.reference Cjson.twoDocuments memberDb
      sqlRuleConf (fun _ => 0) m st) (ColumnsKnown Nng.reference Cjson.twoDocuments sqlRuleConf)
      memberRules [memberMessage (ascii "t")] := ⟨Or.inl rfl, trivial⟩
  exact ⟨_, hrun, inserts_name_columns (by decide) rfl memberDb_truthful rfl hknown hrun,
    by decide, by decide⟩

/-- A rule that first matches in a later message stores into a column that nobody has added. -/
theorem later_rule_without_column :
    let calls : List DbCall := [.prepare (pragmaText (ascii "p")),
      .alter 0 (ascii "ALTER TABLE p ADD a INT;\n"),
      .insert 0 (ascii "INSERT INTO p (Topic, a) VALUES ('t', 5) ;"),
      .insert 1 (ascii "INSERT INTO q (Topic, a) VALUES ('x', 5) ;")]
    (insertRun Nng.reference Cjson.twoDocuments memberDb sqlRuleConf (fun _ => 0) memberRules
        [memberMessage (ascii "t"), memberMessage (ascii "x")]).map RuleState.calls = some calls ∧
      ¬ SchemaKept memberStart memberRules.rules calls := by
  intro calls
  refine ⟨by decide +kernel, fun h => ?_⟩
  obtain ⟨r, table, hr, htable, -, hall⟩ := h (calls.take 3) 1 _ [] rfl
  obtain rfl := Option.some.inj hr
  obtain rfl := Option.some.inj htable
  rcases hall (ascii "a") (by decide) with hcreated | ⟨i, cols, hmem, hcol⟩
  · revert hcreated
    decide
  · obtain ⟨-, htext⟩ : i = 0 ∧
        altersText (ascii "q") cols = ascii "ALTER TABLE p ADD a INT;\n" := by
      simpa [calls] using hmem
    cases cols with
    | nil => cases hcol
    | cons x cols =>
      -- the names of the tables differ
      have htake : (altersText (ascii "q") (x :: cols)).take 13 = ascii "ALTER TABLE q" := rfl
      rw [htext] at htake
      revert htake
      decide

end NanoMQ
