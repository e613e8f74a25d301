import NanoMQ.RowValues
import NanoMQ.RuleIndependence
import NanoMQ.SqlEscape

/-!
# Strings in an INSERT

The strings of a row go through `sql_escape`, which does not escape them for SQLite. A row is read
as it is meant exactly if its strings have no quote and no backslash; otherwise its first string
that has one ends elsewhere or denotes something else, and what follows may be read as statements.
-/

namespace NanoMQ

open ByteBuffer SqlLex

section Values

theorem piece_written {v : SqlValue} (hnul : ∀ s, v = .text s → 0 ∉ s)
    (hclean : ∀ s, v = .text s → 39 ∉ s ∧ 92 ∉ s) : Piece v.written v.tokens := by
  cases v with
  | null => exact piece_of_sqlite (piece_scalar sqlite nofun)
  | number n => exact piece_of_sqlite (piece_scalar sqlite nofun)
  | text s =>
    obtain ⟨hquote, hslash⟩ := hclean s rfl
    have htext : quoted s = 39 :: s ++ [39] := by
      rw [quoted, sqlEscape_eq (hnul s rfl), escape_of_clean hquote hslash]
      rfl
    rw [SqlValue.written, htext]
    exact piece_string hquote

theorem written_read_iff {v : SqlValue} (hnul : ∀ s, v = .text s → 0 ∉ s) {c : UInt8}
    (hc : Delimiter c) (rest : Bytes) (ts : List Token) :
    lexFrom .idle (v.written ++ c :: rest) = some (v.tokens ++ ts) ↔
      (∀ s, v = .text s → 39 ∉ s ∧ 92 ∉ s) ∧ lexFrom .idle (c :: rest) = some ts := by
  constructor
  · intro h
    have hclean : ∀ s, v = .text s → 39 ∉ s ∧ 92 ∉ s := by
      rintro s rfl
      exact clean_of_read (hnul s rfl) hc h
    rw [piece_written hnul hclean c rest hc] at h
    obtain ⟨ts', hts, heq⟩ := Option.map_eq_some_iff.mp h
    rw [List.append_cancel_left heq] at hts
    exact ⟨hclean, hts⟩
  · rintro ⟨hclean, h⟩
    rw [piece_written hnul hclean c rest hc, h]
    rfl

/-- A list of values is read as it is meant exactly if each of them is. -/
theorem values_read_iff {values : List SqlValue} (hne : values ≠ [])
    (hnul : ∀ v ∈ values, ∀ s, v = .text s → 0 ∉ s) :
    lexFrom .idle ((ascii ", ").intercalate (values.map SqlValue.written) ++ [41, 32, 59]) =
        some ([.punct 44].intercalate (values.map SqlValue.tokens) ++ [.punct 41, .punct 59]) ↔
      ∀ v ∈ values, ∀ s, v = .text s → 39 ∉ s ∧ 92 ∉ s := by
  induction values with
  | nil => exact absurd rfl hne
  | cons v values ih =>
    rw [List.forall_mem_cons] at hnul
    rw [List.forall_mem_cons, List.map_cons, List.map_cons]
    cases values with
    | nil =>
      have hend : lexFrom .idle [41, 32, 59] = some [.punct 41, .punct 59] := rfl
      rw [List.map_nil, List.map_nil, List.intercalate_singleton, List.intercalate_singleton,
        written_read_iff hnul.1 (Or.inr (Or.inl rfl)), hend]
      simp
    | cons next values =>
      have htail := ih (List.cons_ne_nil next values) hnul.2
      have hcomma : ∀ text : Bytes,
          v.written ++ ascii ", " ++ text = v.written ++ 44 :: 32 :: text :=
        fun text => List.append_assoc _ _ _
      rw [List.map_cons, List.map_cons] at htail
      rw [List.map_cons, List.map_cons, List.intercalate_cons_cons, List.intercalate_cons_cons,
        List.append_assoc, hcomma, List.append_assoc (v.tokens ++ _), List.append_assoc v.tokens,
        written_read_iff hnul.1 (Or.inr (Or.inr rfl)), ← sqlite_lex, sqlite.lex_comma, sqlite_lex,
        ← htail]
      refine and_congr_right (fun _ => ?_)
      rw [Option.map_eq_some_iff]
      constructor
      · rintro ⟨ts, hts, heq⟩
        exact hts.trans (congrArg some (List.cons.inj heq).2)
      · intro hts
        exact ⟨_, hts, rfl⟩

theorem reads_as_insert_iff {table : Bytes} {columns : List Bytes} {values : List SqlValue}
    (htable : Ident table) (hcolumns : ∀ c ∈ columns, Ident c) (hne : columns ≠ [])
    (hlength : values.length = columns.length)
    (hnul : ∀ v ∈ values, ∀ s, v = .text s → 0 ∉ s) :
    ReadsAsInsert (insertSql table columns (values.map SqlValue.written)) table columns values ↔
      ∀ v ∈ values, ∀ s, v = .text s → 39 ∉ s ∧ 92 ∉ s := by
  have hvalues : values ≠ [] := by
    rintro rfl
    exact hne (List.length_eq_zero_iff.mp hlength.symm)
  rw [← values_read_iff hvalues hnul]
  constructor
  · intro h
    have htokens := h.tokens
    rw [lex_insertSql htable hne hcolumns, insertTokens] at htokens
    obtain ⟨ts, hts, heq⟩ := Option.map_eq_some_iff.mp htokens
    rw [hts, List.append_cancel_left heq]
  · intro h
    refine ⟨?_, hlength⟩
    rw [lex_insertSql htable hne hcolumns, h]
    rfl

end Values

section Insert

variable (cj : Cjson) (db : Sqlite) (time : ℕ) (w : Work)

/-- The call goes through, and what it executes is one INSERT of the values of the row, unless the
rule has no columns. -/
def InsertReads (base i : ℕ) (run : InsertRun) (table : Bytes) (info : Rule) : Prop :=
  ∃ run' made, ruleEngineInsertSqlite cj db time w base i run = some run' ∧
    insertsOf run'.st.calls = insertsOf run.st.calls ++ made ∧
    made.length = min 1 info.columns.length ∧
    ∀ e ∈ made, ReadsAsInsert e.2 table info.columns (rowValues cj time w info)

variable {cj db time w} {base i : ℕ} {run : InsertRun} {table : Bytes} {info : Rule}

theorem insertSqlite_inserts (hi : run.st.rules[base + i]? = some info)
    (hsqlite : info.forword = .sqlite table) (hpresent : info.Present w) :
    (rowValues cj time w info).length = info.columns.length ∧
      ∃ run', ruleEngineInsertSqlite cj db time w base i run = some run' ∧
        insertsOf run'.st.calls = insertsOf run.st.calls ++
          if info.columns = [] then []
          else [(base + i,
            insertSql table info.columns ((rowValues cj time w info).map SqlValue.written))] := by
  have hname : info.tableName = some table := by rw [Rule.tableName, hsqlite]
  have htable : info.sqliteTable = some table := by rw [Rule.sqliteTable, hsqlite]
  obtain ⟨t, ht⟩ := Option.isSome_iff_exists.mp
    (recordText_isSome_iff.mpr ⟨by rw [hname]; rfl, hpresent⟩)
  have hstart : info.rowStart = some ⟨table ++ ascii " (", ascii "VALUES ("⟩ := by
    rw [Rule.rowStart, hsqlite]
  have hplain : ∀ table, info.forword ≠ .timescaledb table := by
    intro table' htimescale
    rw [hsqlite] at htimescale
    cases htimescale
  have hrow := rowText_recordText hplain hstart ht
  have hlength := hrow.length_eq
  rw [List.length_map] at hlength
  have hcompose : (composeRow cj db time w (base + i) info (run.isNeedSet || run.st.isFirstTime)
      run.st.calls).map (fun c => (c.text, c.payload)) = some (t, info.composedPayload) := by
    rw [composeRow_eq hsqlite, ht]
    rfl
  obtain ⟨c, hc, hpair⟩ := Option.map_eq_some_iff.mp hcompose
  have htext : c.text = t := congrArg Prod.fst hpair
  refine ⟨hlength, executeRow db (base + i) info (run.isNeedSet || run.st.isFirstTime) run c,
    ?_, ?_⟩
  · rw [ruleEngineInsertSqlite, hi, Option.bind_some]
    dsimp only
    rw [hc]
    rfl
  · rw [insertsOf_executeRow, (storesRow_composeRow htable hc).inserts, htext]
    split_ifs with hcolumns
    · rw [hcolumns] at hrow
      rw [hrow.insertText_nil]
      rfl
    · rw [hrow.insertText_eq hcolumns]
      rfl

theorem insert_reads_iff (hi : run.st.rules[base + i]? = some info)
    (hsqlite : info.forword = .sqlite table) (hpresent : info.Present w) (htable : Ident table)
    (hcolumns : ∀ c ∈ info.columns, Ident c)
    (hnul : ∀ v ∈ rowValues cj time w info, ∀ s, v = .text s → 0 ∉ s) :
    InsertReads cj db time w base i run table info ↔
      ∀ v ∈ rowValues cj time w info, ∀ s, v = .text s → 39 ∉ s ∧ 92 ∉ s := by
  obtain ⟨hlength, run', hrun, hinserts⟩ :=
    @insertSqlite_inserts cj db time w base i run table info hi hsqlite hpresent
  by_cases hne : info.columns = []
  · have hvalues : rowValues cj time w info = [] :=
      List.length_eq_zero_iff.mp (hlength.trans (List.length_eq_zero_iff.mpr hne))
    rw [if_pos hne] at hinserts
    refine iff_of_true ⟨run', [], hrun, hinserts, ?_, ?_⟩ ?_
    · rw [hne]
      rfl
    · simp
    · simp [hvalues]
  · have hmin : min 1 info.columns.length = 1 :=
      Nat.min_eq_left (List.length_pos_iff.mpr hne)
    rw [if_neg hne] at hinserts
    rw [← reads_as_insert_iff htable hcolumns hne hlength hnul]
    constructor
    · rintro ⟨run₁, made, hrun₁, hmade, -, hreads⟩
      obtain rfl := Option.some.inj (hrun.symm.trans hrun₁)
      rw [hinserts] at hmade
      obtain rfl := List.append_cancel_left hmade
      exact hreads _ List.mem_cons_self
    · intro h
      refine ⟨run', _, hrun, hinserts, hmin.symm, fun e he => ?_⟩
      obtain rfl := List.mem_singleton.mp he
      exact h

end Insert

def payloadRule : Rule := { topicRule (ascii "t") (ascii "a") with flag := (· = .payloadAll) }

def payloadRun : InsertRun := ⟨⟨[payloadRule], true, [], []⟩, false, false⟩

theorem insert_reads_plain_payload :
    InsertReads Cjson.twoDocuments Sqlite.willing 0 (publishedUnder (ascii "t") (ascii "on"))
      0 0 payloadRun (ascii "a") payloadRule := by
  have hpresent : payloadRule.Present (publishedUnder (ascii "t") (ascii "on")) :=
    ⟨fun _ => rfl, fun _ => rfl, fun _ => rfl⟩
  have htable : Ident (ascii "a") := ident_cons rfl rfl
  have hcolumn : Ident (ascii "Payload") := ident_cons rfl rfl
  have hvalues : rowValues Cjson.twoDocuments 0 (publishedUnder (ascii "t") (ascii "on"))
      payloadRule = [.text (ascii "on")] := rfl
  refine (insert_reads_iff rfl rfl hpresent htable ?_ ?_).mpr ?_
  · intro c hc
    obtain rfl := List.mem_singleton.mp hc
    exact hcolumn
  · rw [hvalues]
    simp only [List.mem_singleton, forall_eq, SqlValue.text.injEq, forall_eq']
    decide
  · rw [hvalues]
    simp only [List.mem_singleton, forall_eq, SqlValue.text.injEq, forall_eq']
    decide

/-- A payload with a quote goes on as a second statement. -/
theorem payload_dropped_table :
    let w := publishedUnder (ascii "t") (ascii "'); DROP TABLE a; --")
    let sql := ascii "INSERT INTO a (Payload) VALUES ('\\'); DROP TABLE a; --') ;"
    (ruleEngineInsertSqlite Cjson.twoDocuments Sqlite.willing 0 w 0 0 payloadRun).map
        (fun run => insertsOf run.st.calls) = some [(0, sql)] ∧
      lex sql = some (insertTokens (ascii "a") [ascii "Payload"] [.text (ascii "\\")] ++
        [.word (ascii "DROP"), .word (ascii "TABLE"), .word (ascii "a"), .punct 59]) ∧
      ¬ InsertReads Cjson.twoDocuments Sqlite.willing 0 w 0 0 payloadRun (ascii "a")
        payloadRule := by
  intro w sql
  have hrun : (ruleEngineInsertSqlite Cjson.twoDocuments Sqlite.willing 0 w 0 0 payloadRun).map
      (fun run => insertsOf run.st.calls) = some [(0, sql)] := by decide
  have hlex : lex sql = some (insertTokens (ascii "a") [ascii "Payload"] [.text (ascii "\\")] ++
      [.word (ascii "DROP"), .word (ascii "TABLE"), .word (ascii "a"), .punct 59]) := by decide
  refine ⟨hrun, hlex, ?_⟩
  rintro ⟨run', made, hrun', hmade, -, hreads⟩
  rw [hrun', Option.map_some, hmade] at hrun
  obtain rfl : made = [(0, sql)] := Option.some.inj hrun
  have htokens := (hreads _ List.mem_cons_self).tokens
  rw [hlex] at htokens
  revert htokens
  decide

end NanoMQ
