import NanoMQ.MysqlLex
import NanoMQ.RowValues
import NanoMQ.RuleOverrun
import NanoMQ.SqlEscape

/-!
# Rows in MySQL

`sql_escape` is right for MySQL, where a backslash makes the byte behind it a part of the string. So
what `compose_sql_clause` makes of a message is read as the INSERT that it is meant to be, whatever
is in the strings.
-/

namespace NanoMQ

open ByteBuffer SqlLex

theorem mysql_lexFrom_escape (s acc rest : Bytes) :
    mysql.lexFrom (.base (.string acc)) (s.flatMap escapeByte ++ rest) =
      mysql.lexFrom (.base (.string (acc ++ s))) rest := by
  induction s generalizing acc with
  | nil => rw [List.flatMap_nil, List.nil_append, List.append_nil]
  | cons c s ih =>
    rw [List.flatMap_cons, List.append_assoc, List.append_cons acc, ← ih]
    unfold escapeByte
    split_ifs with hc
    · exact mysql_escape acc c
    · rw [not_or] at hc
      exact mysql_byte acc hc.1 hc.2

/-- A string in quotes denotes the string. -/
theorem mysql_piece_quoted {s : Bytes} (hnul : 0 ∉ s) : mysql.Piece (quoted s) [.string s] := by
  have htext : quoted s = 39 :: s.flatMap escapeByte ++ [39] := by
    rw [quoted, sqlEscape_eq hnul]
    rfl
  rw [htext]
  exact mysql_piece_string (fun rest => mysql_lexFrom_escape s [] rest)

theorem mysql_lex_quoted {s : Bytes} (hnul : 0 ∉ s) : mysql.lex (quoted s) = some [.string s] := by
  have hend : mysql.lexFrom (.base (.string s)) [39] = some [.string s] := rfl
  have hopen : Mode.idle.step 39 = some ([], .string []) := rfl
  have htext : quoted s = 39 :: (s.flatMap escapeByte ++ [39]) := by
    rw [quoted, sqlEscape_eq hnul]
    rfl
  rw [htext, Dialect.lex, mysql.lexFrom_of_step (mysql.step_of_plain hopen trivial)]
  exact (mysql_lexFrom_escape s [] [39]).trans hend

theorem length_sqlEscape_le (s : Bytes) : (sqlEscape s).length ≤ 2 * s.length := by
  have hescape : ∀ s : Bytes, (s.flatMap escapeByte).length ≤ 2 * s.length := by
    intro s
    induction s with
    | nil => exact Nat.le_refl 0
    | cons c s ih =>
      have hbyte : (escapeByte c).length ≤ 2 := by
        unfold escapeByte
        split_ifs <;> simp
      rw [List.flatMap_cons, List.length_append, List.length_cons]
      omega
  have hle := hescape (cstr s)
  have hcstr := length_cstr_le s
  change ((cstr s).flatMap escapeByte).length ≤ _
  omega

theorem mysql_piece_written {v : SqlValue} (hnul : ∀ s, v = .text s → 0 ∉ s) :
    mysql.Piece v.written v.tokens := by
  cases v with
  | null => exact piece_scalar mysql nofun
  | number n => exact piece_scalar mysql nofun
  | text s => exact mysql_piece_quoted (hnul s rfl)

theorem mysql_lex_insertSql {table : Bytes} {columns : List Bytes} {values : List SqlValue}
    (htable : Ident table) (hne : columns ≠ []) (hcolumns : ∀ c ∈ columns, Ident c)
    (hvalues : values ≠ []) (hnul : ∀ v ∈ values, ∀ s, v = .text s → 0 ∉ s) :
    mysql.lex (insertSql table columns (values.map SqlValue.written)) =
      some (insertTokens table columns values) := by
  have hpieces : ∀ x ∈ values.map (fun v => (v.written, v.tokens)), mysql.Piece x.1 x.2 := by
    intro x hx
    obtain ⟨v, hv, rfl⟩ := List.mem_map.mp hx
    exact mysql_piece_written (hnul v hv)
  have hread := mysql.lex_pieces [32, 59] (by simpa using hvalues) hpieces
  have hend : mysql.lex [41, 32, 59] = some [.punct 41, .punct 59] := rfl
  rw [List.map_map, List.map_map, hend] at hread
  rw [dialect_lex_insertSql mysql htable hne hcolumns]
  exact congrArg (Option.map (insertHead table columns ++ ·)) hread

section Row

variable {w : Work} {info : Rule} {table : Bytes}

theorem exists_mysql_row (cj : Cjson) (time : ℕ) (hmysql : info.forword = .mysql table)
    (hfits : table.length + 2 ≤ 127) (hpresent : info.Present w) (isNeedSet : Bool) :
    ∃ c, composeSqlClause cj time w info isNeedSet = some c ∧
      RowText table info.columns ((rowValues cj time w info).map SqlValue.written) c.text := by
  have hstart : info.rowStart = some ⟨table ++ ascii " (", ascii "VALUES ("⟩ := by
    have htake : (table ++ ascii " (").take 127 = table ++ ascii " (" := by
      apply List.take_of_length_le
      rw [List.length_append]
      exact hfits
    rw [Rule.rowStart, hmysql]
    dsimp only
    rw [htake]
  have hplain : ∀ table, info.forword ≠ .timescaledb table := by
    intro table' htimescale
    rw [hmysql] at htimescale
    cases htimescale
  have hname : info.tableName.isSome := by
    rw [Rule.tableName, hmysql]
    rfl
  have hsome : (recordText cj time w info).isSome := recordText_isSome_iff.mpr ⟨hname, hpresent⟩
  obtain ⟨t, ht⟩ := Option.isSome_iff_exists.mp hsome
  have hclause : (composeSqlClause cj time w info isNeedSet).map (fun c => (c.text, c.payload)) =
      _ := composeSqlClause_eq isNeedSet
  rw [ht, Option.map_some] at hclause
  obtain ⟨c, hc, hparts⟩ := Option.map_eq_some_iff.mp hclause
  refine ⟨c, hc, ?_⟩
  rw [(Prod.mk.inj hparts).1]
  exact rowText_recordText hplain hstart ht

end Row

/-- The rounds for a MySQL rule make one INSERT, with a value for each column in their order, and
every string in it denotes the field it was made of. `sql_escape` at most doubles a string, and to
read the string in quotes gives it back. -/
theorem mysql_row_reads {cj : Cjson} {time : ℕ} {w : Work} {info : Rule} {table : Bytes}
    (hmysql : info.forword = .mysql table) (hfits : table.length + 2 ≤ 127) (htable : Ident table)
    (hcolumns : ∀ c ∈ info.columns, Ident c) (hne : info.columns ≠ []) (hpresent : info.Present w)
    (hnul : ∀ v ∈ rowValues cj time w info, ∀ s, v = .text s → 0 ∉ s) (isNeedSet : Bool) :
    (∃ c sql, composeSqlClause cj time w info isNeedSet = some c ∧ insertText c.text = some sql ∧
      mysql.lex sql = some (insertTokens table info.columns (rowValues cj time w info)) ∧
      (rowValues cj time w info).length = info.columns.length) ∧
    ∀ s : Bytes, 0 ∉ s →
      mysql.lex (quoted s) = some [.string s] ∧ (sqlEscape s).length ≤ 2 * s.length := by
  refine ⟨?_, fun s hs => ⟨mysql_lex_quoted hs, length_sqlEscape_le s⟩⟩
  obtain ⟨c, hc, hrow⟩ := exists_mysql_row cj time hmysql hfits hpresent isNeedSet
  have hlength := hrow.length_eq
  rw [List.length_map] at hlength
  have hvalues : rowValues cj time w info ≠ [] := by
    intro hnil
    rw [hnil] at hlength
    exact hne (List.length_eq_zero_iff.mp hlength.symm)
  exact ⟨c, _, hc, hrow.insertText_eq hne,
    mysql_lex_insertSql htable hne hcolumns hvalues hnul, hlength⟩

/-- A payload with a quote and a backslash stays in its string. -/
theorem mysql_row_reads_quote :
    let w := publishedUnder (ascii "t") (ascii "\\'); DROP TABLE a; --")
    ∃ c sql, composeSqlClause Cjson.integers 0 w mysqlPayloadRule false = some c ∧
      insertText c.text = some sql ∧
      mysql.lex sql = some (insertTokens (ascii "a") [ascii "Payload"]
        [.text (ascii "\\'); DROP TABLE a; --")]) := by
  intro w
  have hpresent : mysqlPayloadRule.Present w := ⟨fun _ => rfl, fun _ => rfl, fun _ => rfl⟩
  have htable : Ident (ascii "a") := ident_cons rfl rfl
  have hcolumn : ∀ c ∈ mysqlPayloadRule.columns, Ident c := by
    intro c hc
    obtain rfl : c = ascii "Payload" := List.mem_singleton.mp hc
    exact ident_cons rfl rfl
  have hnul : ∀ v ∈ rowValues Cjson.integers 0 w mysqlPayloadRule, ∀ s, v = .text s → 0 ∉ s := by
    intro v hv s hs
    obtain rfl : v = .text (ascii "\\'); DROP TABLE a; --") := List.mem_singleton.mp hv
    obtain rfl := SqlValue.text.inj hs
    decide
  obtain ⟨⟨c, sql, hc, hsql, hlex, -⟩, -⟩ := mysql_row_reads rfl (by decide) htable hcolumn
    (by decide) hpresent hnul false
  exact ⟨c, sql, hc, hsql, hlex⟩

end NanoMQ
