import NanoMQ.RuleBuffers
import NanoMQ.RuleIndependence

/-!
# Rows that are too long

The lengths of the rounds add up, so a row stays within the arrays if and only if the columns and
the values together are short enough. The array for the statement is never too small when the other
two are not, and what a row that fits gives is the statement of `compose_sql_clause`.
-/

namespace NanoMQ

open ByteBuffer

section Fits

variable {cj : Cjson} {time : ℕ} {w : Work} {info : Rule}

theorem appendRound_some (t p : SqlText) :
    appendRound t (some p) =
      if t.key.length + p.key.length + 1 ≤ 128 ∧ t.value.length + p.value.length + 1 ≤ 800 then
        .ok ⟨t.key ++ p.key, t.value ++ p.value⟩
      else .error .overrun := by
  unfold appendRound strcat
  dsimp only
  by_cases hkey : t.key.length + p.key.length + 1 ≤ 128
  · by_cases hvalue : t.value.length + p.value.length + 1 ≤ 800
    · simp only [hkey, hvalue, and_self, if_true]
      rfl
    · simp only [hkey, hvalue, and_false, if_true, if_false]
      rfl
  · simp only [hkey, false_and, if_false]
    rfl

/-- What is in the arrays fits, and rounds overrun one exactly if those up to the first fault are
too long together. -/
theorem rounds_fit (rounds : List (Option SqlText)) {t : SqlText}
    (hkey : t.key.length + 1 ≤ 128) (hvalue : t.value.length + 1 ≤ 800) :
    (∀ t', rounds.foldlM appendRound t = .ok t' →
      t'.key.length + 1 ≤ 128 ∧ t'.value.length + 1 ≤ 800) ∧
    (rounds.foldlM appendRound t ≠ .error .overrun ↔
      t.key.length + sumOf (·.key.length) (untilMissing rounds) + 1 ≤ 128 ∧
        t.value.length + sumOf (·.value.length) (untilMissing rounds) + 1 ≤ 800) := by
  induction rounds generalizing t with
  | nil =>
    refine ⟨fun t' h => ?_, iff_of_true (fun h => ?_) ⟨hkey, hvalue⟩⟩
    · cases h
      exact ⟨hkey, hvalue⟩
    · cases h
  | cons p rounds ih =>
    cases p with
    | none =>
      refine ⟨fun t' h => ?_, iff_of_true (fun h => ?_) ⟨hkey, hvalue⟩⟩
      · cases h
      · cases h
    | some p =>
      rw [List.foldlM_cons, appendRound_some, untilMissing, sumOf, sumOf]
      split_ifs with hfits
      · obtain ⟨hk, hv⟩ := hfits
        have hnext := ih (t := ⟨t.key ++ p.key, t.value ++ p.value⟩)
          (by rw [List.length_append]; exact hk) (by rw [List.length_append]; exact hv)
        rw [List.length_append, List.length_append, Nat.add_assoc t.key.length,
          Nat.add_assoc t.value.length] at hnext
        exact hnext
      · refine ⟨fun t' h => ?_, iff_of_false (fun h => h rfl) (fun h => hfits ?_)⟩
        · cases h
        · omega

theorem length_setLast {c d : UInt8} {s s' : Bytes} (h : setLast c d s = some s') :
    s'.length = s.length := by
  induction s generalizing s' with
  | nil => cases h
  | cons x s ih =>
    rw [setLast] at h
    cases hs : setLast c d s with
    | some r =>
      rw [hs] at h
      obtain rfl := Option.some.inj h
      rw [List.length_cons, List.length_cons, ih hs]
    | none =>
      rw [hs] at h
      dsimp only at h
      split_ifs at h
      obtain rfl := Option.some.inj h
      rfl

theorem strcat_ok {size : ℕ} {dst src : Bytes} (h : dst.length + src.length + 1 ≤ size) :
    strcat size dst src = .ok (dst ++ src) := if_pos h

/-- The last array is large enough for what the other two hold. -/
theorem statementText_eq {t : SqlText} (hkey : t.key.length + 1 ≤ 128)
    (hvalue : t.value.length + 1 ≤ 800) :
    statementText t = (insertText t).elim (.error .null) .ok := by
  unfold statementText insertText
  cases hk : setLast 44 41 t.key with
  | none => rfl
  | some key =>
    cases hv : setLast 44 41 t.value with
    | none => rfl
    | some value =>
      have hklen := length_setLast hk
      have hvlen := length_setLast hv
      have hinto : (ascii "INSERT INTO ").length = 12 := rfl
      have hend : (ascii ";").length = 1 := rfl
      have hfirst : strcat 1024 (ascii "INSERT INTO ") key = .ok (ascii "INSERT INTO " ++ key) :=
        strcat_ok (by omega)
      have hsecond : strcat 1024 (ascii "INSERT INTO " ++ key) value =
          .ok (ascii "INSERT INTO " ++ key ++ value) := by
        refine strcat_ok ?_
        rw [List.length_append]
        omega
      have hthird : strcat 1024 (ascii "INSERT INTO " ++ key ++ value) (ascii ";") =
          .ok (ascii "INSERT INTO " ++ key ++ value ++ ascii ";") := by
        refine strcat_ok ?_
        rw [List.length_append, List.length_append]
        omega
      have hbind : ∀ (sql : Bytes) (f : Bytes → Except RowFault Bytes),
          (Except.ok sql >>= f) = f sql := fun _ _ => rfl
      dsimp only
      rw [hfirst, hbind, hsecond, hbind, hthird]
      rfl

theorem length_start (table : Bytes) :
    ((table ++ ascii " (").take 127).length + 1 ≤ 128 ∧ (ascii "VALUES (").length + 1 ≤ 800 := by
  rw [List.length_take]
  exact ⟨by omega, by decide⟩

theorem rowStart_of_serverTable {table : Bytes} (h : info.serverTable = some table) :
    info.rowStart = some ⟨(table ++ ascii " (").take 127, ascii "VALUES ("⟩ := by
  unfold Rule.serverTable at h
  unfold Rule.rowStart
  cases hforword : info.forword <;> rw [hforword] at h <;> cases h <;> rfl

theorem ruleEngineInsertSqlRow_eq {table : Bytes} (h : info.serverTable = some table) :
    ruleEngineInsertSqlRow cj time w info =
      (clauseRounds cj time w info).foldlM appendRound
        ⟨(table ++ ascii " (").take 127, ascii "VALUES ("⟩ >>= statementText := by
  rw [ruleEngineInsertSqlRow, rowStart_of_serverTable h]

theorem foldlM_fieldClause_of_rounds {js : List RuleField} {t t' : SqlText}
    (h : ((js.filter info.flag).map (fieldRound time w info)).foldlM appendRound t = .ok t') :
    js.foldlM (fieldClause time w info) t = some t' := by
  induction js generalizing t with
  | nil =>
    cases h
    rfl
  | cons j js ih =>
    rw [List.foldlM_cons, fieldClause]
    cases hflag : info.flag j with
    | false =>
      rw [List.filter_cons_of_neg (by simp [hflag])] at h
      exact ih h
    | true =>
      rw [List.filter_cons_of_pos hflag, List.map_cons, List.foldlM_cons, fieldRound] at h
      cases htext : fieldText time w info j with
      | none =>
        rw [htext] at h
        cases h
      | some v =>
        rw [htext, Option.map_some, appendRound_some] at h
        split_ifs at h
        · exact ih h
        · cases h

theorem foldl_storeText_append (ps : List RulePayload) (t : SqlText) :
    ps.foldl (storeText cj) t =
      ⟨t.key ++ (ps.foldl (storeText cj) ⟨[], []⟩).key,
        t.value ++ (ps.foldl (storeText cj) ⟨[], []⟩).value⟩ := by
  induction ps generalizing t with
  | nil => rw [List.foldl_nil, List.foldl_nil, List.append_nil, List.append_nil]
  | cons p ps ih =>
    rw [List.foldl_cons, List.foldl_cons, ih, ih (storeText cj ⟨[], []⟩ p)]
    unfold storeText
    cases p.stored with
    | none => rfl
    | some pas => simp only [Option.elim_some, SqlText.add, List.append_assoc, List.nil_append]

theorem recordText_of_rounds {start t : SqlText} (hstart : info.rowStart = some start)
    (h : (clauseRounds cj time w info).foldlM appendRound start = .ok t) :
    recordText cj time w info = some t := by
  rw [clauseRounds, List.foldlM_append] at h
  rw [recordText, hstart, Option.bind_some]
  cases hfields : ((RuleField.all.filter info.flag).map (fieldRound time w info)).foldlM
      appendRound start with
  | error e =>
    rw [hfields] at h
    cases h
  | ok t₁ =>
    rw [hfields] at h
    rw [foldlM_fieldClause_of_rounds hfields, Option.bind_some]
    cases hflag : info.payloadFlag with
    | false =>
      rw [hflag] at h
      cases h
      rfl
    | true =>
      rw [hflag] at h
      change ([payloadRound cj w info].foldlM appendRound t₁) = _ at h
      rw [List.foldlM_cons, payloadRound] at h
      cases hdata : w.packet.payloadData with
      | none =>
        rw [hdata] at h
        cases h
      | some d =>
        rw [hdata, Option.map_some, appendRound_some] at h
        split_ifs at h
        · cases h
          exact congrArg some (foldl_storeText_append info.payload t₁)
        · cases h

/-- A statement that is composed without a fault is made of lists that fit. -/
theorem exists_rounds_of_ok {table sql : Bytes} (htable : info.serverTable = some table)
    (h : ruleEngineInsertSqlRow cj time w info = .ok sql) :
    ∃ t, (clauseRounds cj time w info).foldlM appendRound
        ⟨(table ++ ascii " (").take 127, ascii "VALUES ("⟩ = .ok t ∧
      insertText t = some sql ∧ t.key.length + 1 ≤ 128 ∧ t.value.length + 1 ≤ 800 := by
  rw [ruleEngineInsertSqlRow_eq htable] at h
  cases hrounds : (clauseRounds cj time w info).foldlM appendRound
      ⟨(table ++ ascii " (").take 127, ascii "VALUES ("⟩ with
  | error e =>
    rw [hrounds] at h
    cases h
  | ok t =>
    rw [hrounds] at h
    obtain ⟨hkey, hvalue⟩ :=
      (rounds_fit _ (length_start table).1 (length_start table).2).1 t hrounds
    have htext : statementText t = .ok sql := h
    rw [statementText_eq hkey hvalue] at htext
    refine ⟨t, rfl, ?_, hkey, hvalue⟩
    cases hsql : insertText t with
    | none =>
      rw [hsql] at htext
      cases htext
    | some text =>
      rw [hsql] at htext
      cases htext
      rfl

/-- A row that is composed without a fault is the statement of `compose_sql_clause`. -/
theorem exists_composeSqlClause_of_ok {table sql : Bytes} (htable : info.serverTable = some table)
    (isNeedSet : Bool) (h : ruleEngineInsertSqlRow cj time w info = .ok sql) :
    ∃ c, composeSqlClause cj time w info isNeedSet = some c ∧ insertText c.text = some sql := by
  obtain ⟨t, hrounds, htext, -⟩ := exists_rounds_of_ok htable h
  have hclause : (composeSqlClause cj time w info isNeedSet).map (fun c => (c.text, c.payload)) =
      _ := composeSqlClause_eq isNeedSet
  rw [recordText_of_rounds (rowStart_of_serverTable htable) hrounds, Option.map_some] at hclause
  obtain ⟨c, hc, hparts⟩ := Option.map_eq_some_iff.mp hclause
  refine ⟨c, hc, ?_⟩
  rw [(Prod.mk.inj hparts).1, htext]

end Fits

/-- A row stays within the arrays if and only if its columns and values, up to the first one that is
read through `NULL`, are short enough: with the table, a comma and a blank for each and the
terminating zero, 128 bytes for the columns and 800 for the values. -/
theorem ruleEngineInsertSqlRow_fits_iff (cj : Cjson) (time : ℕ) (w : Work) {info : Rule}
    {table : Bytes} (htable : info.serverTable = some table) :
    ruleEngineInsertSqlRow cj time w info ≠ .error .overrun ↔
      min 127 (table.length + 2) +
          sumOf Prod.fst (untilMissing (rowLengths cj time w info)) + 1 ≤ 128 ∧
        8 + sumOf Prod.snd (untilMissing (rowLengths cj time w info)) + 1 ≤ 800 := by
  have hlength : ((table ++ ascii " (").take 127).length = min 127 (table.length + 2) := by
    rw [List.length_take, List.length_append]
    rfl
  obtain ⟨hfits, hiff⟩ := rounds_fit (clauseRounds cj time w info)
    (t := ⟨(table ++ ascii " (").take 127, ascii "VALUES ("⟩) (length_start table).1
    (length_start table).2
  have hkeys : sumOf (·.key.length) (untilMissing (clauseRounds cj time w info)) = _ :=
    sumOf_clauseRounds (Or.inl rfl)
  have hvalues : sumOf (·.value.length) (untilMissing (clauseRounds cj time w info)) = _ :=
    sumOf_clauseRounds (Or.inr rfl)
  rw [hkeys, hvalues, hlength] at hiff
  rw [ruleEngineInsertSqlRow_eq htable]
  refine Iff.trans ?_ hiff
  cases hrounds : (clauseRounds cj time w info).foldlM appendRound
      ⟨(table ++ ascii " (").take 127, ascii "VALUES ("⟩ with
  | error e =>
    cases e with
    | null => exact iff_of_true nofun nofun
    | overrun => exact iff_of_false (fun h => h rfl) (fun h => h rfl)
  | ok t =>
    obtain ⟨hk, hv⟩ := hfits t hrounds
    refine iff_of_true ?_ nofun
    change statementText t ≠ _
    rw [statementText_eq hk hv]
    cases insertText t <;> exact nofun

def mysqlPayloadRule : Rule :=
  { topicRule (ascii "t") (ascii "a") with
    forword := .mysql (ascii "a"), flag := (· = .payloadAll) }

theorem ruleEngineInsertSqlRow_fits_short :
    ruleEngineInsertSqlRow Cjson.integers 0 (publishedUnder (ascii "t") (ascii "on"))
      mysqlPayloadRule ≠ .error .overrun := by
  have htable : mysqlPayloadRule.serverTable = some (ascii "a") := rfl
  exact (ruleEngineInsertSqlRow_fits_iff Cjson.integers 0 _ htable).mpr (by decide)

theorem ruleEngineInsertSqlRow_of_long {s : Bytes} (h : 790 ≤ quotedLength s) :
    ruleEngineInsertSqlRow Cjson.integers 0 (publishedUnder (ascii "t") s) mysqlPayloadRule =
      .error .overrun := by
  have htable : mysqlPayloadRule.serverTable = some (ascii "a") := rfl
  have hrounds : clauseRounds Cjson.integers 0 (publishedUnder (ascii "t") s) mysqlPayloadRule =
      [some (SqlText.add ⟨[], []⟩ (ascii "Payload") (quoted s))] := rfl
  have hlong : ¬ ((ascii "VALUES (").length + (quoted s ++ ascii ", ").length + 1 ≤ 800) := by
    have hvalues : (ascii "VALUES (").length = 8 := rfl
    have hcomma : (ascii ", ").length = 2 := rfl
    rw [List.length_append, length_quoted, hvalues, hcomma]
    omega
  rw [ruleEngineInsertSqlRow_eq htable, hrounds, List.foldlM_cons, appendRound_some,
    if_neg (fun hfits => hlong hfits.2)]
  rfl

/-- A payload of 800 bytes is too long for `value`. -/
theorem payload_overruns_value :
    ruleEngineInsertSqlRow Cjson.integers 0 (publishedUnder (ascii "t") (List.replicate 800 97))
      mysqlPayloadRule = .error .overrun :=
  ruleEngineInsertSqlRow_of_long (by decide +kernel)

end NanoMQ
