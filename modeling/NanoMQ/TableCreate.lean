import NanoMQ.CString
import NanoMQ.RuleTables

/-!
# How a table is created

`nanomq_client_sqlite` at the level of its buffer: each `snprintf` writes behind the text so far, as
much of a piece as there is room for, and the function returns as soon as one of them did not have
room for all of it. `tableStmt_eq` says that this is the statement of `createText`, which takes the
names of the columns from `compose_sql_clause_new`; `nanomq_rule.c` has a table of its own for them.
So a table that is created has the columns that are inserted later.
-/

namespace NanoMQ

open ByteBuffer

def keyArr : RuleField → Bytes
  | .qos => ascii "Qos"
  | .id => ascii "Id"
  | .topic => ascii "Topic"
  | .clientid => ascii "Clientid"
  | .username => ascii "Username"
  | .password => ascii "Password"
  | .timestamp => ascii "Timestamp"
  | .payloadAll => ascii "Payload"

structure TableBuf where
  text : Bytes
  left : ℕ

/-- An `snprintf` at `p`, with the test behind it. -/
def tableAppend (pf : Printf) (b : TableBuf) (piece : Bytes) : Option TableBuf :=
  let n := (pf.result piece).toInt
  if n < 0 ∨ b.left ≤ n.toNat then none
  else some ⟨b.text ++ printed b.left piece, b.left - n.toNat⟩

def tableHead (table : Bytes) : Bytes :=
  ascii "CREATE TABLE IF NOT EXISTS " ++ table ++ ascii "(RowId INTEGER PRIMARY KEY AUTOINCREMENT"

def tableColumn (pf : Printf) (r : Rule) (b : TableBuf) (j : RuleField) : Option TableBuf :=
  if r.flag j then
    tableAppend pf b (ascii ", " ++ (r.asName j).getD (keyArr j) ++ j.typeText)
  else some b

/-- The statement for a rule, `none` where the function returns before it is complete. -/
def tableStmt (pf : Printf) (r : Rule) (table : Bytes) : Option Bytes := do
  let b ← tableAppend pf ⟨[], 256⟩ (tableHead table)
  let b ← RuleField.all.foldlM (tableColumn pf r) b
  if b.left < 3 then none
  else (tableAppend pf b (ascii ");")).map TableBuf.text

section Loop

variable (pf : Printf) (execOk : List Bytes → Bytes → Bool) (size : ℕ) (initLast : Bool)

/-- One round of the loop over the rules: whether the function returns 1 in it, and the statements
executed so far with the rules that they are for. -/
def sqliteRound (done : List (ℕ × Bytes)) (x : Rule × ℕ) : Bool × List (ℕ × Bytes) :=
  if initLast ∧ x.2 ≠ size - 1 then (false, done)
  else
    match x.1.sqliteTable with
    | none => (false, done)
    | some table =>
      match tableStmt pf x.1 table with
      | none => (true, done)
      | some sql => (!execOk (done.map Prod.snd) sql, done ++ [(x.2, sql)])

def sqliteLoop : List (Rule × ℕ) → List (ℕ × Bytes) → ℕ × List (ℕ × Bytes)
  | [], done => (0, done)
  | x :: xs, done =>
    let (stop, done) := sqliteRound pf execOk size initLast done x
    if stop then (1, done) else sqliteLoop xs done

end Loop

structure SqliteRun where
  executed : List (ℕ × Bytes)
  result : ℕ

/-- `nanomq_client_sqlite`, with the handle and the answers of SQLite as in `nanomqClientSqlite`. -/
def nanomqClientSqliteBuf (pf : Printf) (openOk : Bool) (execOk : List Bytes → Bytes → Bool)
    (rdb : Bool) (rules : List Rule) (initLast : Bool) : SqliteRun :=
  if rdb || openOk then
    let (result, executed) := sqliteLoop pf execOk rules.length initLast rules.zipIdx []
    ⟨executed, result⟩
  else ⟨[], 1⟩

def statementsFor (i : ℕ) (executed : List (ℕ × Bytes)) : List Bytes :=
  (executed.filter (·.1 = i)).map Prod.snd

theorem keyArr_eq (j : RuleField) : keyArr j = j.columnName := by
  cases j <;> rfl

section Statement

variable {pf : Printf}

/-- As long as the buffer is as long as it says, an `snprintf` is a step of `createText`. -/
theorem tableAppend_eq {text : Bytes} {left : ℕ} (h : text.length + left = 256) (piece : Bytes) :
    tableAppend pf ⟨text, left⟩ piece =
      (createStep text piece).map (fun text => ⟨text, 256 - text.length⟩) := by
  unfold tableAppend createStep
  dsimp only
  rw [List.length_append]
  by_cases hbig : 2147483648 ≤ piece.length
  · rw [if_pos (Or.inl (pf.error piece hbig)), if_neg (by omega), Option.map_none]
  · rw [pf.exact piece (Nat.lt_of_not_le hbig), Int.toNat_natCast]
    by_cases hfits : text.length + piece.length < 256
    · rw [if_neg (by omega), if_pos hfits, Option.map_some, printed,
        List.take_of_length_le (by omega), List.length_append]
      congr 2
      omega
    · rw [if_pos (Or.inr (by omega)), if_neg hfits, Option.map_none]

theorem createStep_length {text piece text' : Bytes} (h : createStep text piece = some text') :
    text'.length < 256 := by
  unfold createStep at h
  split_ifs at h with hfits
  obtain rfl := Option.some.inj h
  exact hfits

theorem foldlM_tableColumn (r : Rule) (js : List RuleField) {text : Bytes}
    (h : text.length ≤ 256) :
    js.foldlM (tableColumn pf r) ⟨text, 256 - text.length⟩ =
      (((js.filter r.flag).map (fun j => ascii ", " ++ r.column j ++ j.typeText)).foldlM createStep
        text).map (fun text => ⟨text, 256 - text.length⟩) := by
  induction js generalizing text with
  | nil => rfl
  | cons j js ih =>
    rw [List.foldlM_cons, tableColumn]
    cases hflag : r.flag j with
    | false =>
      rw [List.filter_cons_of_neg (by simp [hflag])]
      exact ih h
    | true =>
      rw [List.filter_cons_of_pos hflag, List.map_cons, List.foldlM_cons, if_pos rfl, keyArr_eq,
        tableAppend_eq (Nat.add_sub_of_le h)]
      change (Option.map _ (createStep text (ascii ", " ++ r.column j ++ j.typeText))).bind _ = _
      cases hstep : createStep text (ascii ", " ++ r.column j ++ j.typeText) with
      | none => rfl
      | some text' => exact ih (createStep_length hstep).le

theorem foldlM_createStep_length {pieces : List Bytes} {text text' : Bytes}
    (h : pieces.foldlM createStep text = some text') (hlen : text.length < 256) :
    text'.length < 256 := by
  obtain ⟨heq, hlt⟩ := foldlM_createStep h
  cases pieces with
  | nil => rwa [heq, List.flatten_nil, List.append_nil]
  | cons piece pieces => exact hlt (List.cons_ne_nil piece pieces)

/-- The end of the statement: the test of `left` refuses what the last `snprintf` would refuse. -/
theorem tableEnd_eq {text : Bytes} (h : text.length < 256) :
    (if 256 - text.length < 3 then none
      else (tableAppend pf ⟨text, 256 - text.length⟩ (ascii ");")).map TableBuf.text) =
      createStep text (ascii ");") := by
  have hlen : (text ++ ascii ");").length = text.length + 2 := List.length_append
  rw [tableAppend_eq (Nat.add_sub_of_le h.le)]
  unfold createStep
  by_cases hfits : (text ++ ascii ");").length < 256
  · rw [if_neg (by omega), if_pos hfits]
    rfl
  · rw [if_pos (by omega), if_neg hfits]

/-- The buffer gives the statement of `createText`, or nothing where that has none. -/
theorem tableStmt_eq (pf : Printf) (r : Rule) (table : Bytes) :
    tableStmt pf r table = createText r table := by
  unfold tableStmt createText
  rw [tableAppend_eq rfl, List.append_assoc, List.foldlM_append, List.foldlM_cons]
  change (Option.map _ (createStep [] (tableHead table))).bind _ =
    ((createStep [] (tableHead table)).bind pure).bind _
  cases hhead : createStep [] (tableHead table) with
  | none => rfl
  | some text =>
    have hlen := createStep_length hhead
    rw [Option.map_some, Option.bind_some, foldlM_tableColumn r _ hlen.le]
    change (Option.map _ (List.foldlM createStep text _)).bind _ = List.foldlM createStep text _
    rw [List.foldlM_append]
    change _ = (List.foldlM createStep text _).bind _
    cases hfold : ((RuleField.all.filter r.flag).map
        (fun j => ascii ", " ++ r.column j ++ j.typeText)).foldlM createStep text with
    | none => rfl
    | some text' =>
      rw [Option.map_some, Option.bind_some, Option.bind_some,
        tableEnd_eq (foldlM_createStep_length hfold hlen)]
      exact (Option.bind_fun_some _).symm

end Statement

section Rounds

variable (pf : Printf) (execOk : List Bytes → Bytes → Bool) (size : ℕ) (initLast : Bool)

section Rule

variable {size initLast} {done : List (ℕ × Bytes)} {r : Rule} {k : ℕ} {table : Bytes}

theorem sqliteRound_passed (h : initLast = true ∧ k ≠ size - 1) :
    sqliteRound pf execOk size initLast done (r, k) = (false, done) := if_pos h

theorem sqliteRound_full (h : ¬ (initLast = true ∧ k ≠ size - 1))
    (htable : r.sqliteTable = some table) (hstmt : tableStmt pf r table = none) :
    sqliteRound pf execOk size initLast done (r, k) = (true, done) := by
  simp only [sqliteRound, if_neg h, htable, hstmt]

theorem sqliteRound_exec (h : ¬ (initLast = true ∧ k ≠ size - 1))
    (htable : r.sqliteTable = some table) {sql : Bytes} (hstmt : tableStmt pf r table = some sql) :
    sqliteRound pf execOk size initLast done (r, k) =
      (!execOk (done.map Prod.snd) sql, done ++ [(k, sql)]) := by
  simp only [sqliteRound, if_neg h, htable, hstmt]

end Rule

/-- A round executes at most one statement, and that is for its own rule. -/
theorem sqliteRound_cases (done : List (ℕ × Bytes)) (x : Rule × ℕ) :
    (sqliteRound pf execOk size initLast done x).2 = done ∨
      ∃ sql, (sqliteRound pf execOk size initLast done x).2 = done ++ [(x.2, sql)] := by
  unfold sqliteRound
  split_ifs
  · exact Or.inl rfl
  · cases x.1.sqliteTable with
    | none => exact Or.inl rfl
    | some table =>
      dsimp only
      cases tableStmt pf x.1 table with
      | none => exact Or.inl rfl
      | some sql => exact Or.inr ⟨sql, rfl⟩

theorem statementsFor_of_lt {i : ℕ} {done : List (ℕ × Bytes)} (h : ∀ p ∈ done, p.1 < i) :
    statementsFor i done = [] := by
  have hnone : done.filter (·.1 = i) = [] := by
    apply List.filter_eq_nil_iff.mpr
    intro p hp hpi
    exact Nat.ne_of_lt (h p hp) (of_decide_eq_true hpi)
  rw [statementsFor, hnone, List.map_nil]

theorem statementsFor_concat (i : ℕ) (done : List (ℕ × Bytes)) (p : ℕ × Bytes) :
    statementsFor i (done ++ [p]) = statementsFor i done ++ if p.1 = i then [p.2] else [] := by
  unfold statementsFor
  rw [List.filter_append, List.map_append]
  by_cases h : p.1 = i
  · rw [if_pos h, List.filter_cons_of_pos (by simpa using h)]
    rfl
  · rw [if_neg h, List.filter_cons_of_neg (by simpa using h)]
    rfl

theorem sqliteRound_lt {k : ℕ} {done : List (ℕ × Bytes)} (h : ∀ p ∈ done, p.1 < k) (r : Rule) :
    ∀ p ∈ (sqliteRound pf execOk size initLast done (r, k)).2, p.1 < k + 1 := by
  intro p hp
  rcases sqliteRound_cases pf execOk size initLast done (r, k) with heq | ⟨sql, heq⟩
  · rw [heq] at hp
    exact Nat.lt_succ_of_lt (h p hp)
  · rw [heq] at hp
    rcases List.mem_append.mp hp with hp | hp
    · exact Nat.lt_succ_of_lt (h p hp)
    · obtain rfl := List.mem_singleton.mp hp
      exact Nat.lt_succ_self k

/-- The rounds behind a rule execute nothing for it. -/
theorem statementsFor_sqliteLoop (rules : List Rule) {i k : ℕ} (hi : i < k)
    (done : List (ℕ × Bytes)) :
    statementsFor i (sqliteLoop pf execOk size initLast (rules.zipIdx k) done).2 =
      statementsFor i done := by
  induction rules generalizing k done with
  | nil => rfl
  | cons r rules ih =>
    have hround : statementsFor i (sqliteRound pf execOk size initLast done (r, k)).2 =
        statementsFor i done := by
      rcases sqliteRound_cases pf execOk size initLast done (r, k) with heq | ⟨sql, heq⟩
      · rw [heq]
      · rw [heq, statementsFor_concat, if_neg (by dsimp only; omega), List.append_nil]
    rw [List.zipIdx_cons, sqliteLoop]
    dsimp only
    split_ifs
    · exact hround
    · rw [ih (by omega), hround]

/-- What becomes of a rule in a run: a rule that is passed over has nothing executed for it, and for
any other either one statement is executed or the run ends with 1 and without any. -/
structure RuleOutcome (passed : Prop) (stmt : Option Bytes) (i : ℕ)
    (run : ℕ × List (ℕ × Bytes)) : Prop where
  quiet : passed → statementsFor i run.2 = []
  created : ¬ passed → run.1 = 1 ∧ statementsFor i run.2 = [] ∨
    ∃ sql, stmt = some sql ∧ statementsFor i run.2 = [sql]

theorem ruleOutcome_round {k : ℕ} {done : List (ℕ × Bytes)} (hdone : statementsFor k done = [])
    {r : Rule} {table : Bytes} (htable : r.sqliteTable = some table) (rules : List Rule) :
    RuleOutcome (initLast = true ∧ k ≠ size - 1) (tableStmt pf r table) k
      (sqliteLoop pf execOk size initLast ((r, k) :: rules.zipIdx (k + 1)) done) := by
  have hrest (done : List (ℕ × Bytes)) :=
    statementsFor_sqliteLoop pf execOk size initLast rules (Nat.lt_succ_self k) done
  rw [sqliteLoop]
  dsimp only
  constructor
  · intro hpass
    rw [sqliteRound_passed pf execOk hpass]
    exact (hrest done).trans hdone
  · intro hpass
    cases hstmt : tableStmt pf r table with
    | none =>
      rw [sqliteRound_full pf execOk hpass htable hstmt]
      exact Or.inl ⟨rfl, hdone⟩
    | some sql =>
      have hone : statementsFor k (done ++ [(k, sql)]) = [sql] := by
        rw [statementsFor_concat, hdone, if_pos rfl]
        rfl
      rw [sqliteRound_exec pf execOk hpass htable hstmt]
      refine Or.inr ⟨sql, rfl, ?_⟩
      dsimp only
      split_ifs
      · exact hone
      · exact (hrest _).trans hone

/-- The induction is on the rules: those before a rule execute nothing for it, and either let the
loop go on or end it. -/
theorem ruleOutcome_loop {rules : List Rule} {k m : ℕ} {done : List (ℕ × Bytes)}
    (hdone : ∀ p ∈ done, p.1 < k) {r : Rule} (hr : rules[m]? = some r) {table : Bytes}
    (htable : r.sqliteTable = some table) :
    RuleOutcome (initLast = true ∧ k + m ≠ size - 1) (tableStmt pf r table) (k + m)
      (sqliteLoop pf execOk size initLast (rules.zipIdx k) done) := by
  induction rules generalizing k m done with
  | nil => cases hr
  | cons q rules ih =>
    rw [List.zipIdx_cons]
    cases m with
    | zero =>
      obtain rfl : q = r := Option.some.inj hr
      exact ruleOutcome_round pf execOk size initLast (statementsFor_of_lt hdone) htable rules
    | succ m =>
      have hlt := sqliteRound_lt pf execOk size initLast hdone q
      rw [sqliteLoop]
      dsimp only
      split_ifs
      · have hnone : statementsFor (k + (m + 1))
            (sqliteRound pf execOk size initLast done (q, k)).2 = [] := by
          apply statementsFor_of_lt
          intro p hp
          have := hlt p hp
          omega
        exact ⟨fun _ => hnone, fun _ => Or.inl ⟨rfl, hnone⟩⟩
      · have hnext := ih (m := m) hlt hr
        rwa [Nat.add_assoc, Nat.add_comm 1 m] at hnext

theorem createTables_round {k : ℕ} (h : ¬ (initLast = true ∧ k ≠ size - 1)) (r : Rule)
    (rules : List Rule) (done : List (ℕ × Bytes)) :
    createTables execOk (r :: rules) (done.map Prod.snd) =
      if (sqliteRound pf execOk size initLast done (r, k)).1 then
        (1, (sqliteRound pf execOk size initLast done (r, k)).2.map Prod.snd)
      else
        createTables execOk rules
          ((sqliteRound pf execOk size initLast done (r, k)).2.map Prod.snd) := by
  rw [createTables]
  cases htable : r.sqliteTable with
  | none => simp only [sqliteRound, if_neg h, htable, Bool.false_eq_true, if_false]
  | some table =>
    dsimp only
    cases hstmt : createText r table with
    | none =>
      rw [sqliteRound_full pf execOk h htable ((tableStmt_eq pf r table).trans hstmt)]
      rfl
    | some sql =>
      rw [sqliteRound_exec pf execOk h htable ((tableStmt_eq pf r table).trans hstmt)]
      dsimp only
      rw [List.map_append]
      cases execOk (done.map Prod.snd) sql <;> rfl

theorem sqliteLoop_all (rules : List Rule) (k : ℕ) (done : List (ℕ × Bytes)) :
    (sqliteLoop pf execOk size false (rules.zipIdx k) done).map id (List.map Prod.snd) =
      createTables execOk rules (done.map Prod.snd) := by
  induction rules generalizing k done with
  | nil => rfl
  | cons r rules ih =>
    have hall : ¬ (false = true ∧ k ≠ size - 1) := fun h => Bool.false_ne_true h.1
    rw [List.zipIdx_cons, sqliteLoop, createTables_round pf execOk size false hall]
    dsimp only
    split_ifs
    · rfl
    · exact ih (k + 1) _

theorem sqliteLoop_last (rules : List Rule) {k : ℕ} (hsize : size = k + rules.length)
    (done : List (ℕ × Bytes)) :
    (sqliteLoop pf execOk size true (rules.zipIdx k) done).map id (List.map Prod.snd) =
      createTables execOk (rules.drop (rules.length - 1)) (done.map Prod.snd) := by
  induction rules generalizing k done with
  | nil => rfl
  | cons r rules ih =>
    rw [List.zipIdx_cons, sqliteLoop]
    dsimp only
    cases rules with
    | nil =>
      have hlast : ¬ (true = true ∧ k ≠ size - 1) := by
        rintro ⟨-, hne⟩
        rw [List.length_singleton] at hsize
        omega
      change _ = createTables execOk [r] (done.map Prod.snd)
      rw [createTables_round pf execOk size true hlast]
      split_ifs <;> rfl
    | cons q rules =>
      have hpass : true = true ∧ k ≠ size - 1 := by
        rw [List.length_cons, List.length_cons] at hsize
        exact ⟨rfl, by omega⟩
      rw [sqliteRound_passed pf execOk hpass, if_neg Bool.false_ne_true]
      refine ih ?_ done
      rw [hsize, List.length_cons, Nat.add_assoc, Nat.add_comm 1]

end Rounds

theorem nanomqClientSqlite_eq (pf : Printf) (openOk : Bool) (execOk : List Bytes → Bytes → Bool)
    (rdb : Bool) (rules : List Rule) (initLast : Bool) :
    nanomqClientSqlite openOk execOk rdb rules initLast =
      ⟨rdb || openOk,
        (nanomqClientSqliteBuf pf openOk execOk rdb rules initLast).executed.map Prod.snd,
        (nanomqClientSqliteBuf pf openOk execOk rdb rules initLast).result⟩ := by
  have hloop : Prod.map id (List.map Prod.snd)
      (sqliteLoop pf execOk rules.length initLast rules.zipIdx []) =
        createTables execOk (if initLast then rules.drop (rules.length - 1) else rules) [] := by
    cases initLast with
    | false => exact sqliteLoop_all pf execOk rules.length rules 0 []
    | true => exact sqliteLoop_last pf execOk rules.length rules (Nat.zero_add _).symm []
  unfold nanomqClientSqlite nanomqClientSqliteBuf
  rw [← hloop]
  cases rdb || openOk <;> rfl

structure CreatesTable (table : Bytes) (columns : List (Bytes × Bytes)) (sql : Bytes) : Prop where
  text : sql = ascii "CREATE TABLE IF NOT EXISTS " ++ table ++
    ascii "(RowId INTEGER PRIMARY KEY AUTOINCREMENT" ++
    columns.flatMap (fun c => ascii ", " ++ c.1 ++ c.2) ++ ascii ");"
  length : sql.length ≤ 255
  types : ∀ c ∈ columns, c.2 = ascii " INT" ∨ c.2 = ascii " TEXT"

/-- The columns that `compose_sql_clause_new` puts behind the first list in each of its rounds. -/
def Rule.Emits (r : Rule) (names : RuleField → List Bytes) : Prop :=
  ∀ j time w t t', fieldClause time w r t j = some t' →
    t'.key = t.key ++ (names j).flatMap (· ++ ascii ", ")

def Rule.emitted (r : Rule) (j : RuleField) : List Bytes := if r.flag j then [r.column j] else []

theorem Rule.emits_emitted (r : Rule) : r.Emits r.emitted := by
  intro j time w t t' h
  unfold fieldClause at h
  unfold Rule.emitted
  split_ifs at h ⊢
  · obtain ⟨v, -, rfl⟩ := Option.map_eq_some_iff.mp h
    rw [List.flatMap_singleton]
    rfl
  · obtain rfl := Option.some.inj h
    exact (List.append_nil _).symm

theorem flatMap_emitted (r : Rule) (js : List RuleField) :
    js.flatMap r.emitted = (js.filter r.flag).map r.column := by
  induction js with
  | nil => rfl
  | cons j js ih =>
    rw [List.flatMap_cons, ih, Rule.emitted]
    cases hflag : r.flag j with
    | false =>
      rw [List.filter_cons_of_neg (by simp [hflag])]
      rfl
    | true =>
      rw [List.filter_cons_of_pos hflag]
      rfl

theorem createsTable_of_tableStmt {pf : Printf} {r : Rule} {table sql : Bytes}
    (h : tableStmt pf r table = some sql) :
    CreatesTable table ((RuleField.all.filter r.flag).map (fun j => (r.column j, j.typeText)))
      sql := by
  obtain ⟨htext, hlen⟩ := createText_eq ((tableStmt_eq pf r table).symm.trans h)
  refine ⟨?_, Nat.le_of_lt_succ hlen, ?_⟩
  · rw [htext, List.flatMap_map]
  · intro c hc
    obtain ⟨j, -, rfl⟩ := List.mem_map.mp hc
    cases j
    case qos | id | timestamp => exact Or.inl rfl
    all_goals exact Or.inr rfl

/-- A call either returns 1 without a statement for a rule, or executes one complete statement for
it, with the columns in which rows are inserted later. With `initLast` the call is for the last rule
only and passes over the others. -/
theorem table_agrees_with_insert (pf : Printf) (openOk : Bool) (execOk : List Bytes → Bytes → Bool)
    (rdb : Bool) (rules : List Rule) (initLast : Bool) {i : ℕ} {r : Rule}
    (hr : rules[i]? = some r) {table : Bytes} (htable : r.sqliteTable = some table) :
    let run := nanomqClientSqliteBuf pf openOk execOk rdb rules initLast
    (initLast = true ∧ i ≠ rules.length - 1 → statementsFor i run.executed = []) ∧
      (¬ (initLast = true ∧ i ≠ rules.length - 1) →
        run.result = 1 ∧ statementsFor i run.executed = [] ∨
          ∃ sql columns names, statementsFor i run.executed = [sql] ∧
            CreatesTable table columns sql ∧ r.Emits names ∧
            columns.map Prod.fst = RuleField.all.flatMap names) := by
  intro run
  cases hopen : rdb || openOk with
  | false =>
    have hrun : run = ⟨[], 1⟩ := if_neg (by rw [hopen]; exact Bool.false_ne_true)
    rw [hrun]
    exact ⟨fun _ => rfl, fun _ => Or.inl ⟨rfl, rfl⟩⟩
  | true =>
    have hrun : run = ⟨(sqliteLoop pf execOk rules.length initLast rules.zipIdx []).2,
        (sqliteLoop pf execOk rules.length initLast rules.zipIdx []).1⟩ := if_pos hopen
    have hout := ruleOutcome_loop pf execOk rules.length initLast (k := 0)
      (List.forall_mem_nil _) hr htable
    rw [Nat.zero_add] at hout
    rw [hrun]
    refine ⟨hout.quiet, fun hpass => ?_⟩
    rcases hout.created hpass with hstop | ⟨sql, hstmt, hone⟩
    · exact Or.inl hstop
    · refine Or.inr ⟨sql, _, r.emitted, hone, createsTable_of_tableStmt hstmt, r.emits_emitted, ?_⟩
      rw [List.map_map, flatMap_emitted]
      rfl

def renamedRule : Rule where
  enabled := true
  forword := .sqlite (ascii "a")
  topic := ascii "t"
  filter := none
  cmpType _ := .none
  flag j := j = .qos || j = .topic
  payloadFlag := false
  asName j := if j = .topic then some (ascii "name") else none
  payload := []

theorem table_agrees_with_insert_renamed :
    ∃ sql columns names,
      statementsFor 0 (nanomqClientSqliteBuf Printf.posix true (fun _ _ => true) false
        [renamedRule] false).executed = [sql] ∧
      CreatesTable (ascii "a") columns sql ∧ renamedRule.Emits names ∧
      columns.map Prod.fst = RuleField.all.flatMap names := by
  have hr : [renamedRule][0]? = some renamedRule := rfl
  have htable : renamedRule.sqliteTable = some (ascii "a") := rfl
  have hcases := (table_agrees_with_insert Printf.posix true (fun _ _ => true) false [renamedRule]
    false hr htable).2 (fun h => Bool.false_ne_true h.1)
  rcases hcases with ⟨hfail, -⟩ | hcreated
  · exact absurd hfail (by decide)
  · exact hcreated

end NanoMQ
