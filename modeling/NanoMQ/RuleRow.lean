import NanoMQ.RuleInsert
import NanoMQ.RulePlain

/-!
# The text of a row

The rounds of `compose_sql_clause_new` put a column behind the first list and a value behind the
second, each with a comma, and the last commas become brackets. So an INSERT names the columns that
the rule selects, and without any there is none. Composing keeps the rule as it was configured and
asks the database for no INSERT of its own.
-/

namespace NanoMQ

open ByteBuffer

def Rule.columns (r : Rule) : List Bytes :=
  (RuleField.all.filter r.flag).map r.column ++
    if r.payloadFlag then r.payload.filterMap RulePayload.stored else []

def insertSql (table : Bytes) (columns values : List Bytes) : Bytes :=
  ascii "INSERT INTO " ++ (table ++ ascii " (" ++ (ascii ", ").intercalate columns ++ ascii ") ") ++
    (ascii "VALUES (" ++ (ascii ", ").intercalate values ++ ascii ") ") ++ ascii ";"

def InsertInto (table : Bytes) (columns : List Bytes) (sql : Bytes) : Prop :=
  ∃ values, values.length = columns.length ∧ sql = insertSql table columns values

structure Rule.Present (w : Work) (r : Rule) : Prop where
  topic : r.flag .topic = true → w.packet.topicBody.isSome
  clientid : r.flag .clientid = true → (w.cparam.bind ConnParam.clientid).isSome
  payload : r.flag .payloadAll = true ∨ r.payloadFlag = true → w.packet.payloadData.isSome

theorem storedNames_plain (r : Rule) :
    r.plain.payload.filterMap RulePayload.stored = r.payload.filterMap RulePayload.stored := by
  rw [Rule.plain, List.filterMap_map]
  rfl

theorem columns_plain (r : Rule) : r.plain.columns = r.columns := by
  unfold Rule.columns
  rw [storedNames_plain]
  rfl

theorem present_plain (w : Work) (r : Rule) : r.plain.Present w ↔ r.Present w :=
  ⟨fun h => ⟨h.topic, h.clientid, h.payload⟩, fun h => ⟨h.topic, h.clientid, h.payload⟩⟩

def insertsOf (calls : List DbCall) : List (ℕ × Bytes) :=
  calls.filterMap (fun c =>
    match c with
    | .insert rule sql => some (rule, sql)
    | _ => none)

theorem insertsOf_append (a b : List DbCall) : insertsOf (a ++ b) = insertsOf a ++ insertsOf b :=
  List.filterMap_append

structure RowText (table : Bytes) (columns values : List Bytes) (t : SqlText) : Prop where
  key : t.key = table ++ ascii " (" ++ columns.flatMap (· ++ ascii ", ")
  value : t.value = ascii "VALUES (" ++ values.flatMap (· ++ ascii ", ")
  length_eq : values.length = columns.length

theorem RowText.nil (table : Bytes) :
    RowText table [] [] ⟨table ++ ascii " (", ascii "VALUES ("⟩ :=
  ⟨(List.append_nil _).symm, (List.append_nil _).symm, rfl⟩

theorem RowText.add {table : Bytes} {columns values : List Bytes} {t : SqlText}
    (h : RowText table columns values t) (column value : Bytes) :
    RowText table (columns ++ [column]) (values ++ [value]) (t.add column value) where
  key := by
    rw [SqlText.add, h.key, List.flatMap_append, List.flatMap_singleton, List.append_assoc]
  value := by
    rw [SqlText.add, h.value, List.flatMap_append, List.flatMap_singleton, List.append_assoc]
  length_eq := by rw [List.length_append, List.length_append, h.length_eq]; rfl

theorem flatMap_sep {l : List Bytes} (h : l ≠ []) (sep : Bytes) :
    l.flatMap (· ++ sep) = sep.intercalate l ++ sep := by
  induction l with
  | nil => exact absurd rfl h
  | cons x l ih =>
    cases l with
    | nil => simp [List.intercalate]
    | cons y l =>
      rw [List.flatMap_cons, ih (List.cons_ne_nil y l)]
      simp [List.intercalate, List.append_assoc]

/-- Behind a list that is not empty the last comma is the one that was put last. -/
theorem setLast_row (pre : Bytes) {l : List Bytes} (h : l ≠ []) :
    setLast 44 41 (pre ++ l.flatMap (· ++ ascii ", ")) =
      some (pre ++ (ascii ", ").intercalate l ++ ascii ") ") := by
  have hlast := setLast_append (c := 44) (d := 41) (pre ++ (ascii ", ").intercalate l)
    (s := ascii " ") (by decide)
  rw [flatMap_sep h, ← List.append_assoc]
  exact hlast

theorem RowText.insertText_eq {table : Bytes} {columns values : List Bytes} {t : SqlText}
    (h : RowText table columns values t) (hne : columns ≠ []) :
    insertText t = some (insertSql table columns values) := by
  have hvalues : values ≠ [] := by
    rintro rfl
    exact hne (List.length_eq_zero_iff.mp h.length_eq.symm)
  rw [insertText, h.key, h.value, setLast_row _ hne, setLast_row _ hvalues]
  rfl

theorem RowText.insertText_nil {table : Bytes} {values : List Bytes} {t : SqlText}
    (h : RowText table [] values t) : insertText t = none := by
  obtain rfl : values = [] := List.length_eq_zero_iff.mp h.length_eq
  have hnone : setLast 44 41 t.value = none := by
    rw [h.value]
    exact setLast_of_not_mem (by decide)
  rw [insertText, hnone]
  cases setLast 44 41 t.key <;> rfl

section Compose

variable {cj : Cjson} {db : Sqlite} {time : ℕ} {w : Work} {info : Rule} {table : Bytes}
  {columns values : List Bytes} {t t' : SqlText}

theorem fieldText_isSome_iff (j : RuleField) :
    (fieldText time w info j).isSome ↔
      (j = .topic → w.packet.topicBody.isSome) ∧
        (j = .clientid → (w.cparam.bind ConnParam.clientid).isSome) ∧
        (j = .payloadAll → w.packet.payloadData.isSome) := by
  cases j
  case clientid =>
    rw [fieldText, Option.isSome_map]
    simp
  case timestamp => cases h : info.forword <;> simp [fieldText, h]
  all_goals simp [fieldText]

theorem foldlM_fieldClause_isSome_iff (js : List RuleField) (t : SqlText) :
    (js.foldlM (fieldClause time w info) t).isSome ↔
      ∀ j ∈ js, info.flag j = true → (fieldText time w info j).isSome := by
  induction js generalizing t with
  | nil => simp
  | cons j js ih =>
    rw [List.foldlM_cons, List.forall_mem_cons, fieldClause]
    cases hflag : info.flag j with
    | false => simp [ih]
    | true =>
      cases htext : fieldText time w info j with
      | none => simp
      | some v => simp [ih]

theorem RowText.fields {js : List RuleField} (h : RowText table columns values t)
    (heq : js.foldlM (fieldClause time w info) t = some t') :
    RowText table (columns ++ (js.filter info.flag).map info.column)
      (values ++ (js.filter info.flag).filterMap (fieldText time w info)) t' := by
  induction js generalizing columns values t with
  | nil =>
    obtain rfl := Option.some.inj heq
    simpa using h
  | cons j js ih =>
    rw [List.foldlM_cons, fieldClause] at heq
    cases hflag : info.flag j with
    | false =>
      rw [hflag] at heq
      rw [List.filter_cons_of_neg (by simp [hflag])]
      exact ih h heq
    | true =>
      rw [hflag] at heq
      obtain ⟨t₁, ht₁, hrest⟩ := Option.bind_eq_some_iff.mp heq
      obtain ⟨v, hv, rfl⟩ := Option.map_eq_some_iff.mp ht₁
      rw [List.filter_cons_of_pos hflag, List.map_cons, List.append_cons,
        List.filterMap_cons_some hv, List.append_cons values]
      exact ih (h.add (info.column j) v) hrest

structure StoresRow (table : Bytes) (columns : List Bytes) (ps : List RulePayload)
    (calls : List DbCall) (c : Composed) : Prop where
  row : ∃ values, RowText table columns values c.text
  payload : c.payload.map RulePayload.plain = ps.map RulePayload.plain
  inserts : insertsOf c.calls = insertsOf calls

theorem StoresRow.step {ps : List RulePayload} {calls : List DbCall} {c : Composed}
    (h : StoresRow table columns ps calls c) (cj : Cjson) (db : Sqlite) (info : Rule)
    (isNeedSet : Bool) (p : RulePayload) :
    StoresRow table (columns ++ p.stored.toList) (ps ++ [p]) calls
      (storeStep cj db info isNeedSet c p) := by
  obtain ⟨values, hrow⟩ := h.row
  unfold storeStep
  cases p.stored with
  | none =>
    refine ⟨⟨values, by simpa using hrow⟩, ?_, h.inserts⟩
    rw [List.map_append, List.map_append, h.payload]
  | some pas =>
    dsimp only
    refine ⟨⟨_, hrow.add pas _⟩, ?_, ?_⟩
    · rw [List.map_append, List.map_append, h.payload]
      rfl
    · rw [← h.inserts]
      split
      · exact (insertsOf_append _ _).trans (List.append_nil _)
      · rfl

theorem StoresRow.foldl {ps : List RulePayload} {calls : List DbCall} {c : Composed}
    (h : StoresRow table columns ps calls c) (isNeedSet : Bool) (qs : List RulePayload) :
    StoresRow table (columns ++ qs.filterMap RulePayload.stored) (ps ++ qs) calls
      (qs.foldl (storeStep cj db info isNeedSet) c) := by
  induction qs generalizing columns ps c with
  | nil => simpa using h
  | cons p qs ih =>
    have hcols : (p :: qs).filterMap RulePayload.stored =
        p.stored.toList ++ qs.filterMap RulePayload.stored := by
      cases hp : p.stored <;> simp [hp]
    rw [hcols, ← List.append_assoc, List.append_cons]
    exact ih (h.step cj db info isNeedSet p)

theorem payloadClause_isSome_iff (isNeedSet : Bool) (calls : List DbCall) (t : SqlText) :
    (payloadClause cj db w info isNeedSet calls t).isSome ↔
      (info.payloadFlag = true → w.packet.payloadData.isSome) := by
  unfold payloadClause
  cases info.payloadFlag <;> simp

theorem storesRow_payloadClause {isNeedSet : Bool} {calls : List DbCall} {c : Composed}
    (h : RowText table columns values t)
    (heq : payloadClause cj db w info isNeedSet calls t = some c) :
    StoresRow table
      (columns ++ if info.payloadFlag then info.payload.filterMap RulePayload.stored else [])
      info.payload calls c := by
  unfold payloadClause at heq
  cases hflag : info.payloadFlag with
  | false =>
    rw [hflag] at heq
    obtain rfl := Option.some.inj heq
    exact ⟨⟨values, by simpa using h⟩, rfl, rfl⟩
  | true =>
    rw [hflag] at heq
    obtain ⟨-, -, rfl⟩ := Option.map_eq_some_iff.mp heq
    have hstart : StoresRow table columns [] calls ⟨t, [], calls, []⟩ := ⟨⟨values, h⟩, rfl, rfl⟩
    exact hstart.foldl isNeedSet info.payload

/-- What is selected is there exactly if every round has a text. -/
theorem present_iff (time : ℕ) (info : Rule) :
    info.Present w ↔
      (∀ j ∈ RuleField.all, info.flag j = true → (fieldText time w info j).isSome) ∧
        (info.payloadFlag = true → w.packet.payloadData.isSome) := by
  constructor
  · intro h
    refine ⟨fun j _ hj => (fieldText_isSome_iff j).mpr ⟨?_, ?_, ?_⟩,
      fun hflag => h.payload (Or.inr hflag)⟩
    · rintro rfl
      exact h.topic hj
    · rintro rfl
      exact h.clientid hj
    · rintro rfl
      exact h.payload (Or.inl hj)
  · rintro ⟨hfields, hpayload⟩
    have hfield := fun j hj => (fieldText_isSome_iff j).mp (hfields j j.mem_all hj)
    refine ⟨fun hj => (hfield _ hj).1 rfl, fun hj => (hfield _ hj).2.1 rfl, ?_⟩
    rintro (hj | hflag)
    · exact (hfield _ hj).2.2 rfl
    · exact hpayload hflag

theorem composeRow_isSome_iff (cj : Cjson) (db : Sqlite) (time : ℕ) (index : ℕ) (info : Rule)
    (isNeedSet : Bool) (calls : List DbCall) :
    (composeRow cj db time w index info isNeedSet calls).isSome ↔
      info.sqliteTable.isSome ∧ info.Present w := by
  rw [present_iff time, composeRow]
  cases info.sqliteTable with
  | none => simp
  | some table =>
    rw [← foldlM_fieldClause_isSome_iff RuleField.all ⟨table ++ ascii " (", ascii "VALUES ("⟩]
    dsimp only
    cases RuleField.all.foldlM (fieldClause time w info)
        (⟨table ++ ascii " (", ascii "VALUES ("⟩ : SqlText) with
    | none => simp
    | some t =>
      rw [Option.isSome_map, payloadClause_isSome_iff]
      simp

theorem storesRow_composeRow {index : ℕ} {isNeedSet : Bool} {calls : List DbCall} {c : Composed}
    (htable : info.sqliteTable = some table)
    (heq : composeRow cj db time w index info isNeedSet calls = some c) :
    StoresRow table info.columns info.payload calls c := by
  unfold composeRow at heq
  rw [htable] at heq
  dsimp only at heq
  split at heq
  · cases heq
  · rename_i t ht
    have hrow := (RowText.nil table).fields ht
    obtain ⟨c₁, hc₁, rfl⟩ := Option.map_eq_some_iff.mp heq
    have hstores := storesRow_payloadClause hrow hc₁
    rw [List.nil_append] at hstores
    split_ifs
    · exact hstores
    · exact ⟨hstores.row, hstores.payload,
        ((insertsOf_append _ _).trans (List.append_nil _)).trans hstores.inserts⟩

theorem composeRow_spec {index : ℕ} {isNeedSet : Bool} {calls : List DbCall} {c : Composed}
    (heq : composeRow cj db time w index info isNeedSet calls = some c) :
    ∃ table, info.sqliteTable = some table ∧ info.Present w ∧
      StoresRow table info.columns info.payload calls c := by
  obtain ⟨hsome, hpresent⟩ := (composeRow_isSome_iff cj db time index info isNeedSet calls).mp
    (Option.isSome_iff_exists.mpr ⟨c, heq⟩)
  obtain ⟨table, htable⟩ := Option.isSome_iff_exists.mp hsome
  exact ⟨table, htable, hpresent, storesRow_composeRow htable heq⟩

theorem rules_executeRow (db : Sqlite) (index : ℕ) (info : Rule) (isNeedSet : Bool)
    (r : InsertRun) (c : Composed) :
    (executeRow db index info isNeedSet r c).st.rules =
      r.st.rules.set index { info with payload := c.payload } := by
  unfold executeRow
  cases insertText c.text with
  | none => rfl
  | some sql =>
    dsimp only
    split_ifs <;> rfl

/-- The INSERT of a row is executed, whatever comes of it. -/
theorem insertsOf_executeRow (db : Sqlite) (index : ℕ) (info : Rule) (isNeedSet : Bool)
    (r : InsertRun) (c : Composed) :
    insertsOf (executeRow db index info isNeedSet r c).st.calls =
      insertsOf c.calls ++ (insertText c.text).toList.map (fun sql => (index, sql)) := by
  unfold executeRow
  cases insertText c.text with
  | none => exact (List.append_nil _).symm
  | some sql =>
    dsimp only
    split_ifs
    · exact insertsOf_append _ _
    · exact insertsOf_append _ _

end Compose

end NanoMQ
