import NanoMQ.RuleCalls
import NanoMQ.RuleTables

/-!
# The columns of a table

Which columns a table has is read off the statements executed so far: it starts with the fixed
columns of its rule, and an ALTER TABLE adds others. That a database only reports columns which are
there is an assumption on SQLite.
-/

namespace NanoMQ

open ByteBuffer

/-- The columns with which a table is created. A second rule would find the table there. -/
def createdColumns (start : ClientSqlite) (rules : List Rule) (table : Bytes) : List Bytes :=
  match rules.find? (fun r => r.sqliteTable = some table) with
  | none => []
  | some r =>
    if (createText r table).any start.created.contains then r.fixedColumns else []

def ColumnExists (start : ClientSqlite) (rules : List Rule) (calls : List DbCall)
    (table col : Bytes) : Prop :=
  col ∈ createdColumns start rules table ∨
    ∃ i cols, DbCall.alter i (altersText table cols) ∈ calls ∧ col ∈ cols.map Prod.fst

/-- The columns that the database reports are there. -/
def Sqlite.Truthful (db : Sqlite) (start : ClientSqlite) (rules : List Rule) : Prop :=
  ∀ calls table names, db.columnNames calls (pragmaText table) = some names →
    ∀ col ∈ names, ColumnExists start rules calls table col

section Columns

variable {start : ClientSqlite} {rules : List Rule} {calls more : List DbCall} {table col : Bytes}

theorem ColumnExists.mono (h : ColumnExists start rules calls table col) (hsub : calls ⊆ more) :
    ColumnExists start rules more table col := by
  rcases h with hfixed | ⟨i, cols, hmem, hcol⟩
  · exact Or.inl hfixed
  · exact Or.inr ⟨i, cols, hsub hmem, hcol⟩

/-- Questions change no table. -/
theorem ColumnExists.of_prepared {asked : List Bytes}
    (h : ColumnExists start rules (calls ++ asked.map .prepare) table col) :
    ColumnExists start rules calls table col := by
  rcases h with hfixed | ⟨i, cols, hmem, hcol⟩
  · exact Or.inl hfixed
  · refine Or.inr ⟨i, cols, ?_, hcol⟩
    rcases List.mem_append.mp hmem with hmem | hmem
    · exact hmem
    · obtain ⟨_, -, hno⟩ := List.mem_map.mp hmem
      cases hno

theorem eq_of_nodup_filterMap {α β : Type*} {f : α → Option β} {l : List α}
    (h : (l.filterMap f).Nodup) {a b : α} {x : β} (ha : a ∈ l) (hb : b ∈ l) (hfa : f a = some x)
    (hfb : f b = some x) : a = b := by
  induction l with
  | nil => cases ha
  | cons c l ih =>
    have hmem : ∀ {d}, d ∈ l → f d = some x → x ∈ l.filterMap f :=
      fun hd hfd => List.mem_filterMap.mpr ⟨_, hd, hfd⟩
    rcases List.mem_cons.mp ha with rfl | hal <;> rcases List.mem_cons.mp hb with rfl | hbl
    · rfl
    · rw [List.filterMap_cons_some hfa, List.nodup_cons] at h
      exact absurd (hmem hbl hfb) h.1
    · rw [List.filterMap_cons_some hfb, List.nodup_cons] at h
      exact absurd (hmem hal hfa) h.1
    · refine ih ?_ hal hbl
      cases hc : f c with
      | none => rwa [List.filterMap_cons_none hc] at h
      | some y =>
        rw [List.filterMap_cons_some hc] at h
        exact (List.nodup_cons.mp h).2

/-- Each table was created with the fixed columns of its rule, and its name is short enough to ask
for its columns. -/
structure TablesMade (start : ClientSqlite) (rules : List Rule) : Prop where
  columns : ∀ r ∈ rules, ∀ table, r.sqliteTable = some table →
    createdColumns start rules table = r.fixedColumns
  uncut : ∀ r ∈ rules, ∀ table, r.sqliteTable = some table →
    (pragmaText table).take 255 = pragmaText table

theorem tablesMade_of_result {execOk : List Bytes → Bytes → Bool}
    (htables : (rules.filterMap Rule.sqliteTable).Nodup)
    (hstart : (nanomqClientSqlite true execOk false rules false).result = 0) :
    TablesMade (nanomqClientSqlite true execOk false rules false) rules := by
  have hmade : ∀ r ∈ rules, ∀ table, r.sqliteTable = some table → ∃ sql,
      createText r table = some sql ∧
        sql ∈ (nanomqClientSqlite true execOk false rules false).created := by
    intro r hr table htable
    have hresult : (createTables execOk rules []).1 = 0 := hstart
    exact exists_createText_of_created hresult hr htable
  constructor
  · intro r hr table htable
    obtain ⟨sql, hsql, hcreated⟩ := hmade r hr table htable
    have hfound : rules.find? (fun q => q.sqliteTable = some table) = some r := by
      cases hfind : rules.find? (fun q => q.sqliteTable = some table) with
      | none => exact absurd htable (by simpa using List.find?_eq_none.mp hfind r hr)
      | some q =>
        have hq : q.sqliteTable = some table := by simpa using List.find?_some hfind
        rw [eq_of_nodup_filterMap htables (List.mem_of_find?_eq_some hfind) hr hq htable]
    rw [createdColumns, hfound]
    simp [hsql, hcreated]
  · intro r hr table htable
    obtain ⟨sql, hsql, -⟩ := hmade r hr table htable
    obtain ⟨rfl, hlen⟩ := createText_eq hsql
    apply List.take_of_length_le
    simp only [List.length_append, pragmaText, ascii, List.length_map] at hlen ⊢
    have h₁ : "PRAGMA table_info(".toList.length = 18 := rfl
    have h₂ : ");".toList.length = 2 := rfl
    have h₃ : "CREATE TABLE IF NOT EXISTS ".toList.length = 27 := rfl
    omega

end Columns

end NanoMQ
