import NanoMQ.RuleRow

/-!
# The tables of the rules

`nanomq_client_sqlite` opens the database, unless it is open, and creates a table for each rule that
writes into SQLite. The statement is put together in a buffer of 256 bytes and given up if it does
not fit. The broker goes on whatever the result.
-/

namespace NanoMQ

open ByteBuffer

def RuleField.typeText : RuleField → Bytes
  | .qos | .id | .timestamp => ascii " INT"
  | .topic | .clientid | .username | .password | .payloadAll => ascii " TEXT"

def createStep (text piece : Bytes) : Option Bytes :=
  if (text ++ piece).length < 256 then some (text ++ piece) else none

/-- The statement that creates the table of a rule, `none` if the buffer is too short for it. -/
def createText (r : Rule) (table : Bytes) : Option Bytes :=
  ([ascii "CREATE TABLE IF NOT EXISTS " ++ table ++
      ascii "(RowId INTEGER PRIMARY KEY AUTOINCREMENT"] ++
    (RuleField.all.filter r.flag).map (fun j => ascii ", " ++ r.column j ++ j.typeText) ++
    [ascii ");"]).foldlM createStep []

structure ClientSqlite where
  rdb : Bool
  created : List Bytes
  result : ℕ

def createTables (execOk : List Bytes → Bytes → Bool) : List Rule → List Bytes → ℕ × List Bytes
  | [], created => (0, created)
  | r :: rules, created =>
    match r.sqliteTable with
    | none => createTables execOk rules created
    | some table =>
      match createText r table with
      | none => (1, created)
      | some sql =>
        if execOk created sql then createTables execOk rules (created ++ [sql])
        else (1, created ++ [sql])

/-- `nanomq_client_sqlite`. A database that cannot be opened is closed at once and leaves no handle.
With `initLast` only the last rule has its table created. -/
def nanomqClientSqlite (openOk : Bool) (execOk : List Bytes → Bytes → Bool) (rdb : Bool)
    (rules : List Rule) (initLast : Bool) : ClientSqlite :=
  if rdb || openOk then
    let (result, created) :=
      createTables execOk (if initLast then rules.drop (rules.length - 1) else rules) []
    ⟨true, created, result⟩
  else ⟨false, [], 1⟩

def Rule.fixedColumns (r : Rule) : List Bytes :=
  ascii "RowId" :: (RuleField.all.filter r.flag).map r.column

theorem foldlM_createStep {pieces : List Bytes} {text sql : Bytes}
    (h : pieces.foldlM createStep text = some sql) :
    sql = text ++ pieces.flatten ∧ (pieces ≠ [] → sql.length < 256) := by
  induction pieces generalizing text with
  | nil =>
    obtain rfl := Option.some.inj h
    simp
  | cons piece pieces ih =>
    rw [List.foldlM_cons, createStep] at h
    split_ifs at h with hfits
    · obtain ⟨rfl, hlen⟩ := ih h
      refine ⟨by simp, fun _ => ?_⟩
      cases pieces with
      | nil => simpa using hfits
      | cons q pieces => exact hlen (List.cons_ne_nil q pieces)
    · cases h

/-- The statement names the fixed columns and fits into the buffer. -/
theorem createText_eq {r : Rule} {table sql : Bytes} (h : createText r table = some sql) :
    sql = ascii "CREATE TABLE IF NOT EXISTS " ++ table ++
        ascii "(RowId INTEGER PRIMARY KEY AUTOINCREMENT" ++
        (RuleField.all.filter r.flag).flatMap (fun j => ascii ", " ++ r.column j ++ j.typeText) ++
        ascii ");" ∧
      sql.length < 256 := by
  obtain ⟨hsql, hlen⟩ := foldlM_createStep h
  refine ⟨?_, hlen (by simp)⟩
  rw [hsql]
  simp [List.flatMap_def]

theorem subset_createTables (execOk : List Bytes → Bytes → Bool) (rules : List Rule)
    (created : List Bytes) : created ⊆ (createTables execOk rules created).2 := by
  induction rules generalizing created with
  | nil => exact List.Subset.refl created
  | cons r rules ih =>
    unfold createTables
    cases r.sqliteTable with
    | none => exact ih created
    | some table =>
      dsimp only
      cases createText r table with
      | none => exact List.Subset.refl created
      | some sql =>
        dsimp only
        have hmore : created ⊆ created ++ [sql] := List.subset_append_left created [sql]
        split_ifs
        · exact List.Subset.trans hmore (ih _)
        · exact hmore

/-- The loop comes to its end only if every statement was made and executed. -/
theorem exists_createText_of_created {execOk : List Bytes → Bytes → Bool} {rules : List Rule}
    {created : List Bytes} (h : (createTables execOk rules created).1 = 0) {r : Rule}
    (hr : r ∈ rules) {table : Bytes} (htable : r.sqliteTable = some table) :
    ∃ sql, createText r table = some sql ∧ sql ∈ (createTables execOk rules created).2 := by
  induction rules generalizing created with
  | nil => cases hr
  | cons q rules ih =>
    unfold createTables at h ⊢
    cases hq : q.sqliteTable with
    | none =>
      rw [hq] at h
      rcases List.mem_cons.mp hr with rfl | hr
      · rw [hq] at htable
        cases htable
      · exact ih h hr
    | some t =>
      rw [hq] at h
      dsimp only at h ⊢
      cases hsql : createText q t with
      | none =>
        rw [hsql] at h
        cases h
      | some sql =>
        rw [hsql] at h
        dsimp only at h ⊢
        split_ifs at h ⊢ with hok
        · rcases List.mem_cons.mp hr with rfl | hr
          · obtain rfl : t = table := Option.some.inj (hq.symm.trans htable)
            exact ⟨sql, hsql, subset_createTables execOk rules _ (by simp)⟩
          · exact ih h hr

end NanoMQ
