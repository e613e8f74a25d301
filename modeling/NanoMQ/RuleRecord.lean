import NanoMQ.RuleRow

/-!
# The record of a message

What a rule that matches makes of a message is a JSON document, for `add_info_to_json`, or a row,
for `compose_sql_clause_new` in SQLite and `compose_sql_clause` in the other databases. The latter
two put the same columns and values into a row and reset the values of the payload that they store;
they differ in the statement that adds columns, which only the first makes dependent on the columns
that are there. The other databases start the row in a buffer of 128 bytes; what `strcat` writes
behind it is not looked at here.
-/

namespace NanoMQ

open ByteBuffer

theorem ascii_repr_digits (n : ℕ) :
    ascii n.repr ≠ [] ∧ ∀ d ∈ ascii n.repr, 48 ≤ d.toNat ∧ d.toNat ≤ 57 := by
  have hlist : ascii n.repr = (Nat.toDigits 10 n).map (fun c => UInt8.ofNat c.toNat) := by
    rw [ascii, Nat.toList_repr]
  rw [hlist]
  constructor
  · simp
  · rw [List.forall_mem_map]
    intro c hc
    have hdigit := Nat.isDigit_of_mem_toDigits (by omega) le_rfl hc
    have hrange : 48 ≤ c.toNat ∧ c.toNat ≤ 57 := by
      simp only [Char.isDigit, Bool.and_eq_true, decide_eq_true_eq] at hdigit
      exact ⟨UInt32.le_iff_toNat_le.mp hdigit.1, UInt32.le_iff_toNat_le.mp hdigit.2⟩
    rw [UInt8.toNat_ofNat']
    omega

theorem decimal_eq (n : ℤ) :
    decimal n = (if n < 0 then [45] else []) ++ ascii n.natAbs.repr := by
  cases n with
  | ofNat m =>
    rw [if_neg (by simp)]
    rfl
  | negSucc m =>
    rw [if_pos (Int.negSucc_lt_zero m)]
    change ascii ("-" ++ (m + 1).repr) = _
    rw [ascii, String.toList_append, List.map_append]
    rfl

inductive RuleRecord
  | document (json : Json)
  | row (text : SqlText)

section Compose

variable (cj : Cjson) (db : Sqlite) (time : ℕ) (w : Work)

def sqlClauseStep (info : Rule) (isNeedSet : Bool) (c : Composed) (p : RulePayload) : Composed :=
  match p.stored with
  | none => { c with payload := c.payload ++ [p] }
  | some pas =>
    let alter :=
      match isNeedSet, info.tableName with
      | true, some table => c.alter ++ alterText table pas p.value
      | _, _ => c.alter
    ⟨c.text.add pas (payloadText cj p.value), alter, c.calls,
      c.payload ++ [{ p with value := none }]⟩

def Rule.rowStart (r : Rule) : Option SqlText :=
  match r.forword with
  | .sqlite table => some ⟨table ++ ascii " (", ascii "VALUES ("⟩
  | .mysql table | .postgresql table | .timescaledb table =>
    some ⟨(table ++ ascii " (").take 127, ascii "VALUES ("⟩
  | .repub _ | .fdb => none

def composeSqlClause (info : Rule) (isNeedSet : Bool) : Option Composed :=
  info.rowStart.bind (fun start =>
    (RuleField.all.foldlM (fieldClause time w info) start).bind (fun t =>
      if info.payloadFlag then
        w.packet.payloadData.map (fun _ =>
          info.payload.foldl (sqlClauseStep cj info isNeedSet) ⟨t, [], [], []⟩)
      else some ⟨t, [], [], info.payload⟩))

/-- The record of a message, by the kind of the rule, and the payload fields as they are left. -/
def composeRecord (index : ℕ) (info : Rule) (isNeedSet : Bool) (calls : List DbCall) :
    Option (RuleRecord × List RulePayload) :=
  match info.forword with
  | .repub _ | .fdb => some (.document (addInfoToJson cj time w info), info.payload)
  | .sqlite _ =>
    (composeRow cj db time w index info isNeedSet calls).map (fun c => (.row c.text, c.payload))
  | .mysql _ | .postgresql _ | .timescaledb _ =>
    (composeSqlClause cj time w info isNeedSet).map (fun c => (.row c.text, c.payload))

def storeText (t : SqlText) (p : RulePayload) : SqlText :=
  p.stored.elim t (fun pas => t.add pas (payloadText cj p.value))

def recordText (info : Rule) : Option SqlText :=
  info.rowStart.bind (fun start =>
    (RuleField.all.foldlM (fieldClause time w info) start).bind (fun t =>
      if info.payloadFlag then
        w.packet.payloadData.map (fun _ => info.payload.foldl (storeText cj) t)
      else some t))

end Compose

def RulePayload.composed (p : RulePayload) : RulePayload := if p.stored.isSome then p.plain else p

def Rule.composedPayload (r : Rule) : List RulePayload :=
  if r.payloadFlag then r.payload.map RulePayload.composed else r.payload

section Text

variable {cj : Cjson} {db : Sqlite} {time : ℕ} {w : Work} {info : Rule}

theorem text_storeStep (cj : Cjson) (db : Sqlite) (info : Rule) (isNeedSet : Bool)
    (c : Composed) (p : RulePayload) :
    (storeStep cj db info isNeedSet c p).text = storeText cj c.text p ∧
      (storeStep cj db info isNeedSet c p).payload = c.payload ++ [p.composed] := by
  unfold storeStep storeText RulePayload.composed
  cases p.stored <;> exact ⟨rfl, rfl⟩

theorem text_sqlClauseStep (cj : Cjson) (info : Rule) (isNeedSet : Bool) (c : Composed)
    (p : RulePayload) :
    (sqlClauseStep cj info isNeedSet c p).text = storeText cj c.text p ∧
      (sqlClauseStep cj info isNeedSet c p).payload = c.payload ++ [p.composed] := by
  unfold sqlClauseStep storeText RulePayload.composed
  cases p.stored <;> exact ⟨rfl, rfl⟩

theorem text_foldl {step : Composed → RulePayload → Composed}
    (hstep : ∀ c p, (step c p).text = storeText cj c.text p ∧
      (step c p).payload = c.payload ++ [p.composed])
    (ps : List RulePayload) (c : Composed) :
    (ps.foldl step c).text = ps.foldl (storeText cj) c.text ∧
      (ps.foldl step c).payload = c.payload ++ ps.map RulePayload.composed := by
  induction ps generalizing c with
  | nil => exact ⟨rfl, (List.append_nil _).symm⟩
  | cons p ps ih =>
    rw [List.foldl_cons, List.foldl_cons, (ih (step c p)).1, (ih (step c p)).2, (hstep c p).1,
      (hstep c p).2, List.map_cons, List.append_assoc]
    exact ⟨rfl, rfl⟩

theorem composeSqlClause_eq (isNeedSet : Bool) :
    (composeSqlClause cj time w info isNeedSet).map (fun c => (c.text, c.payload)) =
      (recordText cj time w info).map (fun t => (t, info.composedPayload)) := by
  unfold composeSqlClause recordText Rule.composedPayload
  cases info.rowStart with
  | none => rfl
  | some start =>
    rw [Option.bind_some, Option.bind_some]
    cases RuleField.all.foldlM (fieldClause time w info) start with
    | none => rfl
    | some t =>
      rw [Option.bind_some, Option.bind_some]
      cases info.payloadFlag with
      | false => rfl
      | true =>
        cases w.packet.payloadData with
        | none => rfl
        | some d =>
          have hfold := text_foldl (text_sqlClauseStep cj info isNeedSet) info.payload
            ⟨t, [], [], []⟩
          exact congrArg some (Prod.ext hfold.1 hfold.2)

theorem composeRow_eq {table : Bytes} (hsqlite : info.forword = .sqlite table) (index : ℕ)
    (isNeedSet : Bool) (calls : List DbCall) :
    (composeRow cj db time w index info isNeedSet calls).map (fun c => (c.text, c.payload)) =
      (recordText cj time w info).map (fun t => (t, info.composedPayload)) := by
  have htable : info.sqliteTable = some table := by rw [Rule.sqliteTable, hsqlite]
  have hstart : info.rowStart = some ⟨table ++ ascii " (", ascii "VALUES ("⟩ := by
    rw [Rule.rowStart, hsqlite]
  unfold composeRow recordText Rule.composedPayload payloadClause
  rw [htable, hstart, Option.bind_some]
  dsimp only
  cases RuleField.all.foldlM (fieldClause time w info)
      (⟨table ++ ascii " (", ascii "VALUES ("⟩ : SqlText) with
  | none => rfl
  | some t =>
    rw [Option.bind_some]
    cases info.payloadFlag with
    | false => rfl
    | true =>
      cases w.packet.payloadData with
      | none => rfl
      | some d =>
        have hfold := text_foldl (text_storeStep cj db info isNeedSet) info.payload
          ⟨t, [], calls, []⟩
        simp only [if_true, Option.map_some, apply_ite Composed.text, apply_ite Composed.payload,
          ite_self]
        exact congrArg some (Prod.ext hfold.1 hfold.2)

/-- A record is the document, or the row by itself with the stored values reset. -/
theorem composeRecord_eq (index : ℕ) (isNeedSet : Bool) (calls : List DbCall) :
    composeRecord cj db time w index info isNeedSet calls =
      if info.tableName = none then
        some (.document (addInfoToJson cj time w info), info.payload)
      else (recordText cj time w info).map (fun t => (.row t, info.composedPayload)) := by
  have hmap : (fun c : Composed => (RuleRecord.row c.text, c.payload)) =
      (fun x : SqlText × List RulePayload => (RuleRecord.row x.1, x.2)) ∘
        (fun c => (c.text, c.payload)) := rfl
  unfold composeRecord Rule.tableName
  cases hforword : info.forword
  case repub repub => rfl
  case fdb => rfl
  case sqlite table =>
    dsimp only
    rw [hmap, ← Option.map_map, composeRow_eq hforword, Option.map_map]
    rfl
  all_goals
    dsimp only
    rw [hmap, ← Option.map_map, composeSqlClause_eq, Option.map_map]
    rfl

theorem rowStart_isSome_iff (r : Rule) : r.rowStart.isSome ↔ r.tableName.isSome := by
  unfold Rule.rowStart Rule.tableName
  cases r.forword <;> simp

theorem recordText_isSome_iff :
    (recordText cj time w info).isSome ↔ info.tableName.isSome ∧ info.Present w := by
  rw [present_iff time, ← rowStart_isSome_iff, recordText]
  cases info.rowStart with
  | none => simp
  | some start =>
    rw [← foldlM_fieldClause_isSome_iff RuleField.all start, Option.bind_some]
    cases RuleField.all.foldlM (fieldClause time w info) start with
    | none => simp
    | some t => cases hflag : info.payloadFlag <;> simp

theorem composeRecord_isSome_iff (index : ℕ) (isNeedSet : Bool) (calls : List DbCall) :
    (composeRecord cj db time w index info isNeedSet calls).isSome ↔
      (info.tableName.isSome → info.Present w) := by
  rw [composeRecord_eq]
  split_ifs with htable
  · simp [htable]
  · have hsome : info.tableName.isSome := Option.isSome_iff_ne_none.mpr htable
    rw [Option.isSome_map, recordText_isSome_iff]
    simp [hsome]

end Text

end NanoMQ
