import NanoMQ.RulePaths
import NanoMQ.RuleRecord

/-!
# A record from what a rule keeps

`recordOf` is the document or the row of a rule as a function of how the rule was configured and of
the values it keeps at its paths. Of those only the stored ones matter, and a record tells a path
with a value from one without: a document has one member more, and a row begins a value with another
byte than `NULL`.
-/

namespace NanoMQ

open ByteBuffer

section Record

variable (cj : Cjson) (time : ℕ) (w : Work)

def storesOf : List RulePayload → (ℕ → Option PayloadValue) → List (Bytes × Option PayloadValue)
  | [], _ => []
  | p :: ps, kept =>
    (p.stored.map (fun pas => (pas, kept 0))).toList ++ storesOf ps (fun k => kept (k + 1))

def documentOf (r : Rule) (kept : ℕ → Option PayloadValue) : Json :=
  .object
    ((RuleField.all.filter r.flag).filterMap (fun j =>
        (fieldJson cj time w j).map (fun v => ((r.asName j).getD j.jsonName, v))) ++
      if r.payloadFlag then
        (storesOf r.payload kept).filterMap (fun x => x.2.map (fun v => (x.1, v.json)))
      else [])

def rowOf (r : Rule) (kept : ℕ → Option PayloadValue) : Option SqlText :=
  r.rowStart.bind (fun start =>
    (RuleField.all.foldlM (fieldClause time w r) start).bind (fun t =>
      if r.payloadFlag then
        w.packet.payloadData.map (fun _ =>
          (storesOf r.payload kept).foldl (fun t x => t.add x.1 (payloadText cj x.2)) t)
      else some t))

def recordOf (r : Rule) (kept : ℕ → Option PayloadValue) : Option RuleRecord :=
  if r.tableName = none then some (.document (documentOf cj time w r kept))
  else (rowOf cj time w r kept).map .row

variable {cj time w} {db : Sqlite} {r : Rule}

theorem storesOf_plain (ps : List RulePayload) :
    storesOf (ps.map RulePayload.plain) (fun k => ps[k]?.bind RulePayload.value) =
      ps.filterMap (fun p => p.stored.map (fun pas => (pas, p.value))) := by
  induction ps with
  | nil => rfl
  | cons p ps ih =>
    have hstored : p.plain.stored = p.stored := rfl
    rw [List.map_cons, storesOf, hstored, List.filterMap_cons]
    simp only [List.getElem?_cons_succ, List.getElem?_cons_zero, Option.bind_some, ih]
    cases p.stored <;> rfl

theorem addInfoToJson_eq (r : Rule) :
    addInfoToJson cj time w r = documentOf cj time w r.plain r.kept := by
  have hstores : (storesOf r.plain.payload r.kept).filterMap
      (fun x => x.2.map (fun v => (x.1, v.json))) =
      r.payload.filterMap (fun p =>
        p.stored.bind (fun pas => p.value.map (fun v => (pas, v.json)))) := by
    rw [show storesOf r.plain.payload r.kept = _ from storesOf_plain r.payload,
      List.filterMap_filterMap]
    congr 1
    funext p
    cases p.stored <;> rfl
  unfold addInfoToJson documentOf
  rw [hstores]
  rfl

theorem recordText_eq (r : Rule) : recordText cj time w r = rowOf cj time w r.plain r.kept := by
  have hfold : ∀ t, r.payload.foldl (storeText cj) t =
      (storesOf r.plain.payload r.kept).foldl (fun t x => t.add x.1 (payloadText cj x.2)) t := by
    intro t
    rw [show storesOf r.plain.payload r.kept = _ from storesOf_plain r.payload,
      List.foldl_filterMap]
    congr 1
    funext t p
    unfold storeText
    cases p.stored <;> rfl
  unfold recordText rowOf
  simp only [hfold]
  rfl

/-- The record of a rule depends on what it keeps and on how it was configured. -/
theorem fst_composeRecord (r : Rule) (index : ℕ) (isNeedSet : Bool) (calls : List DbCall) :
    (composeRecord cj db time w index r isNeedSet calls).map Prod.fst =
      recordOf cj time w r.plain r.kept := by
  rw [composeRecord_eq, recordOf, addInfoToJson_eq, recordText_eq]
  change _ = if r.tableName = none then _ else _
  split_ifs
  · rfl
  · rw [Option.map_map]
    rfl

theorem recordOf_isSome_iff (kept : ℕ → Option PayloadValue) :
    (recordOf cj time w r kept).isSome ↔ (r.tableName.isSome → r.Present w) := by
  unfold recordOf
  split_ifs with htable
  · simp [htable]
  · obtain ⟨start, hstart⟩ := Option.isSome_iff_exists.mp
      ((rowStart_isSome_iff r).mpr (Option.isSome_iff_ne_none.mpr htable))
    rw [Option.isSome_map, rowOf, hstart, Option.bind_some, present_iff time,
      ← foldlM_fieldClause_isSome_iff RuleField.all start]
    cases RuleField.all.foldlM (fieldClause time w r) start with
    | none => simp [htable, Option.isSome_iff_ne_none]
    | some t => cases hflag : r.payloadFlag <;> simp [htable, Option.isSome_iff_ne_none]

theorem storesOf_congr {ps : List RulePayload} {f g : ℕ → Option PayloadValue}
    (h : ∀ k p, ps[k]? = some p → p.stored.isSome → f k = g k) :
    storesOf ps f = storesOf ps g := by
  induction ps generalizing f g with
  | nil => rfl
  | cons p ps ih =>
    rw [storesOf, storesOf, ih (fun k q hq hs => h (k + 1) q hq hs)]
    cases hp : p.stored with
    | none => rfl
    | some pas => rw [h 0 p rfl (by rw [hp]; rfl)]

theorem recordOf_congr {f g : ℕ → Option PayloadValue}
    (h : r.payloadFlag = true → ∀ k p, r.payload[k]? = some p → p.stored.isSome → f k = g k) :
    recordOf cj time w r f = recordOf cj time w r g := by
  unfold recordOf documentOf rowOf
  cases hflag : r.payloadFlag with
  | false => rfl
  | true => rw [storesOf_congr (h hflag)]

/-- Two texts of stored values that are the same, where the one has nothing that the other has not,
are of the same values. `E` is the text of one value, which tells `none` from a value. -/
theorem kept_eq_of_flatMap {α : Type*} {E : Bytes × Option PayloadValue → List α}
    (hE : ∀ pas v ps f g, (∀ k, f k = none ∨ f k = g k) →
      E (pas, none) ++ (storesOf ps f).flatMap E ≠ E (pas, some v) ++ (storesOf ps g).flatMap E)
    {ps : List RulePayload} {f g : ℕ → Option PayloadValue} (hle : ∀ k, f k = none ∨ f k = g k)
    (heq : (storesOf ps f).flatMap E = (storesOf ps g).flatMap E) {k : ℕ} {p : RulePayload}
    (hp : ps[k]? = some p) (hstored : p.stored.isSome) : f k = g k := by
  induction ps generalizing f g k with
  | nil => cases hp
  | cons q ps ih =>
    have hle' : ∀ k, f (k + 1) = none ∨ f (k + 1) = g (k + 1) := fun k => hle (k + 1)
    rw [storesOf, storesOf, List.flatMap_append, List.flatMap_append] at heq
    cases hq : q.stored with
    | none =>
      rw [hq] at heq
      cases k with
      | zero =>
        obtain rfl := Option.some.inj hp
        rw [hq] at hstored
        cases hstored
      | succ k => exact ih hle' heq hp
    | some pas =>
      rw [hq, Option.map_some, Option.map_some, Option.toList_some, Option.toList_some,
        List.flatMap_singleton, List.flatMap_singleton] at heq
      have hzero : f 0 = g 0 := by
        rcases hle 0 with hf | hf
        · cases hg : g 0 with
          | none => exact hf
          | some v =>
            rw [hf, hg] at heq
            exact absurd heq (hE pas v ps _ _ hle')
        · exact hf
      cases k with
      | zero => exact hzero
      | succ k =>
        rw [hzero] at heq
        exact ih hle' (List.append_cancel_left heq) hp

theorem length_flatMap_le (ps : List RulePayload) {f g : ℕ → Option PayloadValue}
    (hle : ∀ k, f k = none ∨ f k = g k) :
    ((storesOf ps f).flatMap (fun x => (x.2.map (fun v => (x.1, v.json))).toList)).length ≤
      ((storesOf ps g).flatMap (fun x => (x.2.map (fun v => (x.1, v.json))).toList)).length := by
  induction ps generalizing f g with
  | nil => exact le_rfl
  | cons p ps ih =>
    have hrest := ih (fun k => hle (k + 1))
    rw [storesOf, storesOf, List.flatMap_append, List.flatMap_append, List.length_append,
      List.length_append]
    cases p.stored with
    | none => simpa using hrest
    | some pas =>
      rcases hle 0 with hf | hf
      · rw [hf]
        simp only [Option.map_some, Option.toList_some, List.flatMap_singleton, Option.map_none,
          Option.toList_none, List.length_nil]
        omega
      · rw [hf]
        omega

theorem head_payloadText (cj : Cjson) (v : PayloadValue) :
    ∃ c rest, payloadText cj (some v) = c :: rest ∧ c ≠ 78 := by
  cases v with
  | number n =>
    obtain ⟨hne, hdigits⟩ := ascii_repr_digits n.natAbs
    obtain ⟨c, rest, hc⟩ := List.exists_cons_of_ne_nil hne
    rw [payloadText, decimal_eq]
    split_ifs
    · exact ⟨45, _, rfl, by decide⟩
    · refine ⟨c, rest, hc, ?_⟩
      rintro rfl
      have hbound := hdigits 78 (by rw [hc]; exact List.mem_cons_self)
      exact absurd hbound.2 (by decide)
  | string s => exact ⟨39, _, rfl, by decide⟩
  | object v => exact ⟨39, _, rfl, by decide⟩

theorem value_foldl_add (vals : List (Bytes × Option PayloadValue)) (t : SqlText) :
    (vals.foldl (fun t x => t.add x.1 (payloadText cj x.2)) t).value =
      t.value ++ vals.flatMap (fun x => payloadText cj x.2 ++ ascii ", ") := by
  induction vals generalizing t with
  | nil => exact (List.append_nil _).symm
  | cons x vals ih =>
    rw [List.foldl_cons, ih, List.flatMap_cons, SqlText.add, List.append_assoc]

theorem recordOf_inj {f g : ℕ → Option PayloadValue} (hflag : r.payloadFlag = true)
    (hle : ∀ k, f k = none ∨ f k = g k) (hsome : (recordOf cj time w r f).isSome)
    (heq : recordOf cj time w r f = recordOf cj time w r g) {k : ℕ} {p : RulePayload}
    (hp : r.payload[k]? = some p) (hstored : p.stored.isSome) : f k = g k := by
  unfold recordOf at hsome heq
  split_ifs at hsome heq with htable
  · have hmembers := RuleRecord.document.inj (Option.some.inj heq)
    unfold documentOf at hmembers
    rw [hflag, Json.object.injEq, if_pos rfl, if_pos rfl, List.filterMap_eq_flatMap_toList,
      List.filterMap_eq_flatMap_toList, List.filterMap_eq_flatMap_toList,
      List.append_cancel_left_eq] at hmembers
    refine kept_eq_of_flatMap (fun pas v ps f g hle hlists => ?_) hle hmembers hp hstored
    have hlength := congrArg List.length hlists
    have hless := length_flatMap_le ps hle
    rw [List.length_append, List.length_append] at hlength
    simp only [Option.map_none, Option.toList_none, List.length_nil, Option.map_some,
      Option.toList_some, List.length_singleton] at hlength
    omega
  · rw [Option.isSome_map] at hsome
    obtain ⟨t, ht⟩ := Option.isSome_iff_exists.mp hsome
    rw [ht, Option.map_some] at heq
    obtain ⟨t', ht', hrow⟩ := Option.map_eq_some_iff.mp heq.symm
    obtain rfl := RuleRecord.row.inj hrow
    unfold rowOf at ht ht'
    obtain ⟨start, hstart, ht⟩ := Option.bind_eq_some_iff.mp ht
    rw [hstart, Option.bind_some] at ht'
    obtain ⟨fields, hfields, ht⟩ := Option.bind_eq_some_iff.mp ht
    rw [hfields, Option.bind_some, hflag, if_pos rfl] at ht'
    rw [hflag, if_pos rfl] at ht
    obtain ⟨d, -, htext⟩ := Option.map_eq_some_iff.mp ht
    obtain ⟨d', -, htext'⟩ := Option.map_eq_some_iff.mp ht'
    have hvalue := congrArg SqlText.value (htext.trans htext'.symm)
    rw [value_foldl_add, value_foldl_add, List.append_cancel_left_eq] at hvalue
    refine kept_eq_of_flatMap (fun pas v ps f g _ hlists => ?_) hle hvalue hp hstored
    obtain ⟨c, rest, hc, hne⟩ := head_payloadText cj v
    rw [hc] at hlists
    exact hne (List.cons.inj hlists).1.symm

end Record

end NanoMQ
