import NanoMQ.GuardedRun
import NanoMQ.RuleIndex
import NanoMQ.RuleKept

/-!
# What a rule makes of a message

`handleRule` is one message at one rule: `rule_engine_filter`, and the record if it says so. A round
of `rule_engine_insert_sql` does this, for a republish rule and for a first rule that writes into
SQLite. All that a history of messages can change in a rule are the values at its paths, and the
record shows what the message sets, and for the rest what was kept.
-/

namespace NanoMQ

open ByteBuffer

/-- A message at a rule: the clock, the work, whether columns have to be added, and the calls of the
database before it. -/
structure Handling where
  time : ℕ
  work : Work
  isNeedSet : Bool
  calls : List DbCall

section Handle

variable (nng : Nng) (cj : Cjson) (db : Sqlite) (index : ℕ)

/-- `rule_engine_filter`, and the record if it says so. -/
def handleRule (info : Rule) (m : Handling) : Option (Option RuleRecord × Rule) :=
  (ruleEngineFilter nng cj m.time m.work info).bind (fun v =>
    if v.1 then
      (composeRecord cj db m.time m.work index v.2 m.isNeedSet m.calls).map (fun x =>
        (some x.1, { v.2 with payload := x.2 }))
    else some (none, v.2))

def afterHistory (info : Rule) (history : List Handling) : Option Rule :=
  history.foldlM (fun r m => (handleRule nng cj db index r m).map Prod.snd) info

def ruleOutput (info : Rule) (m : Handling) : Option (Option RuleRecord) :=
  (handleRule nng cj db index info m).map Prod.fst

end Handle

section Step

variable {nng : Nng} {cj : Cjson} {db : Sqlite} {index : ℕ} {info r' : Rule} {m : Handling}
  {out : Option RuleRecord} {k : ℕ}

theorem handleRule_cases (h : handleRule nng cj db index info m = some (out, r')) :
    ∃ v, ruleEngineFilter nng cj m.time m.work info = some v ∧
      ((v.1 = false ∧ out = none ∧ r' = v.2) ∨
        (v.1 = true ∧ ∃ record payload,
          composeRecord cj db m.time m.work index v.2 m.isNeedSet m.calls =
            some (record, payload) ∧
          out = some record ∧ r' = { v.2 with payload := payload })) := by
  obtain ⟨v, hv, h⟩ := Option.bind_eq_some_iff.mp h
  refine ⟨v, hv, ?_⟩
  cases hb : v.1 with
  | false =>
    rw [hb] at h
    cases h
    exact Or.inl ⟨rfl, rfl, rfl⟩
  | true =>
    rw [hb, if_pos rfl] at h
    obtain ⟨⟨record, payload⟩, hrecord, hpair⟩ := Option.map_eq_some_iff.mp h
    cases hpair
    exact Or.inr ⟨rfl, record, payload, hrecord, rfl, rfl⟩

theorem payload_composeRecord {time : ℕ} {w : Work} {isNeedSet : Bool} {calls : List DbCall}
    {record : RuleRecord} {payload : List RulePayload}
    (h : composeRecord cj db time w index info isNeedSet calls = some (record, payload)) :
    payload = if info.tableName = none then info.payload else info.composedPayload := by
  rw [composeRecord_eq] at h
  split_ifs at h ⊢
  · exact (congrArg Prod.snd (Option.some.inj h)).symm
  · obtain ⟨t, -, hpair⟩ := Option.map_eq_some_iff.mp h
    exact (congrArg Prod.snd hpair).symm

theorem map_plain_composedPayload (r : Rule) :
    r.composedPayload.map RulePayload.plain = r.payload.map RulePayload.plain := by
  have hcomposed : RulePayload.plain ∘ RulePayload.composed = RulePayload.plain := by
    funext p
    change (if p.stored.isSome then p.plain else p).plain = p.plain
    split_ifs <;> rfl
  unfold Rule.composedPayload
  split_ifs
  · rw [List.map_map, hcomposed]
  · rfl

theorem plain_handleRule (h : handleRule nng cj db index info m = some (out, r')) :
    r'.plain = info.plain := by
  obtain ⟨v, hv, ⟨-, -, rfl⟩ | ⟨-, record, payload, hrecord, -, rfl⟩⟩ := handleRule_cases h
  · exact plain_ruleEngineFilter nng cj _ _ hv
  · rw [← plain_ruleEngineFilter nng cj _ _ hv]
    unfold Rule.plain
    dsimp only
    rw [payload_composeRecord hrecord]
    split_ifs
    · rfl
    · rw [map_plain_composedPayload]

/-- A row takes the stored values out of the rule. -/
theorem kept_composed {p : RulePayload} (hflag : info.payloadFlag = true)
    (hp : info.payload[k]? = some p) (hstored : p.stored.isSome) :
    { info with payload := info.composedPayload }.kept k = none := by
  unfold Rule.kept Rule.composedPayload
  dsimp only
  rw [hflag, if_pos rfl, List.getElem?_map, hp, Option.map_some, Option.bind_some,
    RulePayload.composed, if_pos hstored]
  rfl

/-- Along a history nothing changes but what is kept. -/
theorem afterHistory_invariant {Q : Rule → Prop}
    (hstep : ∀ r m out r', Q r → handleRule nng cj db index r m = some (out, r') → Q r')
    {history : List Handling} {r : Rule} (hstart : Q info)
    (h : afterHistory nng cj db index info history = some r) : Q r := by
  refine GuardedRun.run_invariant_of_step (fun r m r' hr hm => ?_) hstart h
  obtain ⟨⟨out, r₁⟩, hhandle, rfl⟩ := Option.map_eq_some_iff.mp hm
  exact hstep r m out r₁ hr hhandle

theorem ruleOutput_eq (info : Rule) (m : Handling) :
    ruleOutput nng cj db index info m =
      (ruleEngineFilter nng cj m.time m.work info).bind (fun v =>
        if v.1 then (recordOf cj m.time m.work v.2.plain v.2.kept).map some else some none) := by
  unfold ruleOutput handleRule
  rw [Option.map_bind]
  congr 1
  funext v
  obtain ⟨_ | _, r⟩ := v
  · rfl
  · have hrecord : (composeRecord cj db m.time m.work index r m.isNeedSet m.calls).map Prod.fst =
        recordOf cj m.time m.work r.plain r.kept := fst_composeRecord r index _ _
    simp only [if_true, Function.comp_apply, ← hrecord, Option.map_map]
    rfl

theorem ruleOutput_of_not_matched {r : Rule} (hplain : r.plain = info.plain)
    (hm : ¬ Matched nng cj m.time m.work info) :
    ruleOutput nng cj db index r m = ruleOutput nng cj db index info m := by
  have hfst : (ruleEngineFilter nng cj m.time m.work r).map Prod.fst =
      (ruleEngineFilter nng cj m.time m.work info).map Prod.fst := by
    rw [← fst_ruleEngineFilter_plain, hplain, fst_ruleEngineFilter_plain]
  rw [ruleOutput_eq, ruleOutput_eq]
  cases hv : ruleEngineFilter nng cj m.time m.work info with
  | none =>
    rw [hv] at hfst
    rw [Option.map_eq_none_iff.mp hfst]
  | some v =>
    rw [hv] at hfst
    obtain ⟨v', hv', heq⟩ := Option.map_eq_some_iff.mp hfst
    have hb : v.1 = false :=
      Bool.eq_false_of_not_eq_true (fun h => hm ((matched_iff_of_filter hv).mp h))
    rw [hv', Option.bind_some, Option.bind_some, heq, hb]
    rfl

/-- The record of a matching message shows what it sets, and for the rest what the rule kept. -/
theorem ruleOutput_of_matched (db : Sqlite) (index : ℕ) {r : Rule} (hplain : r.plain = info.plain)
    (hm : Matched nng cj m.time m.work info) :
    ∃ kept, ruleOutput nng cj db index r m =
        (recordOf cj m.time m.work info.plain kept).map some ∧
      ∀ j, (SetsPath nng cj m.time m.work info j →
          kept j = foundValue cj (pubJson cj m.work.packet) info.payload j) ∧
        (¬ SetsPath nng cj m.time m.work info j → kept j = r.kept j) := by
  rw [← matched_plain, ← hplain, matched_plain] at hm
  obtain ⟨b, hv, hb⟩ := ruleEngineFilter_of_reached cj hm.1
  obtain rfl := hb.mpr hm
  have hsets : ∀ j, SetsPath nng cj m.time m.work info j ↔ SetsPath nng cj m.time m.work r j := by
    intro j
    rw [← setsPath_plain, ← hplain, setsPath_plain]
  have hfound : ∀ j, foundValue cj (pubJson cj m.work.packet) r.payload j =
      foundValue cj (pubJson cj m.work.packet) info.payload j := by
    intro j
    rw [← foundValue_plain r.payload, ← foundValue_plain info.payload]
    exact congrArg (fun x : Rule => foundValue cj (pubJson cj m.work.packet) x.payload j) hplain
  refine ⟨(payloadFilter cj m.work.packet r).2.kept, ?_, fun j => ⟨fun h => ?_, fun h => ?_⟩⟩
  · rw [ruleOutput_eq, hv, Option.bind_some, if_pos rfl, ← hplain,
      ← plain_ruleEngineFilter nng cj m.time m.work hv]
  · have hkept := kept_of_sets ((hsets j).mp h) hv
    rw [hfound] at hkept
    exact hkept
  · have hkept := kept_of_not_sets (fun hs => h ((hsets j).mpr hs)) hv
    exact hkept

theorem forword_ruleEngineFilter {time : ℕ} {w : Work} {v : Bool × Rule}
    (hv : ruleEngineFilter nng cj time w info = some v) : v.2.forword = info.forword := by
  have hplain : v.2.plain.forword = info.plain.forword :=
    congrArg Rule.forword (plain_ruleEngineFilter nng cj time w hv)
  exact hplain

theorem ruleStep_repub {conf : Conf} {time : ℕ} {w : Work} {i : ℕ} {run : InsertRun}
    {repub : Repub} (hopen : run.failed = false) (hi : run.st.rules[i]? = some info)
    (hon : info.enabled = true) (hrepub : info.forword = .repub repub)
    (hoption : (conf.ruleEngOption &&& ruleEngRpb) ≠ 0) :
    (ruleStep nng cj db conf time w run i).map (fun out => (out.st.rules, out.st.republished)) =
      (handleRule nng cj db i info ⟨time, w, false, []⟩).map (fun x =>
        (run.st.rules.set i x.2, run.st.republished ++ x.1.toList.filterMap (fun record =>
          match record with
          | .document json => some (repub.topic, cj.printUnformatted json)
          | .row _ => none))) := by
  rw [ruleStep_of_some hopen hi, if_pos hon, handleRule]
  cases hv : ruleEngineFilter nng cj time w info with
  | none => rfl
  | some v =>
    have hforword := forword_ruleEngineFilter hv
    obtain ⟨_ | _, r⟩ := v
    · simp
    · have hrepub' : r.forword = .repub repub := hforword.trans hrepub
      have hrecord : composeRecord cj db time w i r false [] =
          some (.document (addInfoToJson cj time w r), r.payload) := by
        rw [composeRecord, hrepub']
      have hforward : ∀ run', forwardRule cj db conf time w i r run' =
          some { run' with st := { run'.st with
            republished := run'.st.republished ++
              [(repub.topic, cj.printUnformatted (addInfoToJson cj time w r))] } } := by
        intro run'
        rw [forwardRule, hrepub']
        exact if_pos hoption
      simp only [if_true, Option.bind_some, hrecord, hforward]
      rfl

theorem ruleStep_sqlite {conf : Conf} {time : ℕ} {w : Work} {run : InsertRun} {table : Bytes}
    (hopen : run.failed = false) (hi : run.st.rules[0]? = some info) (hon : info.enabled = true)
    (hsqlite : info.forword = .sqlite table) (hoption : sqliteOn conf = true) :
    (ruleStep nng cj db conf time w run 0).map (fun out => (out.st.rules, insertsOf out.st.calls)) =
      (handleRule nng cj db 0 info
          ⟨time, w, run.isNeedSet || run.st.isFirstTime, run.st.calls⟩).map (fun x =>
        (run.st.rules.set 0 x.2, insertsOf run.st.calls ++ x.1.toList.filterMap (fun record =>
          match record with
          | .document _ => none
          | .row text => (insertText text).map (fun sql => (0, sql))))) := by
  rw [ruleStep_of_some hopen hi, if_pos hon, handleRule]
  cases hv : ruleEngineFilter nng cj time w info with
  | none => rfl
  | some v =>
    have hforword := forword_ruleEngineFilter hv
    obtain ⟨_ | _, r⟩ := v
    · simp
    · have hsqlite' : r.forword = .sqlite table := hforword.trans hsqlite
      have htable : r.sqliteTable = some table := by rw [Rule.sqliteTable, hsqlite']
      have hget : (run.st.rules.set 0 r)[0]? = some r := by
        rw [List.getElem?_set_self (List.getElem?_eq_some_iff.mp hi).1]
      have hrecord : ∀ need calls, composeRecord cj db time w 0 r need calls =
          (composeRow cj db time w 0 r need calls).map (fun c => (.row c.text, c.payload)) := by
        intro need calls
        rw [composeRecord, hsqlite']
      have hforward : ∀ run', forwardRule cj db conf time w 0 r run' =
          ruleEngineInsertSqlite cj db time w 0 0 run' := by
        intro run'
        rw [forwardRule, hsqlite']
        exact if_pos hoption
      simp only [if_true, Option.bind_some, hrecord, hforward, ruleEngineInsertSqlite, Nat.add_zero,
        hget]
      cases hc : composeRow cj db time w 0 r (run.isNeedSet || run.st.isFirstTime) run.st.calls with
      | none => rfl
      | some c =>
        have hinserts := (storesRow_composeRow htable hc).inserts
        simp only [Option.map_some, insertsOf_executeRow, hinserts, rules_executeRow, List.set_set,
          Option.toList_some, List.filterMap_cons, List.filterMap_nil]
        cases insertText c.text <;> rfl

end Step

end NanoMQ
