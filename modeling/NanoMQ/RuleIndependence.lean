import NanoMQ.RuleOutput

/-!
# Does the record of a message depend on earlier ones?

A message changes the values at the paths that it sets and, once there is a row, resets the stored
ones. So the record of a message depends on the history exactly if some stored path is not set by
the message itself and can be left with a value by another one.
-/

namespace NanoMQ

open ByteBuffer

/-- The record of a message is the same after any two histories. -/
def Independent (nng : Nng) (cj : Cjson) (db : Sqlite) (index : ℕ) (info : Rule) (time : ℕ)
    (w : Work) : Prop :=
  ∀ h₁ h₂ r₁ r₂, afterHistory nng cj db index info h₁ = some r₁ →
    afterHistory nng cj db index info h₂ = some r₂ →
      ∀ need₁ need₂ calls₁ calls₂,
        ruleOutput nng cj db index r₁ ⟨time, w, need₁, calls₁⟩ =
          ruleOutput nng cj db index r₂ ⟨time, w, need₂, calls₂⟩

def Produces (nng : Nng) (cj : Cjson) (time : ℕ) (w : Work) (info : Rule) : Prop :=
  Matched nng cj time w info ∧ (info.tableName.isSome → info.Present w)

/-- The message puts a value at the path which no row takes out of the rule again. -/
def LeavesValue (nng : Nng) (cj : Cjson) (time : ℕ) (w : Work) (info : Rule) (k : ℕ) : Prop :=
  SetsPath nng cj time w info k ∧ (info.tableName.isSome → ¬ Matched nng cj time w info)

section Leaves

variable {nng : Nng} {cj : Cjson} {db : Sqlite} {index : ℕ} {info r' : Rule} {m : Handling}
  {out : Option RuleRecord} {k : ℕ}

theorem leavesValue_plain {time : ℕ} {w : Work} (r : Rule) (k : ℕ) :
    LeavesValue nng cj time w r.plain k ↔ LeavesValue nng cj time w r k := by
  unfold LeavesValue
  rw [setsPath_plain, matched_plain]
  rfl

/-- A stored path without a value stays so under a message that leaves none. -/
theorem kept_handleRule {p : RulePayload} (hflag : info.payloadFlag = true)
    (hp : info.plain.payload[k]? = some p) (hstored : p.stored.isSome) (hnone : info.kept k = none)
    (hleaves : ¬ LeavesValue nng cj m.time m.work info k)
    (h : handleRule nng cj db index info m = some (out, r')) : r'.kept k = none := by
  obtain ⟨v, hv, hcases⟩ := handleRule_cases h
  have hplain : v.2.plain = info.plain := plain_ruleEngineFilter nng cj _ _ hv
  have htable : v.2.plain.tableName = info.plain.tableName := congrArg Rule.tableName hplain
  have hmatched := matched_iff_of_filter hv
  have hkept : ¬ SetsPath nng cj m.time m.work info k → v.2.kept k = none :=
    fun hsets => (kept_of_not_sets hsets hv).trans hnone
  obtain ⟨hb, -, rfl⟩ | ⟨-, record, payload, hrecord, -, rfl⟩ := hcases
  · refine hkept (fun hsets => hleaves ⟨hsets, fun _ hm => ?_⟩)
    rw [← hmatched, hb] at hm
    cases hm
  · rw [payload_composeRecord hrecord]
    split_ifs with hsql
    · refine hkept (fun hsets => hleaves ⟨hsets, fun hsome => ?_⟩)
      rw [show info.tableName = none from htable.symm.trans hsql] at hsome
      cases hsome
    · have hflag' : v.2.plain.payloadFlag = info.plain.payloadFlag :=
        congrArg Rule.payloadFlag hplain
      rw [← hplain] at hp
      obtain ⟨q, hq, rfl⟩ := Option.map_eq_some_iff.mp ((List.getElem?_map ..).symm.trans hp)
      exact kept_composed (hflag'.trans hflag) hq hstored

theorem exists_kept_of_leaves (db : Sqlite) (index : ℕ)
    (h : LeavesValue nng cj m.time m.work info k) :
    ∃ out r', handleRule nng cj db index info m = some (out, r') ∧ (r'.kept k).isSome := by
  obtain ⟨b, hv, hb⟩ := ruleEngineFilter_of_reached cj h.1.1
  have hkept := kept_of_sets h.1 hv
  have hsome : ((payloadFilter cj m.work.packet info).2.kept k).isSome := by
    rw [hkept]
    exact h.1.2
  cases b with
  | false => exact ⟨none, _, by rw [handleRule, hv]; rfl, hsome⟩
  | true =>
    have htable : (payloadFilter cj m.work.packet info).2.tableName = none :=
      Option.not_isSome_iff_eq_none.mp (fun hs => h.2 hs (hb.mp rfl))
    refine ⟨some (.document
      (addInfoToJson cj m.time m.work (payloadFilter cj m.work.packet info).2)),
      _, ?_, hsome⟩
    rw [handleRule, hv, Option.bind_some, if_pos rfl, composeRecord_eq, if_pos htable]
    rfl

/-- A stored path that no message leaves with a value never has one between messages. -/
theorem kept_afterHistory {p : RulePayload} (hflag : info.payloadFlag = true)
    (hp : info.plain.payload[k]? = some p) (hstored : p.stored.isSome) (hnone : info.kept k = none)
    (hleaves : ∀ time w, ¬ LeavesValue nng cj time w info k) {history : List Handling} {r : Rule}
    (h : afterHistory nng cj db index info history = some r) : r.kept k = none := by
  have hinv : r.plain = info.plain ∧ r.kept k = none := by
    refine afterHistory_invariant (Q := fun r => r.plain = info.plain ∧ r.kept k = none) ?_
      ⟨rfl, hnone⟩ h
    rintro r m out r' ⟨hplain, hkept⟩ hstep
    have hflag' : r.payloadFlag = true := by
      change r.plain.payloadFlag = true
      rw [hplain]
      exact hflag
    have hp' : r.plain.payload[k]? = some p := by rw [hplain]; exact hp
    refine ⟨(plain_handleRule hstep).trans hplain,
      kept_handleRule hflag' hp' hstored hkept ?_ hstep⟩
    rw [← leavesValue_plain, hplain, leavesValue_plain]
    exact hleaves m.time m.work
  exact hinv.2

theorem plain_afterHistory {history : List Handling} {r : Rule}
    (h : afterHistory nng cj db index info history = some r) : r.plain = info.plain :=
  afterHistory_invariant (Q := fun r => r.plain = info.plain)
    (fun _ _ _ _ hq hstep => (plain_handleRule hstep).trans hq) rfl h

theorem kept_of_plain (hnew : info.plain = info) (j : ℕ) : info.kept j = none := by
  rw [← hnew]
  change (info.payload.map RulePayload.plain)[j]?.bind RulePayload.value = none
  rw [List.getElem?_map]
  cases info.payload[j]? <;> rfl

variable {time : ℕ} {w : Work}

/-- Without the values of a message that leaves one, the record of a message that does not set the
path is another. -/
theorem Independent.not_leaves (hnew : info.plain = info)
    (hind : Independent nng cj db index info time w) (hflag : info.payloadFlag = true)
    (hproduces : Produces nng cj time w info) {p : RulePayload} (hp : info.payload[k]? = some p)
    (hstored : p.stored.isSome) (hsets : ¬ SetsPath nng cj time w info k) (time' : ℕ) (w' : Work) :
    ¬ LeavesValue nng cj time' w' info k := by
  intro hleaves
  -- one message that leaves a value, against no history at all
  let m : Handling := ⟨time, w, false, []⟩
  let m' : Handling := ⟨time', w', false, []⟩
  obtain ⟨out, r, hr, hkept⟩ := exists_kept_of_leaves db index (m := m') hleaves
  have hafter : afterHistory nng cj db index info [m'] = some r := by
    simp [afterHistory, hr]
  obtain ⟨f, hf, hfs⟩ :=
    ruleOutput_of_matched db index (m := m) (rfl : info.plain = _) hproduces.1
  obtain ⟨g, hg, hgs⟩ :=
    ruleOutput_of_matched db index (m := m) (plain_handleRule hr) hproduces.1
  have hrecords := hind [] [m'] info r rfl hafter false false [] []
  rw [hf, hg] at hrecords
  have heq : recordOf cj time w info.plain f = recordOf cj time w info.plain g :=
    Option.map_injective (fun _ _ h => Option.some.inj h) hrecords
  have hle : ∀ j, f j = none ∨ f j = g j := by
    intro j
    by_cases hj : SetsPath nng cj time w info j
    · exact Or.inr (((hfs j).1 hj).trans ((hgs j).1 hj).symm)
    · exact Or.inl (((hfs j).2 hj).trans (kept_of_plain hnew j))
  rw [hnew] at heq
  have hsame := recordOf_inj hflag hle ((recordOf_isSome_iff f).mpr hproduces.2) heq hp hstored
  rw [(hfs k).2 hsets, (hgs k).2 hsets, kept_of_plain hnew k] at hsame
  rw [← hsame] at hkept
  cases hkept

/-- The record is the same after two histories that leave the same values at the stored paths that
the message does not set. -/
theorem ruleOutput_congr (hnew : info.plain = info) {r₁ r₂ : Rule} (h₁ : r₁.plain = info.plain)
    (h₂ : r₂.plain = info.plain)
    (hkept : info.payloadFlag = true → Produces nng cj time w info →
      ∀ k p, info.payload[k]? = some p → p.stored.isSome → ¬ SetsPath nng cj time w info k →
        r₁.kept k = r₂.kept k) (need₁ need₂ : Bool) (calls₁ calls₂ : List DbCall) :
    ruleOutput nng cj db index r₁ ⟨time, w, need₁, calls₁⟩ =
      ruleOutput nng cj db index r₂ ⟨time, w, need₂, calls₂⟩ := by
  by_cases hmatched : Matched nng cj time w info
  · obtain ⟨f, hf, hfs⟩ :=
      ruleOutput_of_matched db index (m := ⟨time, w, need₁, calls₁⟩) h₁ hmatched
    obtain ⟨g, hg, hgs⟩ :=
      ruleOutput_of_matched db index (m := ⟨time, w, need₂, calls₂⟩) h₂ hmatched
    rw [hf, hg, hnew]
    by_cases hpresent : info.tableName.isSome → info.Present w
    · congr 1
      refine recordOf_congr (fun hflag k p hp hstored => ?_)
      by_cases hsets : SetsPath nng cj time w info k
      · exact ((hfs k).1 hsets).trans ((hgs k).1 hsets).symm
      · rw [(hfs k).2 hsets, (hgs k).2 hsets]
        exact hkept hflag ⟨hmatched, hpresent⟩ k p hp hstored hsets
    · have hnone : ∀ kept, recordOf cj time w info kept = none := fun kept =>
        Option.not_isSome_iff_eq_none.mp (fun h => hpresent ((recordOf_isSome_iff kept).mp h))
      rw [hnone f, hnone g]
  · rw [ruleOutput_of_not_matched h₁ hmatched, ruleOutput_of_not_matched h₂ hmatched,
      ruleOutput_eq, ruleOutput_eq]

end Leaves

/-- The record of a message is the same after all histories exactly if every stored path that the
record shows is set by the message itself, or left with a value by no message. -/
theorem rule_output_independent_iff (nng : Nng) (cj : Cjson) (db : Sqlite) (index : ℕ) {info : Rule}
    (hnew : info.plain = info) (time : ℕ) (w : Work) :
    Independent nng cj db index info time w ↔
      (info.payloadFlag = true → Produces nng cj time w info →
        ∀ k p, info.payload[k]? = some p → p.stored.isSome →
          SetsPath nng cj time w info k ∨
            ∀ time' w', ¬ LeavesValue nng cj time' w' info k) := by
  constructor
  · intro hind hflag hproduces k p hp hstored
    rw [or_iff_not_imp_left]
    intro hsets
    exact hind.not_leaves hnew hflag hproduces hp hstored hsets
  · intro hcond h₁ h₂ r₁ r₂ hr₁ hr₂ need₁ need₂ calls₁ calls₂
    refine ruleOutput_congr hnew (plain_afterHistory hr₁) (plain_afterHistory hr₂) ?_ _ _ _ _
    intro hflag hproduces k p hp hstored hsets
    have hleaves := (hcond hflag hproduces k p hp hstored).resolve_left hsets
    rw [← hnew] at hp
    rw [kept_afterHistory hflag hp hstored (kept_of_plain hnew k) hleaves hr₁,
      kept_afterHistory hflag hp hstored (kept_of_plain hnew k) hleaves hr₂]

def Cjson.twoDocuments : Cjson where
  parseWithLength s :=
    if s = ascii "\x7b\"a\":5\x7d" then some (.object [(ascii "a", .number 5)])
    else if s = ascii "\x7b\x7d" then some (.object [])
    else none
  parse _ := none
  getObjectItem
    | .object members, key => members.lookup key
    | _, _ => none
  compare _ _ := false
  printUnformatted _ := []

def publishedUnder (topic payload : Bytes) : Work :=
  { Work.alloc .mqttBroker with
    cparam := some { ConnParam.bare with clientid := some (ascii "c") }
    pubPacket := some { PubPacket.zalloc with
      topicBody := some topic, topicLen := topic.length, payloadData := some payload
      payloadLen := payload.length } }

def repubMember : Rule where
  enabled := true
  forword := .repub ⟨none, ascii "r"⟩
  topic := ascii "t"
  filter := none
  cmpType _ := .none
  flag _ := false
  payloadFlag := true
  asName _ := none
  payload := [⟨[ascii "a"], some (ascii "a"), true, none, .none, none⟩]

theorem rule_output_independent_member :
    repubMember.plain = repubMember ∧
      Independent Nng.reference Cjson.twoDocuments Sqlite.willing 0 repubMember 0
        (publishedUnder (ascii "t") (ascii "\x7b\"a\":5\x7d")) := by
  refine ⟨rfl, (rule_output_independent_iff _ _ _ _ rfl _ _).mpr (fun _ _ k p hp _ => Or.inl ?_)⟩
  obtain rfl : k = 0 := by
    have hlt := (List.getElem?_eq_some_iff.mp hp).1
    exact Nat.lt_one_iff.mp hlt
  exact ⟨⟨rfl, by decide, fun _ h => by cases h⟩, rfl⟩

/-- A document shows the value of an earlier message, if its own payload has none. -/
theorem earlier_value_republished :
    let m := fun payload => (⟨0, publishedUnder (ascii "t") payload, false, []⟩ : Handling)
    let own : RuleRecord := .document (.object [])
    let stale : RuleRecord := .document (.object [(ascii "a", .number 5)])
    ruleOutput Nng.reference Cjson.twoDocuments Sqlite.willing 0 repubMember
        (m (ascii "\x7b\x7d")) = some (some own) ∧
      ∃ r, afterHistory Nng.reference Cjson.twoDocuments Sqlite.willing 0 repubMember
          [m (ascii "\x7b\"a\":5\x7d")] = some r ∧
        ruleOutput Nng.reference Cjson.twoDocuments Sqlite.willing 0 r (m (ascii "\x7b\x7d")) =
          some (some stale) :=
  ⟨rfl, _, rfl, rfl⟩

end NanoMQ
