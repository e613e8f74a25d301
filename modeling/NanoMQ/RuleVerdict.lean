import NanoMQ.Reference
import NanoMQ.RuleMatch
import NanoMQ.TestVerdict

/-!
# Is the verdict on a rule right?

`rule_engine_filter` computes the conjunction of the tests of a rule, so that its verdict on a rule
with a WHERE clause is right exactly when the tests that slip do not decide it.
-/

namespace NanoMQ

open ByteBuffer TestVerdict

section Verdict

variable {nng : Nng} {cj : Cjson} {time : ℕ} {w : Work} {x : RuleInput} {info : Rule}
  {filter : RuleField → Option Bytes}

theorem cmpStr_cstr (s : Bytes) (n : ℕ) (f : Bytes) (cmp : RuleCmp) :
    cmpStr (some (cstr s)) n f cmp = cmpStr (some s) n f cmp := by
  have hzero : strncmp (cstr s) f n = 0 ↔ strncmp s f n = 0 := by
    rw [strncmp_eq_zero_iff, strncmp_eq_zero_iff, cstr_cstr]
  cases cmp <;> simp [cmpStr, hzero]

theorem cmpCstr_some (cj : Cjson) (s f : Bytes) (cmp : RuleCmp) :
    cmpCstr (some s) f cmp = some ((RuleTest.text cmp (cstr s) f).passes cj) := by
  rw [RuleTest.passes, cmpStr_cstr]
  rfl

theorem Shows.hasPayload (hx : Shows w time x) : w.packet.hasPayload = true := by
  have hpos : 0 < x.payload.length := List.length_pos_iff.mpr hx.payload_ne
  simp [PubPacket.hasPayload, hx.payloadData, hx.payloadLen, hpos]

theorem Shows.suppressed_eq (hx : Shows w time x) (cj : Cjson) :
    suppressed w info = some (!(foreignTests x info).all (RuleTest.passes cj)) := by
  unfold suppressed foreignTests
  cases info.forword
  case repub repub =>
    dsimp only
    cases hown : repub.clientid with
    | none => rfl
    | some own =>
      dsimp only
      rw [hx.clientid, cmpCstr_some cj]
      simp [RuleTest.passes, cmpStr]
  all_goals rfl

theorem Shows.fieldFilter_eq (hx : Shows w time x) (cj : Cjson) {j : RuleField} {val : Bytes}
    (htime : j = .timestamp → IsInt32 x.time) :
    fieldFilter time w info j val = some ((fieldTest x info j val).passes cj) := by
  cases j
  case qos => rw [fieldFilter, hx.qos]; rfl
  case id => rw [fieldFilter, hx.id]; rfl
  case topic => rw [fieldFilter, hx.topic]; exact cmpCstr_some cj _ _ _
  case clientid => rw [fieldFilter, hx.clientid]; exact cmpCstr_some cj _ _ _
  case username => rw [fieldFilter, hx.username]; exact cmpCstr_some cj _ _ _
  case password => rw [fieldFilter, hx.password]; exact cmpCstr_some cj _ _ _
  case timestamp => rw [fieldFilter, hx.time, wrap32_of_isInt32 (htime rfl)]; rfl
  case payloadAll =>
    rw [fieldFilter, hx.hasPayload, hx.payloadData, hx.payloadLen, Bool.true_and]
    rfl

theorem fst_payloadStep (p : RulePayload) {v : Json} (hv : ∀ n, v = .number n → IsInt32 n) :
    (payloadStep cj p v).1 = (p.filter.toList.map (valueTest p v)).all (RuleTest.passes cj) := by
  cases v
  case number n =>
    rw [payloadStep, wrap32_of_isInt32 (hv n rfl)]
    cases hf : p.filter with
    | none => rfl
    | some f => cases h : cmpInt n (atoi f) p.cmpType <;> simp [valueTest, RuleTest.passes, h]
  case string s =>
    rw [payloadStep]
    cases hf : p.filter with
    | none => rfl
    | some f =>
      have hpass : (valueTest p (.string s) f).passes cj =
          cmpStr (some s) (strlen s) f p.cmpType := cmpStr_cstr s _ f p.cmpType
      cases h : cmpStr (some s) (strlen s) f p.cmpType <;> simp [hpass, h]
  case object members =>
    rw [payloadStep]
    cases hf : p.filter with
    | none => simp
    | some f =>
      cases hs : p.isStore <;>
        cases hg : (cj.parse f).any (fun g => !cj.compare (.object members) g) <;>
        simp [valueTest, RuleTest.passes, hs, hg]
  all_goals cases hf : p.filter <;> simp [payloadStep, valueTest, RuleTest.passes]

theorem passes_path_eq {p : RulePayload}
    (hp : ∀ n, p.resolve cj (cj.parseWithLength x.payload) = some (.number n) → IsInt32 n) :
    p.passes cj (cj.parseWithLength x.payload) =
      (pathTests cj x p).all (RuleTest.passes cj) := by
  unfold RulePayload.passes pathTests
  cases hv : p.resolve cj (cj.parseWithLength x.payload) with
  | none => rfl
  | some v =>
    rw [Option.any_some, fst_payloadStep]
    rintro n rfl
    exact hp n hv

theorem Shows.pubJson_eq (hx : Shows w time x) :
    pubJson cj w.packet = cj.parseWithLength x.payload := by
  rw [pubJson, hx.payloadData, hx.payloadLen, Option.bind_some, List.take_length]

theorem Shows.fst_whereFilter (hx : Shows w time x) (hscope : Int32Scope cj x info filter) :
    (whereFilter cj time w info filter).map Prod.fst =
      some (RuleField.all.all
          (fun j => ((filter j).toList.map (fieldTest x info j)).all (RuleTest.passes cj)) &&
        info.payload.all (fun p => (pathTests cj x p).all (RuleTest.passes cj))) := by
  have hfields : fieldLoop time w info filter RuleField.all = some (RuleField.all.all
      (fun j => ((filter j).toList.map (fieldTest x info j)).all (RuleTest.passes cj))) := by
    rw [fieldLoop_eq (fun j val hj => hx.fieldFilter_eq cj
      (fun htime => hscope.time val (htime ▸ hj)))]
    simp only [List.all_map]
    rfl
  have hpaths : (payloadFilter cj w.packet info).1 =
      info.payload.all (fun p => (pathTests cj x p).all (RuleTest.passes cj)) := by
    rw [payloadFilter, hx.pubJson_eq]
    dsimp only
    rw [fst_payloadLoop, Bool.eq_iff_iff, List.all_eq_true, List.all_eq_true]
    refine forall₂_congr (fun p hp => ?_)
    rw [passes_path_eq (hscope.numbers p hp)]
  rw [whereFilter, hfields, hx.hasPayload, ← hpaths]
  cases RuleField.all.all _ <;> rfl

/-- `rule_engine_filter` is the conjunction of its tests. -/
theorem Shows.fst_ruleEngineFilter (hx : Shows w time x) (hfilter : info.filter = some filter)
    (hscope : Int32Scope cj x info filter) :
    (ruleEngineFilter nng cj time w info).map Prod.fst =
      some ((ruleTests nng cj x info filter).all (RuleTest.passes cj)) := by
  rw [ruleTests, List.all_append, List.all_cons, List.all_append, List.all_flatMap,
    List.all_flatMap, ruleEngineFilter, hx.suppressed_eq cj, hx.topic, hfilter]
  cases (foreignTests x info).all (RuleTest.passes cj) with
  | false => rfl
  | true =>
    change Option.map _ (if _ then _ else _) = some (nng.topicFilter info.topic (some x.topic) && _)
    cases nng.topicFilter info.topic (some x.topic) with
    | false => rfl
    | true => exact hx.fst_whereFilter hscope

theorem inRange_ruleTests (hscope : Int32Scope cj x info filter) :
    ∀ t ∈ ruleTests nng cj x info filter, t.InRange := by
  rw [ruleTests, List.forall_mem_append, List.forall_mem_cons, List.forall_mem_append]
  refine ⟨?_, trivial, ?_, ?_⟩
  · unfold foreignTests
    cases info.forword
    case repub repub =>
      rw [List.forall_mem_map]
      exact fun _ _ => trivial
    all_goals simp
  · simp only [List.forall_mem_flatMap, List.forall_mem_map, Option.mem_toList]
    intro j _ val hval
    unfold fieldTest
    cases x.value j with
    | int n => exact hscope.filters j val hval
    | text s => trivial
  · simp only [List.forall_mem_flatMap]
    intro p hp t ht
    unfold pathTests at ht
    cases hv : p.resolve cj (cj.parseWithLength x.payload) with
    | none =>
      rw [hv, List.mem_singleton] at ht
      rw [ht]
      trivial
    | some v =>
      rw [hv] at ht
      obtain ⟨f, hf, rfl⟩ := List.mem_map.mp ht
      cases v
      case number n => exact hscope.pathFilters p hp f (Option.mem_toList.mp hf)
      all_goals trivial

end Verdict

/-- `rule_engine_filter` is right about a rule with a WHERE clause exactly when the tests that slip
do not decide it. -/
theorem ruleEngineFilter_matches_iff {nng : Nng} {cj : Cjson} {time : ℕ} {w : Work} {x : RuleInput}
    (hx : Shows w time x) {info : Rule} {filter : RuleField → Option Bytes}
    (hfilter : info.filter = some filter) (hscope : Int32Scope cj x info filter) :
    ((ruleEngineFilter nng cj time w info).map Prod.fst = some true ↔
        RuleMatches nng cj x info filter) ↔
      ¬ Misled (RuleTest.Holds cj) (RuleTest.Slips cj) (ruleTests nng cj x info filter) := by
  rw [hx.fst_ruleEngineFilter hfilter hscope, Option.some.injEq, ruleMatches_iff]
  exact all_iff_holds_iff (fun t ht => t.passes_iff (inRange_ruleTests hscope t ht) cj)

def Cjson.integers : Cjson where
  parseWithLength s := (integerOf s).map .number
  parse s := (integerOf s).map .number
  getObjectItem _ _ := none
  compare
    | .number m, .number n => m = n
    | _, _ => false
  printUnformatted
    | .number n => ascii (toString n)
    | _ => []

def publishedFive (cid : Bytes) : Work :=
  { Work.alloc .mqttBroker with
    cparam := some { ConnParam.bare with
      clientid := some cid, username := some (ascii "u"), password := some (ascii "p") }
    pubPacket := some { PubPacket.zalloc with
      topicBody := some (ascii "t"), topicLen := 1, payloadData := some (ascii "5")
      payloadLen := 1 } }

def shownFive (cid : Bytes) : RuleInput :=
  ⟨0, 0, ascii "t", cid, ascii "u", ascii "p", 0, ascii "5"⟩

theorem shows_publishedFive (cid : Bytes) : Shows (publishedFive cid) 0 (shownFive cid) :=
  ⟨rfl, rfl, rfl, rfl, rfl, rfl, rfl, rfl, rfl, show ascii "5" ≠ [] by decide⟩

def clientFilter (cid : Bytes) : RuleField → Option Bytes
  | .clientid => some cid
  | _ => none

/-- Republishes, as client `own`, what the client `cid` publishes under `t` above three. -/
def clientRule (own cid : Bytes) : Rule where
  enabled := true
  forword := .repub ⟨some own, ascii "r"⟩
  topic := ascii "t"
  filter := some (clientFilter cid)
  cmpType _ := .equal
  flag _ := true
  payloadFlag := false
  asName _ := none
  payload := [⟨[], none, false, some (ascii "3"), .greater, none⟩]

theorem int32Scope_clientRule (cid own cid' : Bytes) (h : integerOf cid' = none) :
    Int32Scope Cjson.integers (shownFive cid) (clientRule own cid') (clientFilter cid') where
  time val hval := by cases hval
  filters j val hval k hk := by
    cases j <;> cases hval
    rw [h] at hk
    cases hk
  numbers p hp n hn := by
    obtain rfl := List.mem_singleton.mp hp
    obtain rfl : n = 5 := by
      have hfive : Json.number 5 = .number n := Option.some.inj hn
      exact (Json.number.inj hfive).symm
    decide
  pathFilters p hp f hf k hk := by
    obtain rfl := List.mem_singleton.mp hp
    obtain rfl := Option.some.inj hf
    obtain rfl : k = 3 := (Option.some.inj hk).symm
    decide

theorem client_rule_matches :
    RuleMatches Nng.reference Cjson.integers (shownFive (ascii "admin"))
      (clientRule (ascii "repub") (ascii "admin")) (clientFilter (ascii "admin")) := by
  have hno : ∀ t ∈ ruleTests Nng.reference Cjson.integers (shownFive (ascii "admin"))
      (clientRule (ascii "repub") (ascii "admin")) (clientFilter (ascii "admin")),
      ¬ t.Slips Cjson.integers := by
    intro t ht
    change t ∈ [.text .unequal (ascii "admin") (ascii "repub"), .decided true,
      .text .equal (ascii "admin") (ascii "admin"), .int .greater 5 (ascii "3")] at ht
    simp only [List.mem_cons, List.not_mem_nil, or_false] at ht
    rcases ht with rfl | rfl | rfl | rfl
    · exact show ¬ CutShort (ascii "admin") (cstr (ascii "repub")) by decide
    · exact id
    · exact show ¬ CutShort (ascii "admin") (cstr (ascii "admin")) by decide
    · exact fun hslip => absurd hslip.1 (by decide)
  exact ((ruleEngineFilter_matches_iff (shows_publishedFive (ascii "admin")) rfl
    (int32Scope_clientRule _ _ _ (by decide))).mpr (not_misled_of_forall hno)).mp (by decide)

/-- A client is taken for another whose identifier its own begins, be it the one that the rule asks
for or the one that republishes. -/
theorem clientid_taken_for_longer :
    let x := shownFive (ascii "admin")
    (Shows (publishedFive (ascii "admin")) 0 x ∧
      (ruleEngineFilter Nng.reference Cjson.integers 0 (publishedFive (ascii "admin"))
        (clientRule (ascii "repub") (ascii "admin2"))).map Prod.fst = some true ∧
      ¬ RuleMatches Nng.reference Cjson.integers x (clientRule (ascii "repub") (ascii "admin2"))
        (clientFilter (ascii "admin2"))) ∧
    (ruleEngineFilter Nng.reference Cjson.integers 0 (publishedFive (ascii "admin"))
        (clientRule (ascii "admin2") (ascii "admin"))).map Prod.fst = some false ∧
      RuleMatches Nng.reference Cjson.integers x (clientRule (ascii "admin2") (ascii "admin"))
        (clientFilter (ascii "admin")) := by
  intro x
  refine ⟨⟨shows_publishedFive _, by decide, fun h => ?_⟩, by decide, ?_⟩
  · have heq : ascii "admin" = ascii "admin2" := h.fields .clientid _ rfl
    revert heq
    decide
  · refine ⟨?_, by decide, ?_, ?_⟩
    · rintro _ _ ⟨⟩ ⟨⟩
      decide
    · rintro (_ | _) _ ⟨⟩
      rfl
    · intro p hp
      obtain rfl := List.mem_singleton.mp hp
      refine ⟨.number 5, rfl, ?_⟩
      rintro _ ⟨⟩
      exact ⟨5, 3, rfl, by decide⟩

end NanoMQ
