import NanoMQ.RuleFilter

/-!
# Rules as they were configured

A rule keeps values that it found in payloads. Whether it matches does not depend on them, and
matching changes nothing else.
-/

namespace NanoMQ

open ByteBuffer

def RulePayload.plain (p : RulePayload) : RulePayload := { p with value := none }

def Rule.plain (r : Rule) : Rule := { r with payload := r.payload.map RulePayload.plain }

section Plain

variable (nng : Nng) (cj : Cjson) (time : ℕ) (w : Work)

theorem passes_plain (root : Option Json) (p : RulePayload) :
    p.plain.passes cj root = p.passes cj root := by
  unfold RulePayload.passes
  change (p.resolve cj root).any _ = _
  cases p.resolve cj root with
  | none => rfl
  | some v =>
    cases v
    case number n => simp only [Option.any_some, payloadStep, apply_ite Prod.fst]; rfl
    case string s => simp only [Option.any_some, payloadStep, apply_ite Prod.fst]; rfl
    case object ms => simp only [Option.any_some, payloadStep, apply_ite Prod.fst]; rfl
    all_goals rfl

theorem fst_payloadFilter_plain (pkt : PubPacket) (info : Rule) :
    (payloadFilter cj pkt info.plain).1 = (payloadFilter cj pkt info).1 := by
  unfold payloadFilter
  dsimp only
  rw [fst_payloadLoop, fst_payloadLoop, Rule.plain, List.all_map]
  congr 1
  funext p
  exact passes_plain cj _ p

theorem fst_whereFilter_eq (info : Rule) (filter : RuleField → Option Bytes) :
    (whereFilter cj time w info filter).map Prod.fst =
      (fieldLoop time w info filter RuleField.all).map
        (fun b => b && (w.packet.hasPayload && (payloadFilter cj w.packet info).1)) := by
  unfold whereFilter
  rcases fieldLoop time w info filter RuleField.all with _ | _ | _
  · rfl
  · rfl
  · cases w.packet.hasPayload <;> rfl

theorem fst_ruleEngineFilter_eq (r : Rule) :
    (ruleEngineFilter nng cj time w r).map Prod.fst =
      (suppressed w r).bind (fun own =>
        if own then some false
        else if nng.topicFilter r.topic w.packet.topicBody then
          r.filter.elim (some true) (fun f => (whereFilter cj time w r f).map Prod.fst)
        else some false) := by
  unfold ruleEngineFilter
  rcases suppressed w r with _ | _ | _
  · rfl
  · cases nng.topicFilter r.topic w.packet.topicBody with
    | false => rfl
    | true => cases r.filter <;> rfl
  · rfl

/-- Whether a rule matches does not depend on what it keeps. -/
theorem fst_ruleEngineFilter_plain (r : Rule) :
    (ruleEngineFilter nng cj time w r.plain).map Prod.fst =
      (ruleEngineFilter nng cj time w r).map Prod.fst := by
  have hwhere : (fun f => (whereFilter cj time w r.plain f).map Prod.fst) =
      (fun f => (whereFilter cj time w r f).map Prod.fst) := by
    funext f
    rw [fst_whereFilter_eq, fst_whereFilter_eq, fst_payloadFilter_plain]
    rfl
  rw [fst_ruleEngineFilter_eq, fst_ruleEngineFilter_eq, hwhere]
  rfl

theorem plain_payloadStep (p : RulePayload) (v : Json) :
    (payloadStep cj p v).2.plain = p.plain := by
  cases v
  case number n => simp only [payloadStep]; split_ifs <;> rfl
  case string s => simp only [payloadStep]; split_ifs <;> rfl
  case object ms => simp only [payloadStep]; split_ifs <;> rfl
  all_goals rfl

theorem plain_payloadLoop (root : Option Json) (ps : List RulePayload) :
    (payloadLoop cj root ps).2.map RulePayload.plain = ps.map RulePayload.plain := by
  induction ps with
  | nil => rfl
  | cons p ps ih =>
    rw [payloadLoop]
    cases p.resolve cj root with
    | none => rfl
    | some v =>
      have hstep := plain_payloadStep cj p v
      rcases hs : payloadStep cj p v with ⟨_ | _, p'⟩ <;> rw [hs] at hstep
      · simpa [hs] using hstep
      · simpa [hs, ih] using hstep

theorem ruleEngineFilter_snd {r r' : Rule} {b : Bool}
    (h : ruleEngineFilter nng cj time w r = some (b, r')) :
    r' = r ∨ r' = (payloadFilter cj w.packet r).2 := by
  unfold ruleEngineFilter whereFilter at h
  split at h
  · cases h
  · cases h
    exact Or.inl rfl
  · split at h
    · split at h
      · split at h
        · cases h
        · cases h
          exact Or.inl rfl
        · split at h
          · exact Or.inr (congrArg Prod.snd (Option.some.inj h)).symm
          · cases h
            exact Or.inl rfl
      · cases h
        exact Or.inr rfl
    · cases h
      exact Or.inl rfl

theorem plain_ruleEngineFilter {r r' : Rule} {b : Bool}
    (h : ruleEngineFilter nng cj time w r = some (b, r')) : r'.plain = r.plain := by
  rcases ruleEngineFilter_snd nng cj time w h with rfl | rfl
  · rfl
  · unfold payloadFilter Rule.plain
    dsimp only
    rw [plain_payloadLoop]

end Plain

end NanoMQ
