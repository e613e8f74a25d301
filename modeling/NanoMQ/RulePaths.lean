import NanoMQ.RulePlain

/-!
# What a message leaves in a rule

A rule keeps the values that `payload_filter` finds. `foundValue` says which paths a payload sets:
the loop stops at the first path that does not pass, and only numbers, strings and objects are kept.
Everything else in the rule stays, and so do the values at the other paths.
-/

namespace NanoMQ

open ByteBuffer

def Rule.kept (r : Rule) (k : ℕ) : Option PayloadValue := r.payload[k]?.bind RulePayload.value

def Json.kept : Json → Option PayloadValue
  | .number n => some (.number n)
  | .string s => some (.string (cstr s))
  | .object members => some (.object (.object members))
  | .null | .bool _ | .array _ => none

/-- What a payload puts at a path: the loop gets there, and the value is of a kind that is kept. -/
def foundValue (cj : Cjson) (root : Option Json) (ps : List RulePayload) (k : ℕ) :
    Option PayloadValue :=
  if (ps.take (k + 1)).all (RulePayload.passes cj root) then
    ps[k]?.bind (fun p => (p.resolve cj root).bind Json.kept)
  else none

structure Reached (nng : Nng) (time : ℕ) (w : Work) (info : Rule) : Prop where
  foreign : suppressed w info = some false
  topic : nng.topicFilter info.topic w.packet.topicBody = true
  fields : ∀ filter, info.filter = some filter →
    fieldLoop time w info filter RuleField.all = some true ∧ w.packet.hasPayload = true

/-- The rule matches: with a WHERE clause every path has to pass as well. -/
def Matched (nng : Nng) (cj : Cjson) (time : ℕ) (w : Work) (info : Rule) : Prop :=
  Reached nng time w info ∧
    (info.filter.isSome → ∀ p ∈ info.payload, p.passes cj (pubJson cj w.packet) = true)

def SetsPath (nng : Nng) (cj : Cjson) (time : ℕ) (w : Work) (info : Rule) (k : ℕ) : Prop :=
  Reached nng time w info ∧ (foundValue cj (pubJson cj w.packet) info.payload k).isSome

section Paths

variable {cj : Cjson} {root : Option Json}

theorem snd_payloadStep (cj : Cjson) (p : RulePayload) (v : Json) :
    (payloadStep cj p v).2 =
      if (payloadStep cj p v).1 then { p with value := v.kept.or p.value } else p := by
  cases v
  case number n => simp only [payloadStep]; split_ifs <;> first | rfl | contradiction
  case string s => simp only [payloadStep]; split_ifs <;> first | rfl | contradiction
  case object ms => simp only [payloadStep]; split_ifs <;> first | rfl | contradiction
  all_goals rfl

theorem foundValue_cons_zero (p : RulePayload) (ps : List RulePayload) :
    foundValue cj root (p :: ps) 0 =
      if p.passes cj root then (p.resolve cj root).bind Json.kept else none := by
  simp [foundValue]

theorem foundValue_cons_succ (p : RulePayload) (ps : List RulePayload) (k : ℕ) :
    foundValue cj root (p :: ps) (k + 1) =
      if p.passes cj root then foundValue cj root ps k else none := by
  unfold foundValue
  cases hp : p.passes cj root <;> simp [hp]

/-- The loop of `payload_filter` sets what is found and leaves the rest. -/
theorem value_payloadLoop (ps : List RulePayload) (k : ℕ) :
    (payloadLoop cj root ps).2[k]?.bind RulePayload.value =
      (foundValue cj root ps k).or (ps[k]?.bind RulePayload.value) := by
  induction ps generalizing k with
  | nil => simp [payloadLoop, foundValue]
  | cons p ps ih =>
    have hpasses : p.passes cj root = (p.resolve cj root).any (fun v => (payloadStep cj p v).1) :=
      rfl
    rw [payloadLoop]
    cases hv : p.resolve cj root with
    | none =>
      rw [hv] at hpasses
      cases k <;> simp [foundValue_cons_zero, foundValue_cons_succ, hpasses]
    | some v =>
      rw [hv, Option.any_some] at hpasses
      have hsnd := snd_payloadStep cj p v
      rcases hs : payloadStep cj p v with ⟨_ | _, p'⟩
      · rw [hs] at hsnd hpasses
        cases k <;> simp [foundValue_cons_zero, foundValue_cons_succ, hpasses, hs, hsnd]
      · rw [hs] at hsnd hpasses
        cases k with
        | zero => simp [foundValue_cons_zero, hpasses, hs, hsnd, hv]
        | succ k => simp [foundValue_cons_succ, hpasses, hs, ih]

theorem foundValue_plain (ps : List RulePayload) (k : ℕ) :
    foundValue cj root (ps.map RulePayload.plain) k = foundValue cj root ps k := by
  have hpasses : RulePayload.passes cj root ∘ RulePayload.plain = RulePayload.passes cj root :=
    funext (passes_plain cj root)
  unfold foundValue
  rw [← List.map_take, List.all_map, hpasses, List.getElem?_map]
  cases ps[k]? <;> rfl

end Paths

section Filtered

variable {nng : Nng} {cj : Cjson} {time : ℕ} {w : Work} {info : Rule} {v : Bool × Rule} {k : ℕ}

theorem ruleEngineFilter_of_reached (cj : Cjson) (h : Reached nng time w info) :
    ∃ b, ruleEngineFilter nng cj time w info = some (b, (payloadFilter cj w.packet info).2) ∧
      (b = true ↔ Matched nng cj time w info) := by
  unfold ruleEngineFilter Matched
  rw [h.foreign, h.topic]
  cases hfilter : info.filter with
  | none => exact ⟨true, rfl, by simp [h]⟩
  | some filter =>
    obtain ⟨hfields, hpayload⟩ := h.fields filter hfilter
    refine ⟨(payloadFilter cj w.packet info).1, ?_, ?_⟩
    · simp [whereFilter, hfields, hpayload]
    · have hall : (payloadFilter cj w.packet info).1 =
          info.payload.all (RulePayload.passes cj (pubJson cj w.packet)) := fst_payloadLoop cj _ _
      rw [hall]
      simp [h]

theorem ruleEngineFilter_of_not_reached (h : ¬ Reached nng time w info)
    (hv : ruleEngineFilter nng cj time w info = some v) : v = (false, info) := by
  unfold ruleEngineFilter at hv
  rcases hown : suppressed w info with _ | _ | _
  · rw [hown] at hv
    cases hv
  · rw [hown] at hv
    cases hmatch : nng.topicFilter info.topic w.packet.topicBody with
    | false =>
      rw [hmatch] at hv
      exact (Option.some.inj hv).symm
    | true =>
      rw [hmatch] at hv
      cases hfilter : info.filter with
      | none => exact absurd ⟨hown, hmatch, fun f hf => by rw [hfilter] at hf; cases hf⟩ h
      | some filter =>
        rw [hfilter] at hv
        simp only [if_true, whereFilter] at hv
        rcases hfields : fieldLoop time w info filter RuleField.all with _ | _ | _
        · rw [hfields] at hv
          cases hv
        · rw [hfields] at hv
          exact (Option.some.inj hv).symm
        · rw [hfields] at hv
          cases hpayload : w.packet.hasPayload with
          | false =>
            rw [hpayload] at hv
            exact (Option.some.inj hv).symm
          | true =>
            refine absurd ⟨hown, hmatch, fun f hf => ?_⟩ h
            obtain rfl : filter = f := Option.some.inj (hfilter.symm.trans hf)
            exact ⟨hfields, hpayload⟩
  · rw [hown] at hv
    exact (Option.some.inj hv).symm

theorem matched_iff_of_filter (hv : ruleEngineFilter nng cj time w info = some v) :
    v.1 = true ↔ Matched nng cj time w info := by
  by_cases h : Reached nng time w info
  · obtain ⟨b, hb, hiff⟩ := ruleEngineFilter_of_reached cj h
    rw [Option.some.inj (hv.symm.trans hb)]
    exact hiff
  · rw [ruleEngineFilter_of_not_reached h hv]
    exact iff_of_false Bool.false_ne_true (fun hm => h hm.1)

theorem kept_of_sets (h : SetsPath nng cj time w info k)
    (hv : ruleEngineFilter nng cj time w info = some v) :
    v.2.kept k = foundValue cj (pubJson cj w.packet) info.payload k := by
  obtain ⟨b, hb, -⟩ := ruleEngineFilter_of_reached cj h.1
  obtain ⟨x, hx⟩ := Option.isSome_iff_exists.mp h.2
  rw [Option.some.inj (hv.symm.trans hb)]
  change (payloadLoop cj (pubJson cj w.packet) info.payload).2[k]?.bind RulePayload.value = _
  rw [value_payloadLoop, hx, Option.some_or]

theorem kept_of_not_sets (h : ¬ SetsPath nng cj time w info k)
    (hv : ruleEngineFilter nng cj time w info = some v) : v.2.kept k = info.kept k := by
  by_cases hreached : Reached nng time w info
  · obtain ⟨b, hb, -⟩ := ruleEngineFilter_of_reached cj hreached
    have hnone : foundValue cj (pubJson cj w.packet) info.payload k = none :=
      Option.not_isSome_iff_eq_none.mp (fun hsome => h ⟨hreached, hsome⟩)
    rw [Option.some.inj (hv.symm.trans hb)]
    change (payloadLoop cj (pubJson cj w.packet) info.payload).2[k]?.bind RulePayload.value = _
    rw [value_payloadLoop, hnone, Option.none_or]
    rfl
  · rw [ruleEngineFilter_of_not_reached hreached hv]

theorem reached_plain (r : Rule) : Reached nng time w r.plain ↔ Reached nng time w r :=
  ⟨fun h => ⟨h.foreign, h.topic, h.fields⟩, fun h => ⟨h.foreign, h.topic, h.fields⟩⟩

theorem setsPath_plain (r : Rule) (k : ℕ) :
    SetsPath nng cj time w r.plain k ↔ SetsPath nng cj time w r k := by
  unfold SetsPath
  rw [reached_plain, Rule.plain, foundValue_plain]

theorem matched_plain (r : Rule) :
    Matched nng cj time w r.plain ↔ Matched nng cj time w r := by
  unfold Matched
  rw [reached_plain, Rule.plain, List.forall_mem_map]
  simp only [passes_plain]

end Filtered

end NanoMQ
