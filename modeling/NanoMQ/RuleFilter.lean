import NanoMQ.Nng
import NanoMQ.RuleConf
import NanoMQ.Work

/-!
# Matching a message against a rule

`rule_engine_filter` and what it calls. The result is `none` where the code takes the `strlen` of a
`NULL` pointer, so that what it does is undefined. Values found in the payload are kept in the rule,
which is therefore returned as well.
-/

namespace NanoMQ

open ByteBuffer

def cmpInt (checked seted : ℤ) : RuleCmp → Bool
  | .none => true
  | .equal => checked = seted
  | .unequal => checked ≠ seted
  | .greater => seted < checked
  | .less => checked < seted
  | .greaterAndEqual => seted ≤ checked
  | .lessAndEqual => checked ≤ seted

/-- `cmp_str`: strings can be compared for equality and inequality, anything else passes. -/
def cmpStr (checked : Option Bytes) (len : ℕ) (seted : Bytes) (type : RuleCmp) : Bool :=
  match checked with
  | none => false
  | some s =>
    match type with
    | .equal => strncmp s seted len = 0
    | .unequal => strncmp s seted len ≠ 0
    | _ => true

def cmpCstr (s : Option Bytes) (seted : Bytes) (type : RuleCmp) : Option Bool :=
  s.map (fun b => cmpStr (some b) (strlen b) seted type)

def pubJson (cj : Cjson) (pkt : PubPacket) : Option Json :=
  pkt.payloadData.bind (fun d => cj.parseWithLength (d.take pkt.payloadLen))

def RulePayload.resolve (cj : Cjson) (root : Option Json) (p : RulePayload) : Option Json :=
  p.psa.foldl (fun jp key => jp.bind (fun v => cj.getObjectItem v key)) root

def payloadStep (cj : Cjson) (p : RulePayload) (v : Json) : Bool × RulePayload :=
  match v with
  | .number n =>
    if p.filter.any (fun f => !cmpInt (wrap32 n) (atoi f) p.cmpType) then (false, p)
    else (true, { p with value := some (.number n) })
  | .string s =>
    if p.filter.any (fun f => !cmpStr (some s) (strlen s) f p.cmpType) then (false, p)
    else (true, { p with value := some (.string (cstr s)) })
  | .object _ =>
    if !p.isStore && (p.filter.bind cj.parse).any (fun g => !cj.compare v g) then (false, p)
    else (true, { p with value := some (.object v) })
  | _ => (true, p)

/-- The loop of `payload_filter`, which changes nothing more once `filter` is false. -/
def payloadLoop (cj : Cjson) (root : Option Json) : List RulePayload → Bool × List RulePayload
  | [] => (true, [])
  | p :: ps =>
    match p.resolve cj root with
    | none => (false, p :: ps)
    | some v =>
      let (filter, p') := payloadStep cj p v
      if filter then
        let (filter, ps') := payloadLoop cj root ps
        (filter, p' :: ps')
      else (false, p' :: ps)

def payloadFilter (cj : Cjson) (pkt : PubPacket) (info : Rule) : Bool × Rule :=
  let (filter, payload) := payloadLoop cj (pubJson cj pkt) info.payload
  (filter, { info with payload := payload })

def PubPacket.hasPayload (pkt : PubPacket) : Bool := pkt.payloadData.isSome && 0 < pkt.payloadLen

section Filter

variable (nng : Nng) (cj : Cjson) (time : ℕ) (w : Work)

def fieldFilter (info : Rule) (j : RuleField) (val : Bytes) : Option Bool :=
  let pkt := w.packet
  match j with
  | .qos => some (cmpInt pkt.fixedHeader.qos (atoi val) (info.cmpType j))
  | .id => some (cmpInt pkt.packetId.toNat (atoi val) (info.cmpType j))
  | .topic => cmpCstr pkt.topicBody val (info.cmpType j)
  | .clientid => cmpCstr (w.cparam.bind ConnParam.clientid) val (info.cmpType j)
  | .username => cmpCstr (w.cparam.bind ConnParam.username) val (info.cmpType j)
  | .password => cmpCstr (w.cparam.bind ConnParam.password) val (info.cmpType j)
  | .timestamp => some (cmpInt (wrap32 time) (atoi val) (info.cmpType j))
  | .payloadAll =>
    some (pkt.hasPayload && cmpStr pkt.payloadData pkt.payloadLen val (info.cmpType j))

def fieldLoop (info : Rule) (filter : RuleField → Option Bytes) : List RuleField → Option Bool
  | [] => some true
  | j :: js =>
    match filter j with
    | none => fieldLoop info filter js
    | some val =>
      match fieldFilter time w info j val with
      | none => none
      | some false => some false
      | some true => fieldLoop info filter js

/-- The loop with its last round, `RULE_PAYLOAD_FIELD`, which takes place without a filter. -/
def whereFilter (info : Rule) (filter : RuleField → Option Bytes) : Option (Bool × Rule) :=
  match fieldLoop time w info filter RuleField.all with
  | none => none
  | some false => some (false, info)
  | some true =>
    if w.packet.hasPayload then some (payloadFilter cj w.packet info) else some (false, info)

/-- Whether a republish rule holds back what its own client has published. -/
def suppressed (info : Rule) : Option Bool :=
  match info.forword with
  | .repub repub =>
    match repub.clientid with
    | some own => cmpCstr (w.cparam.bind ConnParam.clientid) own .equal
    | none => some false
  | _ => some false

/-- `rule_engine_filter`. Without a WHERE clause the outcome of `payload_filter` is ignored. -/
def ruleEngineFilter (info : Rule) : Option (Bool × Rule) :=
  match suppressed w info with
  | none => none
  | some true => some (false, info)
  | some false =>
    if nng.topicFilter info.topic w.packet.topicBody then
      match info.filter with
      | some filter => whereFilter cj time w info filter
      | none => some (true, (payloadFilter cj w.packet info).2)
    else some (false, info)

end Filter

def RulePayload.passes (cj : Cjson) (root : Option Json) (p : RulePayload) : Bool :=
  (p.resolve cj root).any (fun v => (payloadStep cj p v).1)

theorem fst_payloadLoop (cj : Cjson) (root : Option Json) (ps : List RulePayload) :
    (payloadLoop cj root ps).1 = ps.all (RulePayload.passes cj root) := by
  induction ps with
  | nil => rfl
  | cons p ps ih =>
    rw [payloadLoop, List.all_cons, RulePayload.passes]
    cases hv : p.resolve cj root with
    | none => rfl
    | some v =>
      rcases hs : payloadStep cj p v with ⟨_ | _, p'⟩
      · simp [hs]
      · simp [hs, ih]

/-- The loop over the fields in terms of its tests, where the data they look at are there. -/
theorem fieldLoop_eq {time : ℕ} {w : Work} {info : Rule} {filter : RuleField → Option Bytes}
    {passes : RuleField → Bytes → Bool}
    (h : ∀ j val, filter j = some val → fieldFilter time w info j val = some (passes j val))
    (js : List RuleField) :
    fieldLoop time w info filter js =
      some (js.all (fun j => ((filter j).toList.map (passes j)).all id)) := by
  induction js with
  | nil => rfl
  | cons j js ih =>
    rw [fieldLoop, List.all_cons]
    cases hj : filter j with
    | none => exact ih
    | some val =>
      dsimp only
      rw [h j val hj, Option.toList_some, List.map_singleton, List.all_cons, List.all_nil,
        Bool.and_true]
      cases passes j val with
      | false => rfl
      | true => exact ih

end NanoMQ
