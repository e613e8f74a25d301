import NanoMQ.RuleTests

/-!
# When does a rule match?

`RuleMatches` says what a rule with a WHERE clause stands for, in terms of the message and the
client that a work shows. It is the conjunction of the tests of the rule.
-/

namespace NanoMQ

open ByteBuffer

/-- What a rule can ask for in a PUBLISH with a payload, of a client with all its credentials. -/
structure RuleInput where
  qos : ℕ
  id : ℕ
  topic : Bytes
  clientid : Bytes
  username : Bytes
  password : Bytes
  time : ℕ
  payload : Bytes

inductive FieldValue
  | int (n : ℤ)
  | text (s : Bytes)

def FieldValue.Meets (cmp : RuleCmp) (f : Bytes) : FieldValue → Prop
  | .int n => IntMeets cmp n f
  | .text s => TextMeets cmp s f

def RuleInput.value (x : RuleInput) : RuleField → FieldValue
  | .qos => .int x.qos
  | .id => .int x.id
  | .topic => .text (cstr x.topic)
  | .clientid => .text (cstr x.clientid)
  | .username => .text (cstr x.username)
  | .password => .text (cstr x.password)
  | .timestamp => .int x.time
  | .payloadAll => .text x.payload

structure Shows (w : Work) (time : ℕ) (x : RuleInput) : Prop where
  qos : (w.packet.fixedHeader.qos : ℕ) = x.qos
  id : w.packet.packetId.toNat = x.id
  topic : w.packet.topicBody = some x.topic
  clientid : w.cparam.bind ConnParam.clientid = some x.clientid
  username : w.cparam.bind ConnParam.username = some x.username
  password : w.cparam.bind ConnParam.password = some x.password
  time : time = x.time
  payloadData : w.packet.payloadData = some x.payload
  payloadLen : w.packet.payloadLen = x.payload.length
  payload_ne : x.payload ≠ []

/-- A rule with a WHERE clause matches: the message is not of the client that would republish it,
the topic matches, every filter on a field holds, and every path leads to a value that satisfies
the filter on it. -/
structure RuleMatches (nng : Nng) (cj : Cjson) (x : RuleInput) (info : Rule)
    (filter : RuleField → Option Bytes) : Prop where
  foreign : ∀ repub own, info.forword = .repub repub → repub.clientid = some own →
    cstr x.clientid ≠ cstr own
  topic : nng.topicFilter info.topic (some x.topic) = true
  fields : ∀ j val, filter j = some val → (x.value j).Meets (info.cmpType j) val
  paths : ∀ p ∈ info.payload, ∃ v, p.resolve cj (cj.parseWithLength x.payload) = some v ∧
    ∀ f, p.filter = some f → v.Satisfies cj p.cmpType f

/-- The integers that are compared are those of 32 bits. -/
structure Int32Scope (cj : Cjson) (x : RuleInput) (info : Rule)
    (filter : RuleField → Option Bytes) : Prop where
  time : ∀ val, filter .timestamp = some val → IsInt32 x.time
  filters : ∀ j val, filter j = some val → ∀ k, integerOf val = some k → IsInt32 k
  numbers : ∀ p ∈ info.payload, ∀ n,
    p.resolve cj (cj.parseWithLength x.payload) = some (.number n) → IsInt32 n
  pathFilters : ∀ p ∈ info.payload, ∀ f, p.filter = some f → ∀ k, integerOf f = some k → IsInt32 k

section Tests

variable (nng : Nng) (cj : Cjson) (x : RuleInput) (info : Rule)
  (filter : RuleField → Option Bytes)

def foreignTests : List RuleTest :=
  match info.forword with
  | .repub repub => repub.clientid.toList.map (RuleTest.text .unequal (cstr x.clientid))
  | _ => []

def fieldTest (j : RuleField) (val : Bytes) : RuleTest :=
  match x.value j with
  | .int n => .int (info.cmpType j) n val
  | .text s => .text (info.cmpType j) s val

def valueTest (p : RulePayload) (v : Json) (f : Bytes) : RuleTest :=
  match v with
  | .number n => .int p.cmpType n f
  | .string s => .text p.cmpType (cstr s) f
  | v => .json p.cmpType p.isStore v f

def pathTests (p : RulePayload) : List RuleTest :=
  match p.resolve cj (cj.parseWithLength x.payload) with
  | none => [.decided false]
  | some v => p.filter.toList.map (valueTest p v)

def ruleTests : List RuleTest :=
  foreignTests x info ++ (.decided (nng.topicFilter info.topic (some x.topic)) ::
    (RuleField.all.flatMap (fun j => (filter j).toList.map (fieldTest x info j)) ++
      info.payload.flatMap (pathTests cj x)))

end Tests

section Holds

variable {nng : Nng} {cj : Cjson} {x : RuleInput} {info : Rule}
  {filter : RuleField → Option Bytes}

theorem holds_valueTest_iff (p : RulePayload) (v : Json) (f : Bytes) :
    (valueTest p v f).Holds cj ↔ v.Satisfies cj p.cmpType f := by
  cases v <;> rfl

theorem holds_fieldTest_iff (j : RuleField) (val : Bytes) :
    (fieldTest x info j val).Holds cj ↔ (x.value j).Meets (info.cmpType j) val := by
  unfold fieldTest
  cases x.value j <;> rfl

theorem holds_foreignTests_iff :
    (∀ t ∈ foreignTests x info, t.Holds cj) ↔
      ∀ repub own, info.forword = .repub repub → repub.clientid = some own →
        cstr x.clientid ≠ cstr own := by
  unfold foreignTests
  cases hforword : info.forword
  case repub repub =>
    simp only [List.forall_mem_map, Option.mem_toList]
    constructor
    · rintro h _ own ⟨⟩ hown
      exact h own hown
    · exact fun h own hown => h repub own rfl hown
  all_goals simp

theorem holds_pathTests_iff (p : RulePayload) :
    (∀ t ∈ pathTests cj x p, t.Holds cj) ↔
      ∃ v, p.resolve cj (cj.parseWithLength x.payload) = some v ∧
        ∀ f, p.filter = some f → v.Satisfies cj p.cmpType f := by
  unfold pathTests
  cases p.resolve cj (cj.parseWithLength x.payload) with
  | none => simp [RuleTest.Holds]
  | some v => simp [holds_valueTest_iff]

theorem ruleMatches_iff :
    RuleMatches nng cj x info filter ↔ ∀ t ∈ ruleTests nng cj x info filter, t.Holds cj := by
  have hfields : (∀ t ∈ RuleField.all.flatMap (fun j => (filter j).toList.map (fieldTest x info j)),
      t.Holds cj) ↔ ∀ j val, filter j = some val → (x.value j).Meets (info.cmpType j) val := by
    simp only [List.forall_mem_flatMap, List.forall_mem_map, Option.mem_toList,
      holds_fieldTest_iff]
    exact ⟨fun h j => h j j.mem_all, fun h j _ => h j⟩
  have hpaths : (∀ t ∈ info.payload.flatMap (pathTests cj x), t.Holds cj) ↔
      ∀ p ∈ info.payload, ∃ v, p.resolve cj (cj.parseWithLength x.payload) = some v ∧
        ∀ f, p.filter = some f → v.Satisfies cj p.cmpType f := by
    simp only [List.forall_mem_flatMap, holds_pathTests_iff]
  unfold ruleTests
  rw [List.forall_mem_append, List.forall_mem_cons, List.forall_mem_append, holds_foreignTests_iff,
    hfields, hpaths]
  exact ⟨fun h => ⟨h.foreign, h.topic, h.fields, h.paths⟩, fun h => ⟨h.1, h.2.1, h.2.2.1, h.2.2.2⟩⟩

end Holds

end NanoMQ
