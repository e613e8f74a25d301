import NanoMQ.BridgeDown
import NanoMQ.Framing
import NanoMQ.JsonAccess

/-!
# Publishing over HTTP

`POST mqtt/publish` takes an object and `POST mqtt/publish_batch` an array of them. An object asks
for a message under one or several topics. `send_publish` puts it into a frame for each topic, hands
the frames to the socket of the broker and stops at the first that is not taken. The code of an
object says whether all of its messages, none, or only the first have gone to the broker.

The allocations that may fail are those of the vector of the topics, of the list of properties and
of a frame. The others, most of which are not checked, are taken to succeed.
-/

namespace NanoMQ

open ByteBuffer

/-- What comes from outside: the codecs of base64, which give nothing where they return 0, the text
of a number under `%.17g`, the encoder of the SDK, whether the topics and the properties of the n-th
object are allocated, and whether the n-th frame is allocated and taken by the socket. -/
structure PublishEnv where
  base64Encode : Bytes → Bytes
  base64Decode : Bytes → Bytes
  numberText : ℚ → Bytes
  mqttMsgEncode : PubPacket → ProtoVer → Msg
  realloc : ℕ → Bool
  propertyAlloc : ℕ → Bool
  sends : ℕ → Bool

/-- What `send_publish` is called for: a client identifier, which is a C string, the topics, and the
packet but for its topic. -/
structure PublishCall where
  clientid : Bytes
  clientid_nul : (0 : UInt8) ∉ clientid
  topics : List Bytes
  fields : PubPacket

/-- The socket of the broker: the objects and the frames that were to be sent so far, and those of
the frames that were taken. -/
structure HttpSock where
  objects : ℕ
  calls : ℕ
  sent : List Msg

def HttpSock.start : HttpSock := ⟨0, 0, []⟩

inductive PublishReq
  | publish (body : Option (Json ℚ))
  | publishBatch (body : Option (Json ℚ))

def cstrMember (obj : Json ℚ) (name : String) : Option Bytes :=
  (obj.getStringValue (ascii name)).map cstr

def publishClient (obj : Json ℚ) : Bytes :=
  (cstrMember obj "clientid").getD (ascii "NanoMQ-HTTP-Client")

theorem not_mem_publishClient (obj : Json ℚ) : (0 : UInt8) ∉ publishClient obj := by
  unfold publishClient cstrMember
  cases obj.getStringValue (ascii "clientid") with
  | none => decide
  | some s => exact not_mem_cstr s

section Requests

variable (nng : Nng) (env : PublishEnv)

/-- The text of a user property, nothing for a value that is skipped, or `none` where the buffer of
64 bytes is too small. -/
def userValue : Json ℚ → Option (Option Bytes)
  | .number n => if (env.numberText n).length < 64 then some (env.numberText n) else none
  | .bool b => some (ascii (if b then "true" else "false"))
  | .string s => some (cstr s)
  | _ => some none

def userProperties : Option (Json ℚ) → Option PropertyList
  | none => some []
  | some (.object members) =>
      (members.mapM (fun m => (userValue env m.2).map (Option.map (fun value =>
        Property.mk 0x26 (.raw (put16 (cstr m.1).length ++ cstr m.1 ++
          (put16 value.length ++ value))))))).map List.reduceOption
  | some _ => none

def propertiesParse (json : Json ℚ) : Option PropertyList :=
  let number (name : String) (id : UInt8) (value : ℕ → PropertyValue) : Option Property :=
    (json.getNumberValue (ascii name)).map (fun x => ⟨id, value (Json.truncated x).toNat⟩)
  let text (name : String) (id : UInt8) : Option Property :=
    (cstrMember json name).map (fun s => ⟨id, .raw (put16 s.length ++ s)⟩)
  (userProperties env (json.getObjectItem (ascii "user_properties"))).map
    ([number "payload_format_indicator" 0x01 (fun n => .raw [UInt8.ofNat n]),
      number "message_expiry_interval" 0x02 (fun n => .u32 (UInt32.ofNat n)),
      text "response_topic" 0x08,
      text "correlation_data" 0x09,
      number "subscription_identifier" 0x0b (fun n => .u32 (UInt32.ofNat n)),
      text "content_type" 0x03].reduceOption ++ ·)

/-- `topic` or, where it is missing, the parts of `topics` that `strtok_r` finds. -/
def publishTopics (n : ℕ) (obj : Json ℚ) : Option (List Bytes) :=
  match cstrMember obj "topic" with
  | some topic => some [topic]
  | none =>
      (cstrMember obj "topics").bind (fun s =>
        let topics := (s.splitOn 0x2c).filter (· ≠ [])
        if topics = [] ∨ env.realloc n then some topics else none)

def publishProps (n : ℕ) (obj : Json ℚ) : Option (Option PropertyList) :=
  match obj.getObjectItem (ascii "properties") with
  | some (.object members) =>
      if env.propertyAlloc n then (propertiesParse env (.object members)).map some else none
  | _ => some none

def publishQos (obj : Json ℚ) : UInt8 :=
  ((obj.getNumberValue (ascii "qos")).map
    (fun x => UInt8.ofNat (Json.truncated x).toNat)).getD 0

def publishPayload (obj : Json ℚ) (payload : Bytes) : Bytes :=
  if cstrMember obj "encoding" = some (ascii "base64") then env.base64Encode payload
  else if cstrMember obj "decoding" = some (ascii "base64") then env.base64Decode payload
  else payload

/-- `handle_publish_msg` for the n-th object as far as `send_publish`; `none` for `goto out`. The
quality of service has two bits in the header. -/
def readPublish (n : ℕ) (obj : Json ℚ) : Option PublishCall := do
  let topics ← publishTopics env n obj
  let payload ← cstrMember obj "payload"
  let props ← publishProps env n obj
  return {
    clientid := publishClient obj
    clientid_nul := not_mem_publishClient obj
    topics := topics
    fields := { PubPacket.zalloc with
      fixedHeader := ⟨(obj.getBoolValue (ascii "retain")).getD false,
        Fin.ofNat 4 (publishQos obj).toNat, false, PacketType.publish, 0⟩
      properties := props
      payloadData := some (publishPayload env obj payload)
      payloadLen := (publishPayload env obj payload).length } }

namespace PublishCall

variable (c : PublishCall) (topic : Bytes)

def protover : ProtoVer :=
  if c.fields.properties.isSome then ProtoVer.v5 else ProtoVer.v311

def encoded : Msg :=
  env.mqttMsgEncode { c.fields with topicBody := some topic, topicLen := topic.length } c.protover

def frame : Msg := encodeCommonMqttMsg (c.encoded env topic) c.clientid c.protover

end PublishCall

def sendPublish (c : PublishCall) : List Bytes → HttpSock → Bool × HttpSock
  | [], s => (true, s)
  | topic :: topics, s =>
      if env.sends s.calls then
        sendPublish c topics ⟨s.objects, s.calls + 1, s.sent ++ [c.frame env topic]⟩
      else (false, ⟨s.objects, s.calls + 1, s.sent⟩)

/-- `handle_publish_msg`, which returns `SUCCEED`, `UNKNOWN_MISTAKE` or `REQ_PARAM_ERROR`. -/
def handlePublishMsg (obj : Json ℚ) (s : HttpSock) : ℤ × HttpSock :=
  let next : HttpSock := ⟨s.objects + 1, s.calls, s.sent⟩
  match readPublish env s.objects obj with
  | none => (108, next)
  | some c =>
      let r := sendPublish env c c.topics next
      (if r.1 then 0 else 102, r.2)

def handleAll {α β : Type} (handle : α → HttpSock → β × HttpSock) :
    List α → HttpSock → List β × HttpSock
  | [], s => ([], s)
  | a :: as, s =>
      let r := handle a s
      let rest := handleAll handle as r.2
      (r.1 :: rest.1, rest.2)

def postMqttMsg (body : Option (Json ℚ)) (s : HttpSock) : HttpAnswer × HttpSock :=
  match body with
  | some (.object members) =>
      let r := handlePublishMsg env (.object members) s
      (⟨200, Json.record [("code", .number r.1)]⟩, r.2)
  | _ => (errorResponse 400 109, s)

/-- The answer to an object of a batch, which looks for the topics in the other order. -/
def itemResult (item : Json ℚ) (code : ℤ) : Json :=
  .object (((cstrMember item "topics").or (cstrMember item "topic")).toList.map
    (fun topic => (ascii "topic", .string topic)) ++ [(ascii "code", .number code)])

def batchResult (items : List (Json ℚ)) (codes : List ℤ) : Json :=
  Json.record [("data", .array (List.zipWith itemResult items codes)), ("code", .number 0)]

def postMqttMsgBatch (body : Option (Json ℚ)) (s : HttpSock) : HttpAnswer × HttpSock :=
  match body with
  | some (.array items) =>
      let r := handleAll (handlePublishMsg env) items s
      (⟨200, batchResult items r.1⟩, r.2)
  | _ => (errorResponse 400 109, s)

def PublishReq.post : PublishReq → HttpSock → HttpAnswer × HttpSock
  | .publish body => postMqttMsg env body
  | .publishBatch body => postMqttMsgBatch env body

def PublishReq.objects : PublishReq → Option (List (Json ℚ))
  | .publish (some (.object members)) => some [.object members]
  | .publishBatch (some (.array items)) => some items
  | _ => none

/-- What the frame asks of the message: the SDK makes a PUBLISH of it, and the lengths fit. -/
structure PublishCall.Sound (c : PublishCall) (topic : Bytes) : Prop where
  publish : (c.encoded env topic).getType = PacketType.publish
  header_lt : (c.encoded env topic).header.length < 4294967296
  body_lt : (c.encoded env topic).body.length < 4294967296
  clientid_lt : c.clientid.length + 1 < 4294967296

def PublishReq.Sound (req : PublishReq) : Prop :=
  ∀ objs ∈ req.objects, ∀ obj ∈ objs, ∀ n, ∀ c ∈ readPublish env n obj, ∀ topic ∈ c.topics,
    c.Sound env topic

/-- A work of the HTTP server that receives the frame takes up the message that the SDK encoded,
from the client. -/
def Carries (c : PublishCall) (topic : Bytes) (frame : Msg) : Prop :=
  frame = c.frame env topic ∧ ∀ conf h (e : StepEnv) (s : Sys),
    s.work.state = .recv → s.work.proto = .httpServer → e.result = .ok → e.msg = some frame →
    ∃ m, FrameRoundTrip (c.encoded env topic) c.clientid c.protover m ∧
      let r := recvPublish nng conf e.pub s.store s.work m
      serverCb nng conf h e s = afterPublish
        ⟨{ r.2.work with code := r.1 }, r.2.store, s.log ++ r.2.actions.map .table⟩

/-- The code of an object and what of it goes to the broker, by the socket before and after. -/
inductive Published (obj : Json ℚ) (s : HttpSock) : ℤ → HttpSock → Prop
  | refused (hread : readPublish env s.objects obj = none) :
      Published obj s 108 ⟨s.objects + 1, s.calls, s.sent⟩
  | complete {c : PublishCall} {frames : List Msg}
      (hread : readPublish env s.objects obj = some c)
      (htaken : ∀ i < c.topics.length, env.sends (s.calls + i) = true)
      (hall : List.Forall₂ (Carries nng env c) c.topics frames) :
      Published obj s 0 ⟨s.objects + 1, s.calls + c.topics.length, s.sent ++ frames⟩
  | broken {c : PublishCall} {frames : List Msg} {k : ℕ}
      (hread : readPublish env s.objects obj = some c) (hlt : k < c.topics.length)
      (htaken : ∀ i < k, env.sends (s.calls + i) = true)
      (hfail : env.sends (s.calls + k) = false)
      (hsome : List.Forall₂ (Carries nng env c) (c.topics.take k) frames) :
      Published obj s 102 ⟨s.objects + 1, s.calls + k + 1, s.sent ++ frames⟩

inductive Each {α β : Type} (handled : α → HttpSock → β → HttpSock → Prop) :
    List α → HttpSock → List β → HttpSock → Prop
  | nil (s : HttpSock) : Each handled [] s [] s
  | cons {a : α} {b : β} {s s' s'' : HttpSock} {as : List α} {bs : List β}
      (head : handled a s b s') (tail : Each handled as s' bs s'') :
      Each handled (a :: as) s (b :: bs) s''

inductive Answered : PublishReq → HttpSock → HttpAnswer → HttpSock → Prop
  | wrongType {req : PublishReq} (s : HttpSock) (hreq : req.objects = none) :
      Answered req s (errorResponse 400 109) s
  | object {members : List (Bytes × Json ℚ)} {s s' : HttpSock} {code : ℤ}
      (hobj : Published nng env (.object members) s code s') :
      Answered (.publish (some (.object members))) s ⟨200, Json.record [("code", .number code)]⟩ s'
  | batch {items : List (Json ℚ)} {s s' : HttpSock} {codes : List ℤ}
      (heach : Each (Published nng env) items s codes s') :
      Answered (.publishBatch (some (.array items))) s ⟨200, batchResult items codes⟩ s'

end Requests

section Runs

variable (nng : Nng) (env : PublishEnv)

theorem carries_frame {c : PublishCall} {topic : Bytes} (hs : c.Sound env topic) :
    Carries nng env c topic (c.frame env topic) := by
  refine ⟨rfl, fun conf h e s hstate hproto hok hmsg => ?_⟩
  have htrip := (@roundTrip_of_clientid_fits _ _ c.protover hs.header_lt hs.body_lt
    c.clientid_nul hs.clientid_lt).2
  have htype : (decodeCommonMqttMsg (c.frame env topic)).getType = PacketType.publish := by
    rw [Msg.getType, PublishCall.frame, htrip.sameHeader]
    exact hs.publish
  have htake : takeMsg nng conf e.result s.work (c.frame env topic) =
      some (s.work, { decodeCommonMqttMsg (c.frame env topic) with cmdType := .publish }) := by
    rw [takeMsg, hproto]
    exact if_pos htype
  have hacc : accepted e.result s.work e.msg = some (c.frame env topic) := by
    rw [accepted, if_pos (Or.inl hok), hmsg]
  have hnot : s.work.proto ≠ .mqttBridge := by rw [hproto]; decide
  refine ⟨_, ?_, serverCb_recvPublish hstate hnot hacc htake rfl⟩
  exact ⟨htrip.sameHeader, htrip.sameBody, htrip.sameClient, htrip.sameVersion, htrip.reads⟩

/-- The loop sends the messages of all topics or, when a call fails, of those before. -/
theorem sendPublish_cases {c : PublishCall} {topics : List Bytes}
    (hs : ∀ topic ∈ topics, c.Sound env topic) (s : HttpSock) :
    (∃ frames, sendPublish env c topics s =
          (true, ⟨s.objects, s.calls + topics.length, s.sent ++ frames⟩) ∧
        (∀ i < topics.length, env.sends (s.calls + i) = true) ∧
        List.Forall₂ (Carries nng env c) topics frames) ∨
      ∃ k frames, sendPublish env c topics s =
          (false, ⟨s.objects, s.calls + k + 1, s.sent ++ frames⟩) ∧ k < topics.length ∧
        (∀ i < k, env.sends (s.calls + i) = true) ∧ env.sends (s.calls + k) = false ∧
        List.Forall₂ (Carries nng env c) (topics.take k) frames := by
  induction topics generalizing s with
  | nil =>
    refine Or.inl ⟨[], ?_, fun i hi => absurd hi (Nat.not_lt_zero i), .nil⟩
    rw [List.append_nil]
    rfl
  | cons topic topics ih =>
    obtain ⟨hhead, hrest⟩ := List.forall_mem_cons.mp hs
    have hcarries := carries_frame nng env hhead
    rw [sendPublish]
    cases hsend : env.sends s.calls with
    | true =>
      rw [if_pos rfl]
      have hfirst {k : ℕ} (h : ∀ i < k, env.sends (s.calls + 1 + i) = true) :
          ∀ i < k + 1, env.sends (s.calls + i) = true := by
        intro i hi
        cases i with
        | zero => exact hsend
        | succ i =>
          rw [Nat.add_comm i, ← Nat.add_assoc]
          exact h i (Nat.lt_of_succ_lt_succ hi)
      rcases ih hrest ⟨s.objects, s.calls + 1, s.sent ++ [c.frame env topic]⟩ with
        ⟨frames, hsent, htaken, hall⟩ | ⟨k, frames, hsent, hlt, htaken, hfail, hsome⟩
      · refine Or.inl ⟨c.frame env topic :: frames, ?_, hfirst htaken, .cons hcarries hall⟩
        rw [hsent, List.length_cons, List.append_assoc, Nat.add_assoc, Nat.add_comm 1]
        rfl
      · refine Or.inr ⟨k + 1, c.frame env topic :: frames, ?_, Nat.succ_lt_succ hlt,
          hfirst htaken, ?_, .cons hcarries hsome⟩
        · rw [hsent, List.append_assoc, Nat.add_assoc s.calls, Nat.add_comm 1]
          rfl
        · rw [Nat.add_comm k, ← Nat.add_assoc]
          exact hfail
    | false =>
      rw [if_neg Bool.false_ne_true]
      refine Or.inr ⟨0, [], ?_, Nat.succ_pos _, fun i hi => absurd hi (Nat.not_lt_zero i), hsend,
        .nil⟩
      rw [List.append_nil]

theorem published_handlePublishMsg {obj : Json ℚ} {s : HttpSock}
    (hs : ∀ c ∈ readPublish env s.objects obj, ∀ topic ∈ c.topics, c.Sound env topic) :
    Published nng env obj s (handlePublishMsg env obj s).1 (handlePublishMsg env obj s).2 := by
  unfold handlePublishMsg
  cases hread : readPublish env s.objects obj with
  | none => exact .refused hread
  | some c =>
    dsimp only
    rcases sendPublish_cases nng env (hs c hread) ⟨s.objects + 1, s.calls, s.sent⟩ with
      ⟨frames, hsent, htaken, hall⟩ | ⟨k, frames, hsent, hlt, htaken, hfail, hsome⟩
    · rw [hsent]
      exact .complete hread htaken hall
    · rw [hsent]
      exact .broken hread hlt htaken hfail hsome

theorem each_handleAll {α β : Type} {handle : α → HttpSock → β × HttpSock}
    {handled : α → HttpSock → β → HttpSock → Prop} {as : List α}
    (h : ∀ a ∈ as, ∀ s, handled a s (handle a s).1 (handle a s).2) (s : HttpSock) :
    Each handled as s (handleAll handle as s).1 (handleAll handle as s).2 := by
  induction as generalizing s with
  | nil => exact .nil s
  | cons a as ih =>
    obtain ⟨hhead, hrest⟩ := List.forall_mem_cons.mp h
    exact .cons (hhead s) (ih hrest _)

theorem answered_post {req : PublishReq} (hs : req.Sound env) (s : HttpSock) :
    Answered nng env req s (req.post env s).1 (req.post env s).2 := by
  cases req with
  | publish body =>
    rcases body with _ | body
    · exact .wrongType s rfl
    · cases body with
      | object members =>
        have hobj := hs [.object members] rfl (.object members) List.mem_cons_self s.objects
        exact .object (published_handlePublishMsg nng env hobj)
      | _ => exact .wrongType s rfl
  | publishBatch body =>
    rcases body with _ | body
    · exact .wrongType s rfl
    · cases body with
      | array items =>
        refine .batch (each_handleAll (fun obj hobj s => ?_) s)
        exact published_handlePublishMsg nng env (hs items rfl obj hobj s.objects)
      | _ => exact .wrongType s rfl

/-- For every run of requests and every pattern of failures, the broker gets the messages of the
objects in their order: all of them for the code 0, the first of them for 102, and none for 108 or a
body of the wrong type. -/
theorem rest_publish_answered (reqs : List PublishReq) (hs : ∀ req ∈ reqs, req.Sound env) :
    let r := handleAll (PublishReq.post env) reqs HttpSock.start
    Each (Answered nng env) reqs HttpSock.start r.1 r.2 :=
  each_handleAll (fun req hreq => answered_post nng env (hs req hreq)) HttpSock.start

end Runs

theorem clientid_readPublish {env : PublishEnv} {n : ℕ} {obj : Json ℚ} {c : PublishCall}
    (h : readPublish env n obj = some c) : c.clientid = publishClient obj := by
  obtain ⟨topics, -, h⟩ := Option.bind_eq_some_iff.mp h
  obtain ⟨payload, -, h⟩ := Option.bind_eq_some_iff.mp h
  obtain ⟨props, -, h⟩ := Option.bind_eq_some_iff.mp h
  obtain rfl := Option.some.inj h
  rfl

/-- The socket takes the first frame only. -/
def oneFrame : PublishEnv where
  base64Encode := id
  base64Decode := id
  numberText _ := []
  mqttMsgEncode _ _ := { Msg.alloc with header := [0x30, 0] }
  realloc _ := true
  propertyAlloc _ := true
  sends n := n = 0

def twoTopicsBody : Json ℚ :=
  Json.record [("topics", .string (ascii "a,b")), ("payload", .string (ascii "x"))]

/-- The frame for the second of two topics is not taken. -/
theorem rest_publish_answered_broken :
    let r := handleAll (PublishReq.post oneFrame) [.publish (some twoTopicsBody)] HttpSock.start
    Each (Answered Nng.reference oneFrame) [.publish (some twoTopicsBody)] HttpSock.start r.1 r.2 ∧
      r.2.calls = 2 ∧ r.2.sent.length = 1 := by
  refine ⟨rest_publish_answered Nng.reference oneFrame [.publish (some twoTopicsBody)] ?_,
    by decide +kernel, by decide +kernel⟩
  rintro req hreq objs hobjs obj hobj n c hread topic -
  obtain rfl := List.mem_singleton.mp hreq
  obtain rfl := Option.some.inj hobjs
  obtain rfl := List.mem_singleton.mp hobj
  have hmsg : c.encoded oneFrame topic = { Msg.alloc with header := [0x30, 0] } := rfl
  refine ⟨by rw [hmsg]; decide, by rw [hmsg]; decide, by rw [hmsg]; decide, ?_⟩
  rw [clientid_readPublish hread]
  decide +kernel

end NanoMQ
