import NanoMQ.JsonAccess
import NanoMQ.UriParse

/-!
# GET /clients

`get_clients` reads the conditions of the query into `client_info` and then goes over the pipes of
the broker. `get_client_cb` takes the connection parameter of a pipe, compares it with each
condition in turn and gives it back, whichever way it returns. A string is the list of its bytes
without the terminator, and the pipes stand in the order in which `nng_id_map_foreach2` visits them.
-/

namespace NanoMQ

open ByteBuffer

structure SessionParam extends ConnParam where
  keepalive : UInt16
  proName : Option Bytes
  cleanStart : Bool
  deriving DecidableEq

/-- A pipe in the map of the broker; `status` is true once it is disconnected. -/
structure ClientPipe where
  id : UInt32
  status : Bool
  cparam : SessionParam
  deriving DecidableEq

structure ClientInfo where
  clientId : Option Bytes
  username : Option Bytes
  connState : Option Bytes
  hasCleanStart : Bool
  cleanStart : Bool
  protoName : Option Bytes
  hasProtoVer : Bool
  protoVer : UInt8
  deriving DecidableEq

inductive RefEvent
  | obtained (id : UInt32)
  | released (id : UInt32)
  deriving DecidableEq

structure ClientScan where
  array : List Json
  refs : List RefEvent

def ClientScan.obtain (s : ClientScan) (id : UInt32) : ClientScan :=
  { s with refs := s.refs ++ [.obtained id] }

def ClientScan.free (s : ClientScan) (id : UInt32) : ClientScan :=
  { s with refs := s.refs ++ [.released id] }

def connStateText (status : Bool) : Bytes :=
  if status then ascii "disconnected" else ascii "connected"

/-- The member that `cJSON_AddStringToObject` adds, if the string is not null. -/
def stringMember (name : String) (s : Option Bytes) : List (String × Json) :=
  (s.map fun v => (name, Json.string v)).toList

def clientElem (cid : Bytes) (p : ClientPipe) : Json :=
  Json.record ([("client_id", .string cid),
    ("username", .string (p.cparam.username.getD [])),
    ("keepalive", .number p.cparam.keepalive.toNat),
    ("conn_state", .string (connStateText p.status)),
    ("clean_start", .bool p.cparam.cleanStart)] ++
    stringMember "proto_name" p.cparam.proName ++
    [("proto_ver", .number p.cparam.protover.toNat)] ++
    stringMember "will_topic" p.cparam.willTopic ++ stringMember "will_msg" p.cparam.willMsg)

def getClientCb (info : ClientInfo) (s : ClientScan) (p : ClientPipe) : ClientScan :=
  let s := s.obtain p.id
  match p.cparam.clientid with
  | none => s.free p.id
  | some cid =>
    if info.clientId.any (fun v => v != cid) then s.free p.id
    else if info.username.any (fun v => p.cparam.username != some v) then s.free p.id
    else if info.connState.any (fun v => v != connStateText p.status) then s.free p.id
    else if info.hasCleanStart && p.cparam.cleanStart != info.cleanStart then s.free p.id
    else if info.protoName.any (fun v => p.cparam.proName != some v) then s.free p.id
    else if info.hasProtoVer && p.cparam.protover != info.protoVer then s.free p.id
    else ({ s with array := s.array ++ [clientElem cid p] } : ClientScan).free p.id

/-- The body of the loop over the parameters; no result stands for `goto bad_request`. -/
def setParam (info : ClientInfo) (param : Kv) : Option ClientInfo :=
  if param.key = ascii "clientid" ∨ param.key = ascii "client_id" then
    some { info with clientId := some param.value }
  else if param.key = ascii "username" then
    some { info with username := some param.value }
  else if param.key = ascii "conn_state" then
    if strcaseEq param.value (ascii "connected") then
      some { info with connState := some (ascii "connected") }
    else if strcaseEq param.value (ascii "disconnected") then
      some { info with connState := some (ascii "disconnected") }
    else none
  else if param.key = ascii "clean_start" then
    if strcaseEq param.value (ascii "true") then
      some { info with cleanStart := true, hasCleanStart := true }
    else if strcaseEq param.value (ascii "false") then
      some { info with cleanStart := false, hasCleanStart := true }
    else none
  else if param.key = ascii "proto_name" then
    some { info with protoName := some param.value }
  else if param.key = ascii "proto_ver" then
    let scanned := sscanfIntChar param.value
    if scanned.1 ≠ 1 ∨ scanned.2 < 0 ∨ scanned.2 > 255 ∨ (scanned.2 ≠ ProtoVer.v31.toNat ∧
        scanned.2 ≠ ProtoVer.v311.toNat ∧ scanned.2 ≠ ProtoVer.v5.toNat) then none
    else some { info with protoVer := UInt8.ofInt scanned.2, hasProtoVer := true }
  else none

/-- `get_clients`, with what happens to the references. The pipes are missing if the socket does
not give their map. -/
def getClients (params : List Kv) (clientId username : Option Bytes)
    (pipes : Option (List ClientPipe)) : HttpAnswer × List RefEvent :=
  match params.foldlM setParam ⟨clientId, username, none, false, false, none, false, 0⟩ with
  | none => (errorResponse 400 108, [])
  | some info =>
    let scan := (pipes.getD []).foldl (getClientCb info) ⟨[], []⟩
    (⟨200, Json.record [("code", .number 0), ("data", .array scan.array)]⟩, scan.refs)

inductive ClientField
  | clientId | username | connState | cleanStart | protoName | protoVer
  deriving DecidableEq

namespace ClientField

def fields : List ClientField := [clientId, username, connState, cleanStart, protoName, protoVer]

def ofKey (key : Bytes) : Option ClientField :=
  if key = ascii "clientid" ∨ key = ascii "client_id" then some clientId
  else if key = ascii "username" then some username
  else if key = ascii "conn_state" then some connState
  else if key = ascii "clean_start" then some cleanStart
  else if key = ascii "proto_name" then some protoName
  else if key = ascii "proto_ver" then some protoVer
  else none

/-- The number that a text stands for as a whole, as `sscanf` stores it. -/
def versionOf (text : Bytes) : Option ℤ := (integerOf text).map scannedInt

def Legal : ClientField → Bytes → Prop
  | connState, v => strcaseEq v (ascii "connected") ∨ strcaseEq v (ascii "disconnected")
  | cleanStart, v => strcaseEq v (ascii "true") ∨ strcaseEq v (ascii "false")
  | protoVer, v => versionOf v = some 3 ∨ versionOf v = some 4 ∨ versionOf v = some 5
  | _, _ => True

def accepts (p : ClientPipe) : ClientField → Bytes → Bool
  | clientId, v => p.cparam.clientid == some v
  | username, v => p.cparam.username == some v
  | connState, v => strcaseEq v (connStateText p.status)
  | cleanStart, v => strcaseEq v (if p.cparam.cleanStart then ascii "true" else ascii "false")
  | protoName, v => p.cparam.proName == some v
  | protoVer, v => versionOf v == some (p.cparam.protover.toNat : ℤ)

/-- The condition on a field: the last parameter for it, or else what the path gives. -/
def given (params : List Kv) (pathId pathUser : Option Bytes) (f : ClientField) : Option Bytes :=
  (params.reverse.findSome? fun param =>
    if ofKey param.key = some f then some param.value else none).or
  (match f with
  | clientId => pathId
  | username => pathUser
  | _ => none)

end ClientField

/-- A parameter that no field has or whose text may not be given for its field. -/
def IllegalParam (param : Kv) : Prop :=
  ClientField.ofKey param.key = none ∨
    ∃ f, ClientField.ofKey param.key = some f ∧ ¬ f.Legal param.value

/-- The pipe has a client id and meets every condition. -/
def satisfies (params : List Kv) (pathId pathUser : Option Bytes) (p : ClientPipe) : Bool :=
  p.cparam.clientid.isSome && ClientField.fields.all fun f =>
    (f.given params pathId pathUser).all (f.accepts p)

end NanoMQ
