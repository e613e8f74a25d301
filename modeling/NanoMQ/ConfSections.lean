import NanoMQ.CredentialTable
import Mathlib.Data.Int.Log
import Mathlib.Data.Rat.Floor

/-!
# Sections of the configuration

The REST interface reads a section of the configuration as JSON, `get_<section>_config`, and writes
one from JSON, `set_<section>_config`. A `char *` field is an option. The fields of a number have
the width of the source; a number of a request is a double, and converted to it. What is emitted is
a list of members, in the order in which they are added.
-/

namespace NanoMQ

open ByteBuffer

/-- A `float`, by its value. -/
inductive CFloat
  | finite (value : ℚ)
  | infinite (negative : Bool)
  deriving DecidableEq

def roundEven (x : ℚ) : ℤ :=
  if x - ⌊x⌋ < 1 / 2 ∨ x - ⌊x⌋ = 1 / 2 ∧ Even ⌊x⌋ then ⌊x⌋ else ⌊x⌋ + 1

/-- The conversion of a double to a `float`, with 24 bits down to the exponent -149. -/
def toFloat (x : ℚ) : CFloat :=
  let quantum : ℚ := 2 ^ max (Int.log 2 |x| - 23) (-149)
  let value := roundEven (x / quantum) * quantum
  if |value| < 2 ^ 128 then .finite value else .infinite (x < 0)

structure ConfBasic where
  url : Option Bytes
  enable : Bool
  daemon : Bool
  numTaskqThread : Int32
  maxTaskqThread : Int32
  parallel : UInt64
  propertySize : Int32
  maxPacketSize : UInt32
  clientMaxPacketSize : UInt32
  msqLen : Int32
  qosDuration : UInt32
  backoff : CFloat
  allowAnonymous : Bool
  ipcInternal : Bool

structure ConfTls where
  enable : Bool
  url : Option Bytes
  keyPassword : Option Bytes
  key : Option Bytes
  cert : Option Bytes
  ca : Option Bytes
  verifyPeer : Bool
  setFail : Bool
  deriving DecidableEq

structure ConfHttpHeader where
  key : Option Bytes
  value : Option Bytes
  deriving DecidableEq

inductive HttpParamType
  | username | password | clientid | access | topic | ipaddress | sockport | commonName | protocol
  | mountpoint
  deriving DecidableEq

structure ConfHttpParam where
  name : Option Bytes
  type : HttpParamType
  deriving DecidableEq

structure ConfAuthHttpReq where
  url : Option Bytes
  method : Option Bytes
  headers : List ConfHttpHeader
  params : List ConfHttpParam
  tls : ConfTls
  deriving DecidableEq

structure ConfAuthHttp where
  enable : Bool
  timeout : UInt64
  connectTimeout : UInt64
  poolSize : UInt64
  cacheTtl : UInt64
  authReq : ConfAuthHttpReq
  aclReq : ConfAuthHttpReq
  superReq : ConfAuthHttpReq

structure ConfWebsocket where
  enable : Bool
  tlsEnable : Bool
  url : Option Bytes
  tlsUrl : Option Bytes

/-- `auth_type`; `other` is any value that the interface treats as no authentication. -/
inductive AuthType
  | basic | jwt | other
  deriving DecidableEq

structure ConfHttpServer where
  enable : Bool
  port : UInt16
  ipAddr : Option Bytes
  username : Option Bytes
  password : Option Bytes
  authType : AuthType

structure ConfSqlite where
  enable : Bool
  diskCacheSize : UInt64
  flushMemThreshold : UInt64
  resendInterval : UInt64
  mountedFilePath : Option Bytes

structure ConfSections where
  basic : ConfBasic
  tls : ConfTls
  auths : ConfAuth
  authHttp : ConfAuthHttp
  websocket : ConfWebsocket
  httpServer : ConfHttpServer
  sqlite : ConfSqlite

inductive ConfSection
  | basic | tls | auth | authHttp | websocket | httpServer | sqlite
  deriving DecidableEq

open Json (stringOrNull record truncated)

/-- cJSON prints an infinite number as `null`. -/
def floatNumber : CFloat → Json ℚ
  | .finite value => .number value
  | .infinite _ => .null

def basicFields (c : ConfBasic) : List (String × Json ℚ) :=
  [("url", stringOrNull c.url),
    ("num_taskq_thread", .number c.numTaskqThread.toInt),
    ("max_taskq_thread", .number c.maxTaskqThread.toInt),
    ("parallel", .number c.parallel.toNat),
    ("property_size", .number c.propertySize.toInt),
    ("daemon", .bool c.daemon),
    ("max_packet_size", .number (c.maxPacketSize / 1024).toNat),
    ("client_max_packet_size", .number (c.clientMaxPacketSize / 1024).toNat),
    ("msq_len", .number c.msqLen.toInt),
    ("qos_duration", .number c.qosDuration.toNat),
    ("keepalive_backoff", floatNumber c.backoff),
    ("allow_anonymous", .bool c.allowAnonymous),
    ("ipc_internal", .bool c.ipcInternal)]

def getBasicConfig (c : ConfBasic) : Json ℚ := record (basicFields c)

def tlsFields (tls : ConfTls) : List (String × Json ℚ) :=
  [("enable", .bool tls.enable),
    ("url", stringOrNull tls.url),
    ("key_password", stringOrNull tls.keyPassword),
    ("key", stringOrNull tls.key),
    ("cert", stringOrNull tls.cert),
    ("cacert", stringOrNull tls.ca),
    ("verify_peer", .bool tls.verifyPeer),
    ("fail_if_no_peer_cert", .bool tls.setFail)]

def getTlsConfig (tls : ConfTls) : Json ℚ := record (tlsFields tls)

def loginEntry (pair : Bytes × Bytes) : Json ℚ :=
  record [("login", .string pair.1), ("password", .string pair.2)]

/-- `get_auth_config`, which reads both vectors up to the count. -/
def getAuthConfig (auth : ConfAuth) : Option (Json ℚ) :=
  auth.read.map (fun a => .array ((a.usernames.zip a.passwords).map loginEntry))

/-- `cJSON_AddStringToObject` adds nothing for a name or a string that is absent. -/
def headerMember (h : ConfHttpHeader) : Option (Bytes × Json ℚ) :=
  match h.key, h.value with
  | some key, some value => some (key, .string value)
  | _, _ => none

def authHttpReqFields (req : ConfAuthHttpReq) : List (String × Json ℚ) :=
  [("url", stringOrNull req.url),
    ("method", stringOrNull req.method),
    ("headers", .object (req.headers.filterMap headerMember)),
    ("params", .array (req.params.filterMap (fun p => p.name.map Json.string))),
    ("tls", getTlsConfig req.tls)]

def getAuthHttpReqConfig (req : ConfAuthHttpReq) : Json ℚ := record (authHttpReqFields req)

def authHttpFields (auth : ConfAuthHttp) : List (String × Json ℚ) :=
  [("enable", .bool auth.enable),
    ("timeout", .number auth.timeout.toNat),
    ("connect_timeout", .number auth.connectTimeout.toNat),
    ("pool_size", .number auth.poolSize.toNat),
    ("cache_ttl", .number auth.cacheTtl.toNat),
    ("auth_req", getAuthHttpReqConfig auth.authReq),
    ("acl_req", getAuthHttpReqConfig auth.aclReq),
    ("super_req", getAuthHttpReqConfig auth.superReq)]

def getAuthHttpConfig (auth : ConfAuthHttp) : Json ℚ := record (authHttpFields auth)

def websocketFields (ws : ConfWebsocket) : List (String × Json ℚ) :=
  [("enable", .bool ws.enable),
    ("tls_enable", .bool ws.tlsEnable),
    ("url", stringOrNull ws.url),
    ("tls_url", stringOrNull ws.tlsUrl)]

def getWebsocketConfig (ws : ConfWebsocket) : Json ℚ := record (websocketFields ws)

def httpFields (http : ConfHttpServer) : List (String × Json ℚ) :=
  [("enable", .bool http.enable),
    ("port", .number http.port.toNat),
    ("addr", stringOrNull http.ipAddr),
    ("username", stringOrNull http.username),
    ("password", stringOrNull http.password),
    ("auth_type", .string (if http.authType = .jwt then ascii "jwt" else ascii "basic"))]

def getHttpConfig (http : ConfHttpServer) : Json ℚ := record (httpFields http)

def sqliteFields (sqlite : ConfSqlite) : List (String × Json ℚ) :=
  [("enable", .bool sqlite.enable),
    ("disk_cache_size", .number sqlite.diskCacheSize.toNat),
    ("flush_mem_threshold", .number sqlite.flushMemThreshold.toNat),
    ("resend_interval", .number sqlite.resendInterval.toNat),
    ("mounted_file_path", stringOrNull sqlite.mountedFilePath)]

def getSqliteConfig (sqlite : ConfSqlite) : Json ℚ := record (sqliteFields sqlite)

/-- `update_string` and `update_var` behind a macro that may have found nothing. -/
def updated {α : Type} (value : Option α) (old : α) : α := value.getD old

def updatedString (value old : Option Bytes) : Option Bytes := value.or old

def toU16 (x : ℚ) : UInt16 := UInt16.ofNat (truncated x).toNat

def toU32 (x : ℚ) : UInt32 := UInt32.ofNat (truncated x).toNat

def toU64 (x : ℚ) : UInt64 := UInt64.ofNat (truncated x).toNat

def toI32 (x : ℚ) : Int32 := Int32.ofInt (truncated x)

/-- `set_basic_config`; the second reads of `msq_len` and `qos_duration` repeat the first. -/
def setBasicConfig (json : Json ℚ) (c : ConfBasic) : ConfBasic where
  url := updatedString (json.getStringValue (ascii "url")) c.url
  enable := updated (json.getBoolValue (ascii "enable")) c.enable
  daemon := updated (json.getBoolValue (ascii "daemon")) c.daemon
  numTaskqThread := updated ((json.getNumberValue (ascii "num_taskq_thread")).map toI32)
    c.numTaskqThread
  maxTaskqThread := updated ((json.getNumberValue (ascii "max_taskq_thread")).map toI32)
    c.maxTaskqThread
  parallel := updated ((json.getNumberValue (ascii "parallel")).map toU64) c.parallel
  propertySize := updated ((json.getNumberValue (ascii "property_size")).map toI32)
    c.propertySize
  maxPacketSize := updated ((json.getNumberValue (ascii "max_packet_size")).map
    (fun n => toU32 n * 1024)) c.maxPacketSize
  clientMaxPacketSize := updated ((json.getNumberValue (ascii "client_max_packet_size")).map
    (fun n => toU32 n * 1024)) c.clientMaxPacketSize
  msqLen := updated ((json.getNumberValue (ascii "msq_len")).map toI32) c.msqLen
  qosDuration := updated ((json.getNumberValue (ascii "qos_duration")).map toU32) c.qosDuration
  backoff := updated ((json.getNumberValue (ascii "keepalive_backoff")).map toFloat) c.backoff
  allowAnonymous := updated (json.getBoolValue (ascii "allow_anonymous")) c.allowAnonymous
  ipcInternal := updated (json.getBoolValue (ascii "ipc_internal")) c.ipcInternal

/-- `set_tls_config`, which looks for `keypass`. -/
def setTlsConfig (json : Json ℚ) (tls : ConfTls) : ConfTls where
  enable := updated (json.getBoolValue (ascii "enable")) tls.enable
  url := updatedString (json.getStringValue (ascii "url")) tls.url
  keyPassword := updatedString (json.getStringValue (ascii "keypass")) tls.keyPassword
  key := updatedString (json.getStringValue (ascii "key")) tls.key
  cert := updatedString (json.getStringValue (ascii "cert")) tls.cert
  ca := updatedString (json.getStringValue (ascii "cacert")) tls.ca
  verifyPeer := updated (json.getBoolValue (ascii "verify_peer")) tls.verifyPeer
  setFail := updated (json.getBoolValue (ascii "fail_if_no_peer_cert")) tls.setFail

def setHttpConfig (json : Json ℚ) (http : ConfHttpServer) : ConfHttpServer where
  enable := updated (json.getBoolValue (ascii "enable")) http.enable
  port := updated ((json.getNumberValue (ascii "port")).map toU16) http.port
  ipAddr := http.ipAddr
  username := updatedString (json.getStringValue (ascii "username")) http.username
  password := updatedString (json.getStringValue (ascii "password")) http.password
  authType :=
    match json.getStringValue (ascii "auth_type") with
    | some s =>
        if s = ascii "basic" then .basic else if s = ascii "jwt" then .jwt else http.authType
    | none => http.authType

def setWebsocketConfig (json : Json ℚ) (ws : ConfWebsocket) : ConfWebsocket where
  enable := updated (json.getBoolValue (ascii "enable")) ws.enable
  tlsEnable := updated (json.getBoolValue (ascii "tls_enable")) ws.tlsEnable
  url := updatedString (json.getStringValue (ascii "url")) ws.url
  tlsUrl := updatedString (json.getStringValue (ascii "tls_url")) ws.tlsUrl

def setSqliteConfig (json : Json ℚ) (sqlite : ConfSqlite) : ConfSqlite where
  enable := updated (json.getBoolValue (ascii "enable")) sqlite.enable
  diskCacheSize := updated ((json.getNumberValue (ascii "disk_cache_size")).map toU64)
    sqlite.diskCacheSize
  flushMemThreshold := updated ((json.getNumberValue (ascii "flush_mem_threshold")).map toU64)
    sqlite.flushMemThreshold
  resendInterval := updated ((json.getNumberValue (ascii "resend_interval")).map toU64)
    sqlite.resendInterval
  mountedFilePath := updatedString (json.getStringValue (ascii "mounted_file_path"))
    sqlite.mountedFilePath

/-- The names of parameters that `set_auth_http_req` knows, with the name and type it stores:
`subject` is stored as `protocol`. -/
def httpParamNames : List (Bytes × Bytes × HttpParamType) :=
  [(ascii "username", ascii "username", .username), (ascii "password", ascii "password", .password),
    (ascii "clientid", ascii "clientid", .clientid), (ascii "access", ascii "access", .access),
    (ascii "topic", ascii "topic", .topic), (ascii "ipaddress", ascii "ipaddress", .ipaddress),
    (ascii "sockport", ascii "sockport", .sockport), (ascii "common", ascii "common", .commonName),
    (ascii "protocol", ascii "protocol", .protocol),
    (ascii "subject", ascii "protocol", .protocol),
    (ascii "mountpoint", ascii "mountpoint", .mountpoint)]

def httpParam (arg : Bytes) : Option ConfHttpParam :=
  (httpParamNames.find? (fun entry => strcaseEq arg entry.1)).map (fun entry =>
    ⟨some entry.2.1, entry.2.2⟩)

/-- The loop over `params`; `none` for an item that is no string, whose text is compared all the
same. -/
def setParams : List (Json ℚ) → Option (List ConfHttpParam)
  | [] => some []
  | .string arg :: items => (setParams items).map ((httpParam arg).toList ++ ·)
  | _ :: _ => none

/-- The loop over the members of `headers`. A header behind the last one is written through a
pointer that was never set, which `none` stands for; so is one without a name. -/
def setHeaders : List (Bytes × Json ℚ) → List ConfHttpHeader → Option (List ConfHttpHeader)
  | [], headers => some headers
  | (key, .string value) :: members, _ :: headers =>
      (setHeaders members headers).map (⟨some key, some value⟩ :: ·)
  | (_, .string _) :: _, [] => none
  | _ :: members, headers => setHeaders members headers

/-- `set_auth_http_req`, which does not look at `tls`. -/
def setAuthHttpReq (json : Json ℚ) (req : ConfAuthHttpReq) : Option ConfAuthHttpReq := do
  let headers ←
    match json.getObjectItem (ascii "headers") with
    | some (.object members) => setHeaders members req.headers
    | some (.array items) => if items.any Json.isString then none else some req.headers
    | _ => some req.headers
  let params ←
    match json.getObjectItem (ascii "params") with
    | some params => setParams params.children
    | none => some req.params
  return {
    url := updatedString (json.getStringValue (ascii "url")) req.url
    method := updatedString (json.getStringValue (ascii "method")) req.method
    headers := headers
    params := params
    tls := req.tls }

def setReqMember (json : Json ℚ) (name : Bytes) (req : ConfAuthHttpReq) : Option ConfAuthHttpReq :=
  match json.getObjectItem name with
  | some value => setAuthHttpReq value req
  | none => some req

def setAuthHttpConfig (json : Json ℚ) (auth : ConfAuthHttp) : Option ConfAuthHttp := do
  let authReq ← setReqMember json (ascii "auth_req") auth.authReq
  let aclReq ← setReqMember json (ascii "acl_req") auth.aclReq
  let superReq ← setReqMember json (ascii "super_req") auth.superReq
  return {
    enable := updated (json.getBoolValue (ascii "enable")) auth.enable
    timeout := updated ((json.getNumberValue (ascii "timeout")).map toU64) auth.timeout
    connectTimeout := updated ((json.getNumberValue (ascii "connect_timeout")).map toU64)
      auth.connectTimeout
    poolSize := updated ((json.getNumberValue (ascii "pool_size")).map toU64) auth.poolSize
    cacheTtl := updated ((json.getNumberValue (ascii "cache_ttl")).map toU64) auth.cacheTtl
    authReq := authReq
    aclReq := aclReq
    superReq := superReq }

def getSection (s : ConfSection) (c : ConfSections) : Option (Json ℚ) :=
  match s with
  | .basic => some (getBasicConfig c.basic)
  | .tls => some (getTlsConfig c.tls)
  | .auth => getAuthConfig c.auths
  | .authHttp => some (getAuthHttpConfig c.authHttp)
  | .websocket => some (getWebsocketConfig c.websocket)
  | .httpServer => some (getHttpConfig c.httpServer)
  | .sqlite => some (getSqliteConfig c.sqlite)

def setSection (s : ConfSection) (json : Json ℚ) (c : ConfSections) : Option ConfSections :=
  match s with
  | .basic => some { c with basic := setBasicConfig json c.basic }
  | .tls => some { c with tls := setTlsConfig json c.tls }
  | .auth => (setAuthConfig json c.auths).map (fun auths => { c with auths := auths })
  | .authHttp =>
      (setAuthHttpConfig json c.authHttp).map (fun authHttp => { c with authHttp := authHttp })
  | .websocket => some { c with websocket := setWebsocketConfig json c.websocket }
  | .httpServer => some { c with httpServer := setHttpConfig json c.httpServer }
  | .sqlite => some { c with sqlite := setSqliteConfig json c.sqlite }

end NanoMQ
