import NanoMQ.ByteBuffer
import NanoMQ.NftpVec

/-!
# The DDS client of the gateway

`dds_proxy` ends the process if a structure of the forward tables is not known. Otherwise
`dds_client` makes a reader for every topic it forwards from DDS and a writer for every topic it
forwards to DDS, and then takes handles from its queue for ever: a message from MQTT is written to
the writer of its topic, a sample from DDS goes on to the queue of the MQTT client. The variable
`scli` that names the writer is declared once for the whole function; the loops that make the
readers and the writers use it too.

What is not part of the repository is given by the setup and by the events: what the DDS library
answers, what the generated handlers make of a payload or a sample, and whether `DDS_FATAL` returns.
The code goes on behind it, with a return where a client could not be made.
-/

namespace NanoMQ

open ByteBuffer

structure DdsGatewayTopic where
  fromTopic : Bytes
  toTopic : Bytes
  structName : Bytes
  deriving DecidableEq

/-- `dds_subcli`. A topic is a pointer; the entity and the handlers are `none` as long as they have
not been set. -/
structure DdsSubcli where
  scli : Option ℕ
  ddssendTopic : Option Bytes
  ddsrecvTopic : Option Bytes
  handles : Option ℕ
  deriving DecidableEq

/-- What the library answers when one client is made: negative for an error. -/
structure DdsAnswers where
  createTopic : ℤ
  createEntity : ℤ
  setStatusMask : ℤ
  deriving DecidableEq

/-- `dds_subcli_init` for a reader or a writer of `topic`, with its forward table: what it returns
and what it leaves in `scli`. -/
def ddsSubcliInit (getHandler : Bytes → Option ℕ) (isrd : Bool) (table : List DdsGatewayTopic)
    (topic : Bytes) (answers : DdsAnswers) : ℤ × DdsSubcli :=
  let scli : DdsSubcli :=
    if isrd then ⟨none, none, some topic, none⟩ else ⟨none, some topic, none, none⟩
  let entry := table.find? (fun t => topic = if isrd then t.fromTopic else t.toTopic)
  match entry.bind (fun t => getHandler t.structName) with
  | none => (-1, scli)
  | some handles =>
      let scli := { scli with handles := some handles }
      if answers.createTopic < 0 then (answers.createTopic, scli)
      else if answers.createEntity < 0 then (answers.createEntity, scli)
      else if ¬ isrd ∧ answers.setStatusMask ≠ 0 then (answers.setStatusMask, scli)
      else (0, { scli with scli := some answers.createEntity.toNat })

/-- A loop that makes clients: those that could be made, and the last one it tried. -/
def makeSubclis (init : DdsGatewayTopic → DdsAnswers → ℤ × DdsSubcli) :
    List (DdsGatewayTopic × DdsAnswers) → List DdsSubcli → Option DdsSubcli →
      List DdsSubcli × Option DdsSubcli
  | [], clis, scli => (clis, scli)
  | (t, answers) :: rest, clis, _ =>
      let made := init t answers
      makeSubclis init rest (if made.1 ≠ 0 then clis else clis ++ [made.2]) (some made.2)

/-- `dds_handler_set`, generated for a structure. `mqtt2dds` is given what `cJSON_Parse` makes of a
text, a null pointer included, and what `dds2mqtt` returns is printed; `none` is a fault in them. -/
structure DdsHandlerSet where
  mqtt2dds : Bytes → Option Bytes
  dds2mqtt : Bytes → Option Bytes

/-- The forward tables, each entry with the answers for its client, the known structures with their
handlers, and whether the process goes on after `DDS_FATAL`. -/
structure DdsSetup where
  getHandler : Bytes → Option ℕ
  handlers : ℕ → DdsHandlerSet
  dds2mqtt : List (DdsGatewayTopic × DdsAnswers)
  mqtt2dds : List (DdsGatewayTopic × DdsAnswers)
  fatalReturns : Bool

namespace DdsSetup

variable (d : DdsSetup)

def toMqtt : List DdsGatewayTopic := d.dds2mqtt.map Prod.fst

def toDds : List DdsGatewayTopic := d.mqtt2dds.map Prod.fst

def initReader (t : DdsGatewayTopic) (answers : DdsAnswers) : ℤ × DdsSubcli :=
  ddsSubcliInit d.getHandler true d.toMqtt t.fromTopic answers

def initWriter (t : DdsGatewayTopic) (answers : DdsAnswers) : ℤ × DdsSubcli :=
  ddsSubcliInit d.getHandler false d.toDds t.toTopic answers

def readers : List DdsSubcli × Option DdsSubcli := makeSubclis d.initReader d.dds2mqtt [] none

/-- `subwrclis`, and `scli` before the first handle. -/
def writers : List DdsSubcli × Option DdsSubcli :=
  makeSubclis d.initWriter d.mqtt2dds [] d.readers.2

/-- The check of `dds_proxy`, which exits where a structure is not known. -/
def unknownStruct : Bool :=
  (d.toMqtt ++ d.toDds).any (fun t => (d.getHandler t.structName).isNone)

/-- Some client could not be made; all structures being known, `DDS_FATAL` was called for it. -/
def refused : Bool :=
  d.dds2mqtt.any (fun e => (d.initReader e.1 e.2).1 ≠ 0) ||
    d.mqtt2dds.any (fun e => (d.initWriter e.1 e.2).1 ≠ 0)

end DdsSetup

inductive HandleType
  | toDds | toMqtt | other
  deriving DecidableEq

/-- `data` is the sample, or the text at the payload of the message: the length of the payload is
not used. -/
structure Handle where
  type : HandleType
  data : Bytes
  topic : Bytes
  deriving DecidableEq

def findDdsTopic (mqtt2dds : List DdsGatewayTopic) (mqtttopic : Bytes) : Option DdsGatewayTopic :=
  mqtt2dds.find? (fun t => mqtttopic = t.fromTopic)

structure DdsWrite where
  scli : DdsSubcli
  hd : Handle
  sample : Bytes

/-- The state of the loop, with what has been written, and whether the process has ended. -/
structure DdsLoop where
  handleq : NftpVec Handle
  mqttq : NftpVec Handle
  scli : Option DdsSubcli
  written : List DdsWrite
  ended : Bool

/-- The scan over `subwrclis`: `scli` is the last writer of the topic, or what it was. -/
def selectWriter (writers : List DdsSubcli) (topic : Bytes) (scli : Option DdsSubcli) :
    Option DdsSubcli :=
  writers.foldl (fun scli w => if some topic = w.ddssendTopic then some w else scli) scli

/-- `dds_subcli_send`, undefined for a client without handlers or without an entity; `rc` is what
`dds_write` returns. -/
def ddsSubcliSend (d : DdsSetup) (rc : ℤ) (s : DdsLoop) (scli : DdsSubcli) (hd : Handle) :
    Option DdsLoop := do
  let handles ← scli.handles
  match (d.handlers handles).mqtt2dds hd.data with
  | none => some { s with ended := true }
  | some sample =>
      let _ ← scli.scli
      if rc = 0 then some { s with written := s.written ++ [⟨scli, hd, sample⟩] }
      else some { s with ended := !d.fatalReturns }

/-- Case `HANDLE_TO_DDS`; a topic that is not in the table is looked up through a null pointer. -/
def handleToDds (d : DdsSetup) (rc : ℤ) (s : DdsLoop) (hd : Handle) : Option DdsLoop := do
  let dt ← findDdsTopic d.toDds hd.topic
  let s := { s with scli := selectWriter d.writers.1 dt.toTopic s.scli }
  match s.scli with
  | none => some s
  | some scli => ddsSubcliSend d rc s scli hd

/-- `dds_client` from `work` on. -/
def ddsClientWork (d : DdsSetup) (rc : ℤ) (s : DdsLoop) (hd : Handle) : Option DdsLoop :=
  match hd.type with
  | .toDds => handleToDds d rc s hd
  | .toMqtt => (nftpVecAppend s.mqttq (some hd)).map (fun r => { s with mqttq := r.2 })
  | .other => some s

/-- A handle comes into the queue of the DDS client, or its loop turns once; then `rc` is what
`dds_write` returns if it is called. -/
inductive GatewayEvent
  | arrive (hd : Handle)
  | turn (rc : ℤ)

def gatewayStep (d : DdsSetup) (s : DdsLoop) (e : GatewayEvent) : Option DdsLoop :=
  if s.ended then some s
  else
    match e with
    | .arrive hd => (nftpVecAppend s.handleq (some hd)).map (fun r => { s with handleq := r.2 })
    | .turn rc =>
        if s.handleq.len = 0 then some s
        else do
          let (_, hd, handleq) ← nftpVecPop s.handleq nftpHead
          match hd with
          | some (some hd) => ddsClientWork d rc { s with handleq := handleq } hd
          | _ => some { s with handleq := handleq }

/-- `dds_proxy` up to the loop of `dds_client`. -/
def gatewayStart (d : DdsSetup) (memory memory' : Fin nftpSize → Option Handle) : DdsLoop where
  handleq := nftpVecAlloc memory
  mqttq := nftpVecAlloc memory'
  scli := d.writers.2
  written := []
  ended := d.unknownStruct || (!d.fatalReturns && d.refused)

end NanoMQ
