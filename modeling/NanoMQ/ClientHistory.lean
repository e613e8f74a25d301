import NanoMQ.AliasTable
import NanoMQ.BindingHistory
import NanoMQ.HttpAuth
import NanoMQ.Server

/-!
# Histories of client events

Works take up the messages of all clients in some order, each in one step from RECV: publications,
and the events of new and of lost connections. Between them the subscriptions may change in any way.
`runEvents` are the tables after such a history.
-/

namespace NanoMQ

open ByteBuffer

/-- A message of a client in the hands of a work of the broker. -/
structure Arrival where
  env : StepEnv
  work : Work
  msg : Msg
  broker : work.proto = .mqttBroker
  kind : msg.cmdType = .publish ∨ msg.cmdType = .connack ∨ msg.cmdType = .disconnectEv

inductive ClientEvent
  | arrival (x : Arrival)
  | subscriptions (db : List (Bytes × ℕ)) (dbhash : ℕ → Option (List Bytes))

section Run

variable (nng : Nng) (conf : Conf) (h : SubHandlers)

def Arrival.stepEnv (x : Arrival) : StepEnv := { x.env with result := .ok, msg := some x.msg }

def Arrival.start (st : Store) (x : Arrival) : Sys := ⟨{ x.work with state := .recv }, st, []⟩

def Arrival.run (st : Store) (x : Arrival) : Sys := serverCb nng conf h x.stepEnv (x.start st)

def ClientEvent.apply (st : Store) : ClientEvent → Store
  | .arrival x => (x.run nng conf h st).store
  | .subscriptions db dbhash => { st with db := db, dbhash := dbhash }

def runEvents (st : Store) (events : List ClientEvent) : Store :=
  events.foldl (ClientEvent.apply nng conf h) st

end Run

section Arrival

variable {nng : Nng} {conf : Conf} {h : SubHandlers} {st : Store} {x : Arrival}

theorem Arrival.run_eq (st : Store) (x : Arrival) :
    x.run nng conf h st = recvMsg nng conf h x.stepEnv x.msg (x.start st) := by
  have htake := takeMsg_broker nng conf x.stepEnv.result (w := (x.start st).work) x.broker x.msg
  exact serverCb_recv rfl (if_pos (Or.inl rfl)) htake

def Arrival.publishWork (x : Arrival) : Work := { x.work with state := .recv }.loadPublish x.msg

def Arrival.version (x : Arrival) : ProtoVer := protoverOf x.msg.connParam

def Arrival.handlePub (nng : Nng) (conf : Conf) (st : Store) (x : Arrival) :
    ReasonCode × PubState :=
  NanoMQ.handlePub nng conf x.env.pub x.version false st x.publishWork

theorem store_afterPublish (s : Sys) : (afterPublish s).store = s.store := by
  unfold afterPublish
  split_ifs <;> rfl

theorem log_afterPublish {s : Sys} (hbroker : s.work.proto = .mqttBroker) :
    (afterPublish s).log = s.log := by
  have hsrc : ¬ (s.work.proto = .httpServer ∨ s.work.proto = .awsBridge) := by simp [hbroker]
  rw [afterPublish, if_neg hsrc]
  split_ifs <;> rfl

/-- A PUBLISH that is taken up goes into `handle_pub`, and on from there by its code. -/
theorem Arrival.run_publish (hk : x.msg.cmdType = .publish) :
    let r := x.handlePub nng conf st
    x.run nng conf h st =
      afterPublish ⟨{ r.2.work with code := r.1 }, r.2.store, r.2.actions.map .table⟩ := by
  have hcall : NanoMQ.handlePub nng conf x.stepEnv.pub (protoverOf x.msg.connParam) false
      (x.start st).store ((x.start st).work.loadPublish x.msg) = x.handlePub nng conf st := rfl
  rw [x.run_eq, recvMsg, hk]
  exact recvPublishStep_eq hcall

theorem Arrival.store_run_publish (hk : x.msg.cmdType = .publish) :
    (x.run nng conf h st).store = (x.handlePub nng conf st).2.store := by
  rw [Arrival.run_publish hk, store_afterPublish]

theorem Arrival.proto_handlePub : (x.handlePub nng conf st).2.work.proto = .mqttBroker := by
  rw [Arrival.handlePub, work_handlePub]
  exact x.broker

theorem Arrival.publishWork_proto (x : Arrival) : x.publishWork.proto ≠ .mqttBridge := by
  rw [show x.publishWork.proto = .mqttBroker from x.broker]
  decide

theorem Arrival.atpairs_run_connack (hk : x.msg.cmdType = .connack) :
    (x.run nng conf h st).store.atpairs = st.atpairs := by
  rw [x.run_eq, recvMsg, hk]
  change (NanoMQ.handlePub nng conf _ ProtoVer.v311 true _ _).2.store.atpairs = _
  rw [atpairs_of_event]
  change (if _ then _ else _ : Sys).store.atpairs = _
  split_ifs <;> rfl

theorem Store.atpairs_destroySubClient (st : Store) (pid : ℕ) :
    (st.destroySubClient pid).atpairs = st.atpairs := by
  unfold Store.destroySubClient
  cases st.dbhash pid <;> rfl

/-- The tables after the event of a lost connection. -/
theorem store_recvDisconnect (nng : Nng) (conf : Conf) (env : StepEnv) (m : Msg) (s : Sys) :
    ∃ w, (recvDisconnect nng conf env m s).store =
      ((NanoMQ.handlePub nng conf env.pub ProtoVer.v311 true s.store w).2.store.destroySubClient
        s.work.pid).delAtpairQueue s.work.pid := by
  refine ⟨{ (hookEntry nng conf s).work with msg := some { m with cmdType := .publish } }, ?_⟩
  have hstore : (recvDisconnect nng conf env m s).store =
      let w := { (hookEntry nng conf s).work with msg := some { m with cmdType := .publish } }
      let r := (NanoMQ.handlePub nng conf env.pub ProtoVer.v311 true s.store w).2
      (r.store.destroySubClient r.work.pid).delAtpairQueue r.work.pid := by
    unfold recvDisconnect
    dsimp only
    split_ifs <;> rfl
  rw [hstore]
  dsimp only
  rw [work_handlePub]
  rfl

/-- The event of a lost connection forgets the aliases of its pipe and nothing else. -/
theorem atpairs_recvDisconnect (env : StepEnv) (m : Msg) (s : Sys) :
    (recvDisconnect nng conf env m s).store.atpairs =
      (s.store.delAtpairQueue s.work.pid).atpairs := by
  obtain ⟨w, hstore⟩ := store_recvDisconnect nng conf env m s
  rw [hstore]
  change (fun p b => if p = s.work.pid then none else (Store.destroySubClient _ _).atpairs p b) = _
  rw [Store.atpairs_destroySubClient, atpairs_of_event]
  rfl

theorem Arrival.atpairs_run_disconnect (hk : x.msg.cmdType = .disconnectEv) :
    (x.run nng conf h st).store.atpairs = (st.delAtpairQueue x.msg.pipe).atpairs := by
  rw [x.run_eq, recvMsg, hk]
  exact atpairs_recvDisconnect x.stepEnv x.msg _

end Arrival

section Calls

variable {nng : Nng} {conf : Conf} {h : SubHandlers}

def Arrival.call (x : Arrival) : PubCall := ⟨x.env.pub, x.publishWork⟩

theorem Arrival.log_run_publish {x : Arrival} (hk : x.msg.cmdType = .publish) (st : Store) :
    (x.run nng conf h st).log = (x.call.run nng conf st).actions.map Effect.table := by
  rw [Arrival.run_publish hk, log_afterPublish]
  · rfl
  · exact Arrival.proto_handlePub

/-- A history of publications alone is a run of calls. -/
theorem runEvents_publishes {xs : List Arrival} (hk : ∀ x ∈ xs, x.msg.cmdType = .publish)
    (st : Store) :
    runEvents nng conf h st (xs.map .arrival) =
      ((runCalls nng conf st (xs.map Arrival.call)).getLast?.map PubState.store).getD st := by
  induction xs generalizing st with
  | nil => rfl
  | cons x xs ih =>
    have hstore : (x.run nng conf h st).store = (x.call.run nng conf st).store :=
      x.store_run_publish (hk x List.mem_cons_self)
    have htail := ih (fun y hy => hk y (List.mem_cons_of_mem x hy)) (x.call.run nng conf st).store
    rw [List.map_cons, List.map_cons, runCalls, List.getLast?_cons, runEvents, List.foldl_cons]
    change runEvents nng conf h (x.run nng conf h st).store (xs.map .arrival) = _
    rw [hstore, htail]
    cases (runCalls nng conf (x.call.run nng conf st).store (xs.map Arrival.call)).getLast? <;> rfl

end Calls

end NanoMQ
