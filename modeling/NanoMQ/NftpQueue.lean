import NanoMQ.BoundedFifo
import NanoMQ.NftpVec
import NanoMQ.Simulation

/-!
# The queues of the DDS gateway

The loops of the gateway use a vector as a queue: they append to it and take from its head. As such
a vector is a bounded queue of its capacity: it gives the same answers to every sequence of
operations, however often the array wraps, and never leaves the array.
-/

namespace NanoMQ

variable {α : Type*}

inductive QueueOp (α : Type*)
  | append (entry : Option α)
  | popHead

structure QueueReply (α : Type*) where
  rc : NftpRc
  entry : Option (Option α)
  deriving DecidableEq

def queueStep (v : NftpVec α) : QueueOp α → Option (QueueReply α × NftpVec α)
  | .append entry => (nftpVecAppend v entry).map (fun r => (⟨r.1, none⟩, r.2))
  | .popHead => (nftpVecPop v nftpHead).map (fun r => (⟨r.1, r.2.1⟩, r.2.2))

/-- What a bounded queue answers: an entry is put in if there is room, and the oldest is taken. -/
def fifoStep (q : BoundedFifo (Option α)) : QueueOp α → QueueReply α × BoundedFifo (Option α)
  | .append entry =>
      match q.put entry with
      | some q' => (⟨.ok, none⟩, q')
      | none => (⟨.overflow, none⟩, q)
  | .popHead =>
      match q.get with
      | some (x, q') => (⟨.ok, some x⟩, q')
      | none => (⟨.empty, none⟩, q)

structure QueueOf (v : NftpVec α) (q : BoundedFifo (Option α)) : Prop where
  ring : v.Ring
  cap : v.cap = q.cap
  contents : v.contents = q.items

namespace QueueOf

variable {v : NftpVec α} {q : BoundedFifo (Option α)}

theorem len (h : QueueOf v q) : v.len = q.items.length := by
  rw [← h.ring.length_contents, h.contents]

theorem append (h : QueueOf v q) (entry : Option α) :
    ∃ v', queueStep v (.append entry) = some ((fifoStep q (.append entry)).1, v') ∧
      QueueOf v' (fifoStep q (.append entry)).2 := by
  have hlen := h.len
  have hcap := h.cap
  rw [queueStep, nftpVecAppend, fifoStep]
  cases hput : q.put entry with
  | none =>
    have hfull : q.items.length = q.cap :=
      of_decide_eq_true (BoundedFifo.put_eq_none_iff.mp hput)
    exact ⟨v, by rw [nftpVecPush_tail_of_le (by omega)]; rfl, h⟩
  | some q' =>
    obtain ⟨hitems, hcap', hroom⟩ := BoundedFifo.items_of_put hput
    obtain ⟨v', hv', hring, hcontents⟩ :=
      nftpVecPush_tail_of_lt h.ring (show v.len < v.cap by omega) entry
    refine ⟨v', by rw [hv']; rfl, hring, ?_, ?_⟩
    · rw [hring.cap, ← h.ring.cap, hcap, hcap']
    · rw [hcontents, h.contents, hitems]

theorem popHead (h : QueueOf v q) :
    ∃ v', queueStep v .popHead = some ((fifoStep q .popHead).1, v') ∧
      QueueOf v' (fifoStep q .popHead).2 := by
  have hlen := h.len
  rw [queueStep, fifoStep]
  cases hget : q.get with
  | none =>
    rw [BoundedFifo.get_eq_none_iff.mp hget] at hlen
    exact ⟨v, by rw [nftpVecPop_of_empty hlen]; rfl, h⟩
  | some p =>
    obtain ⟨x, q'⟩ := p
    obtain ⟨hitems, hcap'⟩ := BoundedFifo.items_of_get hget
    rw [hitems, List.length_cons] at hlen
    obtain ⟨y, v', hv', hring, hcontents⟩ := nftpVecPop_head h.ring (by omega)
    rw [h.contents, hitems] at hcontents
    obtain ⟨rfl, htail⟩ := List.cons.inj hcontents
    refine ⟨v', by rw [hv']; rfl, hring, ?_, htail.symm⟩
    rw [hring.cap, ← h.ring.cap, h.cap, hcap']

theorem step (h : QueueOf v q) (op : QueueOp α) :
    ∃ v', queueStep v op = some ((fifoStep q op).1, v') ∧ QueueOf v' (fifoStep q op).2 := by
  cases op with
  | append entry => exact h.append entry
  | popHead => exact h.popHead

end QueueOf

theorem nftpVecAlloc_queueOf (memory : Fin nftpSize → Option α) :
    QueueOf (nftpVecAlloc memory) (BoundedFifo.empty nftpSize) where
  ring := nftpVecAlloc_ring memory
  cap := rfl
  contents := rfl

/-- On a new vector every sequence of operations is defined and has the replies of a queue for 128
entries, and what is held then is what the queue holds. -/
theorem nftpVec_refines_fifo (memory : Fin nftpSize → Option α) (ops : List (QueueOp α)) :
    ∃ v, Simulation.run queueStep (nftpVecAlloc memory) ops =
        some ((Simulation.specRun fifoStep (BoundedFifo.empty 128) ops).1, v) ∧
      v.contents = (Simulation.specRun fifoStep (BoundedFifo.empty 128) ops).2.items ∧
      nftpVecLen v = (Simulation.specRun fifoStep (BoundedFifo.empty 128) ops).2.items.length := by
  obtain ⟨v, hrun, hrep⟩ := Simulation.run_eq_specRun (fun _ _ op h => QueueOf.step h op)
    (nftpVecAlloc_queueOf memory) ops
  exact ⟨v, hrun, hrep.contents, hrep.len⟩

end NanoMQ
