import NanoMQ.HandlePub

/-!
# The outcomes of `handle_pub`

A call ends in one of three ways: `resolve` returns with an error, the access control refuses, or
the message is routed. Only the last touches subscribers or retained messages. The refusal with
`ACL_DISCONNECT` returns `NORMAL_DISCONNECTION`, which has the value of `SUCCESS`.
-/

namespace NanoMQ

open ByteBuffer EarlyReturn

section Outcome

variable {nng : Nng} {conf : Conf} {env : PubEnv} {proto : ProtoVer} {isEvent : Bool}

def denyCode (conf : Conf) : ReasonCode :=
  if conf.aclDenyAction = .disconnect then ReasonCode.normalDisconnection else ReasonCode.banned

def AclRefuses (nng : Nng) (conf : Conf) (isEvent : Bool) (t : PubState) : Prop :=
  isEvent = false ∧ aclDenies nng conf t.work.cparam t.topic = true

instance (t : PubState) : Decidable (AclRefuses nng conf isEvent t) :=
  inferInstanceAs (Decidable (_ ∧ _))

theorem handlePub_of_resolve_return {st : Store} {w : Work} {t : PubState} {c : ReasonCode}
    (h : resolve nng conf env proto isEvent (pubStart st w) = (some c, t)) :
    handlePub nng conf env proto isEvent st w = (c, t) := by
  rw [handlePub, handlePubBody, andThen_of_return h]

theorem handlePub_of_refused {st : Store} {w : Work} {t : PubState}
    (h : resolve nng conf env proto isEvent (pubStart st w) = (none, t))
    (hacl : AclRefuses nng conf isEvent t) :
    handlePub nng conf env proto isEvent st w = (denyCode conf, t) := by
  have hstep : aclStep nng conf isEvent t = (some (denyCode conf), t) := by
    unfold AclRefuses at hacl
    unfold aclStep denyCode
    rw [if_pos hacl]
    split_ifs <;> rfl
  rw [handlePub, handlePubBody, andThen_of_go h, andThen_of_return hstep]

theorem handlePub_of_routed {st : Store} {w : Work} {t : PubState}
    (h : resolve nng conf env proto isEvent (pubStart st w) = (none, t))
    (hacl : ¬ AclRefuses nng conf isEvent t) :
    handlePub nng conf env proto isEvent st w =
      (ReasonCode.success, (routeStep nng conf env t).2) := by
  have hstep : aclStep nng conf isEvent t = (none, t) := by
    unfold AclRefuses at hacl
    unfold aclStep
    rw [if_neg hacl]
  rw [handlePub, handlePubBody, andThen_of_go h, andThen_of_go hstep]
  rfl

theorem handlePub_cases (nng : Nng) (conf : Conf) (env : PubEnv) (proto : ProtoVer)
    (isEvent : Bool) (st : Store) (w : Work) :
    (∃ c t, resolve nng conf env proto isEvent (pubStart st w) = (some c, t) ∧
      handlePub nng conf env proto isEvent st w = (c, t)) ∨
    (∃ t, resolve nng conf env proto isEvent (pubStart st w) = (none, t) ∧
      AclRefuses nng conf isEvent t ∧
      handlePub nng conf env proto isEvent st w = (denyCode conf, t)) ∨
    (∃ t, resolve nng conf env proto isEvent (pubStart st w) = (none, t) ∧
      ¬ AclRefuses nng conf isEvent t ∧
      handlePub nng conf env proto isEvent st w =
        (ReasonCode.success, (routeStep nng conf env t).2)) := by
  rcases h : resolve nng conf env proto isEvent (pubStart st w) with ⟨_ | c, t⟩
  · by_cases hacl : AclRefuses nng conf isEvent t
    · exact Or.inr (Or.inl ⟨t, rfl, hacl, handlePub_of_refused h hacl⟩)
    · exact Or.inr (Or.inr ⟨t, rfl, hacl, handlePub_of_routed h hacl⟩)
  · exact Or.inl ⟨c, t, rfl, handlePub_of_resolve_return h⟩

theorem frame_of_resolve {s t : PubState} {o : Option ReasonCode}
    (h : resolve nng conf env proto isEvent s = (o, t)) : PubFrame s t := by
  have hframe := frame_resolve nng conf env proto isEvent s
  rwa [h] at hframe

/-- The list of receivers is empty until the message is routed. -/
theorem msgInfos_of_resolve {st : Store} {w : Work} {t : PubState} {o : Option ReasonCode}
    (h : resolve nng conf env proto isEvent (pubStart st w) = (o, t)) : t.work.msgInfos = [] := by
  rw [(frame_of_resolve h).work]
  rfl

/-- Of its work a call changes the packet and the list of receivers. -/
theorem work_handlePub (nng : Nng) (conf : Conf) (env : PubEnv) (proto : ProtoVer)
    (isEvent : Bool) (st : Store) (w : Work) :
    let w' := (handlePub nng conf env proto isEvent st w).2.work
    w' = { w with msgInfos := w'.msgInfos, pubPacket := w'.pubPacket } := by
  rcases handlePub_cases nng conf env proto isEvent st w with
    ⟨c, t, hres, heq⟩ | ⟨t, hres, -, heq⟩ | ⟨t, hres, -, heq⟩
  · rw [heq]
    dsimp only
    rw [(frame_of_resolve hres).work]
    rfl
  · rw [heq]
    dsimp only
    rw [(frame_of_resolve hres).work]
    rfl
  · rw [heq, routeStep_eq]
    dsimp only
    rw [(frame_handlePubRetain nng conf env t.topic (routed nng t)).work]
    change ({ t.work with msgInfos := _, pubPacket := _ } : Work) = _
    rw [(frame_of_resolve hres).work]
    rfl

end Outcome

end NanoMQ
