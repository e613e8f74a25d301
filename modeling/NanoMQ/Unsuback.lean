import NanoMQ.UnsubLayout

/-!
# The answer to an UNSUBSCRIBE

The answer should tell of each filter whether there was a subscription to take back, and a packet
that cannot be decoded should change nothing and show nothing of memory that no one has written.
`sub_ctx_del` returns zero in any case, an empty filter gets no code at all, and the outcome of the
decoding is not looked at. So the answer is right only where every filter was subscribed to.
-/

namespace NanoMQ

open ByteBuffer

section Spec

variable (pid : ℕ)

def Store.afterUnsub (st : Store) (f : Bytes) : Store :=
  if f = [] then st else (st.subCtxDel f pid).2

/-- The codes that the standard asks for: `0x11` where no subscription existed. -/
def expectedCodes : Store → List Bytes → List ReasonCode
  | _, [] => []
  | st, f :: fs =>
      (if st.Recorded pid f then 0x00 else 0x11) :: expectedCodes (st.afterUnsub pid f) fs

def AllSubscribed : Store → List Bytes → Prop
  | _, [] => True
  | st, f :: fs => f ≠ [] ∧ st.Recorded pid f ∧ AllSubscribed (st.afterUnsub pid f) fs

instance decidableAllSubscribed : ∀ st fs, Decidable (AllSubscribed pid st fs)
  | _, [] => inferInstanceAs (Decidable True)
  | st, f :: fs =>
      have := decidableAllSubscribed (st.afterUnsub pid f) fs
      inferInstanceAs (Decidable (_ ∧ _ ∧ _))

structure UnsubackOk (nng : Nng) (m : Msg) (st : Store) : Prop where
  wellFormed : ∀ id block fs, UnsubscribeLayout nng m ProtoVer.v5 id block fs →
    (unsubscribe nng ProtoVer.v5 pid m st).reply =
      ((put16 id) ++ ([0] ++ expectedCodes pid st fs)).map some
  malformed : (¬ ∃ id block fs, UnsubscribeLayout nng m ProtoVer.v5 id block fs) →
    (unsubscribe nng ProtoVer.v5 pid m st).store = st ∧
      none ∉ (unsubscribe nng ProtoVer.v5 pid m st).reply ∧
      ∀ q ∈ (unsubscribe nng ProtoVer.v5 pid m st).filters, q.1 ≠ none ∧ q.2 ≠ none

end Spec

section Handle

variable {nng : Nng} {pid : ℕ} {st : Store}

def unsubbedCode (f : Bytes) : Option ReasonCode := if f = [] then none else some 0x00

theorem unsubEntryStep_eq (pid : ℕ) {f : Bytes} {tn : UnsubNode} (h : NodeOf f tn)
    (hnul : (0 : UInt8) ∉ f) (c : List UnsubNode × Store) :
    (unsubEntryStep pid c tn).1.map UnsubNode.reasonCode =
        c.1.map UnsubNode.reasonCode ++ [unsubbedCode f] ∧
      (unsubEntryStep pid c tn).2 = c.2.afterUnsub pid f := by
  have hlen : tn.topicLen = some 0 ↔ f = [] := by
    rw [h.topicLen, Option.some.injEq, List.length_eq_zero_iff]
  unfold unsubEntryStep unsubbedCode Store.afterUnsub
  by_cases hf : f = []
  · rw [if_pos (hlen.mpr hf), if_pos hf, if_pos hf, List.map_append, List.map_singleton,
      h.reasonCode]
    exact ⟨rfl, rfl⟩
  · rw [if_neg (mt hlen.mp hf), if_neg hf, if_neg hf, h.topicBody hf, Option.getD_some,
      cstr_of_not_mem hnul]
    exact ⟨List.map_append, rfl⟩

/-- `unsub_ctx_handle` goes through the filters in order. -/
theorem unsubCtxHandle_eq (pid : ℕ) {fs : List Bytes} {nodes : List UnsubNode}
    (h : List.Forall₂ NodeOf fs nodes) (hnul : ∀ f ∈ fs, (0 : UInt8) ∉ f)
    (c : List UnsubNode × Store) :
    (nodes.foldl (unsubEntryStep pid) c).1.map UnsubNode.reasonCode =
        c.1.map UnsubNode.reasonCode ++ fs.map unsubbedCode ∧
      (nodes.foldl (unsubEntryStep pid) c).2 = fs.foldl (Store.afterUnsub pid) c.2 := by
  induction h generalizing c with
  | nil => exact ⟨(List.append_nil _).symm, rfl⟩
  | @cons f tn fs nodes hf hrest ih =>
    have hstep := unsubEntryStep_eq pid hf (hnul f List.mem_cons_self) c
    have htail := ih (fun g hg => hnul g (List.mem_cons_of_mem f hg)) (unsubEntryStep pid c tn)
    rw [hstep.1, hstep.2] at htail
    rw [List.foldl_cons, List.foldl_cons, List.map_cons]
    refine ⟨htail.1.trans ?_, htail.2⟩
    rw [List.append_assoc]
    rfl

section Decoded

variable (hlaw : nng.LawfulText) (hstr : nng.LawfulStr) {ver : ProtoVer} {m : Msg} {id : ℕ}
  {block : Bytes} {fs : List Bytes}

include hlaw hstr

theorem UnsubscribeLayout.unsubscribe_eq (h : UnsubscribeLayout nng m ver id block fs) (pid : ℕ)
    (st : Store) :
    ∃ nodes, unsubscribe nng ver pid m st =
        ⟨fs.foldl (Store.afterUnsub pid) st, unsubackBody nng ver ⟨some id, some nodes⟩,
          bridgeFilters ⟨some id, some nodes⟩⟩ ∧
      nodes.map UnsubNode.reasonCode = fs.map unsubbedCode := by
  obtain ⟨nodes, hnodes, heq⟩ := h.decodeUnsubMsg_eq hlaw
  have hnul : ∀ f ∈ fs, (0 : UInt8) ∉ f := fun f hf => hstr.utf8_no_nul f (h.utf8 f hf)
  obtain ⟨hcodes, hstore⟩ := unsubCtxHandle_eq pid hnodes hnul ([], st)
  refine ⟨(unsubCtxHandle pid nodes st).1, ?_, hcodes⟩
  unfold unsubscribe
  rw [heq]
  dsimp only
  rw [if_neg (not_not.mpr rfl), ← hstore]
  rfl

theorem UnsubscribeLayout.store_unsubscribe (h : UnsubscribeLayout nng m ver id block fs) (pid : ℕ)
    (st : Store) :
    (unsubscribe nng ver pid m st).store = fs.foldl (Store.afterUnsub pid) st := by
  obtain ⟨nodes, heq, -⟩ := h.unsubscribe_eq hlaw hstr pid st
  rw [heq]

theorem UnsubscribeLayout.reply_unsubscribe (hempty : nng.EmptyBlock)
    (h : UnsubscribeLayout nng m ProtoVer.v5 id block fs) (pid : ℕ) (st : Store) :
    (unsubscribe nng ProtoVer.v5 pid m st).reply =
      (put16 id).map some ++ ([some 0] ++ fs.map unsubbedCode) := by
  obtain ⟨nodes, heq, hcodes⟩ := h.unsubscribe_eq hlaw hstr pid st
  rw [heq, ← hcodes]
  unfold unsubackBody
  rw [if_pos rfl, hempty]
  rfl

end Decoded

theorem unsubscribe_of_failed {ver : ProtoVer} {m : Msg}
    (h : (decodeUnsubMsg nng ver m).code ≠ ReasonCode.success) :
    (unsubscribe nng ver pid m st).store = st ∧
      (unsubscribe nng ver pid m st).filters = bridgeFilters (decodeUnsubMsg nng ver m).packet := by
  unfold unsubscribe
  dsimp only
  rw [if_pos h]
  exact ⟨rfl, rfl⟩

theorem expectedCodes_eq_iff {fs : List Bytes} :
    fs.map unsubbedCode = (expectedCodes pid st fs).map some ↔ AllSubscribed pid st fs := by
  induction fs generalizing st with
  | nil => exact iff_of_true rfl trivial
  | cons f fs ih =>
    rw [expectedCodes, AllSubscribed, List.map_cons, List.map_cons, List.cons.injEq, ih,
      ← and_assoc]
    apply and_congr_left
    intro _
    unfold unsubbedCode
    by_cases hf : f = []
    · simp [hf]
    · by_cases hrec : st.Recorded pid f <;> simp [hf, hrec]

end Handle

/-- The answer to an UNSUBSCRIBE is right exactly when the packet is well-formed and each of its
filters is not empty and subscribed to when its turn comes. -/
theorem unsuback_ok_iff {nng : Nng} (hlaw : nng.LawfulText) (hstr : nng.LawfulStr)
    (hadv : nng.PropsAdvance) (hempty : nng.EmptyBlock) (pid : ℕ) (m : Msg) (st : Store) :
    UnsubackOk pid nng m st ↔
      ∃ id block fs, UnsubscribeLayout nng m ProtoVer.v5 id block fs ∧ AllSubscribed pid st fs := by
  constructor
  · intro h
    rcases decodeUnsubMsg_cases hlaw hadv m ProtoVer.v5 with ⟨id, block, fs, hlay⟩ | ⟨hcode, hbad⟩
    · refine ⟨id, block, fs, hlay, ?_⟩
      have hreply := h.wellFormed id block fs hlay
      rw [hlay.reply_unsubscribe hlaw hstr hempty pid st, List.map_append, List.map_append]
        at hreply
      exact expectedCodes_eq_iff.mp (List.append_cancel_left (List.append_cancel_left hreply))
    · have hnot : ¬ ∃ id block fs, UnsubscribeLayout nng m ProtoVer.v5 id block fs := by
        rintro ⟨id, block, fs, hlay⟩
        obtain ⟨nodes, -, heq⟩ := hlay.decodeUnsubMsg_eq hlaw
        rw [heq] at hcode
        exact hcode rfl
      have hfilters := (h.malformed hnot).2.2
      rw [(unsubscribe_of_failed hcode).2] at hfilters
      exact absurd hfilters hbad
  · rintro ⟨id, block, fs, hlay, hsub⟩
    refine ⟨fun id' block' fs' hlay' => ?_, fun hnot => absurd ⟨id, block, fs, hlay⟩ hnot⟩
    obtain ⟨rfl, rfl⟩ := hlay.unique hlay'
    rw [hlay.reply_unsubscribe hlaw hstr hempty pid st, expectedCodes_eq_iff.mpr hsub,
      List.map_append, List.map_append]
    rfl

def simpleUnsubscribe (payload : Bytes) : Msg :=
  { Msg.alloc with
    header := [0xa2, UInt8.ofNat (payload.length + 3)], body := put16 7 ++ ([0] ++ payload)
    cmdType := .unsubscribe, connParam := some { ConnParam.bare with protover := ProtoVer.v5 } }

theorem unsubscribeLayout_simple {fs : List Bytes} (hne : fs ≠ [])
    (hlt : ∀ f ∈ fs, f.length < 65536) (hutf : ∀ f ∈ fs, Reference.utf8Check f = true) :
    UnsubscribeLayout Nng.reference (simpleUnsubscribe (encodeFilters fs)) ProtoVer.v5 7 [0] fs :=
  ⟨rfl, by decide, ⟨fun hv => absurd rfl hv, fun _ => rfl, fun _ => rfl⟩, hne, hlt, hutf⟩

/-- Pipe 3 takes back its subscription to `a`. -/
theorem unsuback_ok_subscribed :
    UnsubackOk 3 Nng.reference (simpleUnsubscribe (encodeFilters [ascii "a"]))
      (Store.empty.addSub 3 (ascii "a")) :=
  (unsuback_ok_iff Reference.lawfulText Reference.lawfulStr Reference.propsAdvance
    Reference.emptyBlock 3 _ _).mpr
    ⟨7, [0], [ascii "a"], unsubscribeLayout_simple (by decide) (by decide) (by decide), by decide⟩

/-- Success is reported for a filter that was not subscribed to, an empty filter is answered by a
byte that was never written, and a packet without a filter hands the bridges an unwritten one. -/
theorem unsuback_reports_success :
    let u := fun payload =>
      unsubscribe Nng.reference ProtoVer.v5 3 (simpleUnsubscribe payload) Store.empty
    let ok := fun payload => UnsubackOk 3 Nng.reference (simpleUnsubscribe payload) Store.empty
    ((u (encodeFilters [ascii "a"])).reply = [some 0, some 7, some 0, some 0] ∧
      ¬ ok (encodeFilters [ascii "a"])) ∧
    ((u (encodeFilters [[]])).reply = [some 0, some 7, some 0, none] ∧
      ¬ ok (encodeFilters [[]])) ∧
    ((u []).filters = [(none, none)] ∧ ¬ ok []) := by
  intro u ok
  refine ⟨⟨by decide, fun h => ?_⟩, ⟨by decide, fun h => ?_⟩, ⟨by decide, fun h => ?_⟩⟩
  · exact absurd (h.wellFormed 7 [0] [ascii "a"]
      (unsubscribeLayout_simple (by decide) (by decide) (by decide))) (by decide)
  · exact absurd (h.wellFormed 7 [0] [[]]
      (unsubscribeLayout_simple (by decide) (by decide) (by decide))) (by decide)
  · have hnot : ¬ ∃ id block fs, UnsubscribeLayout Nng.reference (simpleUnsubscribe [])
        ProtoVer.v5 id block fs := by
      rintro ⟨id, block, fs, hlay⟩
      obtain ⟨nodes, -, heq⟩ := hlay.decodeUnsubMsg_eq Reference.lawfulText
      have hcode : (decodeUnsubMsg Nng.reference ProtoVer.v5 (simpleUnsubscribe [])).code =
          ReasonCode.success := congrArg UnsubDecoded.code heq
      exact absurd hcode (by decide)
    exact absurd (h.malformed hnot).2.2 (by decide)

end NanoMQ
