import NanoMQ.DecodeSub
import Mathlib.Tactic.SplitIfs

/-!
# The entries of a SUBSCRIBE

`EntryAt` are the checks that one entry of the payload passes, and `Entries` the entries that follow
each other up to its end. The loop of the decoder succeeds on exactly these payloads, and its nodes
are the entries in order; only a payload without entries leaves a node that belongs to none.
-/

namespace NanoMQ

open ByteBuffer

structure SubEntry where
  filter : Bytes
  options : UInt8
  deriving DecidableEq, Repr

namespace SubEntry

def encode (e : SubEntry) : Bytes := put16 e.filter.length ++ (e.filter ++ [e.options])

def opts (e : SubEntry) : SubOptions := SubOptions.ofByte e.options

def node (e : SubEntry) : TopicNode :=
  ⟨e.opts, ReasonCode.grantedQos2, some e.filter, e.filter.length⟩

@[simp] theorem length_encode (e : SubEntry) : e.encode.length = e.filter.length + 3 := by
  simp only [encode, List.length_append, length_put16, List.length_singleton]
  omega

end SubEntry

def encodeEntries (es : List SubEntry) : Bytes := es.flatMap SubEntry.encode

def nodesOf : List SubEntry → List TopicNode
  | [] => [TopicNode.fresh]
  | e :: es => (e :: es).map SubEntry.node

section Entries

variable (nng : Nng) (ver : ProtoVer) (payload : Bytes)

/-- The checks that the entry at a position of the payload passes. -/
structure EntryAt (pos : ℕ) (e : SubEntry) : Prop where
  str : nng.IsStr payload pos (i32 (payload.length - pos))
  filter : e.filter = slice payload (pos + 2) (get16 payload pos)
  nonempty : e.filter ≠ []
  inside : pos + 2 + e.filter.length < payload.length
  options : e.options = byteAt payload (pos + 2 + e.filter.length)
  retain : (e.opts.retainHandling : ℕ) ≤ 2
  share : shareError ver e.opts.noLocal e.filter e.filter.length = none

inductive Entries : ℕ → List SubEntry → Prop
  | stop {pos : ℕ} (used : payload.length ≤ pos) : Entries pos []
  | entry {pos : ℕ} {e : SubEntry} {es : List SubEntry} (head : EntryAt nng ver payload pos e)
      (tail : Entries (pos + e.encode.length) es) : Entries pos (e :: es)

end Entries

section EntryAt

variable {nng : Nng} {ver : ProtoVer} {payload : Bytes} {pos : ℕ} {e : SubEntry}

theorem isStr_end_le (h : nng.IsStr payload pos (i32 (payload.length - pos))) :
    pos + 2 + get16 payload pos ≤ payload.length := by
  have hle := h.1.trans (i32_le _)
  omega

theorem EntryAt.length_filter (h : EntryAt nng ver payload pos e) :
    e.filter.length = get16 payload pos := by
  rw [h.filter, length_slice _ _ _ (isStr_end_le h.str)]

def OptionOk (ver : ProtoVer) (payload : Bytes) (topic : Bytes) (pos : ℕ) : Prop :=
  pos < payload.length ∧ ((SubOptions.ofByte (byteAt payload pos)).retainHandling : ℕ) ≤ 2 ∧
    shareError ver (SubOptions.ofByte (byteAt payload pos)).noLocal topic topic.length = none

theorem decodeSubOption_of_ok {tn : TopicNode} {topic : Bytes} {reads : List (ℕ × ℕ)}
    (hlen : tn.topicLen = topic.length) (h : OptionOk ver payload topic pos) :
    decodeSubOption ver payload payload.length tn topic pos reads =
      ⟨ReasonCode.success, { tn with options := SubOptions.ofByte (byteAt payload pos) }, pos + 1,
        reads ++ [(pos, 1)]⟩ := by
  unfold decodeSubOption
  dsimp only
  rw [if_neg (not_le.mpr h.1), if_neg (not_lt.mpr h.2.1), hlen, h.2.2]

theorem optionOk_of_success {tn : TopicNode} {topic : Bytes} {reads : List (ℕ × ℕ)}
    (hlen : tn.topicLen = topic.length)
    (hok : (decodeSubOption ver payload payload.length tn topic pos reads).code =
      ReasonCode.success) : OptionOk ver payload topic pos := by
  unfold decodeSubOption at hok
  dsimp only at hok
  split_ifs at hok with hin hret
  · cases hok
  · cases hok
  · refine ⟨not_le.mp hin, not_lt.mp hret, ?_⟩
    rw [hlen] at hok
    cases hshare : shareError ver (SubOptions.ofByte (byteAt payload pos)).noLocal topic
      topic.length with
    | none => rfl
    | some code =>
      rw [hshare] at hok
      cases hok

theorem reads_decodeSubOption {tn : TopicNode} {topic : Bytes} {reads : List (ℕ × ℕ)}
    (hreads : ∀ span ∈ reads, span.1 + span.2 ≤ payload.length) :
    ∀ span ∈ (decodeSubOption ver payload payload.length tn topic pos reads).reads,
      span.1 + span.2 ≤ payload.length := by
  intro span hspan
  unfold decodeSubOption at hspan
  dsimp only at hspan
  by_cases hin : pos ≥ payload.length
  · rw [if_pos hin] at hspan
    exact hreads span hspan
  · have hmem : span ∈ reads ++ [(pos, 1)] := by
      rw [if_neg hin] at hspan
      split_ifs at hspan
      · exact hspan
      · split at hspan <;> exact hspan
    rcases List.mem_append.mp hmem with h | h
    · exact hreads span h
    · obtain rfl := List.mem_singleton.mp h
      dsimp only
      omega

theorem code_refusedFilter (tn : TopicNode) (p : ℕ) (reads : List (ℕ × ℕ)) :
    (refusedFilter ver tn p reads).code ≠ ReasonCode.success := by
  unfold refusedFilter
  split_ifs <;> rintro ⟨⟩

theorem reads_refusedFilter (tn : TopicNode) (p : ℕ) (reads : List (ℕ × ℕ)) :
    (refusedFilter ver tn p reads).reads = reads := by
  unfold refusedFilter
  split_ifs <;> rfl

section Pass

variable (hlaw : nng.LawfulStr)

include hlaw

theorem decodeSubEntry_of_refused
    (h : ¬ (nng.IsStr payload pos (i32 (payload.length - pos)) ∧ get16 payload pos ≠ 0)) :
    ∃ tn p, decodeSubEntry nng ver payload payload.length pos = refusedFilter ver tn p [] := by
  have hnone : (nng.copynUtf8Str payload pos (i32 (payload.length - pos))).dest = none := by
    by_cases hstr : nng.IsStr payload pos (i32 (payload.length - pos))
    · have hz : get16 payload pos = 0 := by
        by_contra hz
        exact h ⟨hstr, hz⟩
      rw [hlaw.copyn_valid _ _ _ hstr, if_pos hz]
    · exact (hlaw.copyn_invalid _ _ _ hstr).1
  unfold decodeSubEntry
  dsimp only
  rw [hnone]
  exact ⟨_, _, rfl⟩

theorem decodeSubEntry_of_isStr (hstr : nng.IsStr payload pos (i32 (payload.length - pos)))
    (hz : get16 payload pos ≠ 0) :
    decodeSubEntry nng ver payload payload.length pos =
      decodeSubOption ver payload payload.length
        { TopicNode.fresh with
          topicBody := some (slice payload (pos + 2) (get16 payload pos))
          topicLen := get16 payload pos }
        (slice payload (pos + 2) (get16 payload pos)) (pos + 2 + get16 payload pos)
        [(pos, pos + 2 + get16 payload pos - pos)] := by
  unfold decodeSubEntry
  simp only [hlaw.copyn_valid _ _ _ hstr, if_neg hz]
  exact if_neg (by omega)

theorem EntryAt.decodeSubEntry_eq (h : EntryAt nng ver payload pos e) :
    decodeSubEntry nng ver payload payload.length pos =
      ⟨ReasonCode.success, e.node, pos + e.encode.length,
        [(pos, 2 + e.filter.length), (pos + 2 + e.filter.length, 1)]⟩ := by
  have hlen := h.length_filter
  have hpos : 0 < e.filter.length := List.length_pos_iff.mpr h.nonempty
  have hopts : SubOptions.ofByte (byteAt payload (pos + 2 + e.filter.length)) = e.opts := by
    rw [← h.options]
    rfl
  have hok : OptionOk ver payload e.filter (pos + 2 + e.filter.length) := by
    rw [OptionOk, hopts]
    exact ⟨h.inside, h.retain, h.share⟩
  have hspan : pos + 2 + e.filter.length - pos = 2 + e.filter.length := by omega
  have hnext : pos + 2 + e.filter.length + 1 = pos + e.encode.length := by
    rw [e.length_encode]
    omega
  rw [decodeSubEntry_of_isStr hlaw h.str (by omega), ← h.filter, ← hlen,
    decodeSubOption_of_ok rfl hok, hopts, hspan, hnext]
  rfl

/-- A pass that goes on has found an entry. -/
theorem entryAt_of_success
    (hok : (decodeSubEntry nng ver payload payload.length pos).code = ReasonCode.success) :
    ∃ e, EntryAt nng ver payload pos e := by
  by_cases h : nng.IsStr payload pos (i32 (payload.length - pos)) ∧ get16 payload pos ≠ 0
  · obtain ⟨hstr, hz⟩ := h
    have hlen := length_slice payload (pos + 2) (get16 payload pos) (isStr_end_le hstr)
    rw [decodeSubEntry_of_isStr hlaw hstr hz] at hok
    obtain ⟨hin, hret, hshare⟩ := optionOk_of_success (by rw [hlen]) hok
    refine ⟨⟨slice payload (pos + 2) (get16 payload pos),
      byteAt payload (pos + 2 + get16 payload pos)⟩, hstr, rfl, ?_, ?_, ?_, hret, hshare⟩
    · rw [← List.length_pos_iff, hlen]
      omega
    · rwa [hlen]
    · rw [hlen]
  · obtain ⟨tn, p, hr⟩ : ∃ tn p, decodeSubEntry nng ver payload payload.length pos =
        refusedFilter ver tn p [] := decodeSubEntry_of_refused hlaw h
    rw [hr] at hok
    exact absurd hok (code_refusedFilter tn p [])

/-- Whatever a pass finds, it stays within the payload. -/
theorem reads_decodeSubEntry :
    ∀ span ∈ (decodeSubEntry nng ver payload payload.length pos).reads,
      span.1 + span.2 ≤ payload.length := by
  by_cases h : nng.IsStr payload pos (i32 (payload.length - pos)) ∧ get16 payload pos ≠ 0
  · have hend := isStr_end_le h.1
    rw [decodeSubEntry_of_isStr hlaw h.1 h.2]
    apply reads_decodeSubOption
    intro span hspan
    obtain rfl := List.mem_singleton.mp hspan
    dsimp only
    omega
  · obtain ⟨tn, p, hr⟩ := decodeSubEntry_of_refused hlaw h
    rw [hr, reads_refusedFilter]
    exact fun span hspan => absurd hspan List.not_mem_nil

end Pass

end EntryAt

section Loop

variable {nng : Nng} {ver : ProtoVer} {payload : Bytes} {pos fuel : ℕ} {es : List SubEntry}
  (hlaw : nng.LawfulStr)

def entryReads : ℕ → List SubEntry → List (ℕ × ℕ)
  | _, [] => []
  | pos, e :: es =>
      [(pos, 2 + e.filter.length), (pos + 2 + e.filter.length, 1)] ++
        entryReads (pos + e.encode.length) es

include hlaw

/-- The loop on entries that pass their checks. -/
theorem Entries.decodeSubLoop_eq (h : Entries nng ver payload pos es)
    (hfuel : payload.length ≤ pos + fuel) :
    decodeSubLoop nng ver payload payload.length fuel pos =
      ⟨ReasonCode.success, nodesOf es, entryReads pos es⟩ := by
  induction h generalizing fuel with
  | stop used =>
    cases fuel with
    | zero => rfl
    | succ fuel => exact if_pos used
  | @entry pos e es head tail ih =>
    have hin := head.inside
    have hlen := e.length_encode
    cases fuel with
    | zero => omega
    | succ fuel =>
      rw [decodeSubLoop, if_neg (by omega)]
      simp only [head.decodeSubEntry_eq hlaw]
      rw [if_neg (not_not.mpr rfl)]
      by_cases hnext : pos + e.encode.length < payload.length
      · rw [if_pos hnext, ih (by omega)]
        cases tail with
        | stop used => omega
        | entry head' tail' => rfl
      · rw [if_neg hnext]
        cases tail with
        | stop used => rfl
        | entry head' tail' =>
          have := head'.inside
          omega

/-- A loop that succeeds has gone through the entries up to the end of the payload. -/
theorem entries_of_success (hfuel : payload.length ≤ pos + fuel)
    (hok : (decodeSubLoop nng ver payload payload.length fuel pos).code = ReasonCode.success) :
    ∃ es, Entries nng ver payload pos es := by
  induction fuel generalizing pos with
  | zero => exact ⟨[], .stop hfuel⟩
  | succ fuel ih =>
    by_cases hin : pos ≥ payload.length
    · exact ⟨[], .stop hin⟩
    · rw [decodeSubLoop, if_neg hin] at hok
      by_cases hcode : (decodeSubEntry nng ver payload payload.length pos).code =
        ReasonCode.success
      · obtain ⟨e, he⟩ := entryAt_of_success hlaw hcode
        have hlen := e.length_encode
        simp only [he.decodeSubEntry_eq hlaw] at hok
        rw [if_neg (not_not.mpr rfl)] at hok
        by_cases hnext : pos + e.encode.length < payload.length
        · rw [if_pos hnext] at hok
          obtain ⟨es, hes⟩ := ih (by omega) hok
          exact ⟨e :: es, .entry he hes⟩
        · exact ⟨[e], .entry he (.stop (not_lt.mp hnext))⟩
      · rw [if_pos hcode] at hok
        exact absurd hok hcode

theorem reads_decodeSubLoop :
    ∀ span ∈ (decodeSubLoop nng ver payload payload.length fuel pos).reads,
      span.1 + span.2 ≤ payload.length := by
  induction fuel generalizing pos with
  | zero => exact fun span hspan => absurd hspan List.not_mem_nil
  | succ fuel ih =>
    intro span hspan
    rw [decodeSubLoop] at hspan
    dsimp only at hspan
    split_ifs at hspan
    · cases hspan
    · exact reads_decodeSubEntry hlaw span hspan
    · rcases List.mem_append.mp hspan with h | h
      · exact reads_decodeSubEntry hlaw span h
      · exact ih span h
    · exact reads_decodeSubEntry hlaw span hspan

end Loop

end NanoMQ
