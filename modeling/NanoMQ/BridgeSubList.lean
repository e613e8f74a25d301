import NanoMQ.GuardedRun
import NanoMQ.JsonAccess
import Mathlib.Data.Finset.Union
import Mathlib.Data.List.Lattice

/-!
# The subscriptions of a bridge

The REST interface subscribes and unsubscribes a bridge at its remote broker. When the broker has
accepted a request, `post_mqtt_bridge_sub` appends the new topics to `sub_list` of the node and
`post_mqtt_bridge_unsub` erases, for each topic it names, the first entry with it; the topics in the
list are subscribed again whenever the bridge reconnects. The remote broker keeps a set of topics.
The list can hold a topic more than once, and then an entry outlives the subscription.
-/

namespace NanoMQ

open ByteBuffer GuardedRun

structure SubListEntry where
  remoteTopic : Bytes
  localTopic : Bytes
  qos : UInt8
  retainAsPublished : UInt8
  retainHandling : UInt8
  deriving DecidableEq

/-- The node of a bridge and the topics that are subscribed for it at the remote broker. -/
structure BridgeLink where
  subCount : ℕ
  subList : List SubListEntry
  remote : Finset Bytes
  deriving DecidableEq

inductive BridgeRequest
  | subscribe (body : Option Json)
  | unsubscribe (body : Option Json)

def dataArray (body : Option Json) (name : Bytes) : Option (List Json) :=
  match body with
  | some (.object members) =>
      match (Json.object members).getObjectItem (ascii "data") with
      | some (.object data) =>
          match (Json.object data).getObjectItem name with
          | some (.array items) => some items
          | _ => none
      | _ => none
  | _ => none

/-- A `uint8_t` that keeps its default if the member is missing. -/
def byteMember (item : Json) (name : Bytes) (default : UInt8) : UInt8 :=
  ((item.getNumberValue name).map (fun n => UInt8.ofNat n.toNat)).getD default

/-- The entry that `post_mqtt_bridge_sub` makes of an item; without both topics it is skipped. -/
def subListEntry (item : Json) : Option SubListEntry :=
  match item.getStringValue (ascii "remote_topic"), item.getStringValue (ascii "local_topic") with
  | some remoteTopic, some localTopic =>
      some ⟨remoteTopic, localTopic, byteMember item (ascii "qos") 0,
        byteMember item (ascii "retain_as_published") 1,
        byteMember item (ascii "retain_handling") 0⟩
  | _, _ => none

def subTopics (body : Option Json) : List SubListEntry :=
  ((dataArray body (ascii "subscription")).getD []).filterMap subListEntry

def unsubTopics (body : Option Json) : List Bytes :=
  ((dataArray body (ascii "unsubscription")).getD []).filterMap
    (fun item => item.getStringValue (ascii "topic"))

/-- The loop of `post_mqtt_bridge_unsub` over the entries up to `sub_count`, with `cvector_erase`
and the decrement at the first that has the topic; `none` where it reads past the end. -/
def eraseTopic (topic : Bytes) : ℕ → List SubListEntry → Option (ℕ × List SubListEntry)
  | 0, entries => some (0, entries)
  | _ + 1, [] => none
  | count + 1, e :: entries =>
      if e.remoteTopic = topic then some (count, entries)
      else (eraseTopic topic count entries).map (fun r => (r.1 + 1, e :: r.2))

def eraseTopics (count : ℕ) (entries : List SubListEntry) (topics : List Bytes) :
    Option (ℕ × List SubListEntry) :=
  topics.foldlM (fun r topic => eraseTopic topic r.1 r.2) (count, entries)

/-- A request that the remote broker accepts. `bridge_subscribe` and `bridge_unsubscribe` refuse an
empty list of topics themselves, and then nothing changes. -/
def bridgeStep (s : BridgeLink) : BridgeRequest → Option BridgeLink
  | .subscribe body =>
      match subTopics body with
      | [] => some s
      | t :: ts => some {
          subCount := s.subCount + (t :: ts).length
          subList := s.subList ++ (t :: ts)
          remote := s.remote ∪ ((t :: ts).map SubListEntry.remoteTopic).toFinset }
  | .unsubscribe body =>
      match unsubTopics body with
      | [] => some s
      | t :: ts => (eraseTopics s.subCount s.subList (t :: ts)).map (fun r => {
          subCount := r.1
          subList := r.2
          remote := s.remote \ (t :: ts).toFinset })

def BridgeLink.topics (s : BridgeLink) : List Bytes := s.subList.map SubListEntry.remoteTopic

/-- The topics that `bridge_tcp_connect_cb` subscribes when the bridge has connected. -/
def BridgeLink.reconnectTopics (s : BridgeLink) : List Bytes :=
  (s.subList.take s.subCount).map SubListEntry.remoteTopic

/-- The list and the remote broker agree, and a reconnect restores what was subscribed. -/
structure BridgeLink.Consistent (s : BridgeLink) : Prop where
  count : s.subCount = s.subList.length
  topics : ∀ t, t ∈ s.topics ↔ t ∈ s.remote
  reconnect : s.reconnectTopics.toFinset = s.remote

/-- An unsubscription names each of its topics as often as the list holds it. -/
def NamesAll (s : BridgeLink) : BridgeRequest → Prop
  | .subscribe _ => True
  | .unsubscribe body =>
      ∀ t ∈ unsubTopics body, s.topics.count t ≤ (unsubTopics body).count t

instance decidableNamesAll (s : BridgeLink) : ∀ r, Decidable (NamesAll s r)
  | .subscribe _ => inferInstanceAs (Decidable True)
  | .unsubscribe body => inferInstanceAs
      (Decidable (∀ t ∈ unsubTopics body, s.topics.count t ≤ (unsubTopics body).count t))

theorem BridgeLink.consistent_iff {s : BridgeLink} (hcount : s.subCount = s.subList.length) :
    s.Consistent ↔ ∀ t, t ∈ s.topics ↔ t ∈ s.remote := by
  constructor
  · intro h
    exact h.topics
  · intro htopics
    refine ⟨hcount, htopics, ?_⟩
    ext t
    rw [BridgeLink.reconnectTopics, hcount, List.take_length, List.mem_toFinset]
    exact htopics t

theorem eraseTopic_eq (topic : Bytes) (entries : List SubListEntry) :
    ∃ entries', eraseTopic topic entries.length entries = some (entries'.length, entries') ∧
      entries'.map SubListEntry.remoteTopic =
        (entries.map SubListEntry.remoteTopic).erase topic := by
  induction entries with
  | nil => exact ⟨[], rfl, rfl⟩
  | cons e entries ih =>
      rw [List.length_cons, eraseTopic]
      by_cases he : e.remoteTopic = topic
      · refine ⟨entries, if_pos he, ?_⟩
        rw [List.map_cons, he, List.erase_cons_head]
      · obtain ⟨entries', herase, htopics⟩ := ih
        refine ⟨e :: entries', ?_, ?_⟩
        · rw [if_neg he, herase]
          rfl
        · rw [List.map_cons, List.map_cons, htopics, List.erase_cons_tail (by simpa using he)]

theorem eraseTopics_eq (topics : List Bytes) (entries : List SubListEntry) :
    ∃ entries', eraseTopics entries.length entries topics = some (entries'.length, entries') ∧
      entries'.map SubListEntry.remoteTopic =
        (entries.map SubListEntry.remoteTopic).diff topics := by
  induction topics generalizing entries with
  | nil => exact ⟨entries, rfl, (List.diff_nil _).symm⟩
  | cons t topics ih =>
      obtain ⟨mid, hfirst, hmid⟩ := eraseTopic_eq t entries
      obtain ⟨entries', hrest, htopics⟩ := ih mid
      refine ⟨entries', ?_, ?_⟩
      · rw [eraseTopics, List.foldlM_cons, hfirst]
        exact hrest
      · rw [htopics, hmid, List.diff_cons]

/-- Erasing one entry for each mention leaves the topics that stand more often than they are
named. -/
theorem mem_diff_iff_count {l ts : List Bytes} {t : Bytes} :
    t ∈ l.diff ts ↔ ts.count t < l.count t := by
  rw [← List.count_pos_iff, List.count_diff]
  omega

/-- A subscription keeps the two sides together. -/
theorem consistent_append {s : BridgeLink} (h : s.Consistent) (new : List SubListEntry) :
    (⟨s.subCount + new.length, s.subList ++ new,
      s.remote ∪ (new.map SubListEntry.remoteTopic).toFinset⟩ : BridgeLink).Consistent := by
  rw [BridgeLink.consistent_iff (by rw [h.count, List.length_append])]
  intro t
  have ht := h.topics t
  simp only [BridgeLink.topics, List.map_append, List.mem_append, Finset.mem_union,
    List.mem_toFinset] at ht ⊢
  rw [ht]

/-- An unsubscription does exactly if no topic it names is left in the list. -/
theorem consistent_diff_iff {s : BridgeLink} (h : s.Consistent) {entries : List SubListEntry}
    {ts : List Bytes} (htopics : entries.map SubListEntry.remoteTopic = s.topics.diff ts) :
    (⟨entries.length, entries, s.remote \ ts.toFinset⟩ : BridgeLink).Consistent ↔
      ∀ t ∈ ts, s.topics.count t ≤ ts.count t := by
  rw [BridgeLink.consistent_iff rfl]
  simp only [BridgeLink.topics] at htopics ⊢
  rw [htopics]
  constructor
  · intro hsame t ht
    by_contra hmore
    have hmem := (hsame t).mp (mem_diff_iff_count.mpr (Nat.lt_of_not_le hmore))
    rw [Finset.mem_sdiff, List.mem_toFinset] at hmem
    exact hmem.2 ht
  · intro hall t
    rw [mem_diff_iff_count, Finset.mem_sdiff, List.mem_toFinset, ← h.topics t]
    by_cases ht : t ∈ ts
    · have hle := hall t ht
      simp only [ht, not_true, and_false, iff_false]
      omega
    · rw [List.count_eq_zero_of_not_mem ht, List.count_pos_iff]
      simp only [ht, not_false_eq_true, and_true]
      rfl

theorem bridgeStep_consistent_iff {s : BridgeLink} (h : s.Consistent) (r : BridgeRequest) :
    ∃ s', bridgeStep s r = some s' ∧ (s'.Consistent ↔ NamesAll s r) := by
  cases r with
  | subscribe body =>
      rw [bridgeStep]
      cases hts : subTopics body with
      | nil => exact ⟨s, rfl, iff_of_true h trivial⟩
      | cons t ts => exact ⟨_, rfl, iff_of_true (consistent_append h (t :: ts)) trivial⟩
  | unsubscribe body =>
      rw [bridgeStep, NamesAll]
      cases hts : unsubTopics body with
      | nil => exact ⟨s, rfl, iff_of_true h (by simp)⟩
      | cons t ts =>
          obtain ⟨entries, herase, htopics⟩ := eraseTopics_eq (t :: ts) s.subList
          rw [← h.count] at herase
          refine ⟨_, ?_, consistent_diff_iff h htopics⟩
          show (eraseTopics s.subCount s.subList (t :: ts)).map _ = _
          rw [herase]
          rfl

/-- The list and the remote broker agree in every state of a run exactly if every unsubscription
names its topics as often as the list holds them. -/
theorem bridge_subscriptions_tracked_iff (s : BridgeLink) (requests : List BridgeRequest)
    (h : s.Consistent) :
    EveryState bridgeStep BridgeLink.Consistent s requests ↔
      AllSteps bridgeStep NamesAll s requests :=
  everyState_iff_allSteps (fun _ r hs => bridgeStep_consistent_iff hs r) h

def BridgeLink.unsubscribed : BridgeLink := ⟨0, [], ∅⟩

theorem BridgeLink.unsubscribed_consistent : BridgeLink.unsubscribed.Consistent := by
  rw [BridgeLink.consistent_iff rfl]
  intro t
  exact iff_of_false List.not_mem_nil (Finset.notMem_empty t)

def subscribeRequest (topic : Bytes) : BridgeRequest :=
  .subscribe (some (.object [(ascii "data", .object [(ascii "subscription", .array [
    .object [(ascii "remote_topic", .string topic), (ascii "local_topic", .string topic)]])])]))

def unsubscribeRequest (topic : Bytes) : BridgeRequest :=
  .unsubscribe (some (.object [(ascii "data", .object [(ascii "unsubscription", .array [
    .object [(ascii "topic", .string topic)]])])]))

/-- A topic that is subscribed once and unsubscribed. -/
theorem bridge_subscriptions_tracked_once :
    EveryState bridgeStep BridgeLink.Consistent BridgeLink.unsubscribed
      [subscribeRequest (ascii "t"), unsubscribeRequest (ascii "t")] :=
  (bridge_subscriptions_tracked_iff _ _ BridgeLink.unsubscribed_consistent).mpr (by decide)

/-- A topic that is subscribed twice and unsubscribed once is left in the list, and a reconnect
subscribes it again. -/
theorem resubscribed_topic_left :
    ∃ s, [subscribeRequest (ascii "t"), subscribeRequest (ascii "t"),
        unsubscribeRequest (ascii "t")].foldlM bridgeStep BridgeLink.unsubscribed = some s ∧
      s.subCount = 1 ∧ s.reconnectTopics = [ascii "t"] ∧ s.remote = ∅ ∧ ¬ s.Consistent := by
  have hrun : [subscribeRequest (ascii "t"), subscribeRequest (ascii "t"),
      unsubscribeRequest (ascii "t")].foldlM bridgeStep BridgeLink.unsubscribed =
        some ⟨1, [⟨ascii "t", ascii "t", 0, 1, 0⟩], ∅⟩ := by
    decide
  refine ⟨_, hrun, rfl, rfl, rfl, ?_⟩
  intro h
  have hmem := (h.topics (ascii "t")).mp List.mem_cons_self
  exact Finset.notMem_empty _ hmem

end NanoMQ
