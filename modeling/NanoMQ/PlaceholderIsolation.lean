import NanoMQ.Placeholder
import NanoMQ.Reference

/-!
# Placeholder isolation

A rule topic with the level `${clientid}` is meant to confine each client to its own subtree. The
text that is put in is read twice more: by the pass for `${username}` and by the wildcard matching.
Since substitution acts on each level alone, the topics that the resulting filter accepts can be
told from the levels of the rule topic and the two client fields, and the confinement holds exactly
when neither of these readings sees anything but plain text.
-/

namespace NanoMQ

open ByteBuffer Substitution Wildcard

def topicLevels (s : Bytes) : List Bytes := levels 0x2f s

/-- `topic_filter` is MQTT wildcard matching. -/
def Nng.FiltersTopics (nng : Nng) : Prop :=
  IsTopicMatch 0x2f 0x2b 0x23 0x24 (fun f t => nng.topicFilter f (some t))

def fillLevel (c u l : Bytes) : Bytes :=
  substitute placeholderUsername u (substitute placeholderClientid c l)

def NoHashBefore (c u p : Bytes) (k : ℕ) : Prop :=
  ∀ l ∈ (topicLevels p).take k, fillLevel c u l ≠ ascii "#"

instance (c u p : Bytes) (k : ℕ) : Decidable (NoHashBefore c u p k) :=
  inferInstanceAs (Decidable (∀ l ∈ _, _))

/-- Every topic that matches the rule topic `p` of this client has `v` as its level `k`. -/
def Isolates (nng : Nng) (param : ConnParam) (p : Bytes) (k : ℕ) (v : Bytes) : Prop :=
  ∀ q t, replaceTopic (some p) param = some q → nng.topicFilter q (some t) = true →
    (topicLevels t)[k]? = some v

section Client

variable {param : ConnParam} {c u : Bytes} (hc : param.clientid = some c)
  (hu : param.username = some u) (hcs : 0x2f ∉ c) (hus : 0x2f ∉ u)

include hc hu hcs hus in
theorem topicLevels_replaceTopic {p q : Bytes} (hq : replaceTopic (some p) param = some q) :
    topicLevels q = (topicLevels p).map (fillLevel c u) := by
  rw [replaceTopic_some p param c u hc hu, Option.some.injEq] at hq
  have hcid : 0x2f ∉ placeholderClientid := by decide
  have huser : 0x2f ∉ placeholderUsername := by decide
  rw [← hq, topicLevels, levels, splitOn_substitute 0x2f placeholderUsername_ne_nil huser hus,
    splitOn_substitute 0x2f placeholderClientid_ne_nil hcid hcs, List.map_map]
  rfl

include hc hu hcs hus in
theorem isolates_iff {nng : Nng} (hf : nng.FiltersTopics) {p l : Bytes} {k : ℕ}
    (hk : (topicLevels p)[k]? = some l) (v : Bytes) :
    Isolates nng param p k v ↔
      NoHashBefore c u p k ∧ fillLevel c u l = v ∧ v ≠ ascii "+" ∧ v ≠ ascii "#" := by
  obtain ⟨q, hq⟩ := replaceTopic_isSome p param
  have hlev := topicLevels_replaceTopic hc hu hcs hus hq
  have hkq : (topicLevels q)[k]? = some (fillLevel c u l) := by
    rw [hlev, List.getElem?_map, hk]
    rfl
  have hforced := IsTopicMatch.forced_level_iff (c := v) hf hkq (x := 0x61) (y := 0x62) (by decide)
    ⟨by decide, by decide⟩ ⟨by decide, by decide⟩
  have hhash : [0x23] ∉ (topicLevels q).take k ↔ NoHashBefore c u p k := by
    rw [hlev, ← List.map_take, List.mem_map]
    exact ⟨fun h l hl he => h ⟨l, hl, he⟩, fun h ⟨l, hl, he⟩ => h l hl he⟩
  rw [← hhash]
  refine Iff.trans ⟨?_, ?_⟩ hforced
  · intro h t ht
    exact h q t hq ht
  · intro h q' t hq' ht
    obtain rfl : q = q' := Option.some.inj (hq.symm.trans hq')
    exact h t ht

end Client

theorem fillLevel_clientid (c u : Bytes) :
    fillLevel c u placeholderClientid = substitute placeholderUsername u c := by
  rw [fillLevel, substitute_self placeholderClientid_ne_nil]

theorem fillLevel_username (c u : Bytes) : fillLevel c u placeholderUsername = u := by
  have hnone : strstr placeholderClientid placeholderUsername = none := by decide
  rw [fillLevel, substitute_of_strstr_none hnone, substitute_self placeholderUsername_ne_nil]

/-- The level `${clientid}` confines a client to its id exactly when the id is no wildcard and does
not itself contain `${username}`, and nothing before it becomes `#`; the level `${username}` exactly
when the username is no wildcard and nothing before it becomes `#`. -/
theorem placeholder_isolation_iff {nng : Nng} (hf : nng.FiltersTopics) {param : ConnParam}
    {c u : Bytes} (hc : param.clientid = some c) (hu : param.username = some u) (hcs : 0x2f ∉ c)
    (hus : 0x2f ∉ u) (p : Bytes) (k : ℕ) :
    ((topicLevels p)[k]? = some placeholderClientid →
      (Isolates nng param p k c ↔
        NoHashBefore c u p k ∧ c ≠ ascii "+" ∧ c ≠ ascii "#" ∧
          (strstr placeholderUsername c = none ∨ u = placeholderUsername))) ∧
    ((topicLevels p)[k]? = some placeholderUsername →
      (Isolates nng param p k u ↔
        NoHashBefore c u p k ∧ u ≠ ascii "+" ∧ u ≠ ascii "#")) := by
  constructor
  · intro hk
    rw [isolates_iff hc hu hcs hus hf hk, fillLevel_clientid,
      substitute_eq_self_iff placeholderUsername_ne_nil]
    constructor
    · rintro ⟨hhash, hfill, hplus, hwild⟩
      exact ⟨hhash, hplus, hwild, hfill⟩
    · rintro ⟨hhash, hplus, hwild, hfill⟩
      exact ⟨hhash, hfill, hplus, hwild⟩
  · intro hk
    rw [isolates_iff hc hu hcs hus hf hk, fillLevel_username]
    simp only [true_and]

/-- Client `c` of user `u` under the rule topic `t/${clientid}`. -/
theorem placeholder_isolation_of_plain_clientid :
    Isolates Nng.reference
      { ConnParam.bare with clientid := some (ascii "c"), username := some (ascii "u") }
      (ascii "t/$\x7bclientid\x7d") 1 (ascii "c") :=
  ((placeholder_isolation_iff Reference.isTopicMatch rfl rfl (by decide) (by decide) _ _).1
    (by decide)).mpr (by decide)

/-- A client that calls itself `+` gets the subtree of every other client. -/
theorem clientid_plus_not_isolated :
    let param : ConnParam :=
      { ConnParam.bare with clientid := some (ascii "+"), username := some (ascii "u") }
    let p : Bytes := ascii "t/$\x7bclientid\x7d"
    (topicLevels p)[1]? = some placeholderClientid ∧
      replaceTopic (some p) param = some (ascii "t/+") ∧
      Nng.reference.topicFilter (ascii "t/+") (some (ascii "t/other")) = true ∧
      (topicLevels (ascii "t/other"))[1]? ≠ some (ascii "+") := by
  decide

end NanoMQ
