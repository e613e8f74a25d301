import NanoMQ.AbsentFields
import NanoMQ.RuleIndex
import NanoMQ.RuleRecord

/-!
# Fields that are not there

The payload of a PUBLISH may be empty, and a client may have no user name and no password. A filter
on a field that is absent should fail, and a record should show `NULL` for the field or leave it
out. `rule_engine_filter` takes the length of the user name and of the password before it compares
them, so that a filter on an absent one must not be reached; and without a WHERE clause an empty
payload goes on to the SQL composers, which look at its bytes.
-/

namespace NanoMQ

open ByteBuffer

/-- The outcome of `rule_engine_filter` when absent fields are dealt with: no filter on one passes,
the record can be composed, and it shows `NULL` or nothing for them. -/
structure AbsentHandled (cj : Cjson) (db : Sqlite) (time : ℕ) (w : Work) (index : ℕ)
    (isNeedSet : Bool) (calls : List DbCall) (info : Rule) (verdict : Bool × Rule) : Prop where
  filtered : ∀ filter j, info.filter = some filter → (filter j).isSome → w.Absent j →
    verdict.1 = false
  composed : verdict.1 = true →
    (composeRecord cj db time w index verdict.2 isNeedSet calls).isSome
  recorded : verdict.1 = true → ∀ j, info.flag j = true → w.Absent j →
    if info.tableName.isSome then fieldText time w verdict.2 j = some (ascii "NULL")
    else fieldJson cj time w j = none

/-- A filter on an absent user name or password stands behind one that fails, and a rule without a
WHERE clause that writes rows does not select anything of a payload that is absent. -/
def AbsentGuarded (nng : Nng) (time : ℕ) (w : Work) (info : Rule) : Prop :=
  suppressed w info = some false → nng.topicFilter info.topic w.packet.topicBody = true →
    match info.filter with
    | some filter =>
      ∀ j, j = .username ∨ j = .password → (filter j).isSome → w.Absent j →
        ∃ i ∈ j.before, ∃ val, filter i = some val ∧ fieldFilter time w info i val = some false
    | none =>
      w.Absent .payloadAll → info.tableName.isSome →
        info.flag .payloadAll = false ∧ info.payloadFlag = false

section Handled

variable {nng : Nng} {cj : Cjson} {db : Sqlite} {time : ℕ} {w : Work} {index : ℕ}
  {isNeedSet : Bool} {calls : List DbCall} {info : Rule}

theorem suppressed_isSome (hclient : ¬ w.Absent .clientid) (info : Rule) :
    (suppressed w info).isSome := by
  obtain ⟨cid, hcid⟩ := Option.ne_none_iff_exists'.mp hclient
  unfold suppressed
  cases info.forword
  case repub repub => cases hown : repub.clientid <;> simp [cmpCstr, hcid, hown]
  all_goals rfl

/-- What a record shows for an absent field, unless it is a payload that goes into a row. -/
theorem recorded_of_absent (htopic : ¬ w.Absent .topic) (hclient : ¬ w.Absent .clientid)
    (hpayload : info.tableName.isSome → info.flag .payloadAll = true → ¬ w.Absent .payloadAll)
    {j : RuleField} (hj : info.flag j = true) (habs : w.Absent j) :
    if info.tableName.isSome then fieldText time w info j = some (ascii "NULL")
    else fieldJson cj time w j = none := by
  cases j
  case qos => exact habs.elim
  case id => exact habs.elim
  case timestamp => exact habs.elim
  case topic => exact absurd habs htopic
  case clientid => exact absurd habs hclient
  case username =>
    have hnone : w.cparam.bind ConnParam.username = none := habs
    split_ifs <;> simp [fieldText, fieldJson, hnone]
  case password =>
    have hnone : w.cparam.bind ConnParam.password = none := habs
    split_ifs <;> simp [fieldText, fieldJson, hnone]
  case payloadAll =>
    have hnone : w.packet.payloadData = none := habs
    split_ifs with htable
    · exact absurd habs (hpayload htable hj)
    · simp [fieldJson, pubJson, hnone]

/-- With a topic and a client identifier, only an absent payload can be in the way of a record. -/
theorem absentHandled_iff (htopic : ¬ w.Absent .topic) (hclient : ¬ w.Absent .clientid)
    {verdict : Bool × Rule} (hplain : verdict.2.plain = info.plain)
    (hfiltered : ∀ filter j, info.filter = some filter → (filter j).isSome → w.Absent j →
      verdict.1 = false) :
    AbsentHandled cj db time w index isNeedSet calls info verdict ↔
      (verdict.1 = true → info.tableName.isSome →
        info.flag .payloadAll = true ∨ info.payloadFlag = true → ¬ w.Absent .payloadAll) := by
  obtain ⟨b, info'⟩ := verdict
  have htable : info'.plain.tableName = info.plain.tableName := congrArg Rule.tableName hplain
  have hflag : info'.plain.flag = info.plain.flag := congrArg Rule.flag hplain
  change info'.tableName = info.tableName at htable
  change info'.flag = info.flag at hflag
  have hpresent : info'.Present w ↔
      (info.flag .payloadAll = true ∨ info.payloadFlag = true → ¬ w.Absent .payloadAll) := by
    rw [← present_plain, hplain, present_plain]
    exact ⟨fun h hsel habs => absurd (h.payload hsel) (by rw [habs]; exact Bool.noConfusion),
      fun h => ⟨fun _ => Option.isSome_iff_ne_none.mpr htopic,
        fun _ => Option.isSome_iff_ne_none.mpr hclient,
        fun hsel => Option.isSome_iff_ne_none.mpr (h hsel)⟩⟩
  constructor
  · intro h hb hsome
    rw [← htable] at hsome
    exact hpresent.mp ((composeRecord_isSome_iff index isNeedSet calls).mp (h.composed hb) hsome)
  · intro h
    refine ⟨hfiltered, fun hb => ?_, fun hb j hj habs => ?_⟩
    · rw [composeRecord_isSome_iff, htable, hpresent]
      exact h hb
    · rw [← htable]
      rw [← hflag] at hj
      refine recorded_of_absent htopic hclient (fun hsome hall => ?_) hj habs
      rw [htable] at hsome
      rw [hflag] at hall
      exact h hb hsome (Or.inl hall)

/-- With a WHERE clause it comes down to the loop over the fields. -/
theorem whereFilter_absent_iff (htopic : ¬ w.Absent .topic) (hclient : ¬ w.Absent .clientid)
    {filter : RuleField → Option Bytes} (hfilter : info.filter = some filter)
    (hplain : ∀ v, whereFilter cj time w info filter = some v → v.2.plain = info.plain) :
    (∃ v, whereFilter cj time w info filter = some v ∧
        AbsentHandled cj db time w index isNeedSet calls info v) ↔
      (fieldLoop time w info filter RuleField.all).isSome := by
  have hfst := fst_whereFilter_eq cj time w info filter
  constructor
  · rintro ⟨v, hv, -⟩
    rw [hv] at hfst
    obtain ⟨b, hb, -⟩ := Option.map_eq_some_iff.mp hfst.symm
    rw [hb]
    rfl
  · intro hsome
    obtain ⟨b, hb⟩ := Option.isSome_iff_exists.mp hsome
    rw [hb] at hfst
    obtain ⟨v, hv, hverdict⟩ := Option.map_eq_some_iff.mp hfst
    -- a rule with a WHERE clause matches only where all fields pass and there is a payload
    have htrue : v.1 = true → b = true ∧ w.packet.hasPayload = true := by
      rw [hverdict, Bool.and_eq_true, Bool.and_eq_true]
      exact fun h => ⟨h.1, h.2.1⟩
    refine ⟨v, hv, (absentHandled_iff htopic hclient (hplain v hv) ?_).mpr ?_⟩
    · intro f j hf hj habs
      obtain rfl : filter = f := Option.some.inj (hfilter.symm.trans hf)
      obtain ⟨val, hval⟩ := Option.isSome_iff_exists.mp hj
      rw [← Bool.not_eq_true]
      intro hv1
      rw [(htrue hv1).1, fieldLoop_eq_true_iff] at hb
      exact fieldFilter_of_absent habs val (hb j j.mem_all val hval)
    · intro hv1 _ _ habs
      have hpayload := (htrue hv1).2
      rw [PubPacket.hasPayload, show w.packet.payloadData = none from habs] at hpayload
      cases hpayload

end Handled

/-- Filtering a message and composing its record deal with every absent field exactly if the rule
is guarded against them. -/
theorem absent_fields_handled_iff (nng : Nng) (cj : Cjson) (db : Sqlite) (time : ℕ) {w : Work}
    (htopic : ¬ w.Absent .topic) (hclient : ¬ w.Absent .clientid) (index : ℕ) (isNeedSet : Bool)
    (calls : List DbCall) (info : Rule) :
    (∃ verdict, ruleEngineFilter nng cj time w info = some verdict ∧
        AbsentHandled cj db time w index isNeedSet calls info verdict) ↔
      AbsentGuarded nng time w info := by
  have hplain : ∀ v, ruleEngineFilter nng cj time w info = some v → v.2.plain = info.plain :=
    fun v hv => plain_ruleEngineFilter nng cj time w hv
  have hmismatch : ∀ v : Bool × Rule, v.1 = false → v.2.plain = info.plain →
      AbsentHandled cj db time w index isNeedSet calls info v := by
    intro v hv hplain
    refine (absentHandled_iff htopic hclient hplain (fun _ _ _ _ _ => hv)).mpr (fun htrue => ?_)
    rw [hv] at htrue
    cases htrue
  obtain ⟨own, hown⟩ := Option.isSome_iff_exists.mp (suppressed_isSome hclient info)
  unfold AbsentGuarded
  unfold ruleEngineFilter at hplain ⊢
  rw [hown] at hplain ⊢
  cases own with
  | true =>
    exact iff_of_true ⟨_, rfl, hmismatch _ rfl rfl⟩ (fun h => absurd h (by decide))
  | false =>
    cases hmatch : nng.topicFilter info.topic w.packet.topicBody with
    | false => exact iff_of_true ⟨_, rfl, hmismatch _ rfl rfl⟩ (fun _ h => absurd h (by decide))
    | true =>
      rw [hmatch] at hplain
      cases hfilter : info.filter with
      | some filter =>
        rw [hfilter] at hplain
        simp only [if_true, forall_const]
        rw [← fieldLoop_all_isSome_iff htopic hclient]
        exact whereFilter_absent_iff htopic hclient hfilter hplain
      | none =>
        rw [hfilter] at hplain
        simp only [if_true, forall_const, Option.some.injEq, exists_eq_left']
        rw [absentHandled_iff htopic hclient (hplain _ rfl) (fun _ _ h => by
          rw [hfilter] at h
          cases h)]
        constructor
        · intro h habs hsome
          have hnot := not_or.mp (fun hsel => h rfl hsome hsel habs)
          exact ⟨Bool.not_eq_true _ ▸ hnot.1, Bool.not_eq_true _ ▸ hnot.2⟩
        · rintro h - hsome (hsel | hsel) habs
          · rw [(h habs hsome).1] at hsel
            cases hsel
          · rw [(h habs hsome).2] at hsel
            cases hsel

def publishedNothing : Work :=
  { Work.alloc .mqttBroker with
    cparam := some { ConnParam.bare with clientid := some (ascii "c") }
    pubPacket := some { PubPacket.zalloc with topicBody := some (ascii "t"), topicLen := 1 } }

def selectAll (forword : RuleForword) (filter : Option (RuleField → Option Bytes)) : Rule where
  enabled := true
  forword := forword
  topic := ascii "t"
  filter := filter
  cmpType _ := .equal
  flag _ := true
  payloadFlag := true
  asName _ := none
  payload := []

def userFilter : RuleField → Option Bytes
  | .username => some (ascii "u")
  | _ => none

theorem absent_fields_left_out :
    (¬ publishedNothing.Absent .topic ∧ ¬ publishedNothing.Absent .clientid) ∧
      ∃ verdict, ruleEngineFilter Nng.reference Cjson.integers 0 publishedNothing
          (selectAll (.repub ⟨none, ascii "r"⟩) none) = some verdict ∧
        AbsentHandled Cjson.integers Sqlite.willing 0 publishedNothing 0 false []
          (selectAll (.repub ⟨none, ascii "r"⟩) none) verdict := by
  have htopic : ¬ publishedNothing.Absent .topic := Option.some_ne_none _
  have hclient : ¬ publishedNothing.Absent .clientid := Option.some_ne_none _
  refine ⟨⟨htopic, hclient⟩, (absent_fields_handled_iff _ _ _ _ htopic hclient _ _ _ _).mpr ?_⟩
  intro _ _ _ htable
  cases htable

/-- A filter on the user name is asked about one that is absent, and an empty payload is put into a
row. -/
theorem absent_fields_looked_at :
    ruleEngineFilter Nng.reference Cjson.integers 0 publishedNothing
        (selectAll (.repub ⟨none, ascii "r"⟩) (some userFilter)) = none ∧
      ∀ forword, forword = .sqlite (ascii "d") ∨ forword = .mysql (ascii "d") →
        ruleEngineFilter Nng.reference Cjson.integers 0 publishedNothing
            (selectAll forword none) = some (true, selectAll forword none) ∧
          composeRecord Cjson.integers Sqlite.willing 0 publishedNothing 0
            (selectAll forword none) false [] = none := by
  refine ⟨rfl, ?_⟩
  rintro _ (rfl | rfl) <;> exact ⟨rfl, rfl⟩

end NanoMQ
