import NanoMQ.RuleRounds
import NanoMQ.RuleVerdict

/-!
# Which rule is a row composed from?

The row of a rule is composed from the rule at twice its position, and only the first rule is its
own double. A rule further on has its row only if the rule at half its position matches as well, and
so on down to the first: the rows are right exactly when no other rule matches.
-/

namespace NanoMQ

open ByteBuffer

section Spec

variable (nng : Nng) (cj : Cjson) (db : Sqlite) (conf : Conf) (time : ℕ) (w : Work)

/-- A call goes through, with one INSERT for each rule that matches, into its table and with its
columns, and none for another rule. -/
def InsertsRight (st : RuleState) : Prop :=
  ∃ out es, ruleEngineInsertSql nng cj db conf time w st = some out ∧
    insertsOf out.st.calls = insertsOf st.calls ++ es ∧
    (es.map Prod.fst).Nodup ∧
    (∀ e ∈ es, SqlMatch nng cj conf time w st.rules e.1) ∧
    ∀ i, SqlMatch nng cj conf time w st.rules i →
      ∃ r table sql, st.rules[i]? = some r ∧ r.sqliteTable = some table ∧ (i, sql) ∈ es ∧
        InsertInto table r.columns sql

/-- No rule but the first one is for SQLite and matches, and this one selects something, all of it
there. The enabled rules compare nothing that is not there. -/
structure OnlyFirst (rules : List Rule) : Prop where
  defined : ∀ r ∈ rules, r.enabled = true → (ruleEngineFilter nng cj time w r).isSome
  first : ∀ i, SqlMatch nng cj conf time w rules i → i = 0
  selects : SqlMatch nng cj conf time w rules 0 →
    ∀ r, rules[0]? = some r → r.columns ≠ [] ∧ r.Present w

end Spec

section Runs

variable {nng : Nng} {cj : Cjson} {db : Sqlite} {conf : Conf} {time : ℕ} {w : Work}

structure Runs (nng : Nng) (cj : Cjson) (conf : Conf) (time : ℕ) (w : Work) (rules : List Rule)
    (is : List ℕ) (es : List (ℕ × Bytes)) : Prop where
  defined : ∀ i ∈ is, FilterDefined nng cj time w rules i
  sound : ∀ e ∈ es, ∃ j ∈ is, SqlMatch nng cj conf time w rules j ∧ Doubles w rules j [e]
  complete : ∀ j ∈ is, SqlMatch nng cj conf time w rules j →
    ∃ es', Doubles w rules j es' ∧ es' ⊆ es
  nodup : is.Nodup → (es.map Prod.fst).Nodup

theorem Runs.cons {rules : List Rule} {i : ℕ} {is : List ℕ} {es es' : List (ℕ × Bytes)}
    (h : Rounds nng cj conf time w rules i es) (hs : Runs nng cj conf time w rules is es') :
    Runs nng cj conf time w rules (i :: is) (es ++ es') where
  defined := List.forall_mem_cons.mpr ⟨h.defined, hs.defined⟩
  sound e he := by
    rcases List.mem_append.mp he with he | he
    · obtain ⟨rfl, hm⟩ := h.of_mem he
      exact ⟨i, List.mem_cons_self, hm, h.doubles hm⟩
    · obtain ⟨j, hj, hd⟩ := hs.sound e he
      exact ⟨j, List.mem_cons_of_mem i hj, hd⟩
  complete j hj hm := by
    rcases List.mem_cons.mp hj with rfl | hj
    · exact ⟨es, h.doubles hm, List.subset_append_left es es'⟩
    · obtain ⟨es₁, hd, hsub⟩ := hs.complete j hj hm
      exact ⟨es₁, hd, List.Subset.trans hsub (List.subset_append_right es es')⟩
  nodup hnd := by
    obtain ⟨hi, his⟩ := List.nodup_cons.mp hnd
    rw [List.map_append, List.nodup_append]
    refine ⟨?_, hs.nodup his, ?_⟩
    · cases es with
      | nil => exact List.nodup_nil
      | cons e es =>
        rw [(h.of_mem List.mem_cons_self).1]
        exact List.nodup_cons.mpr ⟨List.not_mem_nil, List.nodup_nil⟩
    · -- different positions have different doubles
      intro a ha b hb hab
      obtain ⟨e, he, rfl⟩ := List.mem_map.mp ha
      obtain ⟨e', he', rfl⟩ := List.mem_map.mp hb
      obtain ⟨rfl, hm⟩ := h.of_mem he
      obtain ⟨j, hj, -, hd⟩ := hs.sound e' he'
      have h₁ := (h.doubles hm).of_singleton.1
      have h₂ := hd.of_singleton.1
      have hij : i = j := by omega
      exact hi (hij ▸ hj)

theorem run_rounds (hexec : ∀ calls sql, db.execOk calls sql = true) {rules : List Rule}
    (is : List ℕ) {r out : InsertRun} (hfail : r.failed = false)
    (hplain : SamePlain r.st.rules rules)
    (h : is.foldlM (ruleStep nng cj db conf time w) r = some out) :
    ∃ es, Runs nng cj conf time w rules is es ∧ Advances es r out := by
  induction is generalizing r with
  | nil =>
    obtain rfl := Option.some.inj h
    exact ⟨[], ⟨by simp, by simp, by simp, fun _ => List.nodup_nil⟩, Advances.refl r⟩
  | cons i is ih =>
    rw [List.foldlM_cons] at h
    obtain ⟨r₁, hstep, hrest⟩ := Option.bind_eq_some_iff.mp h
    obtain ⟨es, hround, hadv⟩ := ruleStep_rounds hexec hfail hstep
    obtain ⟨es', hruns, hadv'⟩ :=
      ih (hadv.failed.trans hfail) (Eq.trans hadv.rules hplain) hrest
    exact ⟨es ++ es', Runs.cons (hround.congr hplain) hruns, hadv.trans hadv'⟩

theorem run_isSome (hexec : ∀ calls sql, db.execOk calls sql = true) {rules : List Rule}
    (is : List ℕ) {r : InsertRun} (hfail : r.failed = false) (hplain : SamePlain r.st.rules rules)
    (hdef : ∀ i ∈ is, FilterDefined nng cj time w rules i)
    (hwrite : ∀ i ∈ is, SqlMatch nng cj conf time w rules i → Writable w rules i) :
    ∃ out, is.foldlM (ruleStep nng cj db conf time w) r = some out := by
  induction is generalizing r with
  | nil => exact ⟨r, rfl⟩
  | cons i is ih =>
    rw [List.forall_mem_cons] at hdef hwrite
    obtain ⟨r₁, hstep⟩ := Option.isSome_iff_exists.mp (ruleStep_isSome db hfail
      (hdef.1.congr hplain) (fun hm => (hwrite.1 (hm.congr hplain)).congr (Eq.symm hplain)))
    obtain ⟨es, -, hadv⟩ := ruleStep_rounds hexec hfail hstep
    obtain ⟨out, hout⟩ :=
      ih (hadv.failed.trans hfail) (Eq.trans hadv.rules hplain) hdef.2 hwrite.2
    refine ⟨out, ?_⟩
    rw [List.foldlM_cons, hstep]
    exact hout

/-- If each rule that matches has a row, only the first one matches: a row for a later rule is the
double of a rule before it that matches as well. -/
theorem Runs.eq_zero_of_rows {rules : List Rule} {is : List ℕ} {es : List (ℕ × Bytes)}
    (h : Runs nng cj conf time w rules is es)
    (hrows : ∀ i, SqlMatch nng cj conf time w rules i → ∃ sql, (i, sql) ∈ es) (i : ℕ)
    (hm : SqlMatch nng cj conf time w rules i) : i = 0 := by
  induction i using Nat.strong_induction_on with
  | _ i ih =>
    obtain ⟨sql, hmem⟩ := hrows i hm
    obtain ⟨j, -, hj, hd⟩ := h.sound _ hmem
    have hdouble : i = j + j := hd.of_singleton.1
    by_contra hne
    have hzero : j = 0 := ih j (by omega) hj
    omega

theorem OnlyFirst.writable {rules : List Rule} (h : OnlyFirst nng cj conf time w rules) {i : ℕ}
    (hm : SqlMatch nng cj conf time w rules i) : Writable w rules i := by
  obtain rfl := h.first i hm
  obtain ⟨r, hr, -, htable, -⟩ := id hm
  exact ⟨r, hr, htable, (h.selects hm r hr).2⟩

/-- The first rule is its own double, so its row is the one that is asked for. -/
theorem OnlyFirst.row {rules : List Rule} (h : OnlyFirst nng cj conf time w rules)
    {es : List (ℕ × Bytes)} (hm : SqlMatch nng cj conf time w rules 0)
    (hd : Doubles w rules 0 es) :
    ∃ r table sql, rules[0]? = some r ∧ r.sqliteTable = some table ∧ (0, sql) ∈ es ∧
      InsertInto table r.columns sql := by
  obtain ⟨r, table, hr, htable, -, hcases⟩ := hd.made
  rcases hcases with ⟨hcols, -⟩ | ⟨-, sql, rfl, hinto⟩
  · exact absurd hcols (h.selects hm r hr).1
  · exact ⟨r, table, sql, hr, htable, List.mem_cons_self, hinto⟩

end Runs

/-- The rows of a message are those of its rules exactly when no rule but the first is for SQLite
and matches. -/
theorem inserts_right_iff {nng : Nng} {cj : Cjson} {db : Sqlite} {conf : Conf} {time : ℕ} {w : Work}
    (hexec : ∀ calls sql, db.execOk calls sql = true) (st : RuleState) :
    InsertsRight nng cj db conf time w st ↔ OnlyFirst nng cj conf time w st.rules := by
  have hrange : ∀ {i r}, st.rules[i]? = some r → i ∈ List.range st.rules.length := fun hr =>
    List.mem_range.mpr (List.getElem?_eq_some_iff.mp hr).1
  constructor
  · rintro ⟨out, es, hrun, hes, hnodup, hsound, hcomplete⟩
    obtain ⟨es₁, hruns, hadv⟩ := run_rounds hexec _ rfl rfl hrun
    obtain rfl : es₁ = es := List.append_cancel_left (hadv.inserts.symm.trans hes)
    have hfirst := hruns.eq_zero_of_rows (fun i hm => by
      obtain ⟨-, -, sql, -, -, hmem, -⟩ := hcomplete i hm
      exact ⟨sql, hmem⟩)
    refine ⟨?_, hfirst, ?_⟩
    · intro r hr hen
      obtain ⟨i, hi⟩ := List.mem_iff_getElem?.mp hr
      exact hruns.defined i (hrange hi) r hi hen
    · intro hm r hr
      obtain ⟨-, -, sql, -, -, hmem, -⟩ := hcomplete 0 hm
      obtain ⟨j, -, hj, hd⟩ := hruns.sound _ hmem
      obtain rfl := hfirst j hj
      obtain ⟨-, r₁, table, hr₁, -, hpres, hcols, -⟩ := hd.of_singleton
      obtain rfl := Option.some.inj (hr.symm.trans hr₁)
      exact ⟨hcols, hpres⟩
  · intro h
    have hdef : ∀ i ∈ List.range st.rules.length, FilterDefined nng cj time w st.rules i :=
      fun i _ r hr => h.defined r (List.mem_of_getElem? hr)
    obtain ⟨out, hout⟩ := run_isSome hexec (List.range st.rules.length)
      (r := ⟨st, false, false⟩) rfl rfl hdef (fun i _ hm => h.writable hm)
    obtain ⟨es, hruns, hadv⟩ := run_rounds hexec _ rfl rfl hout
    refine ⟨out, es, hout, hadv.inserts, hruns.nodup List.nodup_range, ?_, ?_⟩
    · intro e he
      obtain ⟨j, -, hj, hd⟩ := hruns.sound e he
      have hdouble := hd.of_singleton.1
      obtain rfl := h.first j hj
      rwa [hdouble]
    · intro i hm
      obtain rfl := h.first i hm
      obtain ⟨_, hr₀, -⟩ := id hm
      obtain ⟨es', hd, hsub⟩ := hruns.complete 0 (hrange hr₀) hm
      obtain ⟨r, table, sql, hr, htable, hmem, hinto⟩ := h.row hm hd
      exact ⟨r, table, sql, hr, htable, hsub hmem, hinto⟩

def Sqlite.willing : Sqlite where
  execOk _ _ := true
  columnNames _ _ := none

def topicRule (topic table : Bytes) : Rule where
  enabled := true
  forword := .sqlite table
  topic := topic
  filter := none
  cmpType _ := .none
  flag j := j = .topic
  payloadFlag := false
  asName _ := none
  payload := []

def sqlRuleConf : Conf :=
  { Conf.bare with build := ⟨true, false, false, true⟩, ruleEngOption := ruleEngSdb }

theorem single_rule_inserts_right :
    InsertsRight Nng.reference Cjson.integers Sqlite.willing sqlRuleConf 0
      (publishedFive (ascii "c")) ⟨[topicRule (ascii "t") (ascii "a")], true, [], []⟩ := by
  refine (inserts_right_iff (fun _ _ => rfl) _).mpr ⟨?_, ?_, ?_⟩
  · intro r hr _
    obtain rfl := List.mem_singleton.mp hr
    rfl
  · rintro i ⟨r, hr, -⟩
    have hlt := (List.getElem?_eq_some_iff.mp hr).1
    exact Nat.lt_one_iff.mp hlt
  · rintro - r ⟨⟩
    exact ⟨by decide, fun _ => rfl, fun h => absurd h (by decide), fun h => absurd h (by decide)⟩

/-- The row of the second rule goes into the table of the third, which does not match. Without a
third rule it is composed from what lies behind the vector. -/
theorem second_rule_doubled :
    let rules := [topicRule (ascii "x") (ascii "a"), topicRule (ascii "t") (ascii "b")]
    let more := rules ++ [topicRule (ascii "x") (ascii "c")]
    let run := fun rules => ruleEngineInsertSql Nng.reference Cjson.integers Sqlite.willing
      sqlRuleConf 0 (publishedFive (ascii "c")) ⟨rules, true, [], []⟩
    SqlMatch Nng.reference Cjson.integers sqlRuleConf 0 (publishedFive (ascii "c")) rules 1 ∧
      (run rules).isNone ∧
      ¬ InsertsRight Nng.reference Cjson.integers Sqlite.willing sqlRuleConf 0
        (publishedFive (ascii "c")) ⟨rules, true, [], []⟩ ∧
      (run more).map (fun out => insertsOf out.st.calls) =
        some [(2, ascii "INSERT INTO c (Topic) VALUES ('t') ;")] ∧
      ¬ SqlMatch Nng.reference Cjson.integers sqlRuleConf 0 (publishedFive (ascii "c")) more 2 := by
  intro rules more run
  have hnone : (run rules).isNone := by decide
  refine ⟨⟨_, rfl, rfl, rfl, rfl, rfl⟩, hnone, ?_, by decide, ?_⟩
  · rintro ⟨out, -, hrun, -⟩
    rw [show run rules = some out from hrun] at hnone
    cases hnone
  · rintro ⟨r, hr, -, -, -, hv⟩
    obtain rfl := Option.some.inj hr
    revert hv
    decide

end NanoMQ
