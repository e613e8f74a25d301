import NanoMQ.RuleRow

/-!
# The rounds of the loop over the rules

`rule_engine_insert_sql` passes a pointer to the rule at `i` and `i` itself to
`rule_engine_insert_sqlite`, which goes on by `i` from there. The row for the rule at `i` is
composed from the rule at `2 * i`, if there is one.
-/

namespace NanoMQ

open ByteBuffer

/-- The rule at `i` is enabled, is one for SQLite with the option on, and matches the message. -/
def SqlMatch (nng : Nng) (cj : Cjson) (conf : Conf) (time : ℕ) (w : Work) (rules : List Rule)
    (i : ℕ) : Prop :=
  ∃ r, rules[i]? = some r ∧ r.enabled = true ∧ r.sqliteTable.isSome ∧ sqliteOn conf = true ∧
    (ruleEngineFilter nng cj time w r).map Prod.fst = some true

def SamePlain (rules rules' : List Rule) : Prop := rules.map Rule.plain = rules'.map Rule.plain

theorem SamePlain.getElem? {rules rules' : List Rule} (h : SamePlain rules rules') {i : ℕ}
    {r : Rule} (hr : rules[i]? = some r) : ∃ r', rules'[i]? = some r' ∧ r'.plain = r.plain := by
  have hmap : (rules'.map Rule.plain)[i]? = some r.plain := by
    rw [← show rules.map Rule.plain = _ from h, List.getElem?_map, hr]
    rfl
  rw [List.getElem?_map] at hmap
  exact Option.map_eq_some_iff.mp hmap

theorem SamePlain.set {rules : List Rule} {i : ℕ} {r r' : Rule} (hr : rules[i]? = some r)
    (h : r'.plain = r.plain) : SamePlain (rules.set i r') rules := by
  apply List.ext_getElem?
  intro k
  rw [List.getElem?_map, List.getElem?_map]
  by_cases hk : i = k
  · subst hk
    have hlt : i < rules.length := (List.getElem?_eq_some_iff.mp hr).1
    rw [List.getElem?_set_self hlt, hr]
    exact congrArg some h
  · rw [List.getElem?_set_ne hk]

section Steps

variable {nng : Nng} {cj : Cjson} {db : Sqlite} {conf : Conf} {time : ℕ} {w : Work}

theorem verdict_congr {r r' : Rule} (h : r'.plain = r.plain) :
    (ruleEngineFilter nng cj time w r').map Prod.fst =
      (ruleEngineFilter nng cj time w r).map Prod.fst := by
  rw [← fst_ruleEngineFilter_plain, h, fst_ruleEngineFilter_plain]

theorem enabled_congr {r r' : Rule} (h : r'.plain = r.plain) : r'.enabled = r.enabled := by
  change r'.plain.enabled = r.plain.enabled
  rw [h]

theorem sqliteTable_congr {r r' : Rule} (h : r'.plain = r.plain) :
    r'.sqliteTable = r.sqliteTable := by
  change r'.plain.sqliteTable = r.plain.sqliteTable
  rw [h]

theorem columns_congr {r r' : Rule} (h : r'.plain = r.plain) : r'.columns = r.columns := by
  rw [← columns_plain, h, columns_plain]

theorem present_congr {r r' : Rule} (h : r'.plain = r.plain) : r'.Present w ↔ r.Present w := by
  rw [← present_plain, h, present_plain]

theorem SqlMatch.congr {rules rules' : List Rule} (h : SamePlain rules rules') {i : ℕ}
    (hm : SqlMatch nng cj conf time w rules i) : SqlMatch nng cj conf time w rules' i := by
  obtain ⟨r, hr, hen, htable, hon, hv⟩ := hm
  obtain ⟨r', hr', hplain⟩ := h.getElem? hr
  refine ⟨r', hr', ?_, ?_, hon, ?_⟩
  · rw [enabled_congr hplain, hen]
  · rwa [sqliteTable_congr hplain]
  · rw [verdict_congr hplain, hv]

/-- What the INSERTs `es` are composed from, if the helper is called with the pointer and the index
`i`: the rule at `i + i`. -/
structure Doubles (w : Work) (rules : List Rule) (i : ℕ) (es : List (ℕ × Bytes)) : Prop where
  made : ∃ r table, rules[i + i]? = some r ∧ r.sqliteTable = some table ∧ r.Present w ∧
    (r.columns = [] ∧ es = [] ∨
      r.columns ≠ [] ∧ ∃ sql, es = [(i + i, sql)] ∧ InsertInto table r.columns sql)

theorem Doubles.congr {rules rules' : List Rule} (h : SamePlain rules rules') {i : ℕ}
    {es : List (ℕ × Bytes)} (hd : Doubles w rules i es) : Doubles w rules' i es := by
  obtain ⟨r, table, hr, htable, hpres, hes⟩ := hd.made
  obtain ⟨r', hr', hplain⟩ := h.getElem? hr
  refine ⟨r', table, hr', (sqliteTable_congr hplain).trans htable, (present_congr hplain).mpr hpres,
    ?_⟩
  rwa [columns_congr hplain]

structure Advances (es : List (ℕ × Bytes)) (r r' : InsertRun) : Prop where
  rules : SamePlain r'.st.rules r.st.rules
  failed : r'.failed = r.failed
  inserts : insertsOf r'.st.calls = insertsOf r.st.calls ++ es

theorem Advances.refl (r : InsertRun) : Advances [] r r :=
  ⟨rfl, rfl, (List.append_nil _).symm⟩

theorem Advances.trans {es es' : List (ℕ × Bytes)} {a b c : InsertRun} (h : Advances es a b)
    (h' : Advances es' b c) : Advances (es ++ es') a c :=
  ⟨Eq.trans h'.rules h.rules, h'.failed.trans h.failed,
    by rw [h'.inserts, h.inserts, List.append_assoc]⟩

theorem insertSqlite_isSome {i : ℕ} {r : InsertRun} {info : Rule}
    (hr : r.st.rules[i + i]? = some info) (htable : info.sqliteTable.isSome)
    (hpres : info.Present w) : (ruleEngineInsertSqlite cj db time w i i r).isSome := by
  rw [ruleEngineInsertSqlite, hr, Option.bind_some, Option.isSome_map]
  exact (composeRow_isSome_iff cj db time (i + i) info _ _).mpr ⟨htable, hpres⟩

theorem insertSqlite_advances (hexec : ∀ calls sql, db.execOk calls sql = true) {i : ℕ}
    {r r' : InsertRun} (h : ruleEngineInsertSqlite cj db time w i i r = some r') :
    ∃ es, Doubles w r.st.rules i es ∧ Advances es r r' := by
  obtain ⟨info, hr, hrow⟩ := Option.bind_eq_some_iff.mp h
  obtain ⟨c, hc, rfl⟩ := Option.map_eq_some_iff.mp hrow
  obtain ⟨table, htable, hpresent, hstores⟩ := composeRow_spec hc
  obtain ⟨values, htext⟩ := hstores.row
  have hrules : SamePlain (r.st.rules.set (i + i) { info with payload := c.payload }) r.st.rules :=
    SamePlain.set hr (congrArg (fun ps => { info with payload := ps }) hstores.payload)
  by_cases hcols : info.columns = []
  · rw [hcols] at htext
    refine ⟨[], ⟨info, table, hr, htable, hpresent, Or.inl ⟨hcols, rfl⟩⟩, ?_⟩
    rw [executeRow, htext.insertText_nil]
    exact ⟨hrules, rfl, hstores.inserts.trans (List.append_nil _).symm⟩
  · have hinto : InsertInto table info.columns (insertSql table info.columns values) :=
      ⟨values, htext.length_eq, rfl⟩
    refine ⟨[(i + i, insertSql table info.columns values)],
      ⟨info, table, hr, htable, hpresent, Or.inr ⟨hcols, _, rfl, hinto⟩⟩, ?_⟩
    rw [executeRow, htext.insertText_eq hcols]
    dsimp only
    rw [if_pos (hexec _ _)]
    refine ⟨hrules, rfl, ?_⟩
    rw [insertsOf_append, hstores.inserts]
    rfl

theorem forwardRule_of_not_sqlite {i : ℕ} {info : Rule} {r : InsertRun}
    (hno : ¬ (info.sqliteTable.isSome ∧ sqliteOn conf = true)) :
    ∃ r', forwardRule cj db conf time w i info r = some r' ∧ Advances [] r r' := by
  unfold forwardRule
  unfold Rule.sqliteTable at hno
  cases hforword : info.forword <;> rw [hforword] at hno
  case repub repub =>
    dsimp only
    split_ifs
    · exact ⟨_, rfl, rfl, rfl, (List.append_nil _).symm⟩
    · exact ⟨r, rfl, Advances.refl r⟩
  case sqlite table => exact ⟨r, if_neg (fun hon => hno ⟨rfl, hon⟩), Advances.refl r⟩
  all_goals exact ⟨r, rfl, Advances.refl r⟩

theorem forwardRule_of_sqlite {i : ℕ} {info : Rule} {r : InsertRun}
    (htable : info.sqliteTable.isSome) (hon : sqliteOn conf = true) :
    forwardRule cj db conf time w i info r = ruleEngineInsertSqlite cj db time w i i r := by
  unfold Rule.sqliteTable at htable
  unfold forwardRule
  cases hforword : info.forword <;> rw [hforword] at htable
  case sqlite table => exact if_pos hon
  all_goals cases htable

def FilterDefined (nng : Nng) (cj : Cjson) (time : ℕ) (w : Work) (rules : List Rule) (i : ℕ) :
    Prop :=
  ∀ r, rules[i]? = some r → r.enabled = true → (ruleEngineFilter nng cj time w r).isSome

theorem FilterDefined.congr {rules rules' : List Rule} (h : SamePlain rules' rules) {i : ℕ}
    (hd : FilterDefined nng cj time w rules i) : FilterDefined nng cj time w rules' i := by
  intro r hr hen
  obtain ⟨r', hr', hplain⟩ := h.getElem? hr
  have hsome := hd r' hr' ((enabled_congr hplain).trans hen)
  rw [← Option.isSome_map, verdict_congr hplain, Option.isSome_map] at hsome
  exact hsome

structure Rounds (nng : Nng) (cj : Cjson) (conf : Conf) (time : ℕ) (w : Work) (rules : List Rule)
    (i : ℕ) (es : List (ℕ × Bytes)) : Prop where
  defined : FilterDefined nng cj time w rules i
  doubles : SqlMatch nng cj conf time w rules i → Doubles w rules i es
  silent : ¬ SqlMatch nng cj conf time w rules i → es = []

theorem Rounds.congr {rules rules' : List Rule} (h : SamePlain rules rules') {i : ℕ}
    {es : List (ℕ × Bytes)} (hr : Rounds nng cj conf time w rules i es) :
    Rounds nng cj conf time w rules' i es :=
  ⟨hr.defined.congr (Eq.symm h), fun hm => (hr.doubles (hm.congr (Eq.symm h))).congr h,
    fun hm => hr.silent (fun hm' => hm (hm'.congr h))⟩

theorem sqlMatch_iff {rules : List Rule} {i : ℕ} {info : Rule} (hr : rules[i]? = some info) :
    SqlMatch nng cj conf time w rules i ↔
      info.enabled = true ∧ info.sqliteTable.isSome ∧ sqliteOn conf = true ∧
        (ruleEngineFilter nng cj time w info).map Prod.fst = some true := by
  constructor
  · rintro ⟨r, hr', h⟩
    obtain rfl := Option.some.inj (hr.symm.trans hr')
    exact h
  · exact fun h => ⟨info, hr, h⟩

theorem filterDefined_iff {rules : List Rule} {i : ℕ} {info : Rule}
    (hr : rules[i]? = some info) :
    FilterDefined nng cj time w rules i ↔
      (info.enabled = true → (ruleEngineFilter nng cj time w info).isSome) := by
  constructor
  · exact fun h => h info hr
  · intro h r hr'
    obtain rfl := Option.some.inj (hr.symm.trans hr')
    exact h

theorem ruleStep_of_none {i : ℕ} {r : InsertRun} (hr : r.st.rules[i]? = none) :
    ruleStep nng cj db conf time w r i = some r := by
  unfold ruleStep
  rw [hr]
  exact ite_self _

theorem ruleStep_of_some {i : ℕ} {r : InsertRun} {info : Rule} (hfail : r.failed = false)
    (hr : r.st.rules[i]? = some info) :
    ruleStep nng cj db conf time w r i =
      if info.enabled = true then
        (ruleEngineFilter nng cj time w info).bind (fun f =>
          let r := { r with st := { r.st with rules := r.st.rules.set i f.2 } }
          if f.1 = true then forwardRule cj db conf time w i f.2 r else some r)
      else some r := by
  have hgo : ¬ r.failed = true := by
    rw [hfail]
    exact Bool.false_ne_true
  unfold ruleStep
  rw [if_neg hgo, hr]
  dsimp only
  cases ruleEngineFilter nng cj time w info <;> rfl

theorem Rounds.of_silent {rules : List Rule} {i : ℕ} (hdef : FilterDefined nng cj time w rules i)
    (hno : ¬ SqlMatch nng cj conf time w rules i) : Rounds nng cj conf time w rules i [] :=
  ⟨hdef, fun hm => absurd hm hno, fun _ => rfl⟩

/-- A rule that matches is forwarded: for SQLite by its double, elsewhere without an INSERT. -/
theorem forwardRule_rounds (hexec : ∀ calls sql, db.execOk calls sql = true) {i : ℕ} {info : Rule}
    {r r' : InsertRun} (hdef : FilterDefined nng cj time w r.st.rules i)
    (hmatch : SqlMatch nng cj conf time w r.st.rules i ↔
      info.sqliteTable.isSome ∧ sqliteOn conf = true)
    (h : forwardRule cj db conf time w i info r = some r') :
    ∃ es, Rounds nng cj conf time w r.st.rules i es ∧ Advances es r r' := by
  by_cases hsql : info.sqliteTable.isSome ∧ sqliteOn conf = true
  · rw [forwardRule_of_sqlite hsql.1 hsql.2] at h
    obtain ⟨es, hd, ha⟩ := insertSqlite_advances hexec h
    exact ⟨es, ⟨hdef, fun _ => hd, fun hno => absurd (hmatch.mpr hsql) hno⟩, ha⟩
  · obtain ⟨r₁, hr₁, ha⟩ := forwardRule_of_not_sqlite hsql
    obtain rfl := Option.some.inj (hr₁.symm.trans h)
    exact ⟨[], .of_silent hdef (mt hmatch.mp hsql), ha⟩

theorem ruleStep_rounds (hexec : ∀ calls sql, db.execOk calls sql = true) {i : ℕ}
    {r r' : InsertRun} (hfail : r.failed = false)
    (h : ruleStep nng cj db conf time w r i = some r') :
    ∃ es, Rounds nng cj conf time w r.st.rules i es ∧ Advances es r r' := by
  cases hr : r.st.rules[i]? with
  | none =>
    obtain rfl := Option.some.inj ((ruleStep_of_none hr).symm.trans h)
    have hout : ∀ r₁, r.st.rules[i]? ≠ some r₁ := by simp [hr]
    exact ⟨[], .of_silent (fun r₁ hr₁ => absurd hr₁ (hout r₁))
      (fun ⟨r₁, hr₁, _⟩ => hout r₁ hr₁), Advances.refl r⟩
  | some info =>
    rw [ruleStep_of_some hfail hr] at h
    split_ifs at h with hen
    · obtain ⟨⟨b, info'⟩, hf, hrest⟩ := Option.bind_eq_some_iff.mp h
      have hplain := plain_ruleEngineFilter nng cj time w hf
      have hset : SamePlain (r.st.rules.set i info') r.st.rules := SamePlain.set hr hplain
      have hdef : FilterDefined nng cj time w r.st.rules i :=
        (filterDefined_iff hr).mpr (fun _ => by rw [hf]; rfl)
      have hadv : Advances [] r { r with st := { r.st with rules := r.st.rules.set i info' } } :=
        ⟨hset, rfl, (List.append_nil _).symm⟩
      have hmatch : SqlMatch nng cj conf time w r.st.rules i ↔
          info'.sqliteTable.isSome ∧ sqliteOn conf = true ∧ b = true := by
        rw [sqlMatch_iff hr, hf, Option.map_some, Option.some.injEq, and_iff_right hen,
          sqliteTable_congr hplain]
      dsimp only at hrest
      split_ifs at hrest with hb
      · have hmatch' : SqlMatch nng cj conf time w (r.st.rules.set i info') i ↔
            info'.sqliteTable.isSome ∧ sqliteOn conf = true := by
          rw [iff_true_intro hb, and_true] at hmatch
          exact ⟨fun hm => hmatch.mp (hm.congr hset),
            fun hs => (hmatch.mpr hs).congr (Eq.symm hset)⟩
        obtain ⟨es, hround, ha⟩ := forwardRule_rounds hexec (hdef.congr hset) hmatch' hrest
        exact ⟨es, hround.congr hset, hadv.trans ha⟩
      · obtain rfl := Option.some.inj hrest
        exact ⟨[], .of_silent hdef (fun hm => hb (hmatch.mp hm).2.2), hadv⟩
    · obtain rfl := Option.some.inj h
      exact ⟨[], .of_silent ((filterDefined_iff hr).mpr (fun hen' => absurd hen' hen))
        (fun hm => hen ((sqlMatch_iff hr).mp hm).1), Advances.refl r⟩

def Writable (w : Work) (rules : List Rule) (i : ℕ) : Prop :=
  ∃ r, rules[i + i]? = some r ∧ r.sqliteTable.isSome ∧ r.Present w

theorem Writable.congr {rules rules' : List Rule} (h : SamePlain rules rules') {i : ℕ}
    (hw : Writable w rules i) : Writable w rules' i := by
  obtain ⟨r, hr, htable, hpres⟩ := hw
  obtain ⟨r', hr', hplain⟩ := h.getElem? hr
  refine ⟨r', hr', ?_, (present_congr hplain).mpr hpres⟩
  rwa [sqliteTable_congr hplain]

theorem ruleStep_isSome (db : Sqlite) {i : ℕ} {r : InsertRun} (hfail : r.failed = false)
    (hdef : FilterDefined nng cj time w r.st.rules i)
    (hwrite : SqlMatch nng cj conf time w r.st.rules i → Writable w r.st.rules i) :
    (ruleStep nng cj db conf time w r i).isSome := by
  cases hr : r.st.rules[i]? with
  | none => rw [ruleStep_of_none hr]; rfl
  | some info =>
    rw [ruleStep_of_some hfail hr]
    split_ifs with hen
    · obtain ⟨⟨b, info'⟩, hf⟩ := Option.isSome_iff_exists.mp (hdef info hr hen)
      have hplain := plain_ruleEngineFilter nng cj time w hf
      rw [hf, Option.bind_some]
      dsimp only
      split_ifs with hb
      · by_cases hsql : info'.sqliteTable.isSome ∧ sqliteOn conf = true
        · have hm : SqlMatch nng cj conf time w r.st.rules i := by
            rw [sqlMatch_iff hr, hf, ← sqliteTable_congr hplain, hb]
            exact ⟨hen, hsql.1, hsql.2, rfl⟩
          obtain ⟨r₁, hr₁, htable, hpres⟩ :=
            (hwrite hm).congr (Eq.symm (SamePlain.set hr hplain))
          rw [forwardRule_of_sqlite hsql.1 hsql.2]
          exact insertSqlite_isSome hr₁ htable hpres
        · obtain ⟨r₁, hr₁, -⟩ := forwardRule_of_not_sqlite hsql
          rw [hr₁]
          rfl
      · rfl
    · rfl

theorem Doubles.of_singleton {rules : List Rule} {i : ℕ} {e : ℕ × Bytes}
    (h : Doubles w rules i [e]) :
    e.1 = i + i ∧ ∃ r table, rules[i + i]? = some r ∧ r.sqliteTable = some table ∧ r.Present w ∧
      r.columns ≠ [] ∧ InsertInto table r.columns e.2 := by
  obtain ⟨r, table, hr, htable, hpres, ⟨-, hes⟩ | ⟨hcols, sql, hes, hinto⟩⟩ := h.made
  · cases hes
  · obtain rfl := (List.cons.inj hes).1
    exact ⟨rfl, r, table, hr, htable, hpres, hcols, hinto⟩

theorem Rounds.of_mem {rules : List Rule} {i : ℕ} {es : List (ℕ × Bytes)}
    (h : Rounds nng cj conf time w rules i es) {e : ℕ × Bytes} (he : e ∈ es) :
    es = [e] ∧ SqlMatch nng cj conf time w rules i := by
  have hm : SqlMatch nng cj conf time w rules i := by
    by_contra hno
    rw [h.silent hno] at he
    cases he
  obtain ⟨r, table, -, -, -, ⟨-, rfl⟩ | ⟨-, sql, rfl, -⟩⟩ := (h.doubles hm).made
  · cases he
  · rw [List.mem_singleton.mp he]
    exact ⟨rfl, hm⟩

end Steps

end NanoMQ
