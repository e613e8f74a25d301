import NanoMQ.RuleFilter

/-!
# The tests of a rule

What a filter of a WHERE clause asks of a value, and what the code tests instead. `Holds` compares
whole strings, and integers by value; `passes` is the test of `rule_engine_filter`. They part where
a test `Slips`: the checked text is only the beginning of the text it is compared with, or the
filter is no text for the kind of value it meets.
-/

namespace NanoMQ

open ByteBuffer

/-- A comparison of a value with a text: whether they are the same, and the two integers if both
are integers. Only integers are ordered. -/
def RuleCmp.Meets (cmp : RuleCmp) (same : Prop) (ints : Option (ℤ × ℤ)) : Prop :=
  match cmp with
  | .none => True
  | .equal => same
  | .unequal => ¬ same
  | .greater => ∃ v k, ints = some (v, k) ∧ k < v
  | .less => ∃ v k, ints = some (v, k) ∧ v < k
  | .greaterAndEqual => ∃ v k, ints = some (v, k) ∧ k ≤ v
  | .lessAndEqual => ∃ v k, ints = some (v, k) ∧ v ≤ k

def IntMeets (cmp : RuleCmp) (v : ℤ) (f : Bytes) : Prop :=
  cmp.Meets (integerOf f = some v) ((integerOf f).map (fun k => (v, k)))

def TextMeets (cmp : RuleCmp) (s f : Bytes) : Prop := cmp.Meets (s = cstr f) none

/-- The filter is the text of a JSON value that cJSON finds equal to `v`. -/
def SameJson (cj : Cjson) (v : Json) (f : Bytes) : Prop :=
  ∃ g, cj.parse f = some g ∧ cj.compare v g = true

def JsonMeets (cj : Cjson) (cmp : RuleCmp) (v : Json) (f : Bytes) : Prop :=
  cmp.Meets (SameJson cj v f) none

def Json.Satisfies (cj : Cjson) (cmp : RuleCmp) (f : Bytes) : Json → Prop
  | .number n => IntMeets cmp n f
  | .string s => TextMeets cmp (cstr s) f
  | v => JsonMeets cj cmp v f

inductive RuleTest
  | decided (ok : Bool)
  | int (cmp : RuleCmp) (v : ℤ) (f : Bytes)
  | text (cmp : RuleCmp) (s f : Bytes)
  | json (cmp : RuleCmp) (stored : Bool) (v : Json) (f : Bytes)

/-- A comparison over the length of `s` takes `s` for `t`: it ends before `t` does, or a zero byte
in `s` ends it. -/
def CutShort (s t : Bytes) : Prop := (s <+: t ∧ s ≠ t) ∨ ((0 : UInt8) ∈ s ∧ cstr s = t)

instance (s t : Bytes) : Decidable (CutShort s t) := inferInstanceAs (Decidable (_ ∨ _))

/-- The values that are compared with their filter at all, of those that are neither numbers nor
strings. -/
def Compared (cj : Cjson) (stored : Bool) (v : Json) (f : Bytes) : Prop :=
  (∃ members, v = .object members) ∧ stored = false ∧ (cj.parse f).isSome

/-- A text that is no integer is taken for the number it begins with. -/
def IntSlips (cmp : RuleCmp) (v : ℤ) (f : Bytes) : Prop :=
  integerOf f = none ∧ cmp ≠ .none ∧
    if cmp = .unequal then v = atoi f else cmpInt v (atoi f) cmp = true

/-- A string may be taken for a longer one, and strings that are to be ordered pass. -/
def TextSlips (cmp : RuleCmp) (s f : Bytes) : Prop :=
  match cmp with
  | .none => False
  | .equal | .unequal => CutShort s (cstr f)
  | _ => True

/-- An object is compared for equality whatever the comparison, and what is not compared passes. -/
def JsonSlips (cj : Cjson) (cmp : RuleCmp) (stored : Bool) (v : Json) (f : Bytes) : Prop :=
  (Compared cj stored v f ∧
    match cmp with
    | .none => ¬ SameJson cj v f
    | .equal => False
    | .unequal => True
    | _ => SameJson cj v f) ∨
  (¬ Compared cj stored v f ∧ ¬ JsonMeets cj cmp v f)

namespace RuleTest

def Holds (cj : Cjson) : RuleTest → Prop
  | .decided ok => ok = true
  | .int cmp v f => IntMeets cmp v f
  | .text cmp s f => TextMeets cmp s f
  | .json cmp _ v f => JsonMeets cj cmp v f

def passes (cj : Cjson) : RuleTest → Bool
  | .decided ok => ok
  | .int cmp v f => cmpInt v (atoi f) cmp
  | .text cmp s f => cmpStr (some s) s.length f cmp
  | .json _ stored v f =>
    match v with
    | .object _ => stored || !(cj.parse f).any (fun g => !cj.compare v g)
    | _ => true

def Slips (cj : Cjson) : RuleTest → Prop
  | .decided _ => False
  | .int cmp v f => IntSlips cmp v f
  | .text cmp s f => TextSlips cmp s f
  | .json cmp stored v f => JsonSlips cj cmp stored v f

def InRange : RuleTest → Prop
  | .int _ _ f => ∀ k, integerOf f = some k → IsInt32 k
  | _ => True

end RuleTest

theorem cmpInt_iff (v k : ℤ) (cmp : RuleCmp) :
    cmpInt v k cmp = true ↔ cmp.Meets (v = k) (some (v, k)) := by
  cases cmp <;> simp [cmpInt, RuleCmp.Meets]

theorem passes_int_iff {cmp : RuleCmp} {v : ℤ} {f : Bytes}
    (h : ∀ k, integerOf f = some k → IsInt32 k) :
    cmpInt v (atoi f) cmp = true ↔ Xor (IntMeets cmp v f) (IntSlips cmp v f) := by
  unfold IntMeets IntSlips
  cases hf : integerOf f with
  | some k =>
    have hsame : some k = some v ↔ v = k := by rw [Option.some.injEq, eq_comm]
    rw [atoi_of_integerOf hf (h k hf), cmpInt_iff, hsame]
    simp [Xor]
  | none => cases cmp <;> simp [cmpInt, RuleCmp.Meets, Xor]

theorem strncmp_length_iff_cutShort (s f : Bytes) :
    strncmp s f s.length = 0 ↔ s = cstr f ∨ CutShort s (cstr f) := by
  rw [strncmp_length_iff, CutShort, ← or_assoc]
  apply or_congr_left
  constructor
  · intro hpre
    exact (em (s = cstr f)).imp_right (fun hne => ⟨hpre, hne⟩)
  · rintro (rfl | h)
    · exact List.prefix_rfl
    · exact h.1

theorem not_cutShort_cstr (f : Bytes) : ¬ CutShort (cstr f) (cstr f) := by
  rintro (h | h)
  · exact h.2 rfl
  · exact not_mem_cstr f h.1

theorem passes_text_iff (cmp : RuleCmp) (s f : Bytes) :
    cmpStr (some s) s.length f cmp = true ↔ Xor (TextMeets cmp s f) (TextSlips cmp s f) := by
  have hcut : s = cstr f → ¬ CutShort s (cstr f) := by
    rintro rfl
    exact not_cutShort_cstr f
  cases cmp
  case equal =>
    simp only [cmpStr, decide_eq_true_eq, strncmp_length_iff_cutShort, TextMeets, RuleCmp.Meets,
      TextSlips, Xor]
    tauto
  case unequal =>
    simp only [cmpStr, decide_eq_true_eq, ne_eq, strncmp_length_iff_cutShort, TextMeets,
      RuleCmp.Meets, TextSlips, Xor]
    tauto
  all_goals simp [cmpStr, TextMeets, RuleCmp.Meets, TextSlips, Xor]

theorem passes_of_compared {cj : Cjson} {stored : Bool} {v : Json} {f : Bytes}
    (h : Compared cj stored v f) (cmp : RuleCmp) :
    RuleTest.passes cj (.json cmp stored v f) = true ↔ SameJson cj v f := by
  obtain ⟨⟨members, rfl⟩, rfl, hsome⟩ := h
  obtain ⟨g, hg⟩ := Option.isSome_iff_exists.mp hsome
  simp [RuleTest.passes, SameJson, hg]

theorem passes_of_not_compared {cj : Cjson} {stored : Bool} {v : Json} {f : Bytes}
    (h : ¬ Compared cj stored v f) (cmp : RuleCmp) :
    RuleTest.passes cj (.json cmp stored v f) = true := by
  cases v
  case object members =>
    cases hg : cj.parse f with
    | none => simp [RuleTest.passes, hg]
    | some g =>
      have hstored : stored ≠ false := fun hs => h ⟨⟨members, rfl⟩, hs, by rw [hg]; rfl⟩
      simp [RuleTest.passes, hstored]
  all_goals rfl

theorem passes_json_iff (cj : Cjson) (cmp : RuleCmp) (stored : Bool) (v : Json) (f : Bytes) :
    RuleTest.passes cj (.json cmp stored v f) = true ↔
      Xor (JsonMeets cj cmp v f) (JsonSlips cj cmp stored v f) := by
  unfold JsonSlips
  by_cases hc : Compared cj stored v f
  · rw [passes_of_compared hc]
    cases cmp <;> simp [hc, JsonMeets, RuleCmp.Meets, Xor]
  · have hslip : Xor (JsonMeets cj cmp v f) (¬ JsonMeets cj cmp v f) := by
      unfold Xor
      tauto
    simp only [passes_of_not_compared hc cmp, hc, false_and, not_false_eq_true, true_and, false_or,
      hslip]

/-- A test of the code gives the right answer unless it slips. -/
theorem RuleTest.passes_iff {t : RuleTest} (h : t.InRange) (cj : Cjson) :
    t.passes cj = true ↔ Xor (t.Holds cj) (t.Slips cj) := by
  cases t with
  | decided ok => simp [passes, Holds, Slips, Xor]
  | int cmp v f => exact passes_int_iff h
  | text cmp s f => exact passes_text_iff cmp s f
  | json cmp stored v f => exact passes_json_iff cj cmp stored v f

end NanoMQ
