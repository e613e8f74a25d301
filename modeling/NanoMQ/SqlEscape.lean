import NanoMQ.RuleInsert
import NanoMQ.SqliteLex

/-!
# Escaped strings

`sql_escape` puts a backslash in front of a quote and of a backslash. To SQLite a backslash in a
string is a byte like any other, and a quote ends the string unless there are two. So a string with
a quote ends early, at a backslash that was not in it, and one with a backslash has more of them
afterwards.
-/

namespace NanoMQ

open ByteBuffer SqlLex

def escapeByte (c : UInt8) : Bytes := if c = 39 ∨ c = 92 then [92, c] else [c]

section Escape

variable {s : Bytes}

theorem sqlEscape_eq (h : 0 ∉ s) : sqlEscape s = s.flatMap escapeByte := by
  rw [sqlEscape, cstr_of_not_mem h]
  rfl

theorem escape_of_clean (hquote : 39 ∉ s) (hslash : 92 ∉ s) : s.flatMap escapeByte = s := by
  induction s with
  | nil => rfl
  | cons c s ih =>
    rw [List.mem_cons, not_or] at hquote hslash
    have hbyte : escapeByte c = [c] :=
      if_neg (not_or.mpr ⟨fun h => hquote.1 h.symm, fun h => hslash.1 h.symm⟩)
    rw [List.flatMap_cons, hbyte, ih hquote.2 hslash.2, List.singleton_append]

theorem quote_not_mem_escape (h : 39 ∉ s) : 39 ∉ s.flatMap escapeByte := by
  intro hmem
  obtain ⟨c, hc, hbyte⟩ := List.mem_flatMap.mp hmem
  have hne : (39 : UInt8) ≠ c := fun heq => h (heq ▸ hc)
  unfold escapeByte at hbyte
  split_ifs at hbyte <;> simp [hne] at hbyte

theorem length_le_escape (s : Bytes) : s.length ≤ (s.flatMap escapeByte).length := by
  induction s with
  | nil => exact le_rfl
  | cons c s ih =>
    have hbyte : 1 ≤ (escapeByte c).length := by
      unfold escapeByte
      split_ifs <;> simp
    rw [List.flatMap_cons, List.length_append, List.length_cons]
    omega

theorem length_lt_escape (h : 92 ∈ s) : s.length < (s.flatMap escapeByte).length := by
  obtain ⟨a, b, rfl⟩ := List.append_of_mem h
  have hslash : (escapeByte 92).length = 2 := rfl
  have ha := length_le_escape a
  have hb := length_le_escape b
  rw [List.flatMap_append, List.flatMap_cons, List.length_append, List.length_append,
    List.length_append, List.length_cons, hslash]
  omega

variable {c : UInt8} {rest : Bytes} {ts : List Token}

/-- A quote ends the string behind a backslash, where the string itself has the quote. -/
theorem quote_not_mem_of_read (hnul : 0 ∉ s)
    (h : lexFrom .idle (quoted s ++ c :: rest) = some (.string s :: ts)) : 39 ∉ s := by
  intro hmem
  obtain ⟨a, b, rfl, ha⟩ := List.eq_append_cons_of_mem hmem
  set front := a.flatMap escapeByte ++ [92] with hfront
  have hno : 39 ∉ front := by
    rw [hfront, List.mem_append, not_or]
    exact ⟨quote_not_mem_escape ha, by decide⟩
  have htext : quoted (a ++ 39 :: b) ++ c :: rest =
      39 :: (front ++ 39 :: (b.flatMap escapeByte ++ 39 :: c :: rest)) := by
    rw [quoted, sqlEscape_eq hnul, List.flatMap_append, List.flatMap_cons]
    simp [hfront, escapeByte, ascii]
  have hopen : Mode.idle.step 39 = some ([], .string []) := rfl
  have hclose : (Mode.string ([] ++ front)).step 39 = some ([], .quote ([] ++ front)) := rfl
  rw [htext, lexFrom_of_step hopen, lexFrom_content hno, lexFrom_of_step hclose] at h
  obtain ⟨more, ts', htokens⟩ := first_string (Or.inr h)
  have heq : a ++ 39 :: b = front ++ more := Token.string.inj (List.cons.inj htokens).1
  have hlt : a.length < front.length := by
    have hle := length_le_escape a
    rw [hfront, List.length_append, List.length_singleton]
    omega
  have hat : (front ++ more)[a.length]? = some 39 := by
    rw [← heq, List.getElem?_append_right le_rfl, Nat.sub_self]
    rfl
  rw [List.getElem?_append_left hlt] at hat
  exact hno (List.mem_of_getElem? hat)

theorem clean_of_read (hnul : 0 ∉ s) (hc : Delimiter c)
    (h : lexFrom .idle (quoted s ++ c :: rest) = some (.string s :: ts)) : 39 ∉ s ∧ 92 ∉ s := by
  have hquote := quote_not_mem_of_read hnul h
  refine ⟨hquote, fun hslash => ?_⟩
  have htext : quoted s = 39 :: s.flatMap escapeByte ++ [39] := by
    rw [quoted, sqlEscape_eq hnul]
    rfl
  rw [htext, piece_string (quote_not_mem_escape hquote) c rest hc] at h
  obtain ⟨ts', -, htokens⟩ := Option.map_eq_some_iff.mp h
  have heq : s.flatMap escapeByte = s := Token.string.inj (List.cons.inj htokens).1
  have hlt := length_lt_escape hslash
  rw [heq] at hlt
  exact absurd hlt (lt_irrefl _)

end Escape

end NanoMQ
