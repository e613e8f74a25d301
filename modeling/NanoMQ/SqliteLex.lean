import NanoMQ.SqlLex

/-!
# Strings in SQLite

SQLite has no rules but those of `Mode.step`: a string goes on up to the next quote that is not
doubled, backslashes included.
-/

namespace SqlLex

def sqlite : Dialect Mode where
  place := id
  step := Mode.step
  finish := Mode.finish
  step_place := fun c m _ => (Option.map_id' (x := m.step c)).symm

section Sqlite

variable {rest : List UInt8}

theorem sqlite_lexFrom (mode : Mode) (text : List UInt8) :
    sqlite.lexFrom mode text = lexFrom mode text := by
  induction text generalizing mode with
  | nil => rfl
  | cons c text ih =>
    rw [Dialect.lexFrom, lexFrom]
    simp only [ih]
    rfl

theorem sqlite_lex (text : List UInt8) : sqlite.lex text = lexFrom .idle text :=
  sqlite_lexFrom .idle text

theorem piece_of_sqlite {text : List UInt8} {tokens : List Token}
    (h : sqlite.Piece text tokens) : Piece text tokens := by
  intro c rest hc
  have hread := h c rest hc
  rwa [sqlite_lex, sqlite_lex] at hread

theorem lexFrom_of_step {mode mode' : Mode} {c : UInt8} (h : mode.step c = some ([], mode')) :
    lexFrom mode (c :: rest) = lexFrom mode' rest := by
  rw [← sqlite_lexFrom, ← sqlite_lexFrom]
  exact sqlite.lexFrom_of_step h

theorem lexFrom_endString {content : List UInt8} {c : UInt8}
    (h : (Mode.quote content).step c = endToken (.string content) c) :
    lexFrom (.quote content) (c :: rest) =
      (lexFrom .idle (c :: rest)).map (.string content :: ·) := by
  rw [← sqlite_lexFrom, ← sqlite_lex]
  exact sqlite.lexFrom_endToken h trivial

theorem lexFrom_content {content : List UInt8} (h : 39 ∉ content) (acc : List UInt8) :
    lexFrom (.string acc) (content ++ rest) = lexFrom (.string (acc ++ content)) rest := by
  rw [← sqlite_lexFrom, ← sqlite_lexFrom]
  exact sqlite.lexFrom_extend .string (P := fun c => c ≠ 39) (fun _ _ hc => if_neg hc)
    (fun _ hc heq => h (heq ▸ hc)) acc

theorem piece_string {content : List UInt8} (h : 39 ∉ content) :
    Piece (39 :: content ++ [39]) [.string content] := by
  intro d rest hd
  have hopen : Mode.idle.step 39 = some ([], .string []) := rfl
  have hclose : (Mode.string content).step 39 = some ([], .quote content) := rfl
  have hend : (Mode.quote content).step d = endToken (.string content) d := by
    rcases hd with rfl | rfl | rfl <;> rfl
  calc lexFrom .idle (39 :: content ++ [39] ++ d :: rest)
      = lexFrom .idle (39 :: (content ++ 39 :: d :: rest)) := by simp
    _ = lexFrom (.string content) (39 :: d :: rest) := by
        rw [lexFrom_of_step hopen, lexFrom_content h, List.nil_append]
    _ = _ := by
        rw [lexFrom_of_step hclose, lexFrom_endString hend]
        rfl

/-- Whatever follows, a string that is open has begun with what was read of it. -/
theorem first_string {text acc : List UInt8} {tokens : List Token}
    (h : lexFrom (.string acc) text = some tokens ∨ lexFrom (.quote acc) text = some tokens) :
    ∃ more rest, tokens = .string (acc ++ more) :: rest := by
  induction text generalizing acc with
  | nil =>
    rcases h with h | h
    · cases h
    · obtain rfl := Option.some.inj h
      exact ⟨[], [], by rw [List.append_nil]⟩
  | cons c text ih =>
    by_cases hc : c = 39
    · have hclose : (Mode.string acc).step c = some ([], .quote acc) := if_pos hc
      have hdouble : (Mode.quote acc).step c = some ([], .string (acc ++ [39])) := if_pos hc
      rw [lexFrom_of_step hclose, lexFrom_of_step hdouble] at h
      rcases h with h | h
      · exact ih (Or.inr h)
      · obtain ⟨more, rest, rfl⟩ := ih (Or.inl h)
        exact ⟨39 :: more, rest, by simp⟩
    · have htake : (Mode.string acc).step c = some ([], .string (acc ++ [c])) := if_neg hc
      have hend : (Mode.quote acc).step c = endToken (.string acc) c := if_neg hc
      rw [lexFrom_of_step htake, lexFrom_endString hend] at h
      rcases h with h | h
      · obtain ⟨more, rest, rfl⟩ := ih (Or.inl h)
        exact ⟨c :: more, rest, by simp⟩
      · obtain ⟨rest, -, rfl⟩ := Option.map_eq_some_iff.mp h
        exact ⟨[], rest, by rw [List.append_nil]⟩

end Sqlite

end SqlLex
