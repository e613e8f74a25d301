import Mathlib.Data.List.Basic
import Mathlib.Tactic.SplitIfs

/-!
# Tokens of an SQL text

The lexical rules of SQL as far as INSERT statements need them, byte by byte: words, unsigned
numbers, brackets, commas, semicolons and signs, comments from two dashes to the end of the line,
and strings in single quotes, in which a quote is written as two and every other byte stands for
itself. `lexFrom` starts in the middle of a token; a `Piece` is a text that is read as its tokens
whenever a delimiter follows.

These are the rules of SQLite. A `Dialect` has rules of its own for a backslash in a string and for
a second dash, and reads everything else in the same way.
-/

namespace SqlLex

inductive Token
  | word (name : List UInt8)
  | number (digits : List UInt8)
  | string (content : List UInt8)
  | punct (c : UInt8)
  deriving DecidableEq, Repr

/-- What has been read of a token. Behind a quote in a string it is open whether the string ends. -/
inductive Mode
  | idle
  | word (name : List UInt8)
  | number (digits : List UInt8)
  | string (content : List UInt8)
  | quote (content : List UInt8)
  | dash
  | comment

def isBlank (c : UInt8) : Bool := c = 32 || c = 9 || c = 10 || c = 13

def isDigit (c : UInt8) : Bool := 48 ≤ c.toNat && c.toNat ≤ 57

def isLetter (c : UInt8) : Bool :=
  (65 ≤ c.toNat && c.toNat ≤ 90) || (97 ≤ c.toNat && c.toNat ≤ 122) || c = 95

def isWordByte (c : UInt8) : Bool := isLetter c || isDigit c

def begin (c : UInt8) : Option (List Token × Mode) :=
  if isBlank c then some ([], .idle)
  else if isLetter c then some ([], .word [c])
  else if isDigit c then some ([], .number [c])
  else if c = 39 then some ([], .string [])
  else if c = 45 then some ([], .dash)
  else if c = 40 || c = 41 || c = 44 || c = 59 then some ([.punct c], .idle)
  else none

def endToken (t : Token) (c : UInt8) : Option (List Token × Mode) :=
  (begin c).map (fun x => (t :: x.1, x.2))

def Mode.step (c : UInt8) : Mode → Option (List Token × Mode)
  | .idle => begin c
  | .word name => if isWordByte c then some ([], .word (name ++ [c])) else endToken (.word name) c
  | .number digits =>
    if isDigit c then some ([], .number (digits ++ [c]))
    else if isWordByte c then none
    else endToken (.number digits) c
  | .string content =>
    if c = 39 then some ([], .quote content) else some ([], .string (content ++ [c]))
  | .quote content =>
    if c = 39 then some ([], .string (content ++ [39])) else endToken (.string content) c
  | .dash => if c = 45 then some ([], .comment) else endToken (.punct 45) c
  | .comment => if c = 10 then some ([], .idle) else some ([], .comment)

def Mode.finish : Mode → Option (List Token)
  | .idle | .comment => some []
  | .word name => some [.word name]
  | .number digits => some [.number digits]
  | .string _ => none
  | .quote content => some [.string content]
  | .dash => some [.punct 45]

def lexFrom : Mode → List UInt8 → Option (List Token)
  | mode, [] => mode.finish
  | mode, c :: cs => (mode.step c).bind (fun x => (lexFrom x.2 cs).map (x.1 ++ ·))

def lex (text : List UInt8) : Option (List Token) := lexFrom .idle text

def Ident (name : List UInt8) : Prop :=
  ∃ c cs, name = c :: cs ∧ isLetter c = true ∧ ∀ d ∈ cs, isWordByte d = true

def Delimiter (c : UInt8) : Prop := c = 32 ∨ c = 41 ∨ c = 44

/-- The text is read as these tokens in front of a delimiter. -/
def Piece (text : List UInt8) (tokens : List Token) : Prop :=
  ∀ c rest, Delimiter c →
    lexFrom .idle (text ++ c :: rest) = (lexFrom .idle (c :: rest)).map (tokens ++ ·)

def Mode.Plain (c : UInt8) : Mode → Prop
  | .string _ => c ≠ 92
  | .dash => c ≠ 45
  | _ => True

/-- The rules of a database. Among its states there is one for every mode. -/
structure Dialect (σ : Type*) where
  place : Mode → σ
  step : UInt8 → σ → Option (List Token × σ)
  finish : σ → Option (List Token)
  step_place : ∀ c m, m.Plain c → step c (place m) = (m.step c).map (fun x => (x.1, place x.2))

namespace Dialect

variable {σ : Type*} (D : Dialect σ)

def lexFrom : σ → List UInt8 → Option (List Token)
  | p, [] => D.finish p
  | p, c :: cs => (D.step c p).bind (fun x => (lexFrom x.2 cs).map (x.1 ++ ·))

def lex (text : List UInt8) : Option (List Token) := D.lexFrom (D.place .idle) text

def Piece (text : List UInt8) (tokens : List Token) : Prop :=
  ∀ c rest, Delimiter c →
    D.lex (text ++ c :: rest) = (D.lex (c :: rest)).map (tokens ++ ·)

end Dialect

theorem begin_letter {c : UInt8} (h : isLetter c = true) : begin c = some ([], .word [c]) := by
  have hblank : isBlank c = false := by
    rw [← Bool.not_eq_true]
    intro hb
    simp only [isBlank, Bool.or_eq_true, decide_eq_true_eq] at hb
    rcases hb with ((rfl | rfl) | rfl) | rfl <;> revert h <;> decide
  unfold begin
  rw [hblank, h]
  rfl

theorem begin_digit {c : UInt8} (h : isDigit c = true) : begin c = some ([], .number [c]) := by
  have hrange : 48 ≤ c.toNat ∧ c.toNat ≤ 57 := by
    simpa [isDigit] using h
  have hne : ∀ d : UInt8, d.toNat < 48 ∨ 57 < d.toNat → c ≠ d := by
    rintro d hd rfl
    omega
  have hblank : isBlank c = false := by
    simp [isBlank, hne 32 (by decide), hne 9 (by decide), hne 10 (by decide), hne 13 (by decide)]
  have hletter : isLetter c = false := by
    simp only [isLetter, hne 95 (by decide), decide_false, Bool.or_false, Bool.or_eq_false_iff,
      Bool.and_eq_false_iff, decide_eq_false_iff_not]
    omega
  unfold begin
  rw [hblank, hletter, h]
  rfl

theorem ident_cons {c : UInt8} {cs : List UInt8} (hc : isLetter c = true)
    (hcs : cs.all isWordByte = true) : Ident (c :: cs) :=
  ⟨c, cs, rfl, hc, List.all_eq_true.mp hcs⟩

namespace Dialect

variable {σ : Type*} (D : Dialect σ) {rest : List UInt8}

/-- A byte that only changes the state. -/
theorem lexFrom_of_step {p p' : σ} {c : UInt8} (h : D.step c p = some ([], p')) :
    D.lexFrom p (c :: rest) = D.lexFrom p' rest := by
  rw [lexFrom, h]
  simp

/-- States that take up the bytes of a kind. -/
theorem lexFrom_extend (state : List UInt8 → σ) {P : UInt8 → Prop}
    (hstep : ∀ acc c, P c → D.step c (state acc) = some ([], state (acc ++ [c])))
    {cs : List UInt8} (hcs : ∀ c ∈ cs, P c) (acc : List UInt8) :
    D.lexFrom (state acc) (cs ++ rest) = D.lexFrom (state (acc ++ cs)) rest := by
  induction cs generalizing acc with
  | nil => rw [List.nil_append, List.append_nil]
  | cons c cs ih =>
    rw [List.forall_mem_cons] at hcs
    rw [List.cons_append, D.lexFrom_of_step (hstep acc c hcs.1), ih hcs.2, List.append_assoc,
      List.singleton_append]

theorem step_of_plain {m m' : Mode} {c : UInt8} {ts : List Token} (h : m.step c = some (ts, m'))
    (hplain : m.Plain c) : D.step c (D.place m) = some (ts, D.place m') := by
  rw [D.step_place c m hplain, h]
  rfl

theorem lexFrom_endToken {m : Mode} {t : Token} {c : UInt8} (h : m.step c = endToken t c)
    (hplain : m.Plain c) :
    D.lexFrom (D.place m) (c :: rest) = (D.lex (c :: rest)).map (t :: ·) := by
  rw [lexFrom, lex, lexFrom, D.step_place c m hplain, D.step_place c .idle trivial, h, endToken,
    Mode.step]
  cases begin c with
  | none => rfl
  | some x =>
    simp only [Option.map_some, Option.bind_some, Option.map_map]
    rfl

theorem piece_word {name : List UInt8} (h : Ident name) : D.Piece name [.word name] := by
  obtain ⟨c, cs, rfl, hc, hcs⟩ := h
  intro d rest hd
  have hend : (Mode.word ([c] ++ cs)).step d = endToken (.word (c :: cs)) d := by
    rcases hd with rfl | rfl | rfl <;> rfl
  have hextend : D.lexFrom (D.place (.word [c])) (cs ++ d :: rest) =
      D.lexFrom (D.place (.word ([c] ++ cs))) (d :: rest) :=
    D.lexFrom_extend (fun name => D.place (.word name)) (P := fun d => isWordByte d = true)
      (fun _ _ hd => D.step_of_plain (if_pos hd) trivial) hcs [c]
  have hbegin : Mode.idle.step c = some ([], .word [c]) := begin_letter hc
  rw [lex, List.cons_append, D.lexFrom_of_step (D.step_of_plain hbegin trivial), hextend,
    D.lexFrom_endToken hend trivial]
  rfl

theorem lex_digits {digits : List UInt8} (hne : digits ≠ [])
    (hdigits : ∀ d ∈ digits, isDigit d = true) :
    D.lex (digits ++ rest) = D.lexFrom (D.place (.number digits)) rest := by
  obtain ⟨c, cs, rfl⟩ := List.exists_cons_of_ne_nil hne
  rw [List.forall_mem_cons] at hdigits
  have hbegin : Mode.idle.step c = some ([], .number [c]) := begin_digit hdigits.1
  rw [lex, List.cons_append, D.lexFrom_of_step (D.step_of_plain hbegin trivial)]
  exact D.lexFrom_extend (fun digits => D.place (.number digits)) (P := fun d => isDigit d = true)
    (fun _ _ hd => D.step_of_plain (if_pos hd) trivial) hdigits.2 [c]

theorem piece_number {digits : List UInt8} (hne : digits ≠ [])
    (hdigits : ∀ d ∈ digits, isDigit d = true) : D.Piece digits [.number digits] := by
  intro d rest hd
  have hend : (Mode.number digits).step d = endToken (.number digits) d := by
    rcases hd with rfl | rfl | rfl <;> rfl
  rw [D.lex_digits hne hdigits, D.lexFrom_endToken hend trivial]
  rfl

theorem piece_negative {digits : List UInt8} (hne : digits ≠ [])
    (hdigits : ∀ d ∈ digits, isDigit d = true) :
    D.Piece (45 :: digits) [.punct 45, .number digits] := by
  intro d rest hd
  obtain ⟨c, cs, rfl⟩ := List.exists_cons_of_ne_nil hne
  have hc : c ≠ 45 := by
    rintro rfl
    exact absurd (hdigits 45 List.mem_cons_self) (by decide)
  have hpiece := D.piece_number hne hdigits d rest hd
  have hdash : Mode.idle.step 45 = some ([], .dash) := rfl
  have hend : Mode.dash.step c = endToken (.punct 45) c := if_neg hc
  rw [lex, List.cons_append, D.lexFrom_of_step (D.step_of_plain hdash trivial), List.cons_append,
    D.lexFrom_endToken hend hc, ← List.cons_append, hpiece, Option.map_map]
  rfl

theorem piece_signed {digits : List UInt8} (hne : digits ≠ [])
    (hdigits : ∀ d ∈ digits, isDigit d = true) (P : Prop) [Decidable P] :
    D.Piece ((if P then [45] else []) ++ digits)
      ((if P then [.punct 45] else []) ++ [.number digits]) := by
  split_ifs
  · exact D.piece_negative hne hdigits
  · exact D.piece_number hne hdigits

variable {names : List (List UInt8)} (rest)

theorem lex_blank : D.lex (32 :: rest) = D.lex rest := by
  have hblank : Mode.idle.step 32 = some ([], .idle) := rfl
  exact D.lexFrom_of_step (D.step_of_plain hblank trivial)

theorem lex_punct {c : UInt8} (h : begin c = some ([.punct c], .idle)) :
    D.lex (c :: rest) = (D.lex rest).map (.punct c :: ·) := by
  have hstep : Mode.idle.step c = some ([.punct c], .idle) := h
  rw [lex, lexFrom, D.step_of_plain hstep trivial]
  rfl

theorem lex_comma : D.lex (44 :: 32 :: rest) = (D.lex rest).map (.punct 44 :: ·) := by
  rw [D.lex_punct _ rfl, lex_blank]

theorem lex_word {name : List UInt8} (h : Ident name) :
    D.lex (name ++ 32 :: rest) = (D.lex rest).map (.word name :: ·) := by
  rw [D.piece_word h 32 rest (Or.inl rfl), lex_blank]
  rfl

/-- Pieces with commas between them, up to a closing bracket. -/
theorem lex_pieces {pieces : List (List UInt8 × List Token)} (hne : pieces ≠ [])
    (hpieces : ∀ x ∈ pieces, D.Piece x.1 x.2) :
    D.lex ([44, 32].intercalate (pieces.map Prod.fst) ++ 41 :: rest) =
      (D.lex (41 :: rest)).map ([.punct 44].intercalate (pieces.map Prod.snd) ++ ·) := by
  induction pieces with
  | nil => exact absurd rfl hne
  | cons x pieces ih =>
    rw [List.forall_mem_cons] at hpieces
    cases pieces with
    | nil =>
      rw [List.map_singleton, List.map_singleton, List.intercalate_singleton,
        List.intercalate_singleton]
      exact hpieces.1 41 rest (Or.inr (Or.inl rfl))
    | cons y pieces =>
      have htail := ih (List.cons_ne_nil y pieces) hpieces.2
      rw [List.map_cons, List.map_cons] at htail
      rw [List.map_cons, List.map_cons, List.map_cons, List.map_cons, List.intercalate_cons_cons,
        List.intercalate_cons_cons]
      simp only [List.append_assoc, List.cons_append, List.nil_append]
      rw [hpieces.1 44 _ (Or.inr (Or.inr rfl)), lex_comma, htail, Option.map_map, Option.map_map]
      rfl

theorem lex_idents (hne : names ≠ []) (hnames : ∀ name ∈ names, Ident name) :
    D.lex ([44, 32].intercalate names ++ 41 :: rest) =
      (D.lex (41 :: rest)).map
        ([.punct 44].intercalate (names.map (fun name => [.word name])) ++ ·) := by
  have hne' : names.map (fun name => (name, [Token.word name])) ≠ [] := by simpa using hne
  have hpieces := D.lex_pieces rest hne'
    (by simpa using fun name hname => D.piece_word (hnames name hname))
  rw [List.map_map, List.map_map] at hpieces
  simpa [Function.comp_def] using hpieces

end Dialect

end SqlLex
