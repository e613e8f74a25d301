import NanoMQ.SqlLex

/-!
# Strings in MySQL

In a string of MySQL a backslash makes the byte behind it a part of the string, whatever it is. Two
dashes start a comment only in front of a blank or a control character.
-/

namespace SqlLex

/-- Behind a backslash in a string, behind two dashes, or as in every dialect. -/
inductive MyMode
  | base (mode : Mode)
  | escape (content : List UInt8)
  | dashes

def isControl (c : UInt8) : Bool := c.toNat < 32 || c = 127

def MyMode.step (c : UInt8) : MyMode → Option (List Token × MyMode)
  | .base mode =>
    match mode, c with
    | .string content, 92 => some ([], .escape content)
    | .dash, 45 => some ([], .dashes)
    | _, _ => (mode.step c).map (fun x => (x.1, .base x.2))
  | .escape content => some ([], .base (.string (content ++ [c])))
  | .dashes =>
    if isBlank c || isControl c then (Mode.comment.step c).map (fun x => (x.1, .base x.2))
    else if c = 45 then some ([.punct 45], .dashes)
    else (begin c).map (fun x => (.punct 45 :: .punct 45 :: x.1, .base x.2))

def MyMode.finish : MyMode → Option (List Token)
  | .base mode => mode.finish
  | .escape _ => none
  | .dashes => some []

def mysql : Dialect MyMode where
  place := .base
  step := MyMode.step
  finish := MyMode.finish
  step_place := by
    intro c m hplain
    unfold MyMode.step
    dsimp only
    split
    · exact absurd rfl hplain
    · exact absurd rfl hplain
    · rfl

section Mysql

variable {rest : List UInt8}

theorem mysql_escape (acc : List UInt8) (c : UInt8) :
    mysql.lexFrom (.base (.string acc)) (92 :: c :: rest) =
      mysql.lexFrom (.base (.string (acc ++ [c]))) rest := by
  have hslash : mysql.step 92 (.base (.string acc)) = some ([], .escape acc) := rfl
  have hbyte : mysql.step c (.escape acc) = some ([], .base (.string (acc ++ [c]))) := rfl
  rw [mysql.lexFrom_of_step hslash, mysql.lexFrom_of_step hbyte]

theorem mysql_byte (acc : List UInt8) {c : UInt8} (hquote : c ≠ 39) (hslash : c ≠ 92) :
    mysql.lexFrom (.base (.string acc)) (c :: rest) =
      mysql.lexFrom (.base (.string (acc ++ [c]))) rest := by
  have hstep : (Mode.string acc).step c = some ([], .string (acc ++ [c])) := if_neg hquote
  exact mysql.lexFrom_of_step (mysql.step_of_plain hstep hslash)

theorem mysql_piece_string {text content : List UInt8}
    (h : ∀ rest, mysql.lexFrom (.base (.string [])) (text ++ rest) =
      mysql.lexFrom (.base (.string content)) rest) :
    mysql.Piece (39 :: text ++ [39]) [.string content] := by
  intro d rest hd
  have hopen : Mode.idle.step 39 = some ([], .string []) := rfl
  have hclose : (Mode.string content).step 39 = some ([], .quote content) := rfl
  have hquote : (39 : UInt8) ≠ 92 := by decide
  have hend : (Mode.quote content).step d = endToken (.string content) d := by
    rcases hd with rfl | rfl | rfl <;> rfl
  calc mysql.lex (39 :: text ++ [39] ++ d :: rest)
      = mysql.lex (39 :: (text ++ 39 :: d :: rest)) := by simp
    _ = mysql.lexFrom (.base (.string content)) (39 :: d :: rest) := by
        rw [Dialect.lex, mysql.lexFrom_of_step (mysql.step_of_plain hopen trivial)]
        exact h (39 :: d :: rest)
    _ = mysql.lexFrom (.base (.quote content)) (d :: rest) :=
        mysql.lexFrom_of_step (mysql.step_of_plain hclose hquote)
    _ = _ := mysql.lexFrom_endToken hend trivial

end Mysql

end SqlLex
