-- Loops inside each other. Each `for` takes two steps of the descent that reads it, but three of
-- the walk that looks for declarations, so a text that is read may be too deep to be indexed.
import Scriptling.Editor.Document
import Scriptling.Proofs.Grammar.Outcome

namespace Scriptling.Editor

open Scriptling.Parser

/-! ## Texts, tokens and trees -/

/-- As many loops `for(i;;i)` inside each other, on one line. -/
def loopChars : Nat → List Char
  | 0 => ['i', ';']
  | n + 1 => ['f', 'o', 'r', '(', 'i', ';', ';', 'i', ')'] ++ loopChars n

def loopText (n : Nat) : String := String.ofList (loopChars n)

/-- The name that a loop counts with. -/
def counter : Token := ⟨.identifier, "i", none, 1⟩

/-- The tokens of `for(i;;i)`. -/
def loopHead : List Token :=
  [⟨.keyword .forWord, "for", none, 1⟩, ⟨.leftParen, "(", none, 1⟩, counter,
    ⟨.semicolon, ";", none, 1⟩, ⟨.semicolon, ";", none, 1⟩, counter, ⟨.rightParen, ")", none, 1⟩]

def loopTokens : Nat → List Token
  | 0 => [counter, ⟨.semicolon, ";", none, 1⟩]
  | n + 1 => loopHead ++ loopTokens n

def loops : Nat → RawStmt
  | 0 => .expression (.variable counter ())
  | n + 1 => forLoop (some (.expression (.variable counter ()))) none
      (some (.variable counter ())) (loops n)

theorem declarationLevels_loops (n : Nat) : declarationLevels (loops n) = 3 * n := by
  induction n with
  | zero => rfl
  | succ n ih =>
    simp only [loops, forLoop, declarationLevels, declarationLevelsInAll, ih]
    omega

/-! ## From the text to its tokens -/

/-- The pieces of `for(i;;i)`. -/
def loopPieces : List Piece :=
  [.word ['f', 'o', 'r'], .operator ['('] .leftParen, .word ['i'], .operator [';'] .semicolon,
    .operator [';'] .semicolon, .word ['i'], .operator [')'] .rightParen]

theorem pieces_of_scan {c : Char} {rest after : List Char} {p : Piece}
    (h : Piece.scan c rest = (p, after)) : pieces (c :: rest) = p :: pieces after := by
  rw [pieces, h]

theorem pieces_loopChars_succ (n : Nat) :
    pieces (loopChars (n + 1)) = loopPieces ++ pieces (loopChars n) := by
  rw [loopChars]
  iterate 7 refine (pieces_of_scan rfl).trans (congrArg (_ :: ·) ?_)
  rfl

theorem lex_loopText (n : Nat) : (lex (loopText n)).tokens = loopTokens n := by
  unfold lex loopText
  rw [String.toList_ofList]
  dsimp only
  induction n with
  | zero => decide +kernel
  | succ n ih =>
    -- the pieces hold no line end, and the counter stays where it is
    have hplaced : ∀ ps,
        (placed 1 (loopPieces ++ ps)).1 = (placed 1 loopPieces).1 ++ (placed 1 ps).1 := fun _ => rfl
    have hhead : ((placed 1 loopPieces).1.filterMap fun q => q.1.token? q.2) = loopHead := by
      decide +kernel
    rw [pieces_loopChars_succ, hplaced, List.filterMap_append, hhead, ih, loopTokens]

/-! ## From the tokens to the tree -/

theorem gives_counter {size budget : Nat} {t : Token} {rest : List Token}
    (h : t.kind = .semicolon ∨ t.kind = .rightParen) :
    Gives (expression (size + 1) (budget + 15)) (counter :: t :: rest) (.variable counter ())
      (t :: rest) := by
  obtain ⟨kind, lexeme, literal, line⟩ := t
  obtain h | h := h <;>
  · cases h
    rw [expression, unary]
    rfl

theorem gives_counterStatement {size budget : Nat} {t : Token} {rest : List Token}
    (h : t.kind = .semicolon) :
    Gives (expressionStatement (expression (size + 1) (budget + 15))) (counter :: t :: rest)
      (.expression (.variable counter ())) rest := by
  refine gives_bind.2 ⟨_, _, gives_counter (Or.inl h), ?_⟩
  exact gives_bind.2 ⟨t, rest, gives_expect.2 ⟨rfl, h⟩, rfl⟩

/-- One loop more takes two of the budget. -/
theorem gives_loopHead {size budget : Nat} {ts rest : List Token} {s : RawStmt}
    (h : Gives (statement (size + 1) (budget + 15)) ts s rest) :
    Gives (statement (size + 1) (budget + 17)) (loopHead ++ ts)
      (forLoop (some (.expression (.variable counter ()))) none (some (.variable counter ())) s)
      rest := by
  unfold Gives loopHead
  rw [List.cons_append, statement_cons, if_pos rfl]
  -- the opening parenthesis, and neither `;` nor `var` behind it
  iterate 3 refine gives_bind.2 ⟨_, _, rfl, ?_⟩
  refine gives_bind.2 ⟨_, _, gives_map.2 ⟨_, gives_counterStatement rfl, rfl⟩, ?_⟩
  -- no condition, and an increment
  iterate 4 refine gives_bind.2 ⟨_, _, rfl, ?_⟩
  refine gives_bind.2 ⟨_, _, gives_map.2 ⟨_, gives_counter (Or.inr rfl), rfl⟩, ?_⟩
  refine gives_bind.2 ⟨_, _, rfl, ?_⟩
  exact gives_bind.2 ⟨s, rest, h, rfl⟩

theorem gives_loops (size budget n : Nat) :
    Gives (statement (size + 1) (budget + 17 + 2 * n)) (loopTokens n) (loops n) [] := by
  induction n with
  | zero => exact gives_counterStatement rfl
  | succ n ih =>
    have houter : budget + 17 + 2 * (n + 1) = budget + 2 * n + 2 + 17 := by omega
    have hinner : budget + 17 + 2 * n = budget + 2 * n + 2 + 15 := by omega
    rw [hinner] at ih
    rw [houter, loopTokens]
    exact gives_loopHead ih

theorem loopTokens_length (n : Nat) : (loopTokens n).length = 7 * n + 2 := by
  induction n with
  | zero => rfl
  | succ n ih =>
    rw [loopTokens, List.length_append, ih, loopHead]
    simp only [List.length_cons, List.length_nil]
    omega

/-- The program that the loops alone are. -/
theorem gives_loopProgram {size budget n : Nat} (hbudget : 2 * n + 18 ≤ budget) :
    Gives (program (size + 2) budget) (loopTokens n) [loops n] [] := by
  obtain ⟨b, rfl⟩ : ∃ b, budget = b + 3 := ⟨budget - 3, by omega⟩
  obtain ⟨t, rest, htokens, hfunction, hvar⟩ : ∃ t rest, loopTokens n = t :: rest ∧
      t.kind ≠ .keyword .functionWord ∧ t.kind ≠ .keyword .varWord := by
    cases n <;> exact ⟨_, _, rfl, by decide, by decide⟩
  have hstatement : Gives (statement (size + 2) (b + 2)) (loopTokens n) (loops n) [] := by
    have hsplit : b + 2 = b - 2 * n - 15 + 17 + 2 * n := by omega
    rw [hsplit]
    exact gives_loops (size + 1) _ n
  rw [htokens] at hstatement ⊢
  have hdeclaration : Gives (declaration (size + 2) (b + 3)) (t :: rest) (some (loops n)) [] := by
    rw [declaration]
    refine (gives_recovering (loud_declarationBody _ _)).2 ⟨loops n, rfl, ?_⟩
    refine gives_bind.2 ⟨none, t :: rest, ?_, gives_bind.2 ⟨none, t :: rest, ?_, hstatement⟩⟩
    · exact gives_accept.2 (Or.inr ⟨rfl, rfl, not_startsWith_cons hfunction rest⟩)
    · exact gives_accept.2 (Or.inr ⟨rfl, rfl, not_startsWith_cons hvar rest⟩)
  have htop : Gives (topLevel (size + 2) (b + 3)) (t :: rest) (some (loops n)) [] := by
    unfold Gives topLevel
    rw [hdeclaration]
  refine gives_bind.2 ⟨[some (loops n)], [], ?_, rfl⟩
  refine gives_bind.2 ⟨some (some (loops n)), [], gives_bind.2 ⟨some t, t :: rest, rfl, ?_⟩, rfl⟩
  exact gives_map.2 ⟨some (loops n), htop, rfl⟩

/-- Up to 486 loops inside each other are read. -/
theorem statements_loopText {n : Nat} (h : n ≤ 486) :
    (read nestingLimit (loopText n)).statements = [loops n] := by
  have hbudget : 2 * n + 18 ≤ nestingLimit := by
    rw [nestingLimit]
    omega
  show (program _ _ _).outcome.toOption.getD [] = _
  rw [lex_loopText, loopTokens_length, gives_loopProgram hbudget]
  rfl

end Scriptling.Editor
