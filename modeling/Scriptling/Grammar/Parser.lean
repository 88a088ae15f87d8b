-- Parsers: functions that take tokens from the front of a list. A parser gives a result or
-- unwinds, leaves the tokens it did not take, and may complain on the way; a complaint
-- need not stop it.
import Scriptling.Report

namespace Scriptling

/-! ## The type of parsers -/

/-- Why a parser gives up. -/
inductive Unwind
  /-- The tokens do not fit; the enclosing declaration is abandoned. -/
  | malformed
  /-- The source nests too deeply; the whole top-level declaration is abandoned. -/
  | tooDeep
  deriving DecidableEq, Repr

/-- A problem and the token at which it was met, `none` at the end of the source. -/
structure Complaint where
  token? : Option Token
  problem : Problem
  deriving DecidableEq

/-- What a parser leaves behind. -/
structure Parsed (α : Type) where
  outcome : Except Unwind α
  rest : List Token
  complaints : List Complaint

def Parser (α : Type) : Type := List Token → Parsed α

namespace Parser

variable {α β : Type}

/-- Take nothing and give `a`. -/
protected def pure (a : α) : Parser α := fun tokens => ⟨.ok a, tokens, []⟩

/-- Run `p`, then `f` on its result and on the tokens it left. -/
protected def bind (p : Parser α) (f : α → Parser β) : Parser β := fun tokens =>
  match p tokens with
  | ⟨.ok a, rest, complaints⟩ =>
    let next := f a rest
    ⟨next.outcome, next.rest, complaints ++ next.complaints⟩
  | ⟨.error u, rest, complaints⟩ => ⟨.error u, rest, complaints⟩

instance : Monad Parser where
  pure := Parser.pure
  bind := Parser.bind

/-! ## Looking at tokens and taking them -/

/-- The next token, left where it is. -/
def peek? : Parser (Option Token) := fun tokens => ⟨.ok tokens.head?, tokens, []⟩

/-- The next token is of the kind `k`. -/
def check (k : Kind) : Parser Bool := fun tokens =>
  ⟨.ok (tokens.head?.any (·.kind == k)), tokens, []⟩

/-- Take the next token if its kind satisfies `p`. -/
def acceptIf (p : Kind → Bool) : Parser (Option Token)
  | [] => ⟨.ok none, [], []⟩
  | t :: rest => if p t.kind then ⟨.ok (some t), rest, []⟩ else ⟨.ok none, t :: rest, []⟩

/-- Take the next token if it is of the kind `k`. -/
def accept (k : Kind) : Parser (Option Token) := acceptIf (· == k)

/-- Take the next token if it is the keyword `k`. -/
def acceptWord (k : Keyword) : Parser (Option Token) := accept (.keyword k)

/-! ## Complaints -/

/-- Complain about the next token and go on. -/
def complain (p : Problem) : Parser Unit := fun tokens => ⟨.ok (), tokens, [⟨tokens.head?, p⟩]⟩

/-- Complain about a token taken before, and go on. -/
def complainAt (t : Token) (p : Problem) : Parser Unit := fun tokens =>
  ⟨.ok (), tokens, [⟨some t, p⟩]⟩

/-- Complain about the next token and give up. -/
def refuse (p : Problem) : Parser α := fun tokens =>
  ⟨.error .malformed, tokens, [⟨tokens.head?, p⟩]⟩

/-- Give up because the source nests too deeply. -/
def tooDeep : Parser α := fun tokens => ⟨.error .tooDeep, tokens, []⟩

/-- Take a token of the kind `k`, or refuse. -/
def expect (k : Kind) (p : Problem) : Parser Token := do
  match ← accept k with
  | some t => return t
  | none => refuse p

/-! ## Repetition -/

/-- Repeat `step` until it gives `none`, at most `n` times. A step that takes a token each time
cannot be repeated more often than there are tokens. -/
def iterate (step : α → Parser (Option α)) : Nat → α → Parser α
  | 0, a => Parser.pure a
  | n + 1, a => Parser.bind (step a) fun
    | none => Parser.pure a
    | some b => iterate step n b

/-- The items that `step` gives until it gives `none`, at most `n` of them. -/
def many (step : Parser (Option α)) : Nat → Parser (List α)
  | 0 => Parser.pure []
  | n + 1 => Parser.bind step fun
    | none => Parser.pure []
    | some a => Parser.bind (many step n) fun rest => Parser.pure (a :: rest)

/-- The items after the first `count`, each behind a comma. Every item past `argumentLimit` is
complained about, and none is refused for that. -/
def moreItems (item : Parser α) (tooMany : Problem) : Nat → Nat → Parser (List α)
  | 0, _ => return []
  | n + 1, count => do
    match ← accept .comma with
    | none => return []
    | some _ =>
      if argumentLimit ≤ count then complain tooMany
      let a ← item
      let rest ← moreItems item tooMany n (count + 1)
      return a :: rest

/-- One or more items with commas between them. -/
def commaSeparated (size : Nat) (item : Parser α) (tooMany : Problem) : Parser (List α) := do
  let first ← item
  let rest ← moreItems item tooMany size 1
  return first :: rest

/-! ## Recovery -/

/-- Drop tokens up to one that starts a statement or stands after a semicolon, where `last` is
the token dropped before them. -/
def skipAfter (last : Token) : List Token → List Token
  | [] => []
  | t :: rest =>
    if last.kind = .semicolon ∨ t.kind.startsStatement then t :: rest else skipAfter t rest

/-- Drop the next token, and then all up to where a statement may start. -/
def synchronize : List Token → List Token
  | [] => []
  | t :: rest => skipAfter t rest

/-- Turn a malformed outcome into `none`, and skip to where a statement may start. -/
def recovering (p : Parser α) : Parser (Option α) := fun tokens =>
  match p tokens with
  | ⟨.ok a, rest, complaints⟩ => ⟨.ok (some a), rest, complaints⟩
  | ⟨.error .malformed, rest, complaints⟩ => ⟨.ok none, synchronize rest, complaints⟩
  | ⟨.error .tooDeep, rest, complaints⟩ => ⟨.error .tooDeep, rest, complaints⟩

end Parser

/-- A complaint as an error, in a source that ends on `endLine`. -/
def Complaint.error (endLine : Int) (c : Complaint) : StaticError :=
  match c.token? with
  | some t => .atToken t c.problem
  | none => ⟨endLine, .atEnd, c.problem⟩

end Scriptling
