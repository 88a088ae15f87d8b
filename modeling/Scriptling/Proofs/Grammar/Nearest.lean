-- The reading of a program. `Reads` is the grammar of statements with one rule more: an `else`
-- belongs to the nearest `if` that can have it. So every program has one reading, and with it a
-- tree. The rule leaves no program out.
import Scriptling.Proofs.Grammar.Rules

namespace Scriptling.Grammar

/-! ## Readings -/

/-- The clauses of a program. A statement is `opened` if an `else` right behind it would belong
to it. -/
inductive Clause
  | declarations
  | declaration
  | varDecl
  | statement (opened : Bool)
  | exprStmt
  | block
  | initializer

abbrev Clause.Tree : Clause → Type
  | declarations | block => List RawStmt
  | initializer => Option RawStmt
  | _ => RawStmt

def Clause.part : Clause → Part
  | declarations => .declarations
  | declaration => .declaration
  | varDecl => .varDecl
  | statement _ => .statement
  | exprStmt => .exprStmt
  | block => .block
  | initializer => .initializer

/-- The tokens are an expression that stands for a tree, or there are none. -/
inductive Perhaps : List Token → Option RawExpr → Prop
  | absent : Perhaps [] none
  | present {ts : List Token} {e : RawExpr} (h : Derives .expression ts e) : Perhaps ts (some e)

/-- The tokens are a clause of a program, and stand for a tree. -/
inductive Reads : (p : Clause) → List Token → p.Tree → Prop
  | noDeclaration : Reads .declarations [] []
  | declarations {ts us : List Token} {s : RawStmt} {ss : List RawStmt}
      (first : Reads .declaration ts s) (more : Reads .declarations us ss) :
      Reads .declarations (ts ++ us) (s :: ss)
  | function {word name opening closing : Token} {ps names us : List Token} {ss : List RawStmt}
      (hword : word.kind = .keyword .functionWord) (hname : name.kind = .identifier)
      (hopening : opening.kind = .leftParen) (parameters : Parameters ps names)
      (hclosing : closing.kind = .rightParen) (body : Reads .block us ss) :
      Reads .declaration (word :: name :: opening :: ps ++ closing :: us) (.function name names ss)
  | varDecl {ts : List Token} {s : RawStmt} (h : Reads .varDecl ts s) : Reads .declaration ts s
  | statement {opened : Bool} {ts : List Token} {s : RawStmt}
      (h : Reads (.statement opened) ts s) : Reads .declaration ts s
  | plainVar {word name semicolon : Token} (hword : word.kind = .keyword .varWord)
      (hname : name.kind = .identifier) (hsemicolon : semicolon.kind = .semicolon) :
      Reads .varDecl [word, name, semicolon] (.var name none)
  | initializedVar {word name equals semicolon : Token} {ts : List Token} {e : RawExpr}
      (hword : word.kind = .keyword .varWord) (hname : name.kind = .identifier)
      (hequals : equals.kind = .equal) (value : Derives .expression ts e)
      (hsemicolon : semicolon.kind = .semicolon) :
      Reads .varDecl (word :: name :: equals :: ts ++ [semicolon]) (.var name (some e))
  | exprStmt {ts : List Token} {s : RawStmt} (h : Reads .exprStmt ts s) :
      Reads (.statement false) ts s
  | expression {semicolon : Token} {ts : List Token} {e : RawExpr}
      (value : Derives .expression ts e) (hsemicolon : semicolon.kind = .semicolon) :
      Reads .exprStmt (ts ++ [semicolon]) (.expression e)
  | noInitializer {semicolon : Token} (h : semicolon.kind = .semicolon) :
      Reads .initializer [semicolon] none
  | varInitializer {ts : List Token} {s : RawStmt} (h : Reads .varDecl ts s) :
      Reads .initializer ts (some s)
  | exprInitializer {ts : List Token} {s : RawStmt} (h : Reads .exprStmt ts s) :
      Reads .initializer ts (some s)
  | forLoop {opened : Bool} {word opening semicolon closing : Token} {is cs ns ts : List Token}
      {i : Option RawStmt} {c n : Option RawExpr} {s : RawStmt}
      (hword : word.kind = .keyword .forWord) (hopening : opening.kind = .leftParen)
      (initializer : Reads .initializer is i) (condition : Perhaps cs c)
      (hsemicolon : semicolon.kind = .semicolon) (increment : Perhaps ns n)
      (hclosing : closing.kind = .rightParen) (body : Reads (.statement opened) ts s) :
      Reads (.statement opened)
        (word :: opening :: is ++ cs ++ semicolon :: ns ++ closing :: ts)
        (Parser.forLoop i c n s)
  | ifThen {opened : Bool} {word opening closing : Token} {cs ts : List Token} {e : RawExpr}
      {s : RawStmt} (hword : word.kind = .keyword .ifWord) (hopening : opening.kind = .leftParen)
      (condition : Derives .expression cs e) (hclosing : closing.kind = .rightParen)
      (yes : Reads (.statement opened) ts s) :
      Reads (.statement true) (word :: opening :: cs ++ closing :: ts) (.branch e s none)
  | ifElse {opened : Bool} {word opening closing other : Token} {cs ts us : List Token}
      {e : RawExpr} {s s' : RawStmt} (hword : word.kind = .keyword .ifWord)
      (hopening : opening.kind = .leftParen) (condition : Derives .expression cs e)
      (hclosing : closing.kind = .rightParen) (yes : Reads (.statement false) ts s)
      (hother : other.kind = .keyword .elseWord) (no : Reads (.statement opened) us s') :
      Reads (.statement opened) (word :: opening :: cs ++ closing :: ts ++ other :: us)
        (.branch e s (some s'))
  | print {word semicolon : Token} {ts : List Token} {e : RawExpr}
      (hword : word.kind = .keyword .printWord) (value : Derives .expression ts e)
      (hsemicolon : semicolon.kind = .semicolon) :
      Reads (.statement false) (word :: ts ++ [semicolon]) (.print e)
  | giveBack {word semicolon : Token} {ts : List Token} {e : Option RawExpr}
      (hword : word.kind = .keyword .returnWord) (value : Perhaps ts e)
      (hsemicolon : semicolon.kind = .semicolon) :
      Reads (.statement false) (word :: ts ++ [semicolon]) (.giveBack word e)
  | whileLoop {opened : Bool} {word opening closing : Token} {cs ts : List Token} {e : RawExpr}
      {s : RawStmt} (hword : word.kind = .keyword .whileWord)
      (hopening : opening.kind = .leftParen) (condition : Derives .expression cs e)
      (hclosing : closing.kind = .rightParen) (body : Reads (.statement opened) ts s) :
      Reads (.statement opened) (word :: opening :: cs ++ closing :: ts) (.loop e s)
  | block {ts : List Token} {ss : List RawStmt} (h : Reads .block ts ss) :
      Reads (.statement false) ts (.block ss)
  | braces {opening closing : Token} {ts : List Token} {ss : List RawStmt}
      (hopening : opening.kind = .leftBrace) (body : Reads .declarations ts ss)
      (hclosing : closing.kind = .rightBrace) : Reads .block (opening :: ts ++ [closing]) ss

/-! ## Readings are allowed -/

theorem Perhaps.isOptional {ts : List Token} {e : Option RawExpr} (h : Perhaps ts e) :
    IsOptionalExpression ts := by
  cases h with
  | absent => exact Or.inl rfl
  | present h => exact Or.inr ⟨_, h⟩

theorem Reads.allows {p : Clause} {ts : List Token} {t : p.Tree} (h : Reads p ts t) :
    Allows p.part ts := by
  induction h with
  | noDeclaration => exact .noDeclaration
  | declarations _ _ ih ih' => exact .declarations ih ih'
  | function h1 h2 h3 h4 h5 _ ih => exact .function h1 h2 h3 h4 h5 ih
  | varDecl _ ih => exact .varDecl ih
  | statement _ ih => exact .statement ih
  | plainVar h1 h2 h3 => exact .plainVar h1 h2 h3
  | initializedVar h1 h2 h3 h4 h5 => exact .initializedVar h1 h2 h3 ⟨_, h4⟩ h5
  | exprStmt _ ih => exact .exprStmt ih
  | expression h1 h2 => exact .expression ⟨_, h1⟩ h2
  | noInitializer h => exact .noInitializer h
  | varInitializer _ ih => exact .varInitializer ih
  | exprInitializer _ ih => exact .exprInitializer ih
  | forLoop h1 h2 _ h4 h5 h6 h7 _ ih ih' =>
    exact .forLoop h1 h2 ih h4.isOptional h5 h6.isOptional h7 ih'
  | ifThen h1 h2 h3 h4 _ ih => exact .ifThen h1 h2 ⟨_, h3⟩ h4 ih
  | ifElse h1 h2 h3 h4 _ h6 _ ih ih' => exact .ifElse h1 h2 ⟨_, h3⟩ h4 ih h6 ih'
  | print h1 h2 h3 => exact .print h1 ⟨_, h2⟩ h3
  | giveBack h1 h2 h3 => exact .giveBack h1 h2.isOptional h3
  | whileLoop h1 h2 h3 h4 _ ih => exact .whileLoop h1 h2 ⟨_, h3⟩ h4 ih
  | block _ ih => exact .block ih
  | braces h1 _ h3 ih => exact .braces h1 ih h3

/-! ## What is allowed has a reading -/

theorem IsOptionalExpression.perhaps {ts : List Token} (h : IsOptionalExpression ts) :
    ∃ e, Perhaps ts e := by
  obtain rfl | ⟨e, he⟩ := h
  · exact ⟨none, .absent⟩
  · exact ⟨some e, .present he⟩

/-- The tokens are a statement in some reading. -/
def Readable (ts : List Token) : Prop :=
  ∃ (opened : Bool) (s : RawStmt), Reads (.statement opened) ts s

/-- An `else` behind an opened statement goes to an `if` inside it. -/
theorem Reads.absorb {p : Clause} {ts us : List Token} {t : p.Tree} {other : Token}
    (h : Reads p ts t) (hp : p = .statement true) (hother : other.kind = .keyword .elseWord)
    (hno : Readable us) : Readable (ts ++ other :: us) := by
  induction h with
  | @forLoop opened word opening semicolon closing is cs ns ts i c n s h1 h2 h3 h4 h5 h6 h7 _ _
      ih =>
    obtain ⟨o, s', hs⟩ := ih hp
    refine ⟨o, Parser.forLoop i c n s', ?_⟩
    simpa using Reads.forLoop h1 h2 h3 h4 h5 h6 h7 hs
  | @ifThen opened word opening closing cs ts e s h1 h2 h3 h4 h5 ih =>
    cases opened with
    | true =>
      -- the statement inside is opened too, and it is nearer
      obtain ⟨o, s', hs⟩ := ih rfl
      refine ⟨true, .branch e s' none, ?_⟩
      simpa using Reads.ifThen h1 h2 h3 h4 hs
    | false =>
      obtain ⟨o, s', hs⟩ := hno
      refine ⟨o, .branch e s (some s'), ?_⟩
      simpa using Reads.ifElse h1 h2 h3 h4 h5 hother hs
  | @ifElse opened word opening closing other cs ts us e s s' h1 h2 h3 h4 h5 h6 _ _ ih =>
    obtain ⟨o, s'', hs⟩ := ih hp
    refine ⟨o, .branch e s (some s''), ?_⟩
    simpa using Reads.ifElse h1 h2 h3 h4 h5 h6 hs
  | @whileLoop opened word opening closing cs ts e s h1 h2 h3 h4 _ ih =>
    obtain ⟨o, s', hs⟩ := ih hp
    refine ⟨o, .loop e s', ?_⟩
    simpa using Reads.whileLoop h1 h2 h3 h4 hs
  | _ => simp at hp

/-- What it means for tokens to have a reading as a part of a program. -/
def HasReading : Part → List Token → Prop
  | .declarations, ts => ∃ ss, Reads .declarations ts ss
  | .declaration, ts => ∃ s, Reads .declaration ts s
  | .varDecl, ts => ∃ s, Reads .varDecl ts s
  | .statement, ts => Readable ts
  | .exprStmt, ts => ∃ s, Reads .exprStmt ts s
  | .block, ts => ∃ ss, Reads .block ts ss
  | .initializer, ts => ∃ i, Reads .initializer ts i

theorem Allows.hasReading {p : Part} {ts : List Token} (h : Allows p ts) : HasReading p ts := by
  induction h with
  | noDeclaration => exact ⟨_, .noDeclaration⟩
  | declarations _ _ ih ih' =>
    obtain ⟨s, hs⟩ := ih
    obtain ⟨ss, hss⟩ := ih'
    exact ⟨_, .declarations hs hss⟩
  | function h1 h2 h3 h4 h5 _ ih =>
    obtain ⟨ss, hss⟩ := ih
    exact ⟨_, .function h1 h2 h3 h4 h5 hss⟩
  | varDecl _ ih =>
    obtain ⟨s, hs⟩ := ih
    exact ⟨s, .varDecl hs⟩
  | statement _ ih =>
    obtain ⟨o, s, hs⟩ := ih
    exact ⟨s, .statement hs⟩
  | plainVar h1 h2 h3 => exact ⟨_, .plainVar h1 h2 h3⟩
  | initializedVar h1 h2 h3 h4 h5 =>
    obtain ⟨e, he⟩ := h4
    exact ⟨_, .initializedVar h1 h2 h3 he h5⟩
  | exprStmt _ ih =>
    obtain ⟨s, hs⟩ := ih
    exact ⟨false, s, .exprStmt hs⟩
  | expression h1 h2 =>
    obtain ⟨e, he⟩ := h1
    exact ⟨_, .expression he h2⟩
  | noInitializer h => exact ⟨none, .noInitializer h⟩
  | varInitializer _ ih =>
    obtain ⟨s, hs⟩ := ih
    exact ⟨some s, .varInitializer hs⟩
  | exprInitializer _ ih =>
    obtain ⟨s, hs⟩ := ih
    exact ⟨some s, .exprInitializer hs⟩
  | forLoop h1 h2 _ h4 h5 h6 h7 _ ih ih' =>
    obtain ⟨i, hi⟩ := ih
    obtain ⟨c, hc⟩ := h4.perhaps
    obtain ⟨n, hn⟩ := h6.perhaps
    obtain ⟨o, s, hs⟩ := ih'
    exact ⟨o, _, .forLoop h1 h2 hi hc h5 hn h7 hs⟩
  | ifThen h1 h2 h3 h4 _ ih =>
    obtain ⟨e, he⟩ := h3
    obtain ⟨o, s, hs⟩ := ih
    exact ⟨true, _, .ifThen h1 h2 he h4 hs⟩
  | ifElse h1 h2 h3 h4 _ h6 _ ih ih' =>
    obtain ⟨e, he⟩ := h3
    obtain ⟨o, s, hs⟩ := ih
    cases o with
    | false =>
      obtain ⟨o', s', hs'⟩ := ih'
      exact ⟨o', _, .ifElse h1 h2 he h4 hs h6 hs'⟩
    | true =>
      -- the `else` was meant for the outer `if`, and is read with an inner one
      obtain ⟨o', s', hs'⟩ := hs.absorb rfl h6 ih'
      refine ⟨true, .branch e s' none, ?_⟩
      simpa using Reads.ifThen h1 h2 he h4 hs'
  | print h1 h2 h3 =>
    obtain ⟨e, he⟩ := h2
    exact ⟨false, _, .print h1 he h3⟩
  | giveBack h1 h2 h3 =>
    obtain ⟨e, he⟩ := h2.perhaps
    exact ⟨false, _, .giveBack h1 he h3⟩
  | whileLoop h1 h2 h3 h4 _ ih =>
    obtain ⟨e, he⟩ := h3
    obtain ⟨o, s, hs⟩ := ih
    exact ⟨o, _, .whileLoop h1 h2 he h4 hs⟩
  | block _ ih =>
    obtain ⟨ss, hss⟩ := ih
    exact ⟨false, _, .block hss⟩
  | braces h1 _ h3 ih =>
    obtain ⟨ss, hss⟩ := ih
    exact ⟨ss, .braces h1 hss h3⟩

/-- A program is what has a reading as a list of declarations. -/
theorem isProgram_iff (ts : List Token) : IsProgram ts ↔ ∃ ss, Reads .declarations ts ss :=
  ⟨Allows.hasReading, fun ⟨_, h⟩ => h.allows⟩

end Scriptling.Grammar
