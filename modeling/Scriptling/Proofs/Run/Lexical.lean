-- The meaning of names, without distances and without frames. Each declaration of a local name
-- makes a cell of its own. A place in a program sees a map from names to cells, which is never
-- changed, only extended: a declaration gives the statements behind it a map with one name more.
-- A function keeps the map of the place where it was declared. A name that is not in the map is
-- global. A parameter may give statements rules of their own. In the plain meaning none has one.
import Scriptling.Proofs.Run.Runs
import Scriptling.Session

namespace Scriptling.Lexical

/-! ## The state -/

abbrev CellId := Nat

/-- The local names that a place sees, the latest declaration first. -/
abbrev Names := List (String × CellId)

/-- A place for statements: outside all blocks and functions, or inside with its local names. -/
inductive Site
  | global
  | inside (names : Names)

def Site.names : Site → Names
  | global => []
  | inside names => names

/-- What a callable does. -/
inductive Code
  /-- A function of the program, with the names that its declaration sees. -/
  | closure (parameters : List Token) (body : List RawStmt) (names : Names)
  | host (act : List Value → Action)

structure State where
  globals : Frame
  /-- The local variables made so far. -/
  cells : Array Value
  /-- What each callable does, by its `id`. -/
  code : Array Code
  printed : Array String
  reports : Array Report
  hadError : Bool
  clock : Float

abbrev ByName := Runs State

/-! ## Single steps -/

def print (line : String) : ByName Unit := modify fun s =>
  { s with printed := s.printed.push line }

def reportStatic (e : StaticError) : ByName Unit := modify fun s =>
  { s with reports := s.reports.push (.static e), hadError := true }

def reportRuntime (e : RuntimeError) : ByName Unit := modify fun s =>
  { s with reports := s.reports.push (.runtime e) }

def readClock : ByName Float := modifyGet fun s =>
  (s.clock, { s with clock := s.clock + World.tick })

def newCell : ByName CellId := modifyGet fun s =>
  (s.cells.size, { s with cells := s.cells.push .nil })

def readCell (c : CellId) : ByName Value := return (← get).cells[c]?.getD .nil

def writeCell (c : CellId) (v : Value) : ByName Unit := modify fun s =>
  { s with cells := s.cells.setIfInBounds c v }

def readGlobal (name : Token) : ByName Value := do
  match (← get).globals.get? name.lexeme with
  | some v => return v
  | none => throw (.failed ⟨name, .undefinedVariable name.lexeme⟩)

def defineGlobal (name : String) (v : Value) : ByName Unit := modify fun s =>
  { s with globals := s.globals.put name v }

def assignGlobal (name : Token) (v : Value) : ByName Unit := do
  if (← get).globals.binds name.lexeme then defineGlobal name.lexeme v
  else throw (.failed ⟨name, .undefinedVariable name.lexeme⟩)

/-- Make a function. -/
def newFunction (name : String) (parameters : List Token) (body : List RawStmt) (names : Names) :
    ByName Value := modifyGet fun s =>
  (.function ⟨s.code.size, name, parameters.length⟩,
    { s with code := s.code.push (.closure parameters body names) })

def codeOf? (v : Value) : ByName (Option Code) := do
  match v.callable? with
  | some c => return (← get).code[c.id]?
  | none => return none

/-- Declare a name at a place. A local name gets a new cell at once; what comes behind the
declaration sees it, and so does the value that the name is given. -/
def declare (site : Site) (name : String) (value : Names → ByName Value) : ByName Site := do
  match site with
  | .global =>
    defineGlobal name (← value [])
    return .global
  | .inside names =>
    let c ← newCell
    let names := (name, c) :: names
    writeCell c (← value names)
    return .inside names

/-- Add a name with a value. -/
def extend (names : Names) (name : String) (v : Value) : ByName Names := do
  let c ← newCell
  writeCell c v
  return (name, c) :: names

/-- Add parameters with their arguments. Surplus ones of either are left out. -/
def bindAll : Names → List Token → List Value → ByName Names
  | names, p :: ps, v :: vs => do bindAll (← extend names p.lexeme v) ps vs
  | names, _, _ => return names

/-! ## Programs -/

/-- The errors of scope in a program. Nothing else of its resolution is used here. -/
def scopeErrors (depth : Nat) (statements : List RawStmt) : List StaticError :=
  (resolve depth ∅ ((Stmt.labelAll statements).run 0).1).1.errors.toList

def program (execute : RawStmt → ByName Unit) (statements : List RawStmt) : ByName Unit :=
  Runs.reporting reportRuntime
    (statements.forM fun s => Runs.atTop s.firstLine (execute s))

/-- Read, check and execute a source. A static error keeps all of it from running. -/
def source (depth : Nat) (execute : RawStmt → ByName Unit) (text : String) : ByName Unit := do
  Runs.room depth 5
  let reading := read (depth - 5) text
  reading.errors.forM reportStatic
  if (← get).hadError then return
  (scopeErrors depth reading.statements).forM reportStatic
  if (← get).hadError then return
  program execute reading.statements

def run (depth : Nat) (execute : RawStmt → ByName Unit) (v : Value) : ByName Unit := do
  modify fun s => { s with hadError := false }
  match v with
  | .text s => source depth execute s
  | _ => throw (.fault (.notSource v.hostKind))

/-! ## Statements and their rules -/

/-- How to evaluate expressions in code that sees names. -/
abbrev Evaluate := Names → RawExpr → ByName Value

/-- How to execute statements at places. The result is what a statement returns, if it does, and
the place behind it. -/
abbrev Execute := Site → RawStmt → ByName (Option Value × Site)

/-- How to execute statements in turn, up to the first that returns a value. -/
abbrev ExecuteAll := Site → List RawStmt → ByName (Option Value)

/-- Run statements in turn until one returns a value, each at the place that the one before it
leaves behind. -/
def sequence (run : Execute) : ExecuteAll
  | _, [] => return none
  | site, s :: rest => do
    match ← run site s with
    | (some v, _) => return some v
    | (none, site) => sequence run site rest

/-- What a statement does by its shape, given how to run its parts. -/
def byShape (patience : Nat) (evaluate : Evaluate) (execute : Execute) (executeAll : ExecuteAll)
    (site : Site) : RawStmt → ByName (Option Value × Site)
  | .expression e => do
    let _ ← evaluate site.names e
    return (none, site)
  | .print e => do
    let v ← evaluate site.names e
    print v.display
    return (none, site)
  | .var name initializer => do
    let site ← declare site name.lexeme fun names =>
      match initializer with
      | some e => evaluate names e
      | none => return .nil
    return (none, site)
  | .block body => do
    let r ← executeAll (.inside site.names) body
    return (r, site)
  | .branch condition yes no => do
    let v ← evaluate site.names condition
    if v.isTruthy then
      let (r, _) ← execute site yes
      return (r, site)
    else match no with
      | some no =>
        let (r, _) ← execute site no
        return (r, site)
      | none => return (none, site)
  | .loop condition body => do
    let r ← Runs.repeatWhile (do return (← evaluate site.names condition).isTruthy)
      (do return (← execute site body).1) patience
    return (r, site)
  | .function name parameters body => do
    let site ← declare site name.lexeme fun names =>
      newFunction name.lexeme parameters body names
    return (none, site)
  | .giveBack _ value =>
    match value with
    | some e => return (some (← evaluate site.names e), site)
    | none => return (some .nil, site)
  | .alien text => throw (.fault (.alienStatement text))

/-- A rule for one statement at a place, given the levels left inside it and how to run its parts
with no more levels than these. -/
abbrev Rule := (patience depth : Nat) → (Nat → Evaluate) → (Nat → Execute) → Site →
  ByName (Option Value × Site)

/-- The statements that have a rule of their own. -/
abbrev Rules := RawStmt → Option Rule

/-- Each statement does what its shape says. -/
def Rules.plain : Rules := fun _ => none

/-! ## Expressions, statements and calls -/

mutual
/-- The value of an expression in code that sees `names`. -/
def expression (rules : Rules) (patience : Nat) : Nat → Evaluate
  | 0, _, _ => throw .overflow
  | depth + 1, names, e =>
    match e with
    | .literal v => return v
    | .grouping inner => expression rules patience depth names inner
    | .unary operator right => do
      let a ← expression rules patience depth names right
      Runs.room depth Eval.Levels.operator
      Runs.ofOperator (Value.unary operator a)
    | .binary left operator right => do
      let a ← expression rules patience depth names left
      let b ← expression rules patience depth names right
      Runs.room depth Eval.Levels.operator
      Runs.ofOperator (Value.binary operator a b)
    | .logical left operator right => do
      let a ← expression rules patience depth names left
      if (operator.kind == .keyword .orWord) == a.isTruthy then return a
      else expression rules patience depth names right
    | .variable name _ =>
      match names.lookup name.lexeme with
      | some c => do
        Runs.room depth Eval.Levels.localName
        readCell c
      | none => do
        Runs.room depth Eval.Levels.globalName
        readGlobal name
    | .assign name value _ => do
      let v ← expression rules patience depth names value
      match names.lookup name.lexeme with
      | some c =>
        Runs.room depth Eval.Levels.localName
        writeCell c v
      | none =>
        Runs.room depth Eval.Levels.globalName
        assignGlobal name v
      return v
    | .call callee paren arguments => do
      let f ← expression rules patience depth names callee
      let vs ← values rules patience depth names arguments
      apply rules patience depth f vs paren
    | .alien text => throw (.fault (.alienExpression text))

/-- The value of an expression with fewer than `depth` levels. -/
def expressionBelow (rules : Rules) (patience : Nat) : Nat → Nat → Evaluate
  | 0, _, _, _ => throw .overflow
  | depth + 1, k, names, e =>
    if k = depth then expression rules patience depth names e
    else expressionBelow rules patience depth k names e

/-- The values of expressions, from left to right. -/
def values (rules : Rules) (patience : Nat) : Nat → Names → List RawExpr → ByName (List Value)
  | 0, _, _ => throw .overflow
  | depth + 1, names, es => es.mapM (expression rules patience depth names)

/-- Execute a statement at a place, by its own rule if it has one. -/
def statement (rules : Rules) (patience : Nat) : Nat → Execute
  | 0, _, _ => throw .overflow
  | depth + 1, site, s =>
    match rules s with
    | some rule =>
      rule patience depth
        (fun k names e =>
          if k = depth then expression rules patience depth names e
          else expressionBelow rules patience depth k names e)
        (fun k site s =>
          if k = depth then statement rules patience depth site s
          else statementBelow rules patience depth k site s)
        site
    | none =>
      byShape patience (expression rules patience depth) (statement rules patience depth)
        (statements rules patience depth) site s

/-- Execute a statement with fewer than `depth` levels. -/
def statementBelow (rules : Rules) (patience : Nat) : Nat → Nat → Execute
  | 0, _, _, _ => throw .overflow
  | depth + 1, k, site, s =>
    if k = depth then statement rules patience depth site s
    else statementBelow rules patience depth k site s

/-- Execute statements in turn, up to the first that returns a value. -/
def statements (rules : Rules) (patience : Nat) : Nat → ExecuteAll
  | 0, _, _ => throw .overflow
  | depth + 1, site, body => sequence (statement rules patience depth) site body

/-- Call a value from a program. -/
def apply (rules : Rules) (patience : Nat) : Nat → Value → List Value → Token → ByName Value
  | depth + 7, f, arguments, paren =>
    match f.callable? with
    | none => throw (.failed ⟨paren, .notCallable⟩)
    | some c =>
      if arguments.length ≠ c.arity then
        throw (.failed ⟨paren, .wrongArgumentCount c.arity arguments.length⟩)
      else Runs.inCall paren (invoke rules patience (depth + 6) f arguments)
  | _, _, _, _ => throw .overflow

/-- Call a value without counting its arguments. The body of a function sees its parameters and the
names around its declaration. -/
def invoke (rules : Rules) (patience : Nat) : Nat → Value → List Value → ByName Value
  | depth + 4, f, arguments => do
    match ← codeOf? f with
    | none => throw (.fault .notCallable)
    | some (.closure parameters body names) =>
      let inner ← bindAll names parameters arguments
      let result ← statements rules patience (depth + 2) (.inside inner) body
      return result.getD .nil
    | some (.host act) =>
      Runs.perform readClock (invoke rules patience (depth + 2))
        (run depth fun s => do let _ ← statement rules patience depth .global s) (act arguments)
  | _, _, _ => throw .overflow
end

section Levels

variable {rules : Rules} {patience depth : Nat}

theorem expressionBelow_eq {k : Nat} (h : k < depth) :
    expressionBelow rules patience depth k = expression rules patience k := by
  funext names e
  induction depth with
  | zero => exact absurd h (Nat.not_lt_zero k)
  | succ depth ih =>
    rw [expressionBelow]
    split
    · next hk => rw [hk]
    · next hk => exact ih (by omega)

theorem statementBelow_eq {k : Nat} (h : k < depth) :
    statementBelow rules patience depth k = statement rules patience k := by
  funext site s
  induction depth with
  | zero => exact absurd h (Nat.not_lt_zero k)
  | succ depth ih =>
    rw [statementBelow]
    split
    · next hk => rw [hk]
    · next hk => exact ih (by omega)

/-- A statement with a rule of its own does what the rule says, with the parts run as all code
is. -/
theorem statement_of_rule {site : Site} {s : RawStmt} {rule : Rule} (h : rules s = some rule) :
    statement rules patience (depth + 1) site s =
      rule patience depth (expressionBelow rules patience (depth + 1))
        (statementBelow rules patience (depth + 1)) site := by
  rw [statement, h]
  rfl

/-- A statement without a rule does what its shape says. -/
theorem statement_of_none {site : Site} {s : RawStmt} (h : rules s = none) :
    statement rules patience (depth + 1) site s =
      byShape patience (expression rules patience depth) (statement rules patience depth)
        (statements rules patience depth) site s := by
  rw [statement, h]

theorem statement_plain {site : Site} {s : RawStmt} :
    statement .plain patience (depth + 1) site s =
      byShape patience (expression .plain patience depth) (statement .plain patience depth)
        (statements .plain patience depth) site s :=
  statement_of_none rfl

end Levels

section Names

variable {rules : Rules} {patience depth : Nat} {names : Names} {name : Token} {u : Unit}
  {c : CellId}

theorem read_local (h : names.lookup name.lexeme = some c) :
    expression rules patience (depth + 1) names (.variable name u) = (do
      Runs.room depth Eval.Levels.localName
      readCell c) := by
  rw [expression, h]

theorem read_global (h : names.lookup name.lexeme = none) :
    expression rules patience (depth + 1) names (.variable name u) = (do
      Runs.room depth Eval.Levels.globalName
      readGlobal name) := by
  rw [expression, h]

theorem assign_local {value : RawExpr} (h : names.lookup name.lexeme = some c) :
    expression rules patience (depth + 1) names (.assign name value u) = (do
      let v ← expression rules patience depth names value
      Runs.room depth Eval.Levels.localName
      writeCell c v
      return v) := by
  rw [expression, h]

theorem assign_global {value : RawExpr} (h : names.lookup name.lexeme = none) :
    expression rules patience (depth + 1) names (.assign name value u) = (do
      let v ← expression rules patience depth names value
      Runs.room depth Eval.Levels.globalName
      assignGlobal name v
      return v) := by
  rw [expression, h]

end Names

theorem apply_of_lt {rules : Rules} {patience depth : Nat} {f : Value} {vs : List Value}
    {paren : Token} (h : depth < 7) : apply rules patience depth f vs paren = throw .overflow := by
  unfold apply
  split
  · omega
  · rfl

theorem invoke_of_lt {rules : Rules} {patience depth : Nat} {f : Value} {vs : List Value}
    (h : depth < 4) : invoke rules patience depth f vs = throw .overflow := by
  unfold invoke
  split
  · omega
  · rfl

/-! ## Sessions -/

namespace State

/-- A session in which nothing has happened, at a given time. -/
def start (time : Float) : State where
  globals := .empty
  cells := #[]
  code := #[]
  printed := #[]
  reports := #[]
  hadError := false
  clock := time

/-- Bind a native to a global of its name. -/
def install (s : State) (n : Native) : State :=
  { s with
    globals := s.globals.put n.name (.native ⟨s.code.size, n.name, n.arity⟩)
    code := s.code.push (.host n.act) }

/-- A session with the given natives, in order. -/
def create (natives : List Native) (time : Float) : State := natives.foldl install (start time)

/-- The globals as text. -/
def display (s : State) : String := Heap.chainHead ⟨#[s.globals]⟩ globalChain

end State

/-- Execute the statements of a program outside all blocks. -/
def execute (rules : Rules) (limits : Limits) (statements : List RawStmt) : ByName Unit := do
  modify fun s => { s with hadError := false }
  program (fun s => do let _ ← statement rules limits.patience limits.depth .global s) statements

end Scriptling.Lexical
