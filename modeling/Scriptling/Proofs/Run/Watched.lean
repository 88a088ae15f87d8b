-- Watched evaluation: evaluation that keeps a record of what it visits. Each statement and each
-- expression is noted when its evaluation starts, with the chain it sees and the world as it is.
-- The record is only kept, never looked at: without it, watched evaluation is evaluation.
import Scriptling.Proofs.Run.Runs
import Scriptling.Proofs.Scope.Visits
import Scriptling.Session

namespace Scriptling

/-! ## The record -/

/-- Where a part of a program stands: the number of the program, and the path to the part. -/
structure Spot where
  program : Nat
  path : Trail

def Spot.step (spot : Spot) (i : Nat) : Spot := ⟨spot.program, i :: spot.path⟩

/-- The start of one evaluation. -/
structure Visit where
  spot : Spot
  node : Node
  chain : Chain
  world : World

/-- A world, and the record of how it came about. -/
structure Watched where
  world : World
  /-- The programs that were accepted, in order. -/
  programs : Array Accepted
  /-- Where each function was declared, by its `id`. -/
  origins : Nat → Spot
  /-- The evaluations that were started, the latest first. -/
  visits : List Visit

/-- A record with nothing in it. -/
def Watched.start (w : World) : Watched := ⟨w, #[], fun _ => ⟨0, []⟩, []⟩

abbrev Watch := Runs Watched

namespace Watch

variable {α β : Type}

/-- Do something to the world only. -/
def lift (m : Eval α) : Watch α := fun w =>
  match m w.world with
  | .ok a world => .ok a { w with world }
  | .error stop world => .error stop { w with world }

/-- Note that the evaluation of a part starts. -/
def note (spot : Spot) (node : Node) (chain : Chain) : Watch Unit :=
  modify fun w => { w with visits := ⟨spot, node, chain, w.world⟩ :: w.visits }

/-- Note where the next function is declared. -/
def declareAt (spot : Spot) : Watch Unit := modify fun w =>
  { w with origins := fun id => if id = w.world.code.size then spot else w.origins id }

/-- Where a function was declared. -/
def originOf (f : Value) : Watch Spot := fun w =>
  .ok (w.origins ((f.callable?.map Callable.id).getD 0)) w

/-- Note an accepted program, and give its number. -/
def accept (P : Accepted) : Watch Nat := modifyGet fun w =>
  (w.programs.size, { w with programs := w.programs.push P })

/-! ## Programs -/

/-- Execute top-level statements, of which `i` were executed before. -/
def inTurn (execute : Nat → Stmt UseId → Watch (Option Value)) :
    Nat → List (Stmt UseId) → Watch Unit
  | _, [] => return ()
  | i, s :: rest => do
    Runs.atTop s.firstLine (do let _ ← execute i s)
    inTurn execute (i + 1) rest

def program (execute : Nat → Stmt UseId → Watch (Option Value)) (statements : List (Stmt UseId)) :
    Watch Unit :=
  Runs.reporting (fun e => lift (Eval.reportRuntime e)) (inTurn execute 0 statements)

def source (depth : Nat) (execute : Nat → Nat → Stmt UseId → Watch (Option Value))
    (text : String) : Watch Unit := do
  lift (Eval.room depth 5)
  let reading := read (depth - 5) text
  lift (reading.errors.forM Eval.reportStatic)
  let statements ← lift (Eval.label reading.statements)
  let w ← lift get
  if w.hadError then return
  lift (Eval.resolve depth statements)
  if (← lift get).hadError then return
  let n ← accept ⟨depth, w.distances, statements, w.nextUse⟩
  program (execute n) statements

def run (depth : Nat) (execute : Nat → Nat → Stmt UseId → Watch (Option Value)) (v : Value) :
    Watch Unit := do
  lift (modify fun w => { w with hadError := false })
  match v with
  | .text s => source depth execute s
  | _ => throw (.fault (.notSource v.hostKind))

/-! ## Expressions, statements and calls -/

/-- The values of expressions, from left to right, of which `i` were evaluated before. -/
def inOrder (evaluate : Nat → Expr UseId → Watch Value) :
    Nat → List (Expr UseId) → Watch (List Value)
  | _, [] => return []
  | i, e :: rest => do
    let v ← evaluate i e
    let vs ← inOrder evaluate (i + 1) rest
    return v :: vs

/-- Run statements in turn until one returns a value. -/
def sequence (run : Nat → Stmt UseId → Watch (Option Value)) :
    Nat → List (Stmt UseId) → Watch (Option Value)
  | _, [] => return none
  | i, s :: rest => do
    match ← run i s with
    | some v => return some v
    | none => sequence run (i + 1) rest

mutual
def expression (patience : Nat) : Nat → Spot → Chain → Expr UseId → Watch Value
  | 0, _, _, _ => throw .overflow
  | depth + 1, spot, chain, e => do
    note spot (.expression e) chain
    match e with
    | .literal v => return v
    | .grouping inner => expression patience depth (spot.step 0) chain inner
    | .unary operator right => do
      let a ← expression patience depth (spot.step 0) chain right
      Runs.room depth Eval.Levels.operator
      Runs.ofOperator (Value.unary operator a)
    | .binary left operator right => do
      let a ← expression patience depth (spot.step 0) chain left
      let b ← expression patience depth (spot.step 1) chain right
      Runs.room depth Eval.Levels.operator
      Runs.ofOperator (Value.binary operator a b)
    | .logical left operator right => do
      let a ← expression patience depth (spot.step 0) chain left
      if (operator.kind == .keyword .orWord) == a.isTruthy then return a
      else expression patience depth (spot.step 1) chain right
    | .variable name use => do
      match ← lift (Eval.distance? use) with
      | some d =>
        Runs.room depth Eval.Levels.localName
        lift (Eval.readAt chain d name.lexeme)
      | none =>
        Runs.room depth Eval.Levels.globalName
        lift (Eval.readGlobal name)
    | .assign name value use => do
      let v ← expression patience depth (spot.step 0) chain value
      match ← lift (Eval.distance? use) with
      | some d =>
        Runs.room depth Eval.Levels.localName
        lift (Eval.assignAt chain d name.lexeme v)
      | none =>
        Runs.room depth Eval.Levels.globalName
        lift (Eval.assignGlobal name v)
      return v
    | .call callee paren arguments => do
      let f ← expression patience depth (spot.step 0) chain callee
      let vs ← values patience depth spot chain arguments
      apply patience depth f vs paren
    | .alien text => throw (.fault (.alienExpression text))

def values (patience : Nat) : Nat → Spot → Chain → List (Expr UseId) → Watch (List Value)
  | 0, _, _, _ => throw .overflow
  | depth + 1, spot, chain, es =>
    inOrder (fun i e => expression patience depth (spot.step (i + 1)) chain e) 0 es

def statement (patience : Nat) : Nat → Spot → Chain → Stmt UseId → Watch (Option Value)
  | 0, _, _, _ => throw .overflow
  | depth + 1, spot, chain, s => do
    note spot (.statement s) chain
    match s with
    | .expression e => do
      let _ ← expression patience depth (spot.step 0) chain e
      return none
    | .print e => do
      let v ← expression patience depth (spot.step 0) chain e
      lift (Eval.print v.display)
      return none
    | .var name initializer => do
      let v ← match initializer with
        | some e => expression patience depth (spot.step 0) chain e
        | none => pure .nil
      lift (Eval.define chain name.lexeme v)
      return none
    | .block body => do
      let inner ← lift (Eval.openFrame chain)
      statements patience depth spot inner body
    | .branch condition yes no => do
      let v ← expression patience depth (spot.step 0) chain condition
      if v.isTruthy then statement patience depth (spot.step 1) chain yes
      else match no with
        | some no => statement patience depth (spot.step 2) chain no
        | none => return none
    | .loop condition body =>
      Runs.repeatWhile
        (do return (← expression patience depth (spot.step 0) chain condition).isTruthy)
        (statement patience depth (spot.step 1) chain body) patience
    | .function name parameters body => do
      declareAt spot
      let f ← lift (modifyGet (·.addFunction name.lexeme parameters body chain))
      lift (Eval.define chain name.lexeme f)
      return none
    | .giveBack _ value =>
      match value with
      | some e => return some (← expression patience depth (spot.step 0) chain e)
      | none => return some .nil
    | .alien text => throw (.fault (.alienStatement text))

def statements (patience : Nat) : Nat → Spot → Chain → List (Stmt UseId) → Watch (Option Value)
  | 0, _, _, _ => throw .overflow
  | depth + 1, spot, chain, body =>
    sequence (fun i s => statement patience depth (spot.step i) chain s) 0 body

def apply (patience : Nat) : Nat → Value → List Value → Token → Watch Value
  | depth + 7, f, arguments, paren =>
    match f.callable? with
    | none => throw (.failed ⟨paren, .notCallable⟩)
    | some c =>
      if arguments.length ≠ c.arity then
        throw (.failed ⟨paren, .wrongArgumentCount c.arity arguments.length⟩)
      else Runs.inCall paren (invoke patience (depth + 6) f arguments)
  | _, _, _, _ => throw .overflow

def invoke (patience : Nat) : Nat → Value → List Value → Watch Value
  | depth + 4, f, arguments => do
    match ← lift (Eval.codeOf? f) with
    | none => throw (.fault .notCallable)
    | some (.closure parameters body chain) =>
      let spot ← originOf f
      let inner ← lift (Eval.openFrame chain)
      lift (Eval.defineAll inner parameters arguments)
      let result ← statements patience (depth + 2) spot inner body
      return result.getD .nil
    | some (.host act) =>
      Runs.perform (lift Eval.readClock) (invoke patience (depth + 2))
        (run depth fun n i s => statement patience depth ⟨n, [i]⟩ globalChain s) (act arguments)
  | _, _, _ => throw .overflow
end

/-! ## Without the record -/

/-- What is left of a result without the record. -/
def forget : EStateM.Result Stop Watched α → EStateM.Result Stop World α
  | .ok a w => .ok a w.world
  | .error stop w => .error stop w.world

/-- Watched, `x` does what `y` does. -/
def Erases (x : Watch α) (y : Eval α) : Prop := ∀ w, forget (x w) = y w.world

theorem erases_pure (a : α) : Erases (pure a) (pure a) := fun _ => rfl

theorem erases_throw (stop : Stop) : Erases (throw stop : Watch α) (throw stop) := fun _ => rfl

theorem erases_lift (y : Eval α) : Erases (lift y) y := by
  intro w
  unfold lift
  cases y w.world <;> rfl

theorem Erases.bind {x : Watch α} {y : Eval α} {f : α → Watch β} {g : α → Eval β}
    (h : Erases x y) (hf : ∀ a, Erases (f a) (g a)) : Erases (x >>= f) (y >>= g) := by
  intro w
  rw [bind_eq, bind_eq, ← h w]
  cases x w with
  | ok a w₁ => exact hf a w₁
  | error stop w₁ => rfl

/-- A step that only touches the record leaves no trace. -/
theorem erases_record {x : Watch α} {f : α → Watch β} {y : Eval β}
    (h : ∀ w, ∃ a w', x w = .ok a w' ∧ w'.world = w.world) (hf : ∀ a, Erases (f a) y) :
    Erases (x >>= f) y := by
  intro w
  obtain ⟨a, w', heq, hworld⟩ := h w
  rw [bind_of_ok heq, ← hworld]
  exact hf a w'

theorem Erases.tryCatch {x : Watch α} {y : Eval α} {handle : Stop → Watch α}
    {handle' : Stop → Eval α} (h : Erases x y) (hhandle : ∀ s, Erases (handle s) (handle' s)) :
    Erases (tryCatch x handle) (tryCatch y handle') := by
  intro w
  rw [tryCatch_eq, tryCatch_eq, ← h w]
  cases x w with
  | ok a w₁ => rfl
  | error stop w₁ => exact hhandle stop w₁

theorem erases_room (depth n : Nat) : Erases (Runs.room depth n) (Eval.room depth n) := by
  unfold Runs.room Eval.room
  split
  · exact erases_pure ()
  · exact erases_throw _

theorem erases_ofOperator (result : Except RuntimeError Value) :
    Erases (Runs.ofOperator result) (Eval.ofOperator result) := by
  cases result with
  | ok v => exact erases_pure v
  | error e => exact erases_throw _

theorem erases_inCall {x : Watch α} {y : Eval α} (paren : Token) (h : Erases x y) :
    Erases (Runs.inCall paren x) (Runs.inCall paren y) := by
  refine h.tryCatch fun stop => ?_
  cases stop <;> exact erases_throw _

theorem erases_atTop {x : Watch α} {y : Eval α} (line : Int) (h : Erases x y) :
    Erases (Runs.atTop line x) (Runs.atTop line y) := by
  refine h.tryCatch fun stop => ?_
  cases stop <;> exact erases_throw _

theorem erases_repeatWhile {condition : Watch Bool} {condition' : Eval Bool}
    {body : Watch (Option Value)} {body' : Eval (Option Value)} (h : Erases condition condition')
    (h' : Erases body body') (patience : Nat) :
    Erases (Runs.repeatWhile condition body patience)
      (Eval.repeatWhile condition' body' patience) := by
  rw [Eval.repeatWhile_eq]
  induction patience with
  | zero => exact erases_throw _
  | succ patience ih =>
    refine h.bind fun b => ?_
    cases b with
    | false => exact erases_pure none
    | true =>
      refine h'.bind fun r => ?_
      cases r with
      | some v => exact erases_pure (some v)
      | none => exact ih

theorem erases_perform {clock : Watch Float} {call : Value → List Value → Watch Value}
    {call' : Value → List Value → Eval Value} {run : Value → Watch Unit}
    {run' : Value → Eval Unit} (hclock : Erases clock Eval.readClock)
    (hcall : ∀ f vs, Erases (call f vs) (call' f vs)) (hrun : ∀ v, Erases (run v) (run' v))
    (action : Action) :
    Erases (Runs.perform clock call run action) (action.perform call' run') := by
  rw [Action.perform_eq]
  induction action with
  | done v => exact erases_pure v
  | fail f => exact erases_throw _
  | readClock next ih => exact hclock.bind ih
  | call callee arguments next ih => exact (hcall callee arguments).bind ih
  | run source next ih => exact (hrun source).bind fun _ => ih

theorem erases_program {execute : Nat → Stmt UseId → Watch (Option Value)}
    {execute' : Stmt UseId → Eval (Option Value)} (h : ∀ i s, Erases (execute i s) (execute' s))
    (ss : List (Stmt UseId)) : Erases (program execute ss) (Eval.program execute' ss) := by
  have hturn : ∀ i, Erases (inTurn execute i ss)
      (ss.forM fun s => Runs.atTop s.firstLine (do let _ ← execute' s)) := by
    induction ss with
    | nil => exact fun _ => erases_pure ()
    | cons s ss ih =>
      intro i
      refine (erases_atTop s.firstLine ?_).bind fun _ => ih (i + 1)
      exact (h i s).bind fun _ => erases_pure ()
  refine (hturn 0).tryCatch fun stop => ?_
  cases stop with
  | failed e => exact erases_lift _
  | _ => exact erases_throw _

theorem erases_source {execute : Nat → Nat → Stmt UseId → Watch (Option Value)}
    {execute' : Stmt UseId → Eval (Option Value)}
    (h : ∀ n i s, Erases (execute n i s) (execute' s)) (depth : Nat) (text : String) :
    Erases (source depth execute text) (Eval.source depth execute' text) := by
  refine (erases_lift _).bind fun _ => (erases_lift _).bind fun _ => (erases_lift _).bind
    fun ss => (erases_lift _).bind fun w => ?_
  split
  · exact erases_pure ()
  refine (erases_lift _).bind fun _ => (erases_lift _).bind fun w' => ?_
  split
  · exact erases_pure ()
  exact erases_record (fun w => ⟨_, _, rfl, rfl⟩) fun n => erases_program (h n) ss

theorem erases_run {execute : Nat → Nat → Stmt UseId → Watch (Option Value)}
    {execute' : Stmt UseId → Eval (Option Value)}
    (h : ∀ n i s, Erases (execute n i s) (execute' s)) (depth : Nat) (v : Value) :
    Erases (run depth execute v) (Eval.run depth execute' v) := by
  refine (erases_lift _).bind fun _ => ?_
  cases v with
  | text s => exact erases_source h depth s
  | _ => exact erases_throw _

theorem erases_inOrder {evaluate : Nat → Expr UseId → Watch Value}
    {evaluate' : Expr UseId → Eval Value} (h : ∀ i e, Erases (evaluate i e) (evaluate' e))
    (es : List (Expr UseId)) (i : Nat) : Erases (inOrder evaluate i es) (es.mapM evaluate') := by
  induction es generalizing i with
  | nil => exact erases_pure []
  | cons e es ih =>
    rw [List.mapM_cons]
    exact (h i e).bind fun v => (ih (i + 1)).bind fun vs => erases_pure (v :: vs)

theorem erases_sequence {run : Nat → Stmt UseId → Watch (Option Value)}
    {run' : Stmt UseId → Eval (Option Value)} (h : ∀ i s, Erases (run i s) (run' s))
    (ss : List (Stmt UseId)) (i : Nat) : Erases (sequence run i ss) (Eval.sequence run' ss) := by
  induction ss generalizing i with
  | nil => exact erases_pure none
  | cons s ss ih =>
    refine (h i s).bind fun r => ?_
    cases r with
    | some v => exact erases_pure (some v)
    | none => exact ih (i + 1)

/-- The whole of evaluation, watched and not. -/
structure ErasesAll (patience depth : Nat) : Prop where
  expression : ∀ spot chain e, Erases (expression patience depth spot chain e)
    (Eval.expression patience depth chain e)
  values : ∀ spot chain es, Erases (values patience depth spot chain es)
    (Eval.values patience depth chain es)
  statement : ∀ spot chain s, Erases (statement patience depth spot chain s)
    (Eval.statement patience depth chain s)
  statements : ∀ spot chain ss, Erases (statements patience depth spot chain ss)
    (Eval.statements patience depth chain ss)
  apply : ∀ f vs paren, Erases (apply patience depth f vs paren)
    (Eval.apply patience depth f vs paren)
  invoke : ∀ f vs, Erases (invoke patience depth f vs) (Eval.invoke patience depth f vs)

theorem erases_note {x : Watch α} {y : Eval α} (spot : Spot) (node : Node) (chain : Chain)
    (h : Erases x y) : Erases (do note spot node chain; x) y :=
  erases_record (fun _ => ⟨_, _, rfl, rfl⟩) fun _ => h

theorem erases_expression {patience depth : Nat} (h : ErasesAll patience depth) (spot : Spot)
    (chain : Chain) (e : Expr UseId) : Erases (expression patience (depth + 1) spot chain e)
      (Eval.expression patience (depth + 1) chain e) := by
  refine erases_note _ _ _ ?_
  cases e with
  | literal v => exact erases_pure v
  | «variable» name use =>
    refine (erases_lift _).bind fun d => ?_
    cases d with
    | some d => exact (erases_room _ _).bind fun _ => erases_lift _
    | none => exact (erases_room _ _).bind fun _ => erases_lift _
  | grouping inner => exact h.expression _ _ _
  | unary operator right =>
    exact (h.expression _ _ _).bind fun a => (erases_room _ _).bind fun _ => erases_ofOperator _
  | binary left operator right =>
    exact (h.expression _ _ _).bind fun a => (h.expression _ _ _).bind fun b =>
      (erases_room _ _).bind fun _ => erases_ofOperator _
  | logical left operator right =>
    refine (h.expression _ _ _).bind fun a => ?_
    split
    · exact erases_pure a
    · exact h.expression _ _ _
  | assign name value use =>
    refine (h.expression _ _ _).bind fun v => (erases_lift _).bind fun d => ?_
    cases d with
    | some d =>
      exact (erases_room _ _).bind fun _ => (erases_lift _).bind fun _ => erases_pure v
    | none =>
      exact (erases_room _ _).bind fun _ => (erases_lift _).bind fun _ => erases_pure v
  | call callee paren arguments =>
    exact (h.expression _ _ _).bind fun f => (h.values _ _ _).bind fun vs => h.apply _ _ _
  | alien text => exact erases_throw _

theorem erases_statement {patience depth : Nat} (h : ErasesAll patience depth) (spot : Spot)
    (chain : Chain) (s : Stmt UseId) : Erases (statement patience (depth + 1) spot chain s)
      (Eval.statement patience (depth + 1) chain s) := by
  refine erases_note _ _ _ ?_
  cases s with
  | expression e => exact (h.expression _ _ _).bind fun _ => erases_pure none
  | print e =>
    exact (h.expression _ _ _).bind fun v => (erases_lift _).bind fun _ => erases_pure none
  | var name initializer =>
    cases initializer with
    | none => exact (erases_pure _).bind fun v => (erases_lift _).bind fun _ => erases_pure none
    | some e =>
      exact (h.expression _ _ _).bind fun v => (erases_lift _).bind fun _ => erases_pure none
  | block body => exact (erases_lift _).bind fun inner => h.statements _ _ _
  | branch condition yes no =>
    refine (h.expression _ _ _).bind fun v => ?_
    split
    · exact h.statement _ _ _
    · cases no with
      | some no => exact h.statement _ _ _
      | none => exact erases_pure none
  | loop condition body =>
    refine erases_repeatWhile ?_ (h.statement _ _ _) patience
    exact (h.expression _ _ _).bind fun v => erases_pure v.isTruthy
  | function name parameters body =>
    refine erases_record (fun _ => ⟨_, _, rfl, rfl⟩) fun _ => ?_
    exact (erases_lift _).bind fun f => (erases_lift _).bind fun _ => erases_pure none
  | giveBack keyword value =>
    cases value with
    | some e => exact (h.expression _ _ _).bind fun v => erases_pure (some v)
    | none => exact erases_pure (some Value.nil)
  | alien text => exact erases_throw _

theorem apply_of_lt {patience depth : Nat} {f : Value} {vs : List Value} {paren : Token}
    (h : depth < 7) : apply patience depth f vs paren = throw .overflow := by
  unfold apply
  split
  · omega
  · rfl

theorem invoke_of_lt {patience depth : Nat} {f : Value} {vs : List Value} (h : depth < 4) :
    invoke patience depth f vs = throw .overflow := by
  unfold invoke
  split
  · omega
  · rfl

theorem erases_all (patience depth : Nat) : ErasesAll patience depth := by
  induction depth using Nat.strongRecOn with
  | _ depth ih =>
    refine ⟨?_, ?_, ?_, ?_, ?_, ?_⟩
    · intro spot chain e
      cases depth with
      | zero => exact erases_throw _
      | succ depth => exact erases_expression (ih depth (by omega)) spot chain e
    · intro spot chain es
      cases depth with
      | zero => exact erases_throw _
      | succ depth =>
        refine erases_inOrder (fun i e => ?_) es 0
        exact (ih depth (by omega)).expression (spot.step (i + 1)) chain e
    · intro spot chain s
      cases depth with
      | zero => exact erases_throw _
      | succ depth => exact erases_statement (ih depth (by omega)) spot chain s
    · intro spot chain ss
      cases depth with
      | zero => exact erases_throw _
      | succ depth =>
        refine erases_sequence (fun i s => ?_) ss 0
        exact (ih depth (by omega)).statement (spot.step i) chain s
    · intro f vs paren
      obtain hlt | hle := Nat.lt_or_ge depth 7
      · rw [apply_of_lt hlt, Eval.apply_of_lt hlt]
        exact erases_throw _
      obtain ⟨depth, rfl⟩ := Nat.exists_eq_add_of_le' hle
      rw [apply, Eval.apply]
      cases f.callable? with
      | none => exact erases_throw _
      | some c =>
        dsimp only
        split
        · exact erases_throw _
        · exact erases_inCall paren ((ih (depth + 6) (by omega)).invoke f vs)
    · intro f vs
      obtain hlt | hle := Nat.lt_or_ge depth 4
      · rw [invoke_of_lt hlt, Eval.invoke_of_lt hlt]
        exact erases_throw _
      obtain ⟨depth, rfl⟩ := Nat.exists_eq_add_of_le' hle
      rw [invoke, Eval.invoke]
      refine (erases_lift _).bind fun code => ?_
      cases code with
      | none => exact erases_throw _
      | some code =>
        cases code with
        | closure parameters body chain =>
          refine erases_record (fun w => ⟨_, w, rfl, rfl⟩) fun spot => ?_
          exact (erases_lift _).bind fun inner => (erases_lift _).bind fun _ =>
            ((ih (depth + 2) (by omega)).statements spot inner body).bind
              fun result => erases_pure (result.getD .nil)
        | host act =>
          refine erases_perform (erases_lift _) (ih (depth + 2) (by omega)).invoke (fun v => ?_) _
          exact erases_run (fun n i s => (ih depth (by omega)).statement ⟨n, [i]⟩ globalChain s)
            depth v

end Watch

end Scriptling
