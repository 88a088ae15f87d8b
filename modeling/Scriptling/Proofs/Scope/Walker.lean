-- A walker goes over a program and keeps its scopes, and whether a function lies around, in a state
-- of its own. It puts them back by hand on the way out, and a walk that ends early leaves them as
-- they were deep inside; only the top level starts afresh. The walker finds what the walk without
-- such a state finds, and after every statement at the top level its state is as at the start.
import Scriptling.Proofs.Grammar.Origins
import Scriptling.Proofs.Scope.Errors

namespace Scriptling

/-! ## The walker -/

/-- The state of a walker: the scopes around, the innermost first, whether a function lies around,
and what was found so far. -/
structure Walker where
  scopes : Scopes
  inFunction : Bool
  found : Findings

/-- A walker outside all scopes and functions, with the distances recorded before. -/
def Walker.fresh (distances : Distances) : Walker := ⟨[], false, ⟨distances, #[]⟩⟩

abbrev Walk := EStateM Halt Walker

namespace Walk

def report (e : StaticError) : Walk Unit :=
  modify fun w => { w with found := { w.found with errors := w.found.errors.push e } }

/-- Report an error where the walker's state shows one. -/
def reportIf (wrong : Walker → Bool) (e : StaticError) : Walk Unit := do
  if wrong (← get) then report e

/-- Record the distance of a use, if some scope declares its name. -/
def record (name : Token) (use : UseId) : Walk Unit := do
  match (← get).scopes.distance? name.lexeme with
  | some d =>
    modify fun w => { w with found := { w.found with distances := w.found.distances.insert use d } }
  | none => pure ()

/-- Note a name in the innermost scope. -/
def note (name : Token) (finished : Bool) : Walk Unit :=
  modify fun w => { w with scopes := w.scopes.note name.lexeme finished }

def declare (name : Token) : Walk Unit := do
  reportIf (·.scopes.declared name.lexeme) (.atToken name .alreadyDeclared)
  note name false

def declareReady (name : Token) : Walk Unit := do
  declare name
  note name true

/-- Walk in a new scope, and leave the innermost scope behind it. -/
def inScope (inner : Walk Unit) : Walk Unit := do
  modify fun w => { w with scopes := .empty :: w.scopes }
  inner
  modify fun w => { w with scopes := w.scopes.tail }

/-- Walk as inside a function, and put back what was known before. -/
def asFunction (inner : Walk Unit) : Walk Unit := do
  let around := (← get).inFunction
  modify fun w => { w with inFunction := true }
  inner
  modify fun w => { w with inFunction := around }

/-- Walk over an expression, at most `depth` levels deep. -/
def expression : Nat → Expr UseId → Walk Unit
  | 0, _ => throw .tooDeep
  | depth + 1, e =>
    match e with
    | .literal _ => pure ()
    | .grouping inner => expression depth inner
    | .unary _ right => expression depth right
    | .binary left _ right | .logical left _ right => do
      expression depth left
      expression depth right
    | .variable name use => do
      reportIf (·.scopes.unfinished name.lexeme) (.atToken name .ownInitializer)
      record name use
    | .assign name value use => do
      expression depth value
      record name use
    | .call callee _ arguments => do
      expression depth callee
      arguments.forM (expression depth)
    | .alien text => throw (.fault (.alienExpression text))

mutual
/-- Walk over a statement. A declaration is noted in the innermost scope as it is met. -/
def statement : Nat → Stmt UseId → Walk Unit
  | 0, _ => throw .tooDeep
  | depth + 1, s =>
    match s with
    | .expression e | .print e => expression depth e
    | .var name initializer => do
      declare name
      initializer.forM (expression depth)
      note name true
    | .block body => inScope (statements depth body)
    | .branch condition yes no => do
      expression depth condition
      statement depth yes
      match no with
      | some no => statement depth no
      | none => pure ()
    | .loop condition body => do
      expression depth condition
      statement depth body
    | .function name parameters body => do
      declareReady name
      function depth parameters body
    | .giveBack keyword value => do
      reportIf (!·.inFunction) (.atToken keyword .topLevelReturn)
      value.forM (expression depth)
    | .alien text => throw (.fault (.alienStatement text))

def statements : Nat → List (Stmt UseId) → Walk Unit
  | 0, _ => throw .tooDeep
  | depth + 1, body => body.forM (statement depth)

def function : Nat → List Token → List (Stmt UseId) → Walk Unit
  | 0, _, _ => throw .tooDeep
  | depth + 1, parameters, body => asFunction <| inScope do
    parameters.forM declareReady
    statements depth body
end

/-- Walk over a top-level statement. Where it nests too deeply, the state is that of some place
inside it: the walker goes back outside, and reports the statement at its first line. -/
def topLevel (depth : Nat) (s : Stmt UseId) : Walk Unit :=
  tryCatch (statement depth s) fun
    | .tooDeep => do
      modify fun w => { w with scopes := [], inFunction := false }
      report ⟨s.firstLine, .nowhere, .tooDeep⟩
    | .fault f => throw (.fault f)

def program (depth : Nat) (statements : List (Stmt UseId)) : Walk Unit :=
  statements.forM (topLevel depth)

end Walk

/-! ## Following the walk -/

/-- What was found, behind errors that were reported earlier. -/
def Findings.behind (f : Findings) (earlier : Array StaticError) : Findings :=
  ⟨f.distances, earlier ++ f.errors⟩

@[simp] theorem Findings.behind_empty (f : Findings) : f.behind #[] = f := by
  simp [behind]

theorem Findings.behind_push (f : Findings) (earlier : Array StaticError) (e : StaticError) :
    ({ f with errors := f.errors.push e } : Findings).behind earlier =
      { f.behind earlier with errors := (f.behind earlier).errors.push e } := by
  rw [behind, Array.append_push]
  rfl

namespace Walk

variable {α β γ : Type} {earlier : Array StaticError} {b : Bool} {S : Scopes}

/-- A walker ends as a walk does. Where the walk comes to its end, the walker's flag is `b` and its
scopes fit the result; where it ends early, the walker's state may be that of any place. -/
inductive EndsAs (earlier : Array StaticError) (b : Bool) (P : α → Scopes → Prop) :
    EStateM.Result Halt Findings α → EStateM.Result Halt Walker Unit → Prop
  | ok {a : α} {S : Scopes} {f : Findings} (h : P a S) :
      EndsAs earlier b P (.ok a f) (.ok () ⟨S, b, f.behind earlier⟩)
  | error {halt : Halt} {S : Scopes} {b' : Bool} {f : Findings} :
      EndsAs earlier b P (.error halt f) (.error halt ⟨S, b', f.behind earlier⟩)

/-- A walker at scopes `S` and a flag `b` follows a walk: they find the same, behind what the walker
has reported earlier. -/
def Follows (earlier : Array StaticError) (b : Bool) (S : Scopes) (P : α → Scopes → Prop)
    (w : Walk Unit) (m : Resolve α) : Prop :=
  ∀ f, EndsAs earlier b P (m f) (w ⟨S, b, f.behind earlier⟩)

section Laws

variable {P P' : α → Scopes → Prop} {Q : β → Scopes → Prop} {w w' : Walk Unit} {m : Resolve α}

theorem follows_pure {a : α} (h : P a S) : Follows earlier b S P (pure ()) (pure a) :=
  fun _ => .ok h

theorem follows_throw (halt : Halt) : Follows earlier b S P (throw halt) (throw halt) :=
  fun _ => .error

theorem Follows.bind {next : α → Resolve β} (h : Follows earlier b S P w m)
    (hnext : ∀ a S', P a S' → Follows earlier b S' Q w' (next a)) :
    Follows earlier b S Q (w >>= fun _ => w') (m >>= next) := by
  intro f
  have hfirst := h f
  rw [bind_eq, bind_eq]
  generalize m f = r at hfirst
  generalize w ⟨S, b, f.behind earlier⟩ = r' at hfirst
  cases hfirst with
  | ok h => exact hnext _ _ h _
  | error => exact .error

theorem Follows.mono (h : Follows earlier b S P w m) (himp : ∀ a S', P a S' → P' a S') :
    Follows earlier b S P' w m := by
  intro f
  have hfirst := h f
  generalize m f = r at hfirst ⊢
  generalize w ⟨S, b, f.behind earlier⟩ = r' at hfirst ⊢
  cases hfirst with
  | ok h => exact .ok (himp _ _ h)
  | error => exact .error

/-- A walker need not wait for what the walk gives in the end. -/
theorem Follows.giving {a : β} (h : Follows earlier b S P w m)
    (himp : ∀ a' S', P a' S' → Q a S') :
    Follows earlier b S Q w (m >>= fun _ => pure a) := by
  have hbind := h.bind fun a' S' hP => follows_pure (himp a' S' hP)
  rwa [bind_pure_unit] at hbind

end Laws

/-! ## One step of the walker -/

section Steps

/-- The walker is where it was. -/
def Back (S : Scopes) : α → Scopes → Prop := fun _ S' => S' = S

/-- The walker has the scopes that the walk gives, and at most the innermost one has changed. -/
def Onward (S : Scopes) : Scopes → Scopes → Prop := fun S₁ S' => S' = S₁ ∧ S₁.tail = S.tail

theorem Onward.trans {S S₁ S₂ S' S'' : Scopes} (h : Onward S S₁ S') (h' : Onward S' S₂ S'') :
    Onward S S₂ S'' := by
  obtain ⟨rfl, htail⟩ := h
  exact ⟨h'.1, h'.2.trans htail⟩

theorem tail_note (S : Scopes) (name : String) (finished : Bool) :
    (S.note name finished).tail = S.tail := by
  cases S <;> rfl

theorem follows_report (e : StaticError) :
    Follows earlier b S (Back S) (report e) (Resolve.report e) := by
  intro f
  have hrun : report e ⟨S, b, f.behind earlier⟩ =
      .ok () ⟨S, b, ({ f with errors := f.errors.push e } : Findings).behind earlier⟩ := by
    rw [Findings.behind_push]
    rfl
  rw [hrun]
  exact .ok rfl

theorem follows_reportIf {wrong : Walker → Bool} {wrong' : Bool}
    (h : ∀ found, wrong ⟨S, b, found⟩ = wrong') (e : StaticError) :
    Follows earlier b S (Back S) (reportIf wrong e) (Resolve.reportIf wrong' e) := by
  intro f
  have hrun : reportIf wrong e ⟨S, b, f.behind earlier⟩ =
      (if wrong' = true then report e else pure ()) ⟨S, b, f.behind earlier⟩ := by
    rw [← h (f.behind earlier)]
    rfl
  rw [hrun]
  cases wrong' with
  | true => exact follows_report e f
  | false => exact .ok rfl

theorem follows_record (name : Token) (use : UseId) :
    Follows earlier b S (Back S) (record name use) (Resolve.record S name use) := by
  intro f
  unfold record Resolve.record
  rw [get_bind]
  cases S.distance? name.lexeme with
  | none => exact .ok rfl
  | some d => exact .ok rfl

theorem follows_note (name : Token) (finished : Bool) :
    Follows earlier b S (Onward S) (note name finished)
      (pure (S.note name.lexeme finished)) :=
  fun _ => .ok ⟨rfl, tail_note S name.lexeme finished⟩

theorem follows_declare (name : Token) :
    Follows earlier b S (Onward S) (declare name) (Resolve.declare S name) := by
  rw [Resolve.declare_eq]
  refine (follows_reportIf (fun _ => rfl) _).bind ?_
  rintro _ S' rfl
  exact follows_note name false

theorem follows_declareReady (name : Token) :
    Follows earlier b S (Onward S) (declareReady name) (Resolve.declareReady S name) := by
  refine (follows_declare name).bind ?_
  rintro S₁ S' hdeclared
  obtain ⟨rfl, -⟩ := id hdeclared
  exact (follows_note name true).mono fun _ _ hnoted => hdeclared.trans hnoted

theorem follows_foldlM {walk : Scopes → γ → Resolve Scopes} {walk' : γ → Walk Unit}
    (h : ∀ S c, Follows earlier b S (Onward S) (walk' c) (walk S c)) (cs : List γ) (S : Scopes) :
    Follows earlier b S (Onward S) (cs.forM walk') (cs.foldlM walk S) := by
  induction cs generalizing S with
  | nil => exact follows_pure ⟨rfl, rfl⟩
  | cons c cs ih =>
    rw [List.foldlM_cons]
    refine (h S c).bind fun S₁ S' hfirst => ?_
    obtain ⟨rfl, -⟩ := id hfirst
    exact (ih S').mono fun _ _ hrest => hfirst.trans hrest

theorem Follows.inScope {w : Walk Unit} {m : Resolve Unit}
    (h : Follows earlier b (.empty :: S) (fun _ S' => S'.tail = S) w m) :
    Follows earlier b S (Back S) (inScope w) m := by
  intro f
  have hrun : Walk.inScope w ⟨S, b, f.behind earlier⟩ =
      (w >>= fun _ => modify fun w => { w with scopes := w.scopes.tail })
        ⟨.empty :: S, b, f.behind earlier⟩ := rfl
  have hinner := h f
  rw [hrun, bind_eq]
  generalize m f = r at hinner ⊢
  generalize w ⟨.empty :: S, b, f.behind earlier⟩ = r' at hinner ⊢
  cases hinner with
  | ok htail => exact .ok htail
  | error => exact .error

theorem Follows.asFunction {P : α → Scopes → Prop} {w : Walk Unit} {m : Resolve α}
    (h : Follows earlier true S P w m) : Follows earlier b S P (asFunction w) m := by
  intro f
  have hrun : Walk.asFunction w ⟨S, b, f.behind earlier⟩ =
      (w >>= fun _ => modify fun w => { w with inFunction := b })
        ⟨S, true, f.behind earlier⟩ := rfl
  have hinner := h f
  rw [hrun, bind_eq]
  generalize m f = r at hinner ⊢
  generalize w ⟨S, true, f.behind earlier⟩ = r' at hinner ⊢
  cases hinner with
  | ok h => exact .ok h
  | error => exact .error

end Steps

/-! ## Whole walks -/

theorem follows_expression (d : Nat) (e : Expr UseId) :
    Follows earlier b S (Back S) (expression d e) (Resolve.expression S d e) := by
  induction d generalizing e with
  | zero => exact follows_throw _
  | succ d ih =>
    cases e with
    | literal v => exact follows_pure rfl
    | grouping e => exact ih e
    | unary operator e => exact ih e
    | binary e operator e' | logical e operator e' =>
      refine (ih e).bind ?_
      rintro _ S' rfl
      exact ih e'
    | «variable» name use =>
      rw [Resolve.expression_variable]
      refine (follows_reportIf (fun _ => rfl) _).bind ?_
      rintro _ S' rfl
      exact follows_record name use
    | assign name e use =>
      refine (ih e).bind ?_
      rintro _ S' rfl
      exact follows_record name use
    | call e paren es =>
      have harguments : Follows earlier b S (Back S) (es.forM (expression d))
          (es.forM (Resolve.expression S d)) := by
        induction es with
        | nil => exact follows_pure rfl
        | cons e es ih' =>
          refine (ih e).bind ?_
          rintro _ S' rfl
          exact ih'
      refine (ih e).bind ?_
      rintro _ S' rfl
      exact harguments
    | alien text => exact follows_throw _

theorem follows_option (d : Nat) (e : Option (Expr UseId)) :
    Follows earlier b S (Back S) (e.forM (expression d)) (e.forM (Resolve.expression S d)) := by
  cases e with
  | none => exact follows_pure rfl
  | some e => exact follows_expression d e

theorem follows_statement (d : Nat) (s : Stmt UseId) :
    Follows earlier b S (Onward S) (statement d s) (Resolve.statement d b S s) := by
  induction d using Nat.strongRecOn generalizing b S s with
  | _ d ih =>
    -- statements may change the innermost scope, which is left right behind them
    have hstatements : ∀ d' b S ss, d' < d →
        Follows earlier b S (fun _ S' => S'.tail = S.tail) (statements d' ss)
          (Resolve.statements d' b S ss) := by
      intro d' b S ss hd
      cases d' with
      | zero => exact follows_throw _
      | succ d' =>
        refine (follows_foldlM (fun S s => ih d' (by omega) s) ss S).giving ?_
        rintro S₁ S' ⟨rfl, htail⟩
        exact htail
    have hfunction : ∀ d' b S ps ss, d' < d →
        Follows earlier b S (Back S) (function d' ps ss) (Resolve.function d' S ps ss) := by
      intro d' b S ps ss hd
      cases d' with
      | zero => exact follows_throw _
      | succ d' =>
        refine Follows.asFunction (Follows.inScope ?_)
        refine (follows_foldlM (fun S p => follows_declareReady p) ps (.empty :: S)).bind ?_
        rintro S₁ S' ⟨rfl, hparameters⟩
        exact (hstatements d' true S' ss (by omega)).mono fun _ _ htail => htail.trans hparameters
    cases d with
    | zero => exact follows_throw _
    | succ d =>
      cases s with
      | expression e | print e =>
        refine (follows_expression d e).giving ?_
        rintro _ S' rfl
        exact ⟨rfl, rfl⟩
      | var name e =>
        refine (follows_declare name).bind fun S₁ S' hdeclared => ?_
        obtain ⟨rfl, -⟩ := id hdeclared
        refine (follows_option d e).bind ?_
        rintro _ S'' rfl
        exact (follows_note name true).mono fun _ _ hnoted => hdeclared.trans hnoted
      | block ss =>
        refine (hstatements d b (.empty :: S) ss (by omega)).inScope.giving ?_
        rintro _ S' rfl
        exact ⟨rfl, rfl⟩
      | branch e s o =>
        refine (follows_expression d e).bind ?_
        rintro _ S' rfl
        refine (ih d (by omega) s).bind fun S₁ S'' hyes => ?_
        obtain ⟨rfl, -⟩ := id hyes
        cases o with
        | none => exact follows_pure hyes
        | some s' => exact (ih d (by omega) s').mono fun _ _ hno => hyes.trans hno
      | loop e s =>
        refine (follows_expression d e).bind ?_
        rintro _ S' rfl
        exact ih d (by omega) s
      | function name ps ss =>
        refine (follows_declareReady name).bind fun S₁ S' hdeclared => ?_
        obtain ⟨rfl, -⟩ := id hdeclared
        refine (hfunction d b S' ps ss (by omega)).giving ?_
        rintro _ S'' rfl
        exact hdeclared
      | giveBack keyword e =>
        rw [Resolve.statement_giveBack]
        refine (follows_reportIf (fun _ => rfl) _).bind ?_
        rintro _ S' rfl
        refine (follows_option d e).giving ?_
        rintro _ S'' rfl
        exact ⟨rfl, rfl⟩
      | alien text => exact follows_throw _

/-- The walk and the walker are outside all scopes. -/
def Outside : Scopes → Scopes → Prop := fun S₁ S' => S₁ = [] ∧ S' = []

/-- After a statement at the top level the walker is outside again, also where it ended early. -/
theorem follows_topLevel (d : Nat) (s : Stmt UseId) :
    Follows earlier false [] Outside (topLevel d s) (Resolve.topLevel d [] s) := by
  intro f
  have hfollows : Follows earlier false [] (Onward []) (statement d s)
      (Resolve.statement d false [] s) := follows_statement d s
  have hstatement := hfollows f
  have houtside := Resolve.returns_statement_outside d false s f
  rw [topLevel, Resolve.topLevel, tryCatch_eq, tryCatch_eq]
  generalize Resolve.statement d false [] s f = r at hstatement houtside ⊢
  generalize statement d s ⟨[], false, f.behind earlier⟩ = r' at hstatement ⊢
  cases hstatement with
  | ok h =>
    obtain rfl := houtside _ _ rfl
    exact .ok ⟨rfl, h.1⟩
  | @error halt S b' f' =>
    cases halt with
    | fault => exact .error
    | tooDeep =>
      -- whatever state the walk was left in, the report is made outside
      have hreport : Follows earlier false [] (Back []) (report ⟨s.firstLine, .nowhere, .tooDeep⟩)
          (Resolve.report ⟨s.firstLine, .nowhere, .tooDeep⟩) := follows_report _
      exact hreport.giving (fun _ _ h => ⟨rfl, h⟩) f'

theorem follows_program (d : Nat) (ss : List (Stmt UseId)) :
    Follows earlier false [] (Back []) (program d ss) (Resolve.program d ss) := by
  have hfold : Follows earlier false [] Outside (ss.forM (topLevel d))
      (ss.foldlM (Resolve.topLevel d) []) := by
    induction ss with
    | nil => exact follows_pure ⟨rfl, rfl⟩
    | cons s ss ih =>
      rw [List.foldlM_cons]
      refine (follows_topLevel d s).bind ?_
      rintro S₁ S' ⟨rfl, rfl⟩
      exact ih
  exact hfold.giving fun _ _ h => h.2

/-- A walker that starts outside goes over a program as the walk does, and ends outside. -/
theorem program_of_ok {d : Nat} {ss : List (Stmt UseId)} {f f' : Findings}
    (h : Resolve.program d ss f = .ok () f') (earlier : Array StaticError) :
    program d ss ⟨[], false, f.behind earlier⟩ = .ok () ⟨[], false, f'.behind earlier⟩ := by
  have hfollows : Follows earlier false [] (Back []) (program d ss) (Resolve.program d ss) :=
    follows_program d ss
  have hends := hfollows f
  rw [h] at hends
  generalize program d ss ⟨[], false, f.behind earlier⟩ = r at hends
  cases hends with
  | ok hback => rw [hback]

theorem program_fresh {d : Nat} {ss : List (Stmt UseId)} {distances : Distances} {f : Findings}
    (h : Resolve.program d ss ⟨distances, #[]⟩ = .ok () f) :
    program d ss (.fresh distances) = .ok () ⟨[], false, f⟩ := by
  have hwalk := program_of_ok h #[]
  rwa [Findings.behind_empty, Findings.behind_empty] at hwalk

theorem program_append {d : Nat} {ss : List (Stmt UseId)} {w w' : Walker}
    (h : program d ss w = .ok () w') (ss' : List (Stmt UseId)) :
    program d (ss ++ ss') w = program d ss' w' := by
  have happend : program d (ss ++ ss') = (program d ss >>= fun _ => program d ss') :=
    List.forM_append
  rw [happend, bind_of_ok h]

end Walk

/-! ## Programs in turn -/

/-- What was reported earlier stands in front of what a program adds, and changes nothing else. -/
theorem Resolve.program_behind {d : Nat} {ss : List (Stmt UseId)}
    (hregular : ∀ s ∈ ss, Grammar.RegularStmt s.erase) {f f' : Findings}
    (h : program d ss f = .ok () f') (earlier : Array StaticError) :
    program d ss (f.behind earlier) = .ok () (f'.behind earlier) := by
  obtain ⟨f₁, hends⟩ := program_ends d hregular (f.behind earlier)
  -- a walker that has reported the earlier errors follows both walks
  have hbehind := Walk.program_of_ok h earlier
  have hhere := Walk.program_of_ok hends #[]
  rw [Findings.behind_empty, Findings.behind_empty, hbehind] at hhere
  cases hhere
  exact hends

theorem resolve_of_program {d : Nat} {distances : Distances} {ss : List (Stmt UseId)}
    {f : Findings} (h : Resolve.program d ss ⟨distances, #[]⟩ = .ok () f) :
    resolve d distances ss = (f, none) := by
  rw [resolve, h]

theorem regular_of_parsed {limit : Nat} {ts : List Token} {ss : List (Stmt UseId)}
    (h : ss.map Stmt.erase = (parse limit ts).statements) :
    ∀ s ∈ ss, Grammar.RegularStmt s.erase := by
  intro s hs
  refine Parser.parse_recovered_regular limit ts s.erase ?_
  rw [← h]
  exact List.mem_map_of_mem hs

/-- Nothing is carried from one program to the next, whatever was complained about when they were
read, however deep the walk may go, and whatever was recorded before. One walker over two programs,
in one go or one program after the other, finds what two fresh walkers find, and is outside all
scopes and functions in the end. -/
theorem walker_carries_nothing (depth : Nat) (table : Distances) {limit limit' : Nat}
    {ts ts' : List Token} {xs ys : List (Stmt UseId)}
    (hxs : xs.map Stmt.erase = (parse limit ts).statements)
    (hys : ys.map Stmt.erase = (parse limit' ts').statements) :
    ∃ first second : Findings,
      let both : Findings := ⟨second.distances, first.errors ++ second.errors⟩
      Walk.program depth xs (.fresh table) = .ok () ⟨[], false, first⟩ ∧
      Walk.program depth ys (.fresh first.distances) = .ok () ⟨[], false, second⟩ ∧
      Walk.program depth ys ⟨[], false, first⟩ = .ok () ⟨[], false, both⟩ ∧
      Walk.program depth (xs ++ ys) (.fresh table) = .ok () ⟨[], false, both⟩ ∧
      resolve depth table xs = (first, none) ∧
      resolve depth first.distances ys = (second, none) ∧
      resolve depth table (xs ++ ys) = (both, none) := by
  have hregular := regular_of_parsed hys
  obtain ⟨first, hfirst⟩ := Resolve.program_ends depth (regular_of_parsed hxs) ⟨table, #[]⟩
  obtain ⟨second, hsecond⟩ := Resolve.program_ends depth hregular ⟨first.distances, #[]⟩
  have hstart : (⟨first.distances, #[]⟩ : Findings).behind first.errors = first := by
    simp [Findings.behind]
  have hwalkFirst := Walk.program_fresh hfirst
  have hwalkBoth := Walk.program_of_ok hsecond first.errors
  rw [hstart] at hwalkBoth
  have hboth := Resolve.program_behind hregular hsecond first.errors
  rw [hstart] at hboth
  refine ⟨first, second, hwalkFirst, Walk.program_fresh hsecond, hwalkBoth, ?_,
    resolve_of_program hfirst, resolve_of_program hsecond, resolve_of_program ?_⟩
  · rw [Walk.program_append hwalkFirst, hwalkBoth]
    rfl
  · rw [Resolve.program_append hfirst, hboth]
    rfl

/-- A function whose inner blocks nest too deeply for a walk of five steps. -/
def deepBlocks : List Token :=
  (lex "function f(a) \x7b \x7b \x7b print a; \x7d \x7d \x7d").tokens

/-- The walk through the blocks is given up inside two scopes and a function, and yet the return
that follows is reported, and its variable found in no scope. -/
theorem deepBlocks_leave_nothing :
    let xs := ((Stmt.labelAll (parse nestingLimit deepBlocks).statements).run 0).1
    let ys := ((Stmt.labelAll (parse nestingLimit (lex "return a;").tokens).statements).run 1).1
    xs.map Stmt.erase = (parse nestingLimit deepBlocks).statements ∧
      ys.map Stmt.erase = (parse nestingLimit (lex "return a;").tokens).statements ∧
      (xs.map fun s => match Walk.statement 5 s (.fresh ∅) with
        | .ok _ w | .error _ w => (w.scopes.length, w.inFunction)) = [(2, true)] ∧
      ∃ first second : Findings,
        first.errors.toList.map StaticError.problem = [.tooDeep] ∧
        second.errors.toList.map StaticError.problem = [.topLevelReturn] ∧
        Walk.program 5 (xs ++ ys) (.fresh ∅) =
          .ok () ⟨[], false, ⟨second.distances, first.errors ++ second.errors⟩⟩ := by
  intro xs ys
  have hxs := Stmt.erase_labelAll (parse nestingLimit deepBlocks).statements 0
  have hys := Stmt.erase_labelAll (parse nestingLimit (lex "return a;").tokens).statements 1
  obtain ⟨first, second, -, -, -, hboth, hfirst, hsecond, -⟩ :=
    walker_carries_nothing 5 ∅ hxs hys
  refine ⟨hxs, hys, by decide +kernel, first, second, ?_, ?_, hboth⟩
  · have herrors : first = (resolve 5 ∅ xs).1 := by rw [hfirst]
    rw [herrors]
    decide +kernel
  · have herrors : second = (resolve 5 (resolve 5 ∅ xs).1.distances ys).1 := by
      rw [hfirst, hsecond]
    rw [herrors]
    decide +kernel

end Scriptling
