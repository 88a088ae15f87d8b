-- The visits of the walk over a program. A moment is a call that the walk makes on a statement or
-- an expression, and `Reaches` says by which way through the tree the walk comes to it. What the
-- walk does to its findings is bounded by the uses that it meets.
import Scriptling.Scope.Resolution

namespace Scriptling

/-! ## Moments of the walk -/

/-- A part of a program that is visited. -/
inductive Node
  | expression (e : Expr UseId)
  | statement (s : Stmt UseId)

/-- The steps from a program to one of its parts, the last step first. -/
abbrev Trail := List Nat

namespace Resolve

/-- Report an error where there is one. -/
def reportIf (wrong : Bool) (e : StaticError) : Resolve Unit := if wrong then report e else pure ()

theorem expression_variable (S : Scopes) (d : Nat) (name : Token) (use : UseId) :
    expression S (d + 1) (.variable name use) = (do
      reportIf (S.unfinished name.lexeme) (.atToken name .ownInitializer)
      record S name use) := by
  rw [expression]
  cases S.unfinished name.lexeme <;> rfl

theorem declare_eq (S : Scopes) (name : Token) : declare S name = (do
    reportIf (S.declared name.lexeme) (.atToken name .alreadyDeclared)
    return S.note name.lexeme false) := by
  unfold declare
  cases S.declared name.lexeme <;> rfl

theorem statement_giveBack (d : Nat) (b : Bool) (S : Scopes) (keyword : Token)
    (e : Option (Expr UseId)) : statement (d + 1) b S (.giveBack keyword e) = (do
      reportIf (!b) (.atToken keyword .topLevelReturn)
      e.forM (expression S d)
      return S) := by
  cases b <;> rfl

/-- A call of the walk, and what it is given. -/
inductive Moment
  | expression (scopes : Scopes) (depth : Nat) (e : Expr UseId)
  | statement (depth : Nat) (inFunction : Bool) (scopes : Scopes) (s : Stmt UseId)

def Moment.scopes : Moment → Scopes
  | expression scopes .. | statement _ _ scopes _ => scopes

def Moment.node : Moment → Node
  | expression _ _ e => .expression e
  | statement _ _ _ s => .statement s

/-- The walk at a moment, with what it found so far, makes the call with the given number. -/
inductive Enters : Moment → Findings → Nat → Moment → Findings → Prop
  | grouping {S : Scopes} {d : Nat} {e : Expr UseId} {f : Findings} :
      Enters (.expression S (d + 1) (.grouping e)) f 0 (.expression S d e) f
  | unary {S : Scopes} {d : Nat} {operator : Token} {e : Expr UseId} {f : Findings} :
      Enters (.expression S (d + 1) (.unary operator e)) f 0 (.expression S d e) f
  | binaryLeft {S : Scopes} {d : Nat} {operator : Token} {e e' : Expr UseId} {f : Findings} :
      Enters (.expression S (d + 1) (.binary e operator e')) f 0 (.expression S d e) f
  | binaryRight {S : Scopes} {d : Nat} {operator : Token} {e e' : Expr UseId} {f f' : Findings}
      (left : expression S d e f = .ok () f') :
      Enters (.expression S (d + 1) (.binary e operator e')) f 1 (.expression S d e') f'
  | logicalLeft {S : Scopes} {d : Nat} {operator : Token} {e e' : Expr UseId} {f : Findings} :
      Enters (.expression S (d + 1) (.logical e operator e')) f 0 (.expression S d e) f
  | logicalRight {S : Scopes} {d : Nat} {operator : Token} {e e' : Expr UseId} {f f' : Findings}
      (left : expression S d e f = .ok () f') :
      Enters (.expression S (d + 1) (.logical e operator e')) f 1 (.expression S d e') f'
  | assigned {S : Scopes} {d : Nat} {name : Token} {e : Expr UseId} {use : UseId} {f : Findings} :
      Enters (.expression S (d + 1) (.assign name e use)) f 0 (.expression S d e) f
  | callee {S : Scopes} {d : Nat} {paren : Token} {e : Expr UseId} {es : List (Expr UseId)}
      {f : Findings} : Enters (.expression S (d + 1) (.call e paren es)) f 0 (.expression S d e) f
  | argument {S : Scopes} {d i : Nat} {paren : Token} {e e' : Expr UseId} {es : List (Expr UseId)}
      {f f₁ f₂ : Findings} (callee : expression S d e f = .ok () f₁)
      (before : (es.take i).forM (expression S d) f₁ = .ok () f₂) (here : es[i]? = some e') :
      Enters (.expression S (d + 1) (.call e paren es)) f (i + 1) (.expression S d e') f₂
  | expression {S : Scopes} {d : Nat} {b : Bool} {e : Expr UseId} {f : Findings} :
      Enters (.statement (d + 1) b S (.expression e)) f 0 (.expression S d e) f
  | print {S : Scopes} {d : Nat} {b : Bool} {e : Expr UseId} {f : Findings} :
      Enters (.statement (d + 1) b S (.print e)) f 0 (.expression S d e) f
  | initializer {S S' : Scopes} {d : Nat} {b : Bool} {name : Token} {e : Expr UseId}
      {f f' : Findings} (declared : declare S name f = .ok S' f') :
      Enters (.statement (d + 1) b S (.var name (some e))) f 0 (.expression S' d e) f'
  | block {S S' : Scopes} {d i : Nat} {b : Bool} {s : Stmt UseId} {ss : List (Stmt UseId)}
      {f f' : Findings} (before : (ss.take i).foldlM (statement d b) (.empty :: S) f = .ok S' f')
      (here : ss[i]? = some s) :
      Enters (.statement (d + 2) b S (.block ss)) f i (.statement d b S' s) f'
  | branchCondition {S : Scopes} {d : Nat} {b : Bool} {e : Expr UseId} {s : Stmt UseId}
      {o : Option (Stmt UseId)} {f : Findings} :
      Enters (.statement (d + 1) b S (.branch e s o)) f 0 (.expression S d e) f
  | yes {S : Scopes} {d : Nat} {b : Bool} {e : Expr UseId} {s : Stmt UseId}
      {o : Option (Stmt UseId)} {f f' : Findings} (condition : expression S d e f = .ok () f') :
      Enters (.statement (d + 1) b S (.branch e s o)) f 1 (.statement d b S s) f'
  | no {S S' : Scopes} {d : Nat} {b : Bool} {e : Expr UseId} {s s' : Stmt UseId}
      {f f' f'' : Findings} (condition : expression S d e f = .ok () f')
      (yes : statement d b S s f' = .ok S' f'') :
      Enters (.statement (d + 1) b S (.branch e s (some s'))) f 2 (.statement d b S' s') f''
  | loopCondition {S : Scopes} {d : Nat} {b : Bool} {e : Expr UseId} {s : Stmt UseId}
      {f : Findings} : Enters (.statement (d + 1) b S (.loop e s)) f 0 (.expression S d e) f
  | loopBody {S : Scopes} {d : Nat} {b : Bool} {e : Expr UseId} {s : Stmt UseId}
      {f f' : Findings} (condition : expression S d e f = .ok () f') :
      Enters (.statement (d + 1) b S (.loop e s)) f 1 (.statement d b S s) f'
  | function {S S₁ S₂ S₃ : Scopes} {d i : Nat} {b : Bool} {name : Token} {ps : List Token}
      {s : Stmt UseId} {ss : List (Stmt UseId)} {f f₁ f₂ f₃ : Findings}
      (declared : declareReady S name f = .ok S₁ f₁)
      (parameters : ps.foldlM declareReady (.empty :: S₁) f₁ = .ok S₂ f₂)
      (before : (ss.take i).foldlM (statement d true) S₂ f₂ = .ok S₃ f₃)
      (here : ss[i]? = some s) :
      Enters (.statement (d + 3) b S (.function name ps ss)) f i (.statement d true S₃ s) f₃
  | giveBack {S : Scopes} {d : Nat} {b : Bool} {keyword : Token} {e : Expr UseId}
      {f f' : Findings} (checked : reportIf (!b) (.atToken keyword .topLevelReturn) f = .ok () f') :
      Enters (.statement (d + 1) b S (.giveBack keyword (some e))) f 0 (.expression S d e) f'

/-- The same call is made only once. -/
theorem Enters.unique {m m₁ m₂ : Moment} {f f₁ f₂ : Findings} {i : Nat}
    (h₁ : Enters m f i m₁ f₁) (h₂ : Enters m f i m₂ f₂) : m₁ = m₂ ∧ f₁ = f₂ := by
  cases h₁ <;> cases h₂ <;> simp_all

end Resolve

/-- A program as it comes to the walk: how deep the walk may go, the distances recorded before, and
the statements, whose labels are all below `nextUse`. -/
structure Accepted where
  depth : Nat
  distances : Distances
  statements : List (Stmt UseId)
  nextUse : UseId

namespace Accepted

open Resolve

/-- What the walk over the program finds. -/
def found (P : Accepted) : Findings := (resolve P.depth P.distances P.statements).1

/-- The walk over the program comes to a moment by way of a path, with what it found so far. -/
inductive Reaches (P : Accepted) : Trail → Moment → Findings → Prop
  | top {i : Nat} {s : Stmt UseId} {S : Scopes} {f : Findings}
      (before : (P.statements.take i).foldlM (topLevel P.depth) [] ⟨P.distances, #[]⟩ = .ok S f)
      (here : P.statements[i]? = some s) : Reaches P [i] (.statement P.depth false S s) f
  | inner {path : Trail} {i : Nat} {m m' : Moment} {f f' : Findings} (h : Reaches P path m f)
      (next : Enters m f i m' f') : Reaches P (i :: path) m' f'

theorem Reaches.unique {P : Accepted} {path : Trail} {m m' : Moment} {f f' : Findings}
    (h : P.Reaches path m f) (h' : P.Reaches path m' f') : m = m' ∧ f = f' := by
  induction h generalizing m' f' with
  | top before here =>
    cases h' with
    | top before' here' => simp_all
    | inner h _ => cases h
  | inner h next ih =>
    cases h' with
    | top => cases h
    | inner h' next' =>
      obtain ⟨rfl, rfl⟩ := ih h'
      exact next.unique next'

/-- The walk over the program visits a part of it with the given scopes around. -/
def Visits (P : Accepted) (path : Trail) (S : Scopes) (node : Node) : Prop :=
  ∃ m f, P.Reaches path m f ∧ m.scopes = S ∧ m.node = node

theorem Visits.unique {P : Accepted} {path : Trail} {S S' : Scopes} {node node' : Node}
    (h : P.Visits path S node) (h' : P.Visits path S' node') : S = S' ∧ node = node' := by
  obtain ⟨m, f, hreach, rfl, rfl⟩ := h
  obtain ⟨m', f', hreach', rfl, rfl⟩ := h'
  obtain ⟨rfl, -⟩ := hreach.unique hreach'
  exact ⟨rfl, rfl⟩

end Accepted

/-! ## Steps from a state -/

section Steps

variable {ε σ α β : Type}

theorem bind_eq (m : EStateM ε σ α) (f : α → EStateM ε σ β) (s : σ) :
    (m >>= f) s = match m s with
      | .ok a s₁ => f a s₁
      | .error e s₁ => .error e s₁ := rfl

theorem tryCatch_eq (m : EStateM ε σ α) (handle : ε → EStateM ε σ α) (s : σ) :
    tryCatch m handle s = match m s with
      | .ok a s₁ => .ok a s₁
      | .error e s₁ => handle e s₁ := by
  show tryCatch (fun _ => m s : EStateM ε σ α) handle s = _
  cases m s <;> rfl

theorem get_bind (f : σ → EStateM ε σ β) (s : σ) : (get >>= f) s = f s s := rfl

theorem bind_of_ok {m : EStateM ε σ α} {f : α → EStateM ε σ β} {s s₁ : σ} {a : α}
    (h : m s = .ok a s₁) : (m >>= f) s = f a s₁ := by
  rw [bind_eq, h]

theorem ok_bind {m : EStateM ε σ α} {f : α → EStateM ε σ β} {s s' : σ} {b : β} :
    (m >>= f) s = .ok b s' ↔ ∃ a s₁, m s = .ok a s₁ ∧ f a s₁ = .ok b s' := by
  rw [bind_eq]
  constructor
  · intro h
    cases hm : m s with
    | ok a s₁ =>
      rw [hm] at h
      exact ⟨a, s₁, rfl, h⟩
    | error e s₁ =>
      rw [hm] at h
      cases h
  · rintro ⟨a, s₁, hm, hf⟩
    rw [hm]
    exact hf

end Steps

/-! ## What a walk does to its findings -/

namespace Resolve

variable {α β : Type}

/-- From `f` to `f'` only the given labels get distances, and no error is lost. -/
structure Extends (f f' : Findings) (labels : List UseId) : Prop where
  kept : ∀ l, l ∉ labels → f'.distances[l]? = f.distances[l]?
  grown : ∀ e ∈ f.errors, e ∈ f'.errors

theorem Extends.clean {f f' : Findings} {labels : List UseId} (h : Extends f f' labels)
    (hclean : f'.errors = #[]) : f.errors = #[] := by
  refine Array.eq_empty_iff_forall_not_mem.2 fun e he => ?_
  have he' := h.grown e he
  rw [hclean] at he'
  exact Array.not_mem_empty e he'

theorem extends_refl (f : Findings) (labels : List UseId) : Extends f f labels :=
  ⟨fun _ _ => rfl, fun _ => id⟩

theorem Extends.append {f f₁ f₂ : Findings} {labels labels' : List UseId}
    (h : Extends f f₁ labels) (h' : Extends f₁ f₂ labels') : Extends f f₂ (labels ++ labels') := by
  refine ⟨fun l hl => ?_, fun e he => h'.grown e (h.grown e he)⟩
  rw [List.mem_append, not_or] at hl
  rw [h'.kept l hl.2, h.kept l hl.1]

theorem Extends.mono {f f' : Findings} {labels labels' : List UseId} (h : Extends f f' labels)
    (hsub : ∀ l ∈ labels, l ∈ labels') : Extends f f' labels' :=
  ⟨fun l hl => h.kept l fun hmem => hl (hsub l hmem), h.grown⟩

/-- The findings that a walk leaves behind, also where it ends early. -/
def left : EStateM.Result Halt Findings α → Findings
  | .ok _ f | .error _ f => f

/-- The walk gives distances to the given labels only, and loses no error. -/
def Touches (m : Resolve α) (labels : List UseId) : Prop := ∀ f, Extends f (left (m f)) labels

theorem Touches.ok {m : Resolve α} {labels : List UseId} (h : Touches m labels) {f f' : Findings}
    {a : α} (hrun : m f = .ok a f') : Extends f f' labels := by
  have hextends := h f
  rw [hrun] at hextends
  exact hextends

theorem touches_pure (a : α) (labels : List UseId) : Touches (pure a) labels :=
  fun f => extends_refl f labels

theorem touches_throw (halt : Halt) (labels : List UseId) :
    Touches (throw halt : Resolve α) labels := fun f => extends_refl f labels

theorem Touches.mono {m : Resolve α} {labels labels' : List UseId} (h : Touches m labels)
    (hsub : ∀ l ∈ labels, l ∈ labels') : Touches m labels' := fun f => (h f).mono hsub

theorem Touches.bind {m : Resolve α} {next : α → Resolve β} {labels labels' : List UseId}
    (h : Touches m labels) (hnext : ∀ a, Touches (next a) labels') :
    Touches (m >>= next) (labels ++ labels') := by
  intro f
  have hfirst := h f
  rw [bind_eq]
  cases hm : m f with
  | ok a f₁ =>
    rw [hm] at hfirst
    exact hfirst.append (hnext a f₁)
  | error halt f₁ =>
    rw [hm] at hfirst
    exact hfirst.mono fun l hl => List.mem_append_left _ hl

theorem Touches.tryCatch {m : Resolve α} {handle : Halt → Resolve α} {labels : List UseId}
    (h : Touches m labels) (hhandle : ∀ halt, Touches (handle halt) []) :
    Touches (tryCatch m handle) labels := by
  intro f
  have hfirst := h f
  rw [tryCatch_eq]
  cases hm : m f with
  | ok a f₁ =>
    rw [hm] at hfirst
    exact hfirst
  | error halt f₁ =>
    rw [hm] at hfirst
    refine (hfirst.append (hhandle halt f₁)).mono fun l hl => ?_
    rwa [List.append_nil] at hl

theorem touches_report (e : StaticError) (labels : List UseId) : Touches (report e) labels := by
  refine fun f => ⟨fun _ _ => rfl, fun e' he' => ?_⟩
  have hpush : (left (report e f)).errors = f.errors.push e := rfl
  rw [hpush]
  exact Array.mem_push_of_mem e he'

theorem touches_record (S : Scopes) (name : Token) (use : UseId) :
    Touches (record S name use) [use] := by
  intro f
  unfold record
  cases S.distance? name.lexeme with
  | none => exact extends_refl f _
  | some d =>
    refine ⟨fun l hl => ?_, fun _ => id⟩
    rw [List.mem_singleton] at hl
    have hne : ¬ compare use l = .eq := by
      rw [Std.LawfulEqCmp.compare_eq_iff_eq]
      exact fun heq => hl heq.symm
    exact Std.TreeMap.getElem?_insert.trans (if_neg hne)

theorem touches_reportIf (wrong : Bool) (e : StaticError) : Touches (reportIf wrong e) [] := by
  cases wrong with
  | true => exact touches_report e []
  | false => exact touches_pure () []

theorem touches_declare (S : Scopes) (name : Token) : Touches (declare S name) [] := by
  rw [declare_eq]
  exact (touches_reportIf _ _).bind fun _ => touches_pure _ []

theorem touches_declareReady (S : Scopes) (name : Token) : Touches (declareReady S name) [] :=
  (touches_declare S name).bind fun _ => touches_pure _ []

theorem touches_forM {γ : Type} {walk : γ → Resolve Unit} {labels : γ → List UseId} {cs : List γ}
    (h : ∀ c, Touches (walk c) (labels c)) : Touches (cs.forM walk) (cs.flatMap labels) := by
  induction cs with
  | nil => exact touches_pure () _
  | cons c cs ih =>
    rw [List.flatMap_cons]
    exact (h c).bind fun _ => ih

theorem touches_foldlM {γ : Type} {walk : Scopes → γ → Resolve Scopes} (labels : γ → List UseId)
    {cs : List γ} (h : ∀ S c, Touches (walk S c) (labels c)) (S : Scopes) :
    Touches (cs.foldlM walk S) (cs.flatMap labels) := by
  induction cs generalizing S with
  | nil => exact touches_pure S _
  | cons c cs ih =>
    rw [List.foldlM_cons, List.flatMap_cons]
    exact (h S c).bind ih

/-- The labels of the uses in an expression. -/
def labelsOf (e : Expr UseId) : List UseId := e.uses.map Use.label

def labelsOfAll (es : List (Expr UseId)) : List UseId := (Expr.usesInAll es).map Use.label

theorem labelsOfAll_eq (es : List (Expr UseId)) : labelsOfAll es = es.flatMap labelsOf := by
  induction es with
  | nil => rfl
  | cons e es ih =>
    rw [List.flatMap_cons, ← ih]
    exact List.map_append

theorem touches_expression (S : Scopes) (d : Nat) (e : Expr UseId) :
    Touches (expression S d e) (labelsOf e) := by
  induction d generalizing e with
  | zero => exact touches_throw _ _
  | succ d ih =>
    cases e with
    | literal v => exact touches_pure _ _
    | grouping e => exact ih e
    | unary operator e => exact ih e
    | binary e operator e' | logical e operator e' =>
      refine ((ih e).bind fun _ => ih e').mono fun l hl => ?_
      simpa [labelsOf, Expr.uses] using hl
    | «variable» name use =>
      rw [expression_variable]
      exact (touches_reportIf _ _).bind fun _ => touches_record S name use
    | assign name e use =>
      refine ((ih e).bind fun _ => touches_record S name use).mono fun l hl => ?_
      rw [List.mem_append, List.mem_singleton] at hl
      exact List.mem_cons.2 hl.symm
    | call e paren es =>
      refine ((ih e).bind fun _ => touches_forM ih).mono fun l hl => ?_
      rw [← labelsOfAll_eq] at hl
      simpa [labelsOf, labelsOfAll, Expr.uses] using hl
    | alien text => exact touches_throw _ _

def labelsIn (s : Stmt UseId) : List UseId := s.uses.map Use.label

def labelsInAll (ss : List (Stmt UseId)) : List UseId := (Stmt.usesInAll ss).map Use.label

theorem labelsInAll_eq (ss : List (Stmt UseId)) : labelsInAll ss = ss.flatMap labelsIn := by
  induction ss with
  | nil => rfl
  | cons s ss ih =>
    rw [List.flatMap_cons, ← ih]
    exact List.map_append

theorem touches_option (S : Scopes) (d : Nat) (e : Option (Expr UseId)) :
    Touches (e.forM (expression S d)) ((Expr.usesInOption e).map Use.label) := by
  cases e with
  | none => exact touches_pure _ _
  | some e => exact touches_expression S d e

theorem touches_otherwise {d : Nat} {b : Bool} {S : Scopes}
    (h : ∀ s, Touches (statement d b S s) (labelsIn s)) (o : Option (Stmt UseId)) :
    Touches (match o with
      | some s => statement d b S s
      | none => return S) ((Stmt.usesInOption o).map Use.label) := by
  cases o with
  | none => exact touches_pure S _
  | some s => exact h s

theorem touches_statement (d : Nat) (b : Bool) (S : Scopes) (s : Stmt UseId) :
    Touches (statement d b S s) (labelsIn s) := by
  induction d using Nat.strongRecOn generalizing b S s with
  | _ d ih =>
    have hstatements : ∀ d' b S ss, d' < d →
        Touches (statements d' b S ss) (labelsInAll ss) := by
      intro d' b S ss hd
      cases d' with
      | zero => exact touches_throw _ _
      | succ d' =>
        rw [labelsInAll_eq]
        refine ((touches_foldlM labelsIn (fun S s => ih d' (by omega) b S s) S).bind
          fun _ => touches_pure () []).mono fun l hl => ?_
        rwa [List.append_nil] at hl
    have hfunction : ∀ d' S ps ss, d' < d → Touches (function d' S ps ss) (labelsInAll ss) := by
      intro d' S ps ss hd
      cases d' with
      | zero => exact touches_throw _ _
      | succ d' =>
        refine ((touches_foldlM (fun _ => []) touches_declareReady _).bind
          fun S' => hstatements d' true S' ss (by omega)).mono fun l hl => ?_
        simpa using hl
    cases d with
    | zero => exact touches_throw _ _
    | succ d =>
      cases s with
      | expression e | print e =>
        refine ((touches_expression S d e).bind fun _ => touches_pure S []).mono fun l hl => ?_
        rwa [List.append_nil] at hl
      | var name e =>
        refine ((touches_declare S name).bind fun S' => (touches_option S' d e).bind
          fun _ => touches_pure _ []).mono fun l hl => ?_
        rwa [List.nil_append, List.append_nil] at hl
      | block ss =>
        refine ((hstatements d b _ ss (by omega)).bind fun _ => touches_pure S []).mono
          fun l hl => ?_
        rwa [List.append_nil] at hl
      | branch e s o =>
        refine ((touches_expression S d e).bind fun _ =>
          (ih d (by omega) b S s).bind fun S' =>
            touches_otherwise (ih d (by omega) b S') o).mono fun l hl => ?_
        simpa [labelsOf, labelsIn, Stmt.uses, or_assoc] using hl
      | loop e s =>
        refine ((touches_expression S d e).bind fun _ => ih d (by omega) b S s).mono fun l hl => ?_
        simpa [labelsOf, labelsIn, Stmt.uses] using hl
      | function name ps ss =>
        refine ((touches_declareReady S name).bind fun S' =>
          (hfunction d S' ps ss (by omega)).bind fun _ => touches_pure S' []).mono fun l hl => ?_
        rwa [List.nil_append, List.append_nil] at hl
      | giveBack keyword e =>
        rw [statement_giveBack]
        refine ((touches_reportIf _ _).bind fun _ => (touches_option S d e).bind
          fun _ => touches_pure S []).mono fun l hl => ?_
        rwa [List.nil_append, List.append_nil] at hl
      | alien text => exact touches_throw _ _

theorem touches_topLevel (d : Nat) (S : Scopes) (s : Stmt UseId) :
    Touches (topLevel d S s) (labelsIn s) := by
  refine (touches_statement d false S s).tryCatch fun halt => ?_
  cases halt with
  | tooDeep => exact (touches_report _ []).bind fun _ => touches_pure [] []
  | fault f => exact touches_throw _ []

theorem touches_program (d : Nat) (ss : List (Stmt UseId)) :
    Touches (program d ss) (labelsInAll ss) := by
  rw [labelsInAll_eq]
  refine ((touches_foldlM labelsIn (touches_topLevel d) []).bind fun _ => touches_pure () []).mono
    fun l hl => ?_
  rwa [List.append_nil] at hl

end Resolve

theorem resolve_found (d : Nat) (distances : Distances) (ss : List (Stmt UseId)) :
    (resolve d distances ss).1 = Resolve.left (Resolve.program d ss ⟨distances, #[]⟩) := by
  unfold resolve
  cases Resolve.program d ss ⟨distances, #[]⟩ with
  | ok => rfl
  | error halt => cases halt <;> rfl

/-- Resolving a program gives distances to its own uses only. -/
theorem resolve_kept (d : Nat) (distances : Distances) (ss : List (Stmt UseId)) {l : UseId}
    (hl : l ∉ Resolve.labelsInAll ss) :
    (resolve d distances ss).1.distances[l]? = distances[l]? := by
  rw [resolve_found]
  exact (Resolve.touches_program d ss ⟨distances, #[]⟩).kept l hl

end Scriptling
