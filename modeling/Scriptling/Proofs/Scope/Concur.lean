-- Walks over trees that are alike. They end in the same way, with findings that are related, for
-- every relation that reporting at related tokens and recording for related labels keeps. So the
-- errors of scope in a program do not depend on its labels, nor on what was recorded before, and
-- programs alike get the same distances.
import Scriptling.Proofs.Scope.Likeness
import Scriptling.Proofs.Scope.Visits

namespace Scriptling

/-! ## Walks over trees alike -/

namespace Resolve

variable {α β : Type} {T : Token → Token → Prop} {U : UseId → UseId → Prop}
  {S : Findings → Findings → Prop}

/-- Two walks have ended in the same way, with findings that are related. -/
inductive EndedAlike (S : Findings → Findings → Prop) :
    EStateM.Result Halt Findings α → EStateM.Result Halt Findings α → Prop
  | ok {a : α} {f f' : Findings} (h : S f f') : EndedAlike S (.ok a f) (.ok a f')
  | error {halt : Halt} {f f' : Findings} (h : S f f') :
      EndedAlike S (.error halt f) (.error halt f')

/-- From findings that are related, two walks end in the same way. -/
def Concur (S : Findings → Findings → Prop) (m m' : Resolve α) : Prop :=
  ∀ f f', S f f' → EndedAlike S (m f) (m' f')

theorem concur_pure (a : α) : Concur S (pure a) (pure a) := fun _ _ h => .ok h

theorem concur_throw (halt : Halt) : Concur S (throw halt : Resolve α) (throw halt) :=
  fun _ _ h => .error h

theorem Concur.bind {m m' : Resolve α} {next next' : α → Resolve β} (h : Concur S m m')
    (hnext : ∀ a, Concur S (next a) (next' a)) : Concur S (m >>= next) (m' >>= next') := by
  intro f f' hf
  have hfirst := h f f' hf
  rw [bind_eq, bind_eq]
  generalize m f = r at hfirst
  generalize m' f' = r' at hfirst
  cases hfirst with
  | ok h => exact hnext _ _ _ h
  | error h => exact .error h

theorem Concur.tryCatch {m m' : Resolve α} {handle handle' : Halt → Resolve α}
    (h : Concur S m m') (hhandle : ∀ halt, Concur S (handle halt) (handle' halt)) :
    Concur S (tryCatch m handle) (tryCatch m' handle') := by
  intro f f' hf
  have hfirst := h f f' hf
  rw [tryCatch_eq, tryCatch_eq]
  generalize m f = r at hfirst
  generalize m' f' = r' at hfirst
  cases hfirst with
  | ok h => exact .ok h
  | error h => exact hhandle _ _ _ h

/-- Related findings stay related where two walks over trees alike report an error or record a
distance. -/
structure Respects (T : Token → Token → Prop) (U : UseId → UseId → Prop)
    (S : Findings → Findings → Prop) : Prop where
  atToken : ∀ {f f' t t'} (problem : Problem), S f f' → T t t' →
    S { f with errors := f.errors.push (.atToken t problem) }
      { f' with errors := f'.errors.push (.atToken t' problem) }
  tooDeep : ∀ {f f'} {line line' : Int}, S f f' → T (.endAt line) (.endAt line') →
    S { f with errors := f.errors.push ⟨line, .nowhere, .tooDeep⟩ }
      { f' with errors := f'.errors.push ⟨line', .nowhere, .tooDeep⟩ }
  record : ∀ {f f' l l'} (d : Nat), S f f' → U l l' →
    S { f with distances := f.distances.insert l d }
      { f' with distances := f'.distances.insert l' d }

section Walks

variable (hT : Lookalike T) (hS : Respects T U S)

include hS

theorem concur_reportIf (wrong : Bool) {t t' : Token} (ht : T t t') (problem : Problem) :
    Concur S (reportIf wrong (.atToken t problem)) (reportIf wrong (.atToken t' problem)) := by
  cases wrong with
  | true => exact fun _ _ h => .ok (hS.atToken problem h ht)
  | false => exact concur_pure ()

include hT

theorem concur_record (scopes : Scopes) {t t' : Token} (ht : T t t') {l l' : UseId}
    (hl : U l l') : Concur S (record scopes t l) (record scopes t' l') := by
  intro f f' h
  unfold record
  rw [hT.lexeme ht]
  cases scopes.distance? t'.lexeme with
  | none => exact .ok h
  | some d => exact .ok (hS.record d h hl)

theorem concur_declare (scopes : Scopes) {t t' : Token} (ht : T t t') :
    Concur S (declare scopes t) (declare scopes t') := by
  rw [declare_eq, declare_eq, hT.lexeme ht]
  exact (concur_reportIf hS _ ht _).bind fun _ => concur_pure _

theorem concur_declareReady (scopes : Scopes) {t t' : Token} (ht : T t t') :
    Concur S (declareReady scopes t) (declareReady scopes t') := by
  unfold declareReady
  rw [hT.lexeme ht]
  exact (concur_declare hT hS scopes ht).bind fun _ => concur_pure _

theorem concur_parameters {ps ps' : List Token} (h : List.Forall₂ T ps ps') (scopes : Scopes) :
    Concur S (ps.foldlM declareReady scopes) (ps'.foldlM declareReady scopes) := by
  induction h generalizing scopes with
  | nil => exact concur_pure scopes
  | cons hp _ ih =>
    rw [List.foldlM_cons, List.foldlM_cons]
    exact (concur_declareReady hT hS scopes hp).bind ih

omit hT hS in
theorem concur_forM {walk walk' : Expr UseId → Resolve Unit} {es es' : List (Expr UseId)}
    (h : List.Forall₂ (fun e e' => Concur S (walk e) (walk' e')) es es') :
    Concur S (es.forM walk) (es'.forM walk') := by
  induction h with
  | nil => exact concur_pure ()
  | cons h _ ih => exact h.bind fun _ => ih

theorem concur_expression (scopes : Scopes) {d : Nat} {e e' : Expr UseId}
    (h : LikeExpr T U e e') : Concur S (expression scopes d e) (expression scopes d e') := by
  induction h generalizing d with
  | literal =>
    cases d with
    | zero => exact concur_throw _
    | succ d => exact concur_pure ()
  | grouping _ ih | unary _ _ ih =>
    cases d with
    | zero => exact concur_throw _
    | succ d => exact ih
  | binary _ _ _ ih ih' | logical _ _ _ ih ih' =>
    cases d with
    | zero => exact concur_throw _
    | succ d => exact ih.bind fun _ => ih'
  | «variable» name label =>
    cases d with
    | zero => exact concur_throw _
    | succ d =>
      rw [expression_variable, expression_variable, hT.lexeme name]
      exact (concur_reportIf hS _ name _).bind fun _ => concur_record hT hS scopes name label
  | assign name _ label ih =>
    cases d with
    | zero => exact concur_throw _
    | succ d => exact ih.bind fun _ => concur_record hT hS scopes name label
  | call _ _ count _ ih ih' =>
    cases d with
    | zero => exact concur_throw _
    | succ d =>
      refine ih.bind fun _ => concur_forM (forall₂_of_getElem? count fun i a a' ha ha' => ?_)
      exact ih' i a a' ha ha'
  | alien => cases d <;> exact concur_throw _

/-- Two walks over a statement concur from all scopes and at all depths. -/
def ConcurIn (S : Findings → Findings → Prop) (s s' : Stmt UseId) : Prop :=
  ∀ d b scopes, Concur S (statement d b scopes s) (statement d b scopes s')

omit hT hS in
theorem concur_foldlM {walk walk' : Scopes → Stmt UseId → Resolve Scopes}
    {ss ss' : List (Stmt UseId)}
    (h : List.Forall₂ (fun s s' => ∀ scopes, Concur S (walk scopes s) (walk' scopes s')) ss ss')
    (scopes : Scopes) : Concur S (ss.foldlM walk scopes) (ss'.foldlM walk' scopes) := by
  induction h generalizing scopes with
  | nil => exact concur_pure scopes
  | cons h _ ih =>
    rw [List.foldlM_cons, List.foldlM_cons]
    exact (h scopes).bind ih

omit hT hS in
theorem concur_statements {ss ss' : List (Stmt UseId)} (h : List.Forall₂ (ConcurIn S) ss ss')
    (d : Nat) (b : Bool) (scopes : Scopes) :
    Concur S (statements d b scopes ss) (statements d b scopes ss') := by
  cases d with
  | zero =>
    unfold statements
    exact concur_throw _
  | succ d =>
    unfold statements
    exact (concur_foldlM (h.imp fun _ _ h scopes => h d b scopes) scopes).bind fun _ =>
      concur_pure ()

theorem concur_function {ps ps' : List Token} (hps : List.Forall₂ T ps ps')
    {ss ss' : List (Stmt UseId)} (h : List.Forall₂ (ConcurIn S) ss ss') (d : Nat)
    (scopes : Scopes) :
    Concur S (function d scopes ps ss) (function d scopes ps' ss') := by
  cases d with
  | zero =>
    unfold function
    exact concur_throw _
  | succ d =>
    unfold function
    exact (concur_parameters hT hS hps _).bind fun inner => concur_statements h d true inner

omit hT hS in
theorem concurIn_of_succ {s s' : Stmt UseId}
    (h : ∀ d b scopes, Concur S (statement (d + 1) b scopes s) (statement (d + 1) b scopes s')) :
    ConcurIn S s s' := by
  intro d b scopes
  cases d with
  | zero =>
    unfold statement
    exact concur_throw _
  | succ d => exact h d b scopes

theorem concur_var {t t' : Token} (ht : T t t') {e e' : Option (Expr UseId)}
    (he : ∀ d scopes,
      Concur S (e.forM (expression scopes d)) (e'.forM (expression scopes d))) :
    ConcurIn S (.var t e) (.var t' e') := by
  refine concurIn_of_succ fun d b scopes => ?_
  unfold statement
  refine (concur_declare hT hS scopes ht).bind fun S' => (he d S').bind fun _ => ?_
  rw [hT.lexeme ht]
  exact concur_pure _

omit hT in
theorem concur_giveBack {t t' : Token} (ht : T t t') {e e' : Option (Expr UseId)}
    (he : ∀ d scopes,
      Concur S (e.forM (expression scopes d)) (e'.forM (expression scopes d))) :
    ConcurIn S (.giveBack t e) (.giveBack t' e') := by
  refine concurIn_of_succ fun d b scopes => ?_
  rw [statement_giveBack, statement_giveBack]
  exact (concur_reportIf hS _ ht _).bind fun _ => (he d scopes).bind fun _ => concur_pure scopes

theorem concur_statement {s s' : Stmt UseId} (h : LikeStmt T U s s') : ConcurIn S s s' := by
  have hexpression : ∀ {scopes d e e'}, LikeExpr T U e e' →
      Concur S (expression scopes d e) (expression scopes d e') :=
    fun he => concur_expression hT hS _ he
  induction h with
  | expression value | print value =>
    refine concurIn_of_succ fun d b scopes => ?_
    unfold statement
    exact (hexpression value).bind fun _ => concur_pure scopes
  | plainVar name => exact concur_var hT hS name fun _ _ => concur_pure ()
  | var name value => exact concur_var hT hS name fun _ _ => hexpression value
  | block count _ ih =>
    refine concurIn_of_succ fun d b scopes => ?_
    unfold statement
    exact (concur_statements (forall₂_of_getElem? count ih) d b _).bind fun _ => concur_pure scopes
  | branch condition _ ih =>
    refine concurIn_of_succ fun d b scopes => ?_
    unfold statement
    exact (hexpression condition).bind fun _ => (ih d b scopes).bind fun S' => concur_pure S'
  | branchElse condition _ _ ih ih' =>
    refine concurIn_of_succ fun d b scopes => ?_
    unfold statement
    exact (hexpression condition).bind fun _ => (ih d b scopes).bind fun S' => ih' d b S'
  | loop condition _ ih =>
    refine concurIn_of_succ fun d b scopes => ?_
    unfold statement
    exact (hexpression condition).bind fun _ => ih d b scopes
  | function name parameters count _ ih =>
    refine concurIn_of_succ fun d b scopes => ?_
    unfold statement
    exact (concur_declareReady hT hS scopes name).bind fun S' =>
      (concur_function hT hS parameters (forall₂_of_getElem? count ih) d S').bind fun _ =>
        concur_pure S'
  | plainGiveBack keyword => exact concur_giveBack hS keyword fun _ _ => concur_pure ()
  | giveBack keyword value => exact concur_giveBack hS keyword fun _ _ => hexpression value
  | alien =>
    refine concurIn_of_succ fun d b scopes => ?_
    unfold statement
    exact concur_throw _

theorem concur_topLevel {s s' : Stmt UseId} (h : LikeStmt T U s s') (d : Nat) (scopes : Scopes) :
    Concur S (topLevel d scopes s) (topLevel d scopes s') := by
  refine (concur_statement hT hS h d false scopes).tryCatch fun halt => ?_
  cases halt with
  | tooDeep =>
    have hreport : Concur S (report ⟨s.firstLine, .nowhere, .tooDeep⟩)
        (report ⟨s'.firstLine, .nowhere, .tooDeep⟩) :=
      fun _ _ hf => .ok (hS.tooDeep hf (h.firstLine hT))
    exact hreport.bind fun _ => concur_pure []
  | fault f => exact concur_throw _

theorem concur_program {ss ss' : List (Stmt UseId)} (h : List.Forall₂ (LikeStmt T U) ss ss')
    (d : Nat) : Concur S (program d ss) (program d ss') :=
  (concur_foldlM (h.imp fun _ _ h scopes => concur_topLevel hT hS h d scopes) []).bind fun _ =>
    concur_pure ()

/-- Programs alike are resolved alike. -/
theorem resolve_concur {ss ss' : List (Stmt UseId)} (h : List.Forall₂ (LikeStmt T U) ss ss')
    (d : Nat) {distances distances' : Distances} (hstart : S ⟨distances, #[]⟩ ⟨distances', #[]⟩) :
    S (resolve d distances ss).1 (resolve d distances' ss').1 := by
  have hends := concur_program hT hS h d _ _ hstart
  rw [resolve_found, resolve_found]
  generalize program d ss ⟨distances, #[]⟩ = r at hends
  generalize program d ss' ⟨distances', #[]⟩ = r' at hends
  cases hends with
  | ok h => exact h
  | error h => exact h

end Walks

/-! ## The same distances -/

/-- No label is related to two others. -/
def OneToOne (U : UseId → UseId → Prop) : Prop :=
  ∀ l₁ l₁' l₂ l₂', U l₁ l₁' → U l₂ l₂' → (l₁ = l₂ ↔ l₁' = l₂')

/-- As many errors were found, and the same distances for labels that are related. -/
structure Tells (U : UseId → UseId → Prop) (f f' : Findings) : Prop where
  errors : f.errors.size = f'.errors.size
  distances : ∀ l l', U l l' → f.distances[l]? = f'.distances[l']?

theorem Tells.report {f f' : Findings} (h : Tells U f f') (e e' : StaticError) :
    Tells U { f with errors := f.errors.push e } { f' with errors := f'.errors.push e' } := by
  refine ⟨?_, h.distances⟩
  rw [Array.size_push, Array.size_push, h.errors]

theorem Tells.record {f f' : Findings} (h : Tells U f f') (hone : OneToOne U) {l l' : UseId}
    (hl : U l l') (d : Nat) :
    Tells U { f with distances := f.distances.insert l d }
      { f' with distances := f'.distances.insert l' d } := by
  refine ⟨h.errors, fun k k' hk => ?_⟩
  show (f.distances.insert l d)[k]? = (f'.distances.insert l' d)[k']?
  rw [Std.TreeMap.getElem?_insert, Std.TreeMap.getElem?_insert]
  have hiff := hone _ _ _ _ hl hk
  by_cases heq : l = k
  · rw [if_pos (by simp [heq]), if_pos (by simp [hiff.1 heq])]
  · have heq' : l' ≠ k' := fun h => heq (hiff.2 h)
    rw [if_neg (by simpa using heq), if_neg (by simpa using heq')]
    exact h.distances k k' hk

theorem respects_tells (hone : OneToOne U) : Respects T U (Tells U) where
  atToken _ h _ := h.report _ _
  tooDeep h _ := h.report _ _
  record d h hl := h.record hone hl d

end Resolve

/-- Programs alike get the same distances. -/
theorem resolve_tells {T : Token → Token → Prop} {U : UseId → UseId → Prop} (hT : Lookalike T)
    (hone : Resolve.OneToOne U) {ss ss' : List (Stmt UseId)}
    (h : List.Forall₂ (LikeStmt T U) ss ss') {distances distances' : Distances}
    (hdistances : ∀ l l', U l l' → distances[l]? = distances'[l']?) (d : Nat) :
    Resolve.Tells U (resolve d distances ss).1 (resolve d distances' ss').1 :=
  Resolve.resolve_concur hT (Resolve.respects_tells hone) h d ⟨rfl, hdistances⟩

/-! ## The same errors -/

/-- Errors are the same at the same tokens, whatever the labels. -/
theorem Resolve.respects_errors :
    Respects Eq (fun _ _ => True) fun f f' => f.errors = f'.errors where
  atToken problem h ht := by
    rw [h, ht]
  tooDeep {_ _ line line'} h ht := by
    have hline : line = line' := congrArg Token.line ht
    rw [h, hline]
  record _ h _ := h

/-- A program has the same errors of scope under all labels. -/
theorem resolve_alike (d : Nat) (distances distances' : Distances) (ss : List RawStmt)
    (n n' : Nat) :
    (resolve d distances ((Stmt.labelAll ss).run n).1).1.errors =
      (resolve d distances' ((Stmt.labelAll ss).run n').1).1.errors := by
  have hself : List.Forall₂ (LikeStmt Eq fun _ _ : Unit => True) ss ss :=
    LikeStmt.reflAll (fun _ => rfl) (fun _ => trivial) ss
  obtain ⟨_, labelled, labelled', hlabel, hlabel', hlike⟩ :=
    sideBySide_stmts (hself.imp fun _ _ hs => hs.label) n n'
  rw [hlabel, hlabel']
  exact Resolve.resolve_concur lookalike_eq Resolve.respects_errors
    (hlike (fun _ _ => True) fun _ _ => trivial) d rfl

end Scriptling
