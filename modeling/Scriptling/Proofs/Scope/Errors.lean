-- The walk over a program that was read always comes to its end, and carries nothing over to a
-- program that follows.
import Scriptling.Proofs.Grammar.Regular
import Scriptling.Proofs.Scope.Labels
import Scriptling.Proofs.Scope.Visits

namespace Scriptling

/-! ## Walks that come to their end -/

namespace Resolve

open Grammar

variable {α β γ : Type}

/-- The walk ends early only where it goes too deep. -/
def Steady (m : Resolve α) : Prop := ∀ f halt f', m f = .error halt f' → halt = .tooDeep

theorem steady_pure (a : α) : Steady (pure a) := by
  intro f halt f' h
  cases h

theorem steady_tooDeep : Steady (throw .tooDeep : Resolve α) := by
  intro f halt f' h
  cases h
  rfl

theorem Steady.bind {m : Resolve α} {next : α → Resolve β} (h : Steady m)
    (hnext : ∀ a, Steady (next a)) : Steady (m >>= next) := by
  intro f halt f' hrun
  have hbind : (m >>= next) f = EStateM.bind m next f := rfl
  rw [hbind, EStateM.bind] at hrun
  cases hm : m f with
  | ok a f₁ =>
    rw [hm] at hrun
    exact hnext a f₁ halt f' hrun
  | error halt' f₁ =>
    rw [hm] at hrun
    cases hrun
    exact h f halt f' hm

theorem steady_reportIf (wrong : Bool) (e : StaticError) : Steady (reportIf wrong e) := by
  intro f halt f' h
  cases wrong <;> cases h

theorem steady_record (S : Scopes) (name : Token) (use : UseId) : Steady (record S name use) := by
  intro f halt f' h
  unfold record at h
  cases hd : S.distance? name.lexeme with
  | none =>
    rw [hd] at h
    cases h
  | some d =>
    rw [hd] at h
    cases h

theorem steady_declare (S : Scopes) (name : Token) : Steady (declare S name) := by
  rw [declare_eq]
  exact (steady_reportIf _ _).bind fun _ => steady_pure _

theorem steady_declareReady (S : Scopes) (name : Token) : Steady (declareReady S name) :=
  (steady_declare S name).bind fun _ => steady_pure _

theorem steady_foldlM {walk : Scopes → γ → Resolve Scopes} {cs : List γ}
    (h : ∀ c ∈ cs, ∀ S, Steady (walk S c)) (S : Scopes) : Steady (cs.foldlM walk S) := by
  induction cs generalizing S with
  | nil => exact steady_pure S
  | cons c cs ih =>
    rw [List.foldlM_cons]
    exact (h c List.mem_cons_self S).bind
      (ih fun c' hc' => h c' (List.mem_cons_of_mem _ hc'))

theorem steady_expression (S : Scopes) (d : Nat) {e : Expr UseId} (he : RegularExpr e.erase) :
    Steady (expression S d e) := by
  induction d generalizing e with
  | zero => exact steady_tooDeep
  | succ d ih =>
    cases e with
    | literal v => exact steady_pure ()
    | grouping e =>
      cases he with
      | grouping h => exact ih h
    | unary operator e =>
      cases he with
      | unary _ h => exact ih h
    | binary e operator e' =>
      cases he with
      | binary _ left right => exact (ih left).bind fun _ => ih right
    | logical e operator e' =>
      cases he with
      | logical left right => exact (ih left).bind fun _ => ih right
    | «variable» name use =>
      rw [expression_variable]
      exact (steady_reportIf _ _).bind fun _ => steady_record S name use
    | assign name e use =>
      cases he with
      | assign h => exact (ih h).bind fun _ => steady_record S name use
    | call e paren es =>
      cases he with
      | call callee arguments =>
        rw [Expr.eraseAll_eq_map] at arguments
        have harguments : ∀ es' : List (Expr UseId), (∀ e ∈ es', RegularExpr e.erase) →
            Steady (es'.forM (expression S d)) := by
          intro es' hes
          induction es' with
          | nil => exact steady_pure ()
          | cons e' es' ih' =>
            exact (ih (hes e' List.mem_cons_self)).bind
              fun _ => ih' fun e'' he'' => hes e'' (List.mem_cons_of_mem _ he'')
        refine (ih callee).bind fun _ => harguments es fun e' he' => ?_
        exact arguments _ (List.mem_map_of_mem he')
    | alien text => cases he

theorem steady_option (S : Scopes) (d : Nat) {e : Option (Expr UseId)}
    (he : ∀ e' ∈ e.map Expr.erase, RegularExpr e') : Steady (e.forM (expression S d)) := by
  cases e with
  | none => exact steady_pure ()
  | some e => exact steady_expression S d (he _ rfl)

theorem steady_statement (d : Nat) (b : Bool) (S : Scopes) {s : Stmt UseId}
    (hs : RegularStmt s.erase) : Steady (statement d b S s) := by
  induction d using Nat.strongRecOn generalizing b S s with
  | _ d ih =>
    have hstatements : ∀ d' b S ss, d' < d → (∀ s ∈ Stmt.eraseAll ss, RegularStmt s) →
        Steady (statements d' b S ss) := by
      intro d' b S ss hd hss
      rw [Stmt.eraseAll_eq_map] at hss
      cases d' with
      | zero => exact steady_tooDeep
      | succ d' =>
        refine (steady_foldlM (fun s hs S => ?_) S).bind fun _ => steady_pure ()
        exact ih d' (by omega) b S (hss _ (List.mem_map_of_mem hs))
    cases d with
    | zero => exact steady_tooDeep
    | succ d =>
      cases s with
      | expression e =>
        cases hs with
        | expression h => exact (steady_expression S d h).bind fun _ => steady_pure S
      | print e =>
        cases hs with
        | print h => exact (steady_expression S d h).bind fun _ => steady_pure S
      | var name e =>
        cases hs with
        | var h =>
          exact (steady_declare S name).bind fun S' => (steady_option S' d h).bind
            fun _ => steady_pure _
      | block ss =>
        cases hs with
        | block h => exact (hstatements d b _ ss (by omega) h).bind fun _ => steady_pure S
      | branch e s o =>
        cases hs with
        | branch condition yes _ no _ =>
          refine (steady_expression S d condition).bind fun _ =>
            (ih d (by omega) b S yes).bind fun S' => ?_
          cases o with
          | none => exact steady_pure S'
          | some s' => exact ih d (by omega) b S' (no _ rfl)
      | loop e s =>
        cases hs with
        | loop condition body =>
          exact (steady_expression S d condition).bind fun _ => ih d (by omega) b S body
      | function name ps ss =>
        cases hs with
        | function h =>
          refine (steady_declareReady S name).bind fun S' => Steady.bind ?_ fun _ => steady_pure S'
          cases d with
          | zero => exact steady_tooDeep
          | succ d =>
            refine (steady_foldlM (fun p _ S => steady_declareReady S p) _).bind fun S'' => ?_
            exact hstatements d true S'' ss (by omega) h
      | giveBack keyword e =>
        cases hs with
        | giveBack h =>
          rw [statement_giveBack]
          exact (steady_reportIf _ _).bind fun _ => (steady_option S d h).bind
            fun _ => steady_pure S
      | alien text => cases hs

/-- What goes too deep is caught at the top level. -/
theorem topLevel_ends (d : Nat) (S : Scopes) {s : Stmt UseId} (hs : RegularStmt s.erase)
    (f : Findings) : ∃ S' f', topLevel d S s f = .ok S' f' := by
  rw [topLevel, tryCatch_eq]
  cases hrun : statement d false S s f with
  | ok S' f' => exact ⟨S', f', rfl⟩
  | error halt f' =>
    obtain rfl := steady_statement d false S hs f halt f' hrun
    exact ⟨_, _, rfl⟩

/-- The walk over a regular program comes to its end. -/
theorem program_ends (d : Nat) {ss : List (Stmt UseId)} (hss : ∀ s ∈ ss, RegularStmt s.erase)
    (f : Findings) : ∃ f', program d ss f = .ok () f' := by
  have hfold : ∀ S, ∃ S' f', ss.foldlM (topLevel d) S f = .ok S' f' := by
    intro S
    induction ss generalizing S f with
    | nil => exact ⟨S, f, rfl⟩
    | cons s ss ih =>
      rw [List.foldlM_cons]
      obtain ⟨S₁, f₁, hfirst⟩ := topLevel_ends d S (hss s List.mem_cons_self) f
      obtain ⟨S₂, f₂, hrest⟩ := ih (fun s' hs' => hss s' (List.mem_cons_of_mem _ hs')) f₁ S₁
      exact ⟨S₂, f₂, ok_bind.2 ⟨S₁, f₁, hfirst, hrest⟩⟩
  obtain ⟨S', f', hrun⟩ := hfold []
  exact ⟨f', ok_bind.2 ⟨S', f', hrun, rfl⟩⟩

/-! ## Programs in turn -/

/-- If the walk comes to its end, it gives `a`. -/
def Returns (m : Resolve α) (a : α) : Prop := ∀ f b f', m f = .ok b f' → b = a

theorem returns_pure (a : α) : Returns (pure a) a := by
  intro f b f' h
  cases h
  rfl

theorem returns_throw (halt : Halt) (a : α) : Returns (throw halt) a := by
  intro f b f' h
  cases h

theorem returns_bind {m : Resolve α} {next : α → Resolve β} {b : β}
    (hnext : ∀ a, Returns (next a) b) : Returns (m >>= next) b := by
  intro f c f' h
  obtain ⟨a, f₁, -, hrun⟩ := ok_bind.1 h
  exact hnext a f₁ c f' hrun

theorem Returns.bind {m : Resolve α} {next : α → Resolve β} {a : α} {b : β} (h : Returns m a)
    (hnext : Returns (next a) b) : Returns (m >>= next) b := by
  intro f c f' hbind
  obtain ⟨a', f₁, hfirst, hrun⟩ := ok_bind.1 hbind
  obtain rfl := h f a' f₁ hfirst
  exact hnext f₁ c f' hrun

theorem returns_declare_outside (name : Token) : Returns (declare [] name) [] := by
  rw [declare_eq]
  exact returns_bind fun _ => returns_pure []

theorem returns_declareReady_outside (name : Token) : Returns (declareReady [] name) [] :=
  (returns_declare_outside name).bind (returns_pure [])

/-- Outside all scopes, nothing is declared for the statements that follow. -/
theorem returns_statement_outside (d : Nat) (b : Bool) (s : Stmt UseId) :
    Returns (statement d b [] s) [] := by
  induction d generalizing s with
  | zero => exact returns_throw .tooDeep []
  | succ d ih =>
    cases s with
    | expression e | print e | block body =>
      unfold statement
      exact returns_bind fun _ => returns_pure []
    | var name e =>
      unfold statement
      exact (returns_declare_outside name).bind (returns_bind fun _ => returns_pure [])
    | branch condition yes no =>
      unfold statement
      refine returns_bind fun _ => (ih yes).bind ?_
      cases no with
      | some no => exact ih no
      | none => exact returns_pure []
    | loop condition body =>
      unfold statement
      exact returns_bind fun _ => ih body
    | function name ps body =>
      unfold statement
      exact (returns_declareReady_outside name).bind (returns_bind fun _ => returns_pure [])
    | giveBack keyword e =>
      rw [statement_giveBack]
      exact returns_bind fun _ => returns_bind fun _ => returns_pure []
    | alien text =>
      unfold statement
      exact returns_throw _ []

theorem returns_topLevel_outside (d : Nat) (s : Stmt UseId) : Returns (topLevel d [] s) [] := by
  intro f S' f' h
  rw [topLevel, tryCatch_eq] at h
  cases hwalk : statement d false [] s f with
  | ok S₁ f₁ =>
    rw [hwalk] at h
    cases h
    exact returns_statement_outside d false s f S' f' hwalk
  | error halt f₁ =>
    rw [hwalk] at h
    cases halt with
    | tooDeep =>
      cases h
      rfl
    | fault => cases h

theorem returns_topLevels (d : Nat) (ss : List (Stmt UseId)) :
    Returns (ss.foldlM (topLevel d) []) [] := by
  induction ss with
  | nil => exact returns_pure []
  | cons s ss ih =>
    rw [List.foldlM_cons]
    exact (returns_topLevel_outside d s).bind ih

/-- After a program that was walked over to its end, another one is walked over from the outside. -/
theorem program_append {d : Nat} {ss : List (Stmt UseId)} {f f' : Findings}
    (h : program d ss f = .ok () f') (ss' : List (Stmt UseId)) :
    program d (ss ++ ss') f = program d ss' f' := by
  obtain ⟨S, f₁, hfirst, hpure⟩ := ok_bind.1 h
  cases hpure
  obtain rfl := returns_topLevels d ss f S f' hfirst
  have hfold : (ss ++ ss').foldlM (topLevel d) [] f = ss'.foldlM (topLevel d) [] f' := by
    rw [List.foldlM_append]
    exact bind_of_ok hfirst
  unfold program
  rw [bind_eq, bind_eq, hfold]

end Resolve

/-- After a program in order, another one is resolved as it is alone. -/
theorem resolve_append {d : Nat} {distances : Distances} {ss : List (Stmt UseId)}
    (hregular : ∀ s ∈ ss, Grammar.RegularStmt s.erase)
    (hclean : (resolve d distances ss).1.errors = #[]) (ss' : List (Stmt UseId)) :
    resolve d distances (ss ++ ss') = resolve d (resolve d distances ss).1.distances ss' := by
  obtain ⟨⟨distances₁, errors₁⟩, hprogram⟩ := Resolve.program_ends d hregular ⟨distances, #[]⟩
  rw [resolve_found, hprogram] at hclean ⊢
  obtain rfl : errors₁ = #[] := hclean
  unfold resolve
  rw [Resolve.program_append hprogram]
  rfl

end Scriptling
