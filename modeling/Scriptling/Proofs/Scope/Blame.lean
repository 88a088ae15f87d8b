-- What the errors of scope are about. A walk over a program reports an error at a token that the
-- program keeps, or, for a statement that nests too deeply, on the line of its first token.
import Scriptling.Proofs.Grammar.Origins
import Scriptling.Proofs.Scope.Visits

namespace Scriptling

namespace Resolve

variable {α β : Type}

/-! ## Walks that report certain errors only -/

/-- Where all errors satisfied `E` before the walk, all errors do after it. -/
def Reports (E : StaticError → Prop) (m : Resolve α) : Prop :=
  ∀ f, (∀ e ∈ f.errors, E e) → ∀ e ∈ (left (m f)).errors, E e

section Laws

variable {E : StaticError → Prop} {m : Resolve α}

theorem reports_pure (a : α) : Reports E (pure a) := fun _ hf => hf

theorem reports_throw (halt : Halt) : Reports E (throw halt : Resolve α) := fun _ hf => hf

theorem Reports.bind {next : α → Resolve β} (h : Reports E m) (hnext : ∀ a, Reports E (next a)) :
    Reports E (m >>= next) := by
  intro f hf
  have hfirst := h f hf
  rw [bind_eq]
  cases hm : m f with
  | ok a f₁ =>
    rw [hm] at hfirst
    exact hnext a f₁ hfirst
  | error halt f₁ =>
    rw [hm] at hfirst
    exact hfirst

theorem Reports.tryCatch {handle : Halt → Resolve α} (h : Reports E m)
    (hhandle : ∀ halt, Reports E (handle halt)) : Reports E (tryCatch m handle) := by
  intro f hf
  have hfirst := h f hf
  rw [tryCatch_eq]
  cases hm : m f with
  | ok a f₁ =>
    rw [hm] at hfirst
    exact hfirst
  | error halt f₁ =>
    rw [hm] at hfirst
    exact hhandle halt f₁ hfirst

theorem reports_report {e : StaticError} (he : E e) : Reports E (report e) := by
  intro f hf e' he'
  have hpush : (left (report e f)).errors = f.errors.push e := rfl
  rw [hpush, Array.mem_push] at he'
  rcases he' with he' | rfl
  · exact hf e' he'
  · exact he

theorem reports_reportIf (wrong : Bool) {e : StaticError} (he : E e) :
    Reports E (reportIf wrong e) := by
  cases wrong with
  | true => exact reports_report he
  | false => exact reports_pure ()

theorem reports_record (S : Scopes) (name : Token) (use : UseId) :
    Reports E (record S name use) := by
  unfold record
  cases S.distance? name.lexeme with
  | none => exact reports_pure ()
  | some d => exact fun _ hf => hf

theorem reports_forM {γ : Type} {walk : γ → Resolve Unit} {cs : List γ}
    (h : ∀ c ∈ cs, Reports E (walk c)) : Reports E (cs.forM walk) := by
  induction cs with
  | nil => exact reports_pure ()
  | cons c cs ih =>
    obtain ⟨hc, hcs⟩ := List.forall_mem_cons.1 h
    exact hc.bind fun _ => ih hcs

theorem reports_foldlM {γ : Type} {walk : Scopes → γ → Resolve Scopes} {cs : List γ}
    (h : ∀ c ∈ cs, ∀ S, Reports E (walk S c)) (S : Scopes) : Reports E (cs.foldlM walk S) := by
  induction cs generalizing S with
  | nil => exact reports_pure S
  | cons c cs ih =>
    obtain ⟨hc, hcs⟩ := List.forall_mem_cons.1 h
    rw [List.foldlM_cons]
    exact (hc S).bind (ih hcs)

end Laws

/-! ## The walk over a program -/

section Walks

variable {E : StaticError → Prop} {T : Token → Prop}

/-- Errors may be about any token that satisfies `T`. -/
def Blames (E : StaticError → Prop) (T : Token → Prop) : Prop :=
  ∀ t, T t → ∀ problem, E (.atToken t problem)

theorem reports_declare (hE : Blames E T) (S : Scopes) {name : Token} (h : T name) :
    Reports E (declare S name) := by
  rw [declare_eq]
  exact (reports_reportIf _ (hE name h _)).bind fun _ => reports_pure _

theorem reports_declareReady (hE : Blames E T) (S : Scopes) {name : Token} (h : T name) :
    Reports E (declareReady S name) :=
  (reports_declare hE S h).bind fun _ => reports_pure _

theorem reports_expression (hE : Blames E T) (S : Scopes) (d : Nat) {e : Expr UseId}
    (h : e.Keeps T) : Reports E (expression S d e) := by
  induction d generalizing e with
  | zero => exact reports_throw _
  | succ d ih =>
    cases e with
    | literal v => exact reports_pure _
    | grouping e => exact ih h
    | unary operator e => exact ih (List.forall_mem_cons.1 h).2
    | binary e operator e' | logical e operator e' =>
      obtain ⟨hleft, hright⟩ := List.forall_mem_append.1 h
      exact (ih hleft).bind fun _ => ih (List.forall_mem_cons.1 hright).2
    | «variable» name use =>
      rw [expression_variable]
      have hname := h name List.mem_cons_self
      exact (reports_reportIf _ (hE name hname _)).bind fun _ => reports_record S name use
    | assign name e use =>
      exact (ih (List.forall_mem_cons.1 h).2).bind fun _ => reports_record S name use
    | call e paren es =>
      obtain ⟨hcallee, hrest⟩ := List.forall_mem_append.1 h
      have hes := Expr.keeps_all.1 (List.forall_mem_cons.1 hrest).2
      exact (ih hcallee).bind fun _ => reports_forM fun e he => ih (hes e he)
    | alien text => exact reports_throw _

theorem reports_option (hE : Blames E T) (S : Scopes) (d : Nat) {o : Option (Expr UseId)}
    (h : ∀ t ∈ Expr.tokensOfOption o, T t) : Reports E (o.forM (expression S d)) := by
  cases o with
  | none => exact reports_pure _
  | some e => exact reports_expression hE S d h

theorem reports_statement (hE : Blames E T) (d : Nat) (b : Bool) (S : Scopes) {s : Stmt UseId}
    (h : s.Keeps T) : Reports E (statement d b S s) := by
  induction d using Nat.strongRecOn generalizing b S s with
  | _ d ih =>
    have hstatements : ∀ d' b S, ∀ ss : List (Stmt UseId), d' < d →
        (∀ t ∈ Stmt.tokensOfAll ss, T t) → Reports E (statements d' b S ss) := by
      intro d' b S ss hd hss
      cases d' with
      | zero => exact reports_throw _
      | succ d' =>
        rw [Stmt.keeps_all] at hss
        have hwalk : ∀ s ∈ ss, ∀ S, Reports E (statement d' b S s) :=
          fun s hs S => ih d' (by omega) b S (hss s hs)
        exact (reports_foldlM hwalk S).bind fun _ => reports_pure ()
    cases d with
    | zero => exact reports_throw _
    | succ d =>
      cases s with
      | expression e | print e =>
        exact (reports_expression hE S d h).bind fun _ => reports_pure S
      | var name e =>
        obtain ⟨hname, he⟩ := List.forall_mem_cons.1 h
        exact (reports_declare hE S hname).bind fun S' =>
          (reports_option hE S' d he).bind fun _ => reports_pure _
      | block ss =>
        exact (hstatements d b _ ss (by omega) h).bind fun _ => reports_pure S
      | branch e yes no =>
        obtain ⟨hboth, hno⟩ := List.forall_mem_append.1 h
        obtain ⟨he, hyes⟩ := List.forall_mem_append.1 hboth
        refine (reports_expression hE S d he).bind fun _ =>
          (ih d (by omega) b S hyes).bind fun S' => ?_
        cases no with
        | none => exact reports_pure S'
        | some s => exact ih d (by omega) b S' hno
      | loop e s =>
        obtain ⟨he, hs⟩ := List.forall_mem_append.1 h
        exact (reports_expression hE S d he).bind fun _ => ih d (by omega) b S hs
      | function name ps ss =>
        obtain ⟨hname, hrest⟩ := List.forall_mem_cons.1 h
        obtain ⟨hps, hss⟩ := List.forall_mem_append.1 hrest
        refine (reports_declareReady hE S hname).bind fun S' =>
          Reports.bind ?_ fun _ => reports_pure S'
        cases d with
        | zero => exact reports_throw _
        | succ d =>
          have hready : ∀ t ∈ ps, ∀ S, Reports E (declareReady S t) :=
            fun t ht S => reports_declareReady hE S (hps t ht)
          exact (reports_foldlM hready _).bind fun S' => hstatements d true S' ss (by omega) hss
      | giveBack keyword e =>
        obtain ⟨hkeyword, he⟩ := List.forall_mem_cons.1 h
        rw [statement_giveBack]
        exact (reports_reportIf _ (hE keyword hkeyword _)).bind fun _ =>
          (reports_option hE S d he).bind fun _ => reports_pure S
      | alien text => exact reports_throw _

theorem reports_topLevel (hE : Blames E T) (d : Nat) (S : Scopes) {s : Stmt UseId}
    (h : s.Keeps T) (hline : E ⟨s.firstLine, .nowhere, .tooDeep⟩) :
    Reports E (topLevel d S s) := by
  refine (reports_statement hE d false S h).tryCatch fun halt => ?_
  cases halt with
  | tooDeep => exact (reports_report hline).bind fun _ => reports_pure []
  | fault f => exact reports_throw _

end Walks

end Resolve

/-- An error of scope is about a token of the program, or about the first line of a statement. -/
theorem resolve_blames {E : StaticError → Prop} {T : Token → Prop} (hE : Resolve.Blames E T)
    (d : Nat) (distances : Distances) {ss : List (Stmt UseId)} (h : ∀ s ∈ ss, s.Keeps T)
    (hlines : ∀ s ∈ ss, E ⟨s.firstLine, .nowhere, .tooDeep⟩) :
    ∀ e ∈ (resolve d distances ss).1.errors, E e := by
  have hprogram : Resolve.Reports E (Resolve.program d ss) :=
    (Resolve.reports_foldlM
      (fun s hs S => Resolve.reports_topLevel hE d S (h s hs) (hlines s hs)) []).bind
      fun _ => Resolve.reports_pure ()
  rw [resolve_found]
  exact hprogram ⟨distances, #[]⟩ (by simp)

end Scriptling
