import Mathlib.Data.List.Forall2
import RouteSheet.Proofs.Expr.Lookup
import RouteSheet.Query.Dispatch

/-!
# Watched executors and evaluations in lockstep

A query is exactly one call of its executor, in the mode that its statement and the
number of its arguments decide, with its statement and its arguments as they are. The
watched executor notes this call and otherwise answers alike.

Two evaluations run in lockstep when they give the same value and keep their states
related. An expression runs in lockstep with itself in two scopes that agree on what
it looks up, on two databases that answer its own statements in lockstep; what it does
not name has no part in its evaluation.
-/

namespace RouteSheet

/-- The mode in which a statement is run. -/
def QueryMode.ofStatement (statement : String) (params : List Value) : QueryMode :=
  match StatementKind.ofStatement statement with
  | .select => if asksOneRow statement params then .first else .all
  | _ => .run

namespace Executor

variable {σ : Type} (db : Executor σ)

/-- A watched query notes one call. -/
theorem query_watched (statement : String) (params : List Value) (s : σ)
    (calls : List QueryCall) :
    db.watched.query statement params (s, calls) =
      ((db.query statement params s).1, (db.query statement params s).2,
        calls ++ [⟨.ofStatement statement params, statement, params⟩]) := by
  unfold query QueryMode.ofStatement
  cases StatementKind.ofStatement statement with
  | select =>
    cases asksOneRow statement params with
    | true => rfl
    | false => rfl
  | _ => rfl

end Executor

/-- Two actions give related results and leave related states, from any related states. -/
def Lockstep {σ τ α β : Type} (V : α → β → Prop) (R : σ → τ → Prop) (f : σ → α × σ)
    (g : τ → β × τ) : Prop :=
  ∀ s t, R s t → V (f s).1 (g t).1 ∧ R (f s).2 (g t).2

namespace Lockstep

variable {σ τ α β : Type} {R : σ → τ → Prop} {V : α → β → Prop}

/-- Results that are related from the start leave the states alone. -/
theorem constant {a : α} {b : β} (h : V a b) :
    Lockstep V R (fun s => (a, s)) (fun t => (b, t)) :=
  fun _ _ hst => ⟨h, hst⟩

/-- Actions that are in lockstep on equal states are equal. -/
theorem eq_iff {f g : σ → α × σ} : Lockstep Eq Eq f g ↔ f = g := by
  constructor
  · intro h
    funext s
    obtain ⟨hv, hr⟩ := h s s rfl
    exact Prod.ext hv hr
  · rintro rfl s t rfl
    exact ⟨rfl, rfl⟩

/-- Every evaluation runs in lockstep with itself. -/
theorem refl (f : σ → α × σ) : Lockstep Eq Eq f f := eq_iff.mpr rfl

end Lockstep

namespace Expr

section

variable {σ τ : Type} {R : σ → τ → Prop} {db : Option (Executor σ)} {db' : Option (Executor τ)}
  {scope scope' : Scope}

/-- Lists of expressions that run in lockstep one by one do so as a whole. -/
theorem evalAll_lockstep {es es' : List Expr}
    (h : List.Forall₂ (fun e e' => Lockstep Eq R (eval db scope e) (eval db' scope' e')) es es') :
    Lockstep Eq R (evalAll db scope es) (evalAll db' scope' es') := by
  induction h with
  | nil => exact .constant rfl
  | cons he _ ih =>
    intro s t hst
    obtain ⟨hvalue, hst⟩ := he s t hst
    obtain ⟨hvalues, hst⟩ := ih _ _ hst
    exact ⟨congrArg₂ List.cons hvalue hvalues, hst⟩

/-- Of two choices that are alike branch by branch, the chosen values are alike. -/
theorem chosen?_rel {P : Expr → Expr → Prop} {f g : String → Value}
    {branches branches' : List (Condition × Expr)} {otherwise otherwise' : Option Expr}
    (hb : List.Forall₂ (fun b b' => b.1.holds f = b'.1.holds g ∧ P b.2 b'.2) branches branches')
    (ho : Option.Rel P otherwise otherwise') :
    Option.Rel P (chosen? f branches otherwise) (chosen? g branches' otherwise') := by
  induction hb with
  | nil =>
    cases ho with
    | none => exact .none
    | some h => exact .some h
  | cons h _ ih =>
    unfold chosen? at ih ⊢
    rw [List.find?_cons, List.find?_cons, ← h.1]
    split
    · exact .some h.2
    · exact ih

/-- Choices whose conditions agree and whose values run in lockstep do so themselves. -/
theorem choice_lockstep {branches branches' : List (Condition × Expr)}
    {otherwise otherwise' : Option Expr}
    (hb : List.Forall₂ (fun b b' => b.1.holds scope.var = b'.1.holds scope'.var ∧
      Lockstep Eq R (eval db scope b.2) (eval db' scope' b'.2)) branches branches')
    (ho : Option.Rel (fun e e' => Lockstep Eq R (eval db scope e) (eval db' scope' e'))
      otherwise otherwise') :
    Lockstep Eq R (eval db scope (.choice branches otherwise))
      (eval db' scope' (.choice branches' otherwise')) := by
  have hrel := chosen?_rel hb ho
  rw [eval_choice, eval_choice]
  generalize chosen? scope.var branches otherwise = value at hrel ⊢
  generalize chosen? scope'.var branches' otherwise' = value' at hrel ⊢
  cases hrel with
  | none => exact .constant rfl
  | some h => exact h

/-- Concatenations whose members run in lockstep do so themselves. -/
theorem concat_lockstep {es es' : List Expr}
    (h : List.Forall₂ (fun e e' => Lockstep Eq R (eval db scope e) (eval db' scope' e')) es es') :
    Lockstep Eq R (eval db scope (.concat es)) (eval db' scope' (.concat es')) := by
  intro s t hst
  obtain ⟨hvalues, hst⟩ := evalAll_lockstep h s t hst
  rw [eval_concat, eval_concat, ← hvalues]
  exact ⟨rfl, hst⟩

/-- Queries of a statement whose arguments run in lockstep do so themselves, if the databases
answer the statement in lockstep. -/
theorem sql_lockstep {statement : String} {args args' : List Expr}
    (hq : ∀ params, Lockstep Eq R (queryValue db statement params)
      (queryValue db' statement params))
    (h : List.Forall₂ (fun e e' => Lockstep Eq R (eval db scope e) (eval db' scope' e'))
      args args') :
    Lockstep Eq R (eval db scope (.sql statement args))
      (eval db' scope' (.sql statement args')) := by
  intro s t hst
  obtain ⟨hparams, hst⟩ := evalAll_lockstep h s t hst
  rw [eval_sql, eval_sql, ← hparams]
  exact hq _ _ _ hst

/-- An expression runs in lockstep with itself where the scopes agree on what it looks up and the
databases answer its statements in lockstep. -/
theorem eval_lockstep {e : Expr} (hl : ∀ l ∈ e.lookups, scope.lookup l = scope'.lookup l)
    (hq : ∀ statement ∈ e.statements, ∀ params,
      Lockstep Eq R (queryValue db statement params) (queryValue db' statement params)) :
    Lockstep Eq R (eval db scope e) (eval db' scope' e) := by
  induction e using induction_on_parts with
  | step e ih =>
    have hparts : ∀ p ∈ e.parts, Lockstep Eq R (eval db scope p) (eval db' scope' p) :=
      fun p hp => ih p hp (fun l h => hl l (lookups_subset_of_mem_parts hp h))
        fun statement h => hq statement (statements_subset_of_mem_parts hp h)
    cases e with
    | literal value | json value | html markup => exact .constant rfl
    | var name | param name | query name | body name | header name =>
      exact .constant (hl _ (List.mem_singleton_self _))
    | sql statement args =>
      exact sql_lockstep (hq statement List.mem_cons_self) (List.forall₂_same.mpr hparts)
    | choice branches otherwise =>
      refine choice_lockstep (List.forall₂_same.mpr fun branch hb => ⟨?_, ?_⟩) ?_
      · refine Condition.holds_congr fun name hname => hl (.var name) ?_
        refine List.mem_append_left _ (lookups_subset_of_mem_branches hb ?_)
        exact List.mem_append_left _ (List.mem_map_of_mem hname)
      · exact hparts _ (mem_parts_of_branch hb otherwise)
      · cases otherwise with
        | none => exact .none
        | some value => exact .some (hparts _ (mem_parts_of_otherwise branches value))
    | concat parts => exact concat_lockstep (List.forall₂_same.mpr hparts)

end

end Expr

end RouteSheet
