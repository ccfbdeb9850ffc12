import RouteSheet.Proofs.Route.Lockstep

/-!
# Running without a database

Where there is no database every query has the value of one failure. A route therefore
answers as the route does that has this value written in place of each query, and that
route leaves any database alone.
-/

namespace RouteSheet

namespace Expr

mutual

/-- The expression with the failure of a missing database written in place of every query. -/
def withoutQueries : Expr → Expr
  | .sql _ _ => .json (.object [("error", .string "Database not configured")])
  | .choice branches otherwise =>
    .choice (branchesWithoutQueries branches) (otherwiseWithoutQueries otherwise)
  | .concat parts => .concat (allWithoutQueries parts)
  | e => e

/-- The expressions, each without its queries. -/
def allWithoutQueries : List Expr → List Expr
  | [] => []
  | e :: rest => withoutQueries e :: allWithoutQueries rest

/-- The branches with values without queries. -/
def branchesWithoutQueries : List (Condition × Expr) → List (Condition × Expr)
  | [] => []
  | (condition, value) :: rest => (condition, withoutQueries value) :: branchesWithoutQueries rest

/-- The last value of a choice without its queries. -/
def otherwiseWithoutQueries : Option Expr → Option Expr
  | none => none
  | some value => some (withoutQueries value)

end

/-- Queries are taken out of each of several expressions. -/
theorem allWithoutQueries_eq (es : List Expr) :
    allWithoutQueries es = es.map withoutQueries := by
  induction es with
  | nil => rfl
  | cons e es ih => rw [allWithoutQueries, ih, List.map_cons]

/-- Queries are taken out of the value of each branch. -/
theorem branchesWithoutQueries_eq (branches : List (Condition × Expr)) :
    branchesWithoutQueries branches = branches.map (Prod.map id withoutQueries) := by
  induction branches with
  | nil => rfl
  | cons branch branches ih =>
    rw [branchesWithoutQueries, ih, List.map_cons]
    rfl

variable {σ : Type} (scope : Scope)

/-- Evaluation without a database leaves the state alone. -/
theorem eval_none_state (e : Expr) (s : σ) : (e.eval none scope s).2 = s := by
  have hstay : Lockstep Eq (fun x _ : σ => x = s) (e.eval none scope) (e.eval none scope) :=
    eval_lockstep (fun _ _ => rfl) fun _ _ _ _ _ h => ⟨rfl, h⟩
  exact (hstay s s rfl).2

/-- An expression without its queries has on any database the value that the expression has
without one. -/
theorem eval_withoutQueries (db : Executor σ) (e : Expr) :
    e.withoutQueries.eval (some db) scope = e.eval none scope := by
  rw [← Lockstep.eq_iff]
  induction e using induction_on_parts with
  | step e ih =>
    cases e with
    | sql statement args =>
      rintro s _ rfl
      exact ⟨rfl, (eval_none_state scope (.sql statement args) s).symm⟩
    | choice branches otherwise =>
      refine choice_lockstep ?_ ?_
      · rw [branchesWithoutQueries_eq, List.forall₂_map_left_iff, List.forall₂_same]
        exact fun branch hb => ⟨rfl, ih _ (mem_parts_of_branch hb otherwise)⟩
      · cases otherwise with
        | none => exact .none
        | some value => exact .some (ih _ (mem_parts_of_otherwise branches value))
    | concat parts =>
      refine concat_lockstep ?_
      rw [allWithoutQueries_eq, List.forall₂_map_left_iff, List.forall₂_same]
      exact ih
    | _ => exact .refl _

end Expr

/-- The assignment of a value without queries. -/
def Assignment.withoutQueries (a : Assignment) : Assignment :=
  { a with value := a.value.withoutQueries }

/-- The status without queries. -/
def StatusSpec.withoutQueries : StatusSpec → StatusSpec
  | .choice branches otherwise =>
    .choice (Expr.branchesWithoutQueries branches) (Expr.otherwiseWithoutQueries otherwise)
  | status => status

namespace Route

/-- The route with the failure of a missing database written in place of every query. -/
def withoutQueries (route : Route) : Route :=
  { route with
    assignments := route.assignments.map Assignment.withoutQueries
    status := route.status.map StatusSpec.withoutQueries
    returns := { route.returns with body := route.returns.body.withoutQueries } }

variable {σ : Type} (db : Executor σ)

/-- Assignments without queries bind on a database what they bind without one. -/
theorem bindAll_withoutQueries (as : List Assignment) (scope : Scope) (s : σ) :
    bindAll (some db) (as.map Assignment.withoutQueries) scope s = bindAll none as scope s := by
  induction as generalizing scope s with
  | nil => rfl
  | cons a as ih =>
    have hvalue : a.withoutQueries.value.eval (some db) scope = a.value.eval none scope :=
      Expr.eval_withoutQueries scope db a.value
    rw [List.map_cons, bindAll_cons, bindAll_cons, hvalue, ih]
    rfl

/-- A status without queries is on a database what it is without one. -/
theorem evalStatus_withoutQueries (scope : Scope) (status : Option StatusSpec) (s : σ) :
    evalStatus (some db) scope (status.map StatusSpec.withoutQueries) s =
      evalStatus none scope status s := by
  cases status with
  | none => rfl
  | some spec =>
    cases spec with
    | choice branches otherwise =>
      have hvalue := Expr.eval_withoutQueries scope db (.choice branches otherwise)
      rw [Expr.withoutQueries] at hvalue
      simp only [Option.map_some, StatusSpec.withoutQueries, evalStatus, hvalue]
    | _ => rfl

/-- A conclusion without queries is on a database what it is without one. -/
theorem conclude_withoutQueries (route : Route) (scope : Scope) (s : σ) :
    route.withoutQueries.conclude (some db) scope s = route.conclude none scope s := by
  simp only [conclude, withoutQueries, evalStatus_withoutQueries, Expr.eval_withoutQueries]

/-- A route without its queries gives on any database the response that the route gives without
a database; it leaves the database as it is and makes no call to it. The calls are those of the
watched executor, which is one more database. -/
theorem run_withoutQueries (route : Route) (request : Request) (s : σ) :
    route.withoutQueries.run (some db) request s =
      ((route.run (none : Option (Executor Unit)) request ()).1, s) ∧
    route.withoutQueries.calls request db s = [] := by
  have hrun : ∀ (τ : Type) (db : Executor τ) (t : τ),
      route.withoutQueries.run (some db) request t =
        ((route.run (none : Option (Executor Unit)) request ()).1, t) := by
    intro τ db t
    have hnone : ∀ e ∈ route.expressions,
        e.RunsAlike (fun _ => True) (fun (x : τ) (_ : Unit) => x = t) none none := fun e _ =>
      Expr.runsAlike (fun _ _ => trivial) fun _ _ _ _ _ h => ⟨rfl, h⟩
    obtain ⟨hresponse, hstate⟩ := run_lockstep hnone (.refl _ (.ofRequest request)) t () rfl
    rw [run_eq, withoutQueries, bindAll_withoutQueries, ← withoutQueries, conclude_withoutQueries,
      ← run_eq]
    exact Prod.ext hresponse hstate
  refine ⟨hrun σ db s, ?_⟩
  rw [calls, hrun]

end Route

end RouteSheet
