import RouteSheet.Proofs.Route.Lockstep
import RouteSheet.Query.Script

/-!
# Assignments that commute

Two assignments are independent when they bind different variables, neither looks up what
the other binds, and at most one of them runs queries. Adjacent ones may then change
places: their values are the same in either order, the calls come in the same order, and
the scopes behind them agree on every name.
-/

namespace RouteSheet

/-- Neither assignment has a part in the other. -/
structure Assignment.Independent (a b : Assignment) : Prop where
  name_ne : a.name ≠ b.name
  /-- the first looks up nothing that the second binds, in conditions neither -/
  left : Lookup.var b.name ∉ a.value.lookups
  right : Lookup.var a.name ∉ b.value.lookups
  /-- at most one of them runs queries -/
  queries : a.value.statements = [] ∨ b.value.statements = []

namespace Expr

variable {σ : Type} (db : Option (Executor σ)) (scope : Scope)

/-- A binding of a variable that an expression does not look up has no part in its evaluation. -/
theorem eval_bind {e : Expr} {name : String} (h : Lookup.var name ∉ e.lookups) (value : Value) :
    e.eval db (scope.bind name value) = e.eval db scope := by
  rw [← Lockstep.eq_iff]
  refine eval_lockstep (fun l hl => ?_) fun _ _ _ => .refl _
  have hne : l ≠ .var name := by
    rintro rfl
    exact h hl
  rw [Scope.lookup_bind, if_neg hne]

/-- An expression without queries has one value from all states, and leaves them. -/
theorem eval_of_statements_eq_nil {e : Expr} (h : e.statements = []) (s t : σ) :
    e.eval db scope t = ((e.eval db scope s).1, t) := by
  have hsame : Lockstep Eq (fun x _ => x = t) (e.eval db scope) (e.eval db scope) := by
    refine eval_lockstep (fun _ _ => rfl) fun statement hs => ?_
    rw [h] at hs
    exact absurd hs List.not_mem_nil
  obtain ⟨hvalue, hstate⟩ := hsame t s rfl
  exact Prod.ext hvalue hstate

end Expr

namespace Route

variable {σ : Type}

/-- Independent assignments leave in either order the same state and scopes that agree: the one that
runs no query has the same value from the state behind the other. -/
theorem bindAll_swap {a b : Assignment} (h : a.Independent b) (names : Lookup → Prop)
    (db : Option (Executor σ)) (scope : Scope) :
    Lockstep (Scope.AgreeOn names) Eq (bindAll db [b, a] scope) (bindAll db [a, b] scope) := by
  rintro s _ rfl
  simp only [bindAll_cons, Expr.eval_bind db scope h.left, Expr.eval_bind db scope h.right]
  have hagree := Scope.AgreeOn.bind_comm names scope h.name_ne
  rcases h.queries with ha | hb
  · have hsame := Expr.eval_of_statements_eq_nil db scope ha s
    rw [hsame (b.value.eval db scope s).2, hsame s]
    exact ⟨hagree _ _, rfl⟩
  · have hsame := Expr.eval_of_statements_eq_nil db scope hb s
    rw [hsame (a.value.eval db scope s).2, hsame s]
    exact ⟨hagree _ _, rfl⟩

/-- The route with other assignments. -/
def withAssignments (route : Route) (assignments : List Assignment) : Route :=
  { route with assignments }

/-- Adjacent independent assignments may change places: on every executor the route gives the
same response, leaves the same state and makes the same calls. The calls are those of the watched
executor, which is one more executor. -/
theorem run_swapped {a b : Assignment} (h : a.Independent b) (route : Route)
    (before after : List Assignment) (request : Request) (db : Executor σ) (s : σ) :
    (route.withAssignments (before ++ b :: a :: after)).run (some db) request s =
      (route.withAssignments (before ++ a :: b :: after)).run (some db) request s ∧
    (route.withAssignments (before ++ b :: a :: after)).calls request db s =
      (route.withAssignments (before ++ a :: b :: after)).calls request db s := by
  have hrun : ∀ (τ : Type) (db : Executor τ) (t : τ),
      (route.withAssignments (before ++ b :: a :: after)).run (some db) request t =
        (route.withAssignments (before ++ a :: b :: after)).run (some db) request t := by
    intro τ db t
    have hself : ∀ e : Expr, e.RunsAlike (fun _ => True) Eq (some db) (some db) := fun e =>
      Expr.runsAlike (fun _ _ => trivial) fun _ _ _ => .refl _
    have hsplit : ∀ x y : Assignment, before ++ x :: y :: after = before ++ [x, y] ++ after :=
      fun x y => by rw [List.append_assoc]; rfl
    have hafter : ∀ a ∈ after, a.value.RunsAlike (fun _ => True) Eq (some db) (some db) :=
      fun a _ => hself a.value
    have hroute : ∀ e ∈ route.expressions, e.RunsAlike (fun _ => True) Eq (some db) (some db) :=
      fun e _ => hself e
    rw [run_eq, run_eq]
    simp only [withAssignments, hsplit, bindAll_append]
    obtain ⟨hscope, hstate⟩ := bindAll_swap h (fun _ => True) (some db)
      (bindAll (some db) before (.ofRequest request) t).1 _ _ rfl
    obtain ⟨hscope, hstate⟩ := bindAll_lockstep hafter hscope _ _ hstate
    obtain ⟨hresponse, hstate⟩ := conclude_lockstep hroute hscope _ _ hstate
    exact Prod.ext hresponse hstate
  exact ⟨hrun σ db s, by rw [calls, calls, hrun]⟩

/-- A variable that is read from the database. -/
def userAssignment : Assignment where
  name := "user"
  value := .sql "SELECT name FROM users WHERE id = ?" [.param "id"]
  line := 1

/-- A variable that a condition on another variable decides. -/
def greetingAssignment : Assignment where
  name := "greeting"
  value := .choice [(.truthy "polite", .literal (.string "Good day"))]
    (some (.literal (.string "Hi")))
  line := 2

/-- A route that returns the two variables. -/
def greetingRoute : Route where
  method := "GET"
  path := "/users/:id"
  assignments := []
  status := some (.choice [(.truthy "user", .literal (.string "200"))] none)
  returns := ⟨.html, .concat [.var "greeting", .var "user"]⟩
  line := 1

/-- The user may be read before or behind the choice of a greeting. -/
theorem run_swapped_greeting :
    userAssignment.Independent greetingAssignment ∧
    (greetingRoute.withAssignments ([] ++ greetingAssignment :: userAssignment :: [])).run
        (some scriptExecutor) ⟨[("id", "7")], [], [], []⟩ [] =
      (greetingRoute.withAssignments ([] ++ userAssignment :: greetingAssignment :: [])).run
        (some scriptExecutor) ⟨[("id", "7")], [], [], []⟩ [] ∧
    (greetingRoute.withAssignments ([] ++ greetingAssignment :: userAssignment :: [])).calls
        ⟨[("id", "7")], [], [], []⟩ scriptExecutor [] =
      (greetingRoute.withAssignments ([] ++ userAssignment :: greetingAssignment :: [])).calls
        ⟨[("id", "7")], [], [], []⟩ scriptExecutor [] := by
  have h : userAssignment.Independent greetingAssignment :=
    ⟨by decide, by decide, by decide, Or.inr rfl⟩
  exact ⟨h, run_swapped h greetingRoute [] [] _ scriptExecutor []⟩

end Route

end RouteSheet
