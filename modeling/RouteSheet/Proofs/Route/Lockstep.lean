import RouteSheet.Proofs.Expr.Lockstep
import RouteSheet.Route.Run

/-!
# Routes in lockstep

A route runs its expressions in order, so it runs in lockstep with itself wherever each
of its expressions does, for requests whose fields agree where it looks. What each query
of a route preserves, every run of the route preserves. Watching an executor changes
neither its answers nor its state, and adds the calls of a run to those before.
-/

namespace RouteSheet

section

variable {σ τ : Type}

/-- The expression runs in lockstep with itself in scopes that agree on the names of a set. -/
def Expr.RunsAlike (names : Lookup → Prop) (R : σ → τ → Prop) (db : Option (Executor σ))
    (db' : Option (Executor τ)) (e : Expr) : Prop :=
  ∀ scope scope', Scope.AgreeOn names scope scope' →
    Lockstep Eq R (e.eval db scope) (e.eval db' scope')

/-- An expression runs alike where all its names are in the set. -/
theorem Expr.runsAlike {names : Lookup → Prop} {R : σ → τ → Prop} {db : Option (Executor σ)}
    {db' : Option (Executor τ)} {e : Expr} (hl : ∀ l ∈ e.lookups, names l)
    (hq : ∀ statement ∈ e.statements, ∀ params,
      Lockstep Eq R (queryValue db statement params) (queryValue db' statement params)) :
    e.RunsAlike names R db db' := by
  intro scope scope' hscope
  exact eval_lockstep (fun l h => hscope l (hl l h)) hq

end

/-- The expressions that a status is computed by. -/
def StatusSpec.expressions : StatusSpec → List Expr
  | .code _ => []
  | .var name => [.var name]
  | .choice branches otherwise => [.choice branches otherwise]

namespace Route

/-- The expressions of a route: of its variables, its status and its body. -/
def expressions (route : Route) : List Expr :=
  route.assignments.map (·.value) ++ route.status.toList.flatMap StatusSpec.expressions ++
    [route.returns.body]

section

variable {σ : Type} (db : Option (Executor σ))

/-- The response of a route in the scope behind its assignments. -/
def conclude (route : Route) (scope : Scope) (s : σ) : Response × σ :=
  let (status, s) := evalStatus db scope route.status s
  let (value, s) := route.returns.body.eval db scope s
  (⟨status, route.returns.kind, route.returns.kind.render value⟩, s)

/-- A run binds the assignments and then concludes. -/
theorem run_eq (route : Route) (request : Request) (s : σ) :
    route.run db request s =
      route.conclude db (bindAll db route.assignments (.ofRequest request) s).1
        (bindAll db route.assignments (.ofRequest request) s).2 := rfl

/-- The first assignment is bound before the others are evaluated. -/
theorem bindAll_cons (a : Assignment) (rest : List Assignment) (scope : Scope) (s : σ) :
    bindAll db (a :: rest) scope s =
      bindAll db rest (scope.bind a.name (a.value.eval db scope s).1)
        (a.value.eval db scope s).2 := rfl

/-- Assignments are bound one list behind the other. -/
theorem bindAll_append (as bs : List Assignment) (scope : Scope) (s : σ) :
    bindAll db (as ++ bs) scope s =
      bindAll db bs (bindAll db as scope s).1 (bindAll db as scope s).2 := by
  induction as generalizing scope s with
  | nil => rfl
  | cons a as ih => rw [List.cons_append, bindAll_cons, ih, bindAll_cons]

end

section

variable {σ τ : Type} {R : σ → τ → Prop} {names : Lookup → Prop} {db : Option (Executor σ)}
  {db' : Option (Executor τ)} {scope scope' : Scope}

/-- Assignments whose values run alike leave scopes that agree. -/
theorem bindAll_lockstep {as : List Assignment} (h : ∀ a ∈ as, a.value.RunsAlike names R db db')
    (hscope : scope.AgreeOn names scope') :
    Lockstep (Scope.AgreeOn names) R (bindAll db as scope) (bindAll db' as scope') := by
  induction as generalizing scope scope' with
  | nil => exact .constant hscope
  | cons a as ih =>
    intro s t hst
    obtain ⟨hvalue, hst⟩ := h a List.mem_cons_self scope scope' hscope s t hst
    rw [bindAll_cons, bindAll_cons, ← hvalue]
    exact ih (fun b hb => h b (List.mem_cons_of_mem a hb)) (hscope.bind a.name _) _ _ hst

/-- A status whose expressions run alike is the same. -/
theorem evalStatus_lockstep {status : Option StatusSpec}
    (h : ∀ e ∈ status.toList.flatMap StatusSpec.expressions, e.RunsAlike names R db db')
    (hscope : scope.AgreeOn names scope') :
    Lockstep Eq R (evalStatus db scope status) (evalStatus db' scope' status) := by
  cases status with
  | none => exact .constant rfl
  | some spec =>
    cases spec with
    | code n => exact .constant rfl
    | var name =>
      intro s t hst
      have hvar := h (.var name) (List.mem_singleton_self _) scope scope' hscope s t hst
      exact ⟨congrArg Value.toStatus? hvar.1, hst⟩
    | choice branches otherwise =>
      intro s t hst
      have hchoice := h _ (List.mem_singleton_self _) scope scope' hscope s t hst
      exact ⟨congrArg Value.toStatus? hchoice.1, hchoice.2⟩

variable {route : Route} (h : ∀ e ∈ route.expressions, e.RunsAlike names R db db')

include h

/-- In scopes that agree a route concludes with the same response. -/
theorem conclude_lockstep (hscope : scope.AgreeOn names scope') :
    Lockstep Eq R (route.conclude db scope) (route.conclude db' scope') := by
  intro s t hst
  have hstatus : ∀ e ∈ route.status.toList.flatMap StatusSpec.expressions,
      e.RunsAlike names R db db' := fun e he =>
    h e (List.mem_append_left _ (List.mem_append_right _ he))
  have hbody := h _ (List.mem_append_right _ (List.mem_singleton_self _)) scope scope' hscope
  obtain ⟨hs, hst⟩ := evalStatus_lockstep hstatus hscope s t hst
  obtain ⟨hb, hst⟩ := hbody _ _ hst
  refine ⟨?_, hst⟩
  exact congrArg₂ (Response.mk · route.returns.kind <| route.returns.kind.render ·) hs hb

/-- A route whose expressions run alike answers requests that agree on its names alike. -/
theorem run_lockstep {request request' : Request}
    (hrequest : Scope.AgreeOn names (.ofRequest request) (.ofRequest request')) :
    Lockstep Eq R (route.run db request) (route.run db' request') := by
  have hassignments : ∀ a ∈ route.assignments, a.value.RunsAlike names R db db' := fun a ha =>
    h _ (List.mem_append_left _ (List.mem_append_left _ (List.mem_map_of_mem ha)))
  intro s t hst
  obtain ⟨hscope, hst⟩ := bindAll_lockstep hassignments hrequest s t hst
  rw [run_eq, run_eq]
  exact conclude_lockstep h hscope _ _ hst

end

section

variable {σ : Type} (route : Route) (request : Request)

/-- What every query of a route preserves, a run of the route preserves. -/
theorem run_invariant {I : σ → Prop} (db : Option (Executor σ))
    (h : ∀ e ∈ route.expressions, ∀ statement ∈ e.statements, ∀ params s, I s →
      I (queryValue db statement params s).2) {s : σ} (hs : I s) :
    I (route.run db request s).2 := by
  have hsame : ∀ e ∈ route.expressions,
      e.RunsAlike (fun _ => True) (fun s t => s = t ∧ I s) db db := by
    intro e he
    refine Expr.runsAlike (fun _ _ => trivial) fun statement hstatement params => ?_
    rintro s t ⟨rfl, hs⟩
    exact ⟨rfl, rfl, h e he statement hstatement params s hs⟩
  exact (run_lockstep hsame (.refl _ (.ofRequest request)) s s ⟨rfl, hs⟩).2.2

/-- The calls that a run of the route makes, first call first. -/
def calls (db : Executor σ) (s : σ) : List QueryCall :=
  (route.run (some db.watched) request (s, [])).2.2

/-- A watched run answers alike, leaves the same state and adds its calls to those before: it runs
alike with the run that is not watched, and with the watched one that starts without calls. -/
theorem run_watched (db : Executor σ) (s : σ) (calls : List QueryCall) :
    route.run (some db.watched) request (s, calls) =
      ((route.run (some db) request s).1, (route.run (some db) request s).2,
        calls ++ route.calls request db s) := by
  have hanswers : ∀ e ∈ route.expressions, e.RunsAlike (fun _ => True)
      (fun (x : σ × List QueryCall) t => x.1 = t) (some db.watched) (some db) := by
    intro e _
    refine Expr.runsAlike (fun _ _ => trivial) fun statement _ params => ?_
    rintro ⟨s, calls⟩ t rfl
    rw [queryValue, Executor.query_watched]
    exact ⟨rfl, rfl⟩
  have hcalls : ∀ e ∈ route.expressions, e.RunsAlike (fun _ => True)
      (fun x y => x = (y.1, calls ++ y.2)) (some db.watched) (some db.watched) := by
    intro e _
    refine Expr.runsAlike (fun _ _ => trivial) fun statement _ params => ?_
    rintro _ ⟨s, later⟩ rfl
    simp only [queryValue, Executor.query_watched, List.append_assoc, and_self]
  have hsame := Scope.AgreeOn.refl (fun _ => True) (.ofRequest request)
  obtain ⟨hvalue, hstate⟩ := run_lockstep hanswers hsame (s, calls) s rfl
  have hstart : (s, calls) = (s, calls ++ []) := by rw [List.append_nil]
  obtain ⟨-, hlater⟩ := run_lockstep hcalls hsame (s, calls) (s, []) hstart
  have hnoted := congrArg Prod.snd hlater
  exact Prod.ext hvalue (Prod.ext hstate hnoted)

end

end Route

end RouteSheet
