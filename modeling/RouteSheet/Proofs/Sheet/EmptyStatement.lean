import RouteSheet.Proofs.Route.Lockstep
import RouteSheet.Proofs.Text.Trim
import RouteSheet.Query.Script

/-!
# Queries without a statement

Loading warns of every query without a statement, wherever its expression stands: in a
variable that is assigned again, in a status or a return that another one replaces, in a
route that is dropped. A sheet that loads without this warning holds written statements
only, so no request to one of its routes ever runs an empty query.
-/

namespace RouteSheet

open Text

/-- Every query of the expression has a statement. -/
def Expr.Written (e : Expr) : Prop :=
  ∀ statement ∈ e.statements, isBlankText statement.toList = false

/-- An expression that is not reported has its statements written. -/
theorem Expr.written_of_emptyStatements {e : Expr} (h : .emptyStatement ∉ e.emptyStatements) :
    e.Written := by
  intro statement hs
  by_contra hblank
  rw [Bool.not_eq_false] at hblank
  exact h (List.mem_map_of_mem (List.mem_filter.mpr ⟨hs, hblank⟩))

/-- No diagnostic tells of a query without a statement. -/
def Unreported (diagnostics : List Diagnostic) : Prop :=
  ∀ d ∈ diagnostics, d.problem ≠ .emptyStatement

/-- Nothing is reported of two lists exactly if nothing is reported of either. -/
theorem unreported_append {first later : List Diagnostic} :
    Unreported (first ++ later) ↔ Unreported first ∧ Unreported later :=
  List.forall_mem_append

namespace Loading

variable {α : Type} {l : Loading α} {line : Nat}

/-- What goes unreported with one more problem goes unreported without it. -/
theorem unreported_report {problem : Problem} (h : Unreported (l.report problem line).diagnostics) :
    Unreported l.diagnostics :=
  (unreported_append.mp h).1

/-- Problems of one line are unreported when none of them is a query without a statement. -/
theorem unreported_reportAll {problems : List Problem}
    (h : Unreported (l.reportAll problems line).diagnostics) :
    Unreported l.diagnostics ∧ .emptyStatement ∉ problems := by
  obtain ⟨hl, hp⟩ := unreported_append.mp h
  exact ⟨hl, fun hmem => hp _ (List.mem_map_of_mem hmem) rfl⟩

end Loading

namespace RouteParts

/-- The parts of a route hold written statements only. -/
structure Written (parts : RouteParts) : Prop where
  assignments : ∀ a ∈ parts.assignments, a.value.Written
  status : ∀ status ∈ parts.status, ∀ e ∈ status.expressions, e.Written
  returns : ∀ returns ∈ parts.returns, returns.body.Written

/-- A route of parts with written statements has expressions with written statements. -/
theorem Written.expressions {parts : RouteParts} (h : parts.Written) {returns : ReturnSpec}
    (hr : parts.returns = some returns) (method path : String) (line : Nat) :
    ∀ e ∈ (Route.mk method path parts.assignments parts.status returns line).expressions,
      e.Written := by
  intro e he
  rcases List.mem_append.mp he with he | he
  · rcases List.mem_append.mp he with he | he
    · obtain ⟨a, ha, rfl⟩ := List.mem_map.mp he
      exact h.assignments a ha
    · obtain ⟨status, hs, he⟩ := List.mem_flatMap.mp he
      exact h.status status (Option.mem_toList.mp hs) e he
  · obtain rfl := List.mem_singleton.mp he
    exact h.returns returns hr

/-- Unless a query without a statement is reported, the parts hold written statements only. -/
def Checked (l : Loading RouteParts) : Prop := Unreported l.diagnostics → l.built.Written

/-- A problem more leaves the parts of a route checked. -/
theorem checked_report {l : Loading RouteParts} (h : Checked l) (problem : Problem) (line : Nat) :
    Checked (l.report problem line) :=
  fun hu => h (Loading.unreported_report hu)

/-- A variable is checked when it is assigned, also where a later one shadows it. -/
theorem checked_assign {l : Loading RouteParts} (h : Checked l) (name : String)
    (value : List Char) (line : Nat) : Checked (assign l name value line) := by
  intro hu
  obtain ⟨hl, hp⟩ := Loading.unreported_reportAll hu
  refine { h hl with assignments := fun a ha => ?_ }
  rcases List.mem_append.mp ha with ha | ha
  · exact (h hl).assignments a ha
  · obtain rfl := List.mem_singleton.mp ha
    exact Expr.written_of_emptyStatements fun hmem => hp (List.mem_append_right _ hmem)

/-- A status is checked when it is set, also where a later one replaces it. -/
theorem checked_setStatus {l : Loading RouteParts} (h : Checked l) (value : List Char)
    (line : Nat) : Checked (setStatus l value line) := by
  unfold setStatus
  cases StatusSpec.parse value with
  | error e => exact checked_report h _ _
  | ok spec =>
    intro hu
    obtain ⟨hl, hp⟩ := Loading.unreported_reportAll hu
    refine { h hl with status := fun status hs e he => ?_ }
    obtain rfl := Option.some.inj hs
    cases spec with
    | code n => exact absurd he List.not_mem_nil
    | var name =>
      obtain rfl := List.mem_singleton.mp he
      exact fun _ hs => absurd hs List.not_mem_nil
    | choice branches otherwise =>
      obtain rfl := List.mem_singleton.mp he
      exact Expr.written_of_emptyStatements hp

/-- A return is checked when it is set, also where a later one replaces it. -/
theorem checked_setReturn {l : Loading RouteParts} (h : Checked l) (value : List Char)
    (line : Nat) : Checked (setReturn l value line) := by
  intro hu
  obtain ⟨hl, hp⟩ := Loading.unreported_reportAll hu
  refine { h hl with returns := fun returns hr => ?_ }
  obtain rfl := Option.some.inj hr
  exact Expr.written_of_emptyStatements fun hmem => hp (List.mem_append_right _ hmem)

/-- A declaration leaves the parts of a route checked. -/
theorem checked_declare {l : Loading RouteParts} (h : Checked l) (d : Declaration) :
    Checked (declare l d) := by
  simp only [declare]
  split
  · exact checked_report h _ _
  · split
    · exact checked_assign h _ _ _
    · split
      · exact checked_setStatus h _ _
      · split
        · exact checked_setReturn h _ _
        · exact checked_report h _ _

/-- The declarations of a body are checked one by one. -/
theorem checked_foldl_declare (ds : List Declaration) {l : Loading RouteParts} (h : Checked l) :
    Checked (ds.foldl declare l) := by
  induction ds generalizing l with
  | nil => exact h
  | cons d ds ih => exact ih (checked_declare h d)

/-- The empty parts of a route are checked. -/
theorem checked_empty : Checked ⟨.empty, []⟩ := by
  intro _
  exact {
    assignments := fun _ h => absurd h List.not_mem_nil
    status := fun _ h => (nomatch h)
    returns := fun _ h => (nomatch h) }

end RouteParts

namespace Sheet

/-- Unless a query without a statement is reported, the routes hold written statements only. -/
def Checked (l : Loading Sheet) : Prop :=
  Unreported l.diagnostics → ∀ route ∈ l.built.routes, ∀ e ∈ route.expressions, e.Written

/-- What is reported besides leaves the routes checked. -/
theorem checked_of_routes {l l' : Loading Sheet} (h : Checked l)
    (hroutes : l'.built.routes = l.built.routes)
    (hreported : Unreported l'.diagnostics → Unreported l.diagnostics) : Checked l' := by
  intro hu
  rw [hroutes]
  exact h (hreported hu)

/-- A problem more leaves a sheet checked. -/
theorem checked_report {l : Loading Sheet} (h : Checked l) (problem : Problem) (line : Nat) :
    Checked (l.report problem line) :=
  checked_of_routes h rfl Loading.unreported_report

/-- A route is checked with its body, whether it is added or dropped. -/
theorem checked_addRoute {l : Loading Sheet} (h : Checked l) (method path : String)
    (body : List Char) (line bodyLine : Nat) :
    Checked (addRoute l method path body line bodyLine) := by
  have hparts := RouteParts.checked_foldl_declare (Declaration.ofBody bodyLine body)
    RouteParts.checked_empty
  unfold addRoute
  generalize (Declaration.ofBody bodyLine body).foldl RouteParts.declare ⟨.empty, []⟩ = parts
    at hparts ⊢
  have hl : Checked { l with diagnostics := l.diagnostics ++ parts.diagnostics } :=
    checked_of_routes h rfl fun hu => (unreported_append.mp hu).1
  simp only
  split
  · exact checked_report hl _ _
  · next returns hr =>
    split
    · exact checked_report hl _ _
    · intro hu route hroute
      rcases List.mem_append.mp hroute with hroute | hroute
      · exact hl hu route hroute
      · obtain rfl := List.mem_singleton.mp hroute
        exact (hparts (unreported_append.mp hu).2).expressions hr method path line

/-- A block leaves a sheet checked. -/
theorem checked_addBlock {l : Loading Sheet} (h : Checked l) (selector body : List Char)
    (line bodyLine : Nat) : Checked (addBlock l selector body line bodyLine) := by
  unfold addBlock
  split
  · exact checked_report h _ _
  · next text _ =>
    have hl : Checked
        { l with diagnostics := l.diagnostics ++ (Target.ofText text line).diagnostics } :=
      checked_of_routes h rfl fun hu => (unreported_append.mp hu).1
    simp only
    split
    · exact checked_report hl _ _
    · exact checked_addRoute hl _ _ _ _ _

/-- An at-rule adds no route. -/
theorem checked_addRule (env : Environment) {l : Loading Sheet} (h : Checked l)
    (text : List Char) (line : Nat) : Checked (addRule env l text line) := by
  simp only [addRule]
  split
  · split
    · exact checked_report h _ _
    · exact checked_of_routes h rfl fun hu => (Loading.unreported_reportAll hu).1
  · split
    · split
      · exact checked_report h _ _
      · exact checked_of_routes h rfl id
    · exact checked_report h _ _

/-- An item leaves a sheet checked. -/
theorem checked_addItem (env : Environment) {l : Loading Sheet} (h : Checked l) (item : Item) :
    Checked (addItem env l item) := by
  cases item with
  | rule text line => exact checked_addRule env h text line
  | block selector body line bodyLine => exact checked_addBlock h _ _ _ _
  | stray text line => exact checked_report h _ _
  | unopened text line => exact checked_report h _ _

/-- The items of a sheet are checked one by one. -/
theorem checked_foldl_addItem (env : Environment) (items : List Item) {l : Loading Sheet}
    (h : Checked l) : Checked (items.foldl (addItem env) l) := by
  induction items generalizing l with
  | nil => exact h
  | cons item items ih => exact ih (checked_addItem env h item)

/-- A loaded sheet is checked. -/
theorem checked_load (env : Environment) (text : List Char) : Checked (load env text) := by
  refine checked_foldl_addItem env (Item.ofSheet text) fun _ route hroute => ?_
  exact absurd hroute List.not_mem_nil

end Sheet

/-- A route whose statements are written makes no call with a blank statement. The invariant of the
watched run is that every call noted so far has a written statement. -/
theorem Route.calls_written {σ : Type} {route : Route}
    (h : ∀ e ∈ route.expressions, e.Written) (request : Request) (db : Executor σ) (s : σ) :
    ∀ call ∈ route.calls request db s, isBlankText call.statement.toList = false := by
  refine run_invariant (I := fun x : σ × List QueryCall =>
    ∀ call ∈ x.2, isBlankText call.statement.toList = false) route request (some db.watched)
    (fun e he statement hs params x hx => ?_) fun _ hcall => absurd hcall List.not_mem_nil
  rw [queryValue, Executor.query_watched]
  intro call hcall
  rcases List.mem_append.mp hcall with hcall | hcall
  · exact hx call hcall
  · obtain rfl := List.mem_singleton.mp hcall
    exact h e he statement hs

/-- A sheet that loads without a warning of a query without a statement never runs an empty
query, for no request to any of its routes and on no executor. -/
theorem Sheet.load_calls_not_blank {σ : Type} (env : Environment) (text : List Char)
    (h : ∀ d ∈ (load env text).diagnostics, d.problem ≠ .emptyStatement) {route : Route}
    (hroute : route ∈ (load env text).built.routes) (request : Request) (db : Executor σ) (s : σ) :
    ∀ call ∈ route.calls request db s, trim call.statement.toList ≠ [] := by
  intro call hcall
  have hwritten := checked_load env text h route hroute
  exact ne_nil_of_isTrimmed (isTrimmed_trim (Route.calls_written hwritten request db s call hcall))

/-- A sheet whose route returns what a query finds. -/
def listingSheet : List Char :=
  "route[path='/']\x7b--n: sql('SELECT 1'); return: var(n)\x7d".toList

/-- The sheet of the listing has a route. -/
theorem listingSheet_routes_ne_nil : (Sheet.load [] listingSheet).built.routes ≠ [] := by
  decide +kernel

/-- The route of the sheet. -/
def listingRoute : Route :=
  (Sheet.load [] listingSheet).built.routes.head listingSheet_routes_ne_nil

/-- The route of the sheet runs the statement that its query writes, and no empty one. -/
theorem Sheet.load_calls_not_blank_listing :
    (∀ d ∈ (load [] listingSheet).diagnostics, d.problem ≠ .emptyStatement) ∧
    listingRoute ∈ (load [] listingSheet).built.routes ∧
    (listingRoute.calls ⟨[], [], [], []⟩ scriptExecutor []).map (·.statement) =
      ["SELECT 1"] ∧
    ∀ call ∈ listingRoute.calls ⟨[], [], [], []⟩ scriptExecutor [],
      trim call.statement.toList ≠ [] := by
  have hsilent : ∀ d ∈ (load [] listingSheet).diagnostics, d.problem ≠ .emptyStatement := by
    decide +kernel
  have hroute : listingRoute ∈ (load [] listingSheet).built.routes := List.head_mem _
  exact ⟨hsilent, hroute, by decide +kernel,
    load_calls_not_blank [] listingSheet hsilent hroute ⟨[], [], [], []⟩ scriptExecutor []⟩

end RouteSheet
