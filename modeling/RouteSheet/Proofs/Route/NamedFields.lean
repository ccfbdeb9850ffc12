import Mathlib.Data.List.Nodup
import RouteSheet.Proofs.Route.Lockstep
import RouteSheet.Query.Script

/-!
# The fields that a route names

A route reads a request only where it names a field: a path parameter, a query
parameter, a body field or a header, the last in any case of its letters. Requests that
agree on these names get the same response and set off the same calls, whatever else
they bring.
-/

namespace RouteSheet

/-- Where no name comes twice a table holds exactly the pairs written to it. -/
theorem Fields.get?_ofPairs_eq_some_iff {α : Type} {pairs : List (String × α)}
    (h : (pairs.map Prod.fst).Nodup) {key : String} {value : α} :
    Fields.get? key (.ofPairs pairs) = some value ↔ (key, value) ∈ pairs := by
  rw [get?_ofPairs, Option.map_eq_some_iff]
  constructor
  · rintro ⟨pair, hfound, rfl⟩
    have hkey : pair.1 = key := by simpa using List.find?_some hfound
    rw [← hkey]
    exact List.mem_reverse.mp (List.mem_of_find?_eq_some hfound)
  · intro hmem
    cases hfound : pairs.reverse.find? fun pair => pair.1 = key with
    | none =>
      have hnone := List.find?_eq_none.mp hfound _ (List.mem_reverse.mpr hmem)
      simp only [decide_true, not_true] at hnone
    | some pair =>
      have hkey : pair.1 = key := by simpa using List.find?_some hfound
      have hpair := List.mem_reverse.mp (List.mem_of_find?_eq_some hfound)
      have heq : pair = (key, value) := List.inj_on_of_nodup_map h hpair hmem hkey
      exact ⟨pair, rfl, congrArg Prod.snd heq⟩

namespace Request

/-- No two headers have names that differ in the case of letters only. -/
def HeadersDistinct (r : Request) : Prop := (r.headers.map fun header => lowerText header.1).Nodup

/-- The request has a header of the name, in any case of its letters, with the value. -/
def HasHeader (r : Request) (name value : String) : Prop :=
  ∃ key, (key, value) ∈ r.headers ∧ lowerText key = lowerText name

/-- The requests bring the same, or nothing both, for every name that is looked up. -/
structure AgreeOn (names : List Lookup) (r r' : Request) : Prop where
  params : ∀ name, .param name ∈ names → r.params.get? name = r'.params.get? name
  query : ∀ name, .query name ∈ names → r.query.get? name = r'.query.get? name
  body : ∀ name, .body name ∈ names → r.body.get? name = r'.body.get? name
  headers : ∀ name, .header name ∈ names → ∀ value, r.HasHeader name value ↔ r'.HasHeader name value

/-- The scope of a request without twofold headers has the headers of the request. -/
theorem get?_headers_eq_some_iff {r : Request} (h : r.HeadersDistinct) (name value : String) :
    (Scope.ofRequest r).headers.get? (lowerText name) = some value ↔ r.HasHeader name value := by
  have hnodup : ((r.headers.map fun header => (lowerText header.1, header.2)).map
      Prod.fst).Nodup := by
    rw [List.map_map]
    exact h
  rw [Scope.ofRequest, Fields.get?_ofPairs_eq_some_iff hnodup, List.mem_map]
  constructor
  · rintro ⟨⟨key, _⟩, hmem, heq⟩
    obtain ⟨hkey, rfl⟩ := Prod.mk.inj heq
    exact ⟨key, hmem, hkey⟩
  · rintro ⟨key, hmem, hkey⟩
    exact ⟨(key, value), hmem, Prod.ext hkey rfl⟩

/-- Requests that agree on names begin with scopes that agree on them. -/
theorem AgreeOn.ofRequest {names : List Lookup} {r r' : Request} (h : r.AgreeOn names r')
    (hr : r.HeadersDistinct) (hr' : r'.HeadersDistinct) :
    Scope.AgreeOn (· ∈ names) (.ofRequest r) (.ofRequest r') := by
  intro l hl
  cases l with
  | var name => rfl
  | param name => exact congrArg Scope.textValue (h.params name hl)
  | query name => exact congrArg Scope.textValue (h.query name hl)
  | body name => exact congrArg (Option.getD · .missing) (h.body name hl)
  | header name =>
    refine congrArg Scope.textValue (Option.ext fun value => ?_)
    rw [get?_headers_eq_some_iff hr, get?_headers_eq_some_iff hr']
    exact h.headers name hl value

end Request

namespace Route

/-- The names that a route looks up, in its variables, its status and its body. -/
def lookups (route : Route) : List Lookup := route.expressions.flatMap Expr.lookups

/-- A route answers requests that agree on the fields it names with the same response and leaves
the same state, on every database and without one, and makes the same calls. The calls are those of
the watched executor, which is one more database. -/
theorem run_eq_of_agreeOn {σ : Type} {route : Route} {r r' : Request}
    (h : r.AgreeOn route.lookups r') (hr : r.HeadersDistinct) (hr' : r'.HeadersDistinct) :
    (∀ (db : Option (Executor σ)) (s : σ), route.run db r s = route.run db r' s) ∧
    ∀ (db : Executor σ) (s : σ), route.calls r db s = route.calls r' db s := by
  have hrun : ∀ (τ : Type) (db : Option (Executor τ)) (t : τ),
      route.run db r t = route.run db r' t := by
    intro τ db t
    have hself : ∀ e ∈ route.expressions, e.RunsAlike (· ∈ route.lookups) Eq db db := fun e he =>
      Expr.runsAlike (fun l hl => List.mem_flatMap.mpr ⟨e, he, hl⟩) fun _ _ _ => .refl _
    obtain ⟨hresponse, hstate⟩ := run_lockstep hself (h.ofRequest hr hr') t t rfl
    exact Prod.ext hresponse hstate
  exact ⟨hrun σ, fun db s => by rw [calls, calls, hrun]⟩

/-- A route that looks up a user by a header and a path parameter. -/
def accountRoute : Route where
  method := "POST"
  path := "/accounts/:id"
  assignments := [⟨"user", .sql "SELECT name FROM users WHERE key = ? AND id = ?"
    [.header "X-Key", .param "id"], 1⟩]
  status := some (.choice [(.truthy "user", .query "ok")] none)
  returns := ⟨.html, .concat [.var "user", .body "note"]⟩
  line := 1

/-- A request with fields that the route does not name. -/
def chattyRequest : Request where
  params := [("id", "7"), ("page", "2")]
  query := [("ok", "201"), ("debug", "1")]
  body := [("secret", .null), ("note", .string "n")]
  headers := [("X-Key", "k"), ("Cookie", "c")]

/-- A request with nothing but what the route names. -/
def plainRequest : Request where
  params := [("id", "7")]
  query := [("ok", "201")]
  body := [("note", .string "n")]
  headers := [("x-KEY", "k")]

/-- The two requests are one to the route. -/
theorem run_eq_of_agreeOn_account :
    chattyRequest.AgreeOn accountRoute.lookups plainRequest ∧
    chattyRequest.HeadersDistinct ∧ plainRequest.HeadersDistinct ∧
    accountRoute.run (some scriptExecutor) chattyRequest [] =
      accountRoute.run (some scriptExecutor) plainRequest [] ∧
    accountRoute.calls chattyRequest scriptExecutor [] =
      accountRoute.calls plainRequest scriptExecutor [] := by
  have hnames : accountRoute.lookups = [.header "X-Key", .param "id", .var "user", .query "ok",
    .var "user", .body "note"] := rfl
  have hcookie : lowerText "Cookie" ≠ lowerText "X-Key" := by decide +kernel
  have hkey : lowerText "x-KEY" = lowerText "X-Key" := by decide +kernel
  have h : chattyRequest.AgreeOn accountRoute.lookups plainRequest := by
    rw [hnames]
    refine ⟨fun name hn => ?_, fun name hn => ?_, fun name hn => ?_, fun name hn value => ?_⟩
    · obtain rfl : name = "id" := by simpa using hn
      rfl
    · obtain rfl : name = "ok" := by simpa using hn
      rfl
    · obtain rfl : name = "note" := by simpa using hn
      rfl
    · obtain rfl : name = "X-Key" := by simpa using hn
      simp [Request.HasHeader, chattyRequest, plainRequest, or_and_right, exists_or, hcookie, hkey]
  have hr : chattyRequest.HeadersDistinct := by
    unfold Request.HeadersDistinct
    decide +kernel
  have hr' : plainRequest.HeadersDistinct := by
    unfold Request.HeadersDistinct
    decide +kernel
  obtain ⟨hrun, hcalls⟩ := run_eq_of_agreeOn h hr hr'
  exact ⟨h, hr, hr', hrun _ [], hcalls scriptExecutor []⟩

end Route

end RouteSheet
