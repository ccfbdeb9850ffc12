import Mathlib.Data.List.Induction
import RouteSheet.Proofs.Sheet.Append
import RouteSheet.Route.Match

/-!
# Routes declared again

A sheet keeps the first of the routes that are declared for one method and one path, both
compared as they are written. A request compares methods without regard to case and paths
segment by segment, so it may be answered by a route that is written in another way. Still
no request can tell which routes were dropped: where a dropped route would answer, the one
that was kept answers before it.
-/

namespace RouteSheet

namespace Route

/-- The method and the path that a route is declared for. -/
def target (route : Route) : String × String := (route.method, route.path)

/-- The routes without those whose method and path an earlier one has. -/
def firstOfEach : List Route → List Route
  | [] => []
  | route :: rest => route :: (firstOfEach rest).filter fun later => later.target ≠ route.target

/-- The route with its captures, if it answers the method and the path. -/
def answer? (route : Route) (method path : String) : Option (Route × List (String × String)) :=
  if route.hasMethod method then (route.match? path).map fun captures => (route, captures)
  else none

section

variable {method path : String} {route later : Route} {routes : List Route}

/-- The first route answers, or those behind it do. -/
theorem find?_cons (route : Route) (routes : List Route) (method path : String) :
    find? (route :: routes) method path =
      (route.answer? method path).or (find? routes method path) := by
  unfold find?
  rw [List.findSome?_cons, answer?]
  split <;> next h => simp only [h, Option.some_or, Option.none_or]

/-- Whether a route answers depends on its method and its path alone. -/
theorem answer?_eq_none_of_target (h : later.target = route.target)
    (hnone : route.answer? method path = none) : later.answer? method path = none := by
  obtain ⟨hmethod, hpath⟩ := Prod.mk.inj h
  unfold answer? hasMethod match? pattern at hnone ⊢
  rw [hmethod, hpath]
  split at hnone
  · next hm =>
    rw [if_pos hm, Option.map_eq_none_iff]
    exact Option.map_eq_none_iff.mp hnone
  · next hm => rw [if_neg hm]

/-- Routes that do not answer may be left out. -/
theorem find?_filter {keep : Route → Bool}
    (h : ∀ route ∈ routes, keep route = false → route.answer? method path = none) :
    find? (routes.filter keep) method path = find? routes method path := by
  induction routes with
  | nil => rfl
  | cons route routes ih =>
    have hrest := ih fun later hlater => h later (List.mem_cons_of_mem _ hlater)
    cases hkeep : keep route with
    | true => rw [List.filter_cons_of_pos hkeep, find?_cons, find?_cons, hrest]
    | false =>
      rw [List.filter_cons_of_neg (by rw [hkeep]; exact Bool.false_ne_true), find?_cons,
        h route List.mem_cons_self hkeep, Option.none_or, hrest]

/-- The first routes of each method and path answer as all routes do: where the first of them gives
no answer, those that it drops would give none either. -/
theorem find?_kept (routes : List Route) (method path : String) :
    find? (firstOfEach routes) method path = find? routes method path := by
  induction routes with
  | nil => rfl
  | cons route routes ih =>
    rw [firstOfEach, find?_cons, find?_cons, ← ih]
    cases hroute : route.answer? method path with
    | some answer => rfl
    | none =>
      refine congrArg _ (find?_filter fun later _ hdropped => ?_)
      exact answer?_eq_none_of_target (Decidable.not_not.mp (of_decide_eq_false hdropped)) hroute

/-- No method and path is lost. -/
theorem mem_targets_firstOfEach {t : String × String} :
    t ∈ (firstOfEach routes).map target ↔ t ∈ routes.map target := by
  induction routes with
  | nil => rfl
  | cons route routes ih =>
    rw [firstOfEach, List.map_cons, List.map_cons, List.mem_cons, List.mem_cons, ← ih]
    by_cases ht : t = route.target
    · exact iff_of_true (.inl ht) (.inl ht)
    · simp only [ht, false_or, List.mem_map, List.mem_filter, decide_eq_true_eq]
      constructor
      · rintro ⟨later, ⟨hlater, -⟩, rfl⟩
        exact ⟨later, hlater, rfl⟩
      · rintro ⟨later, hlater, rfl⟩
        exact ⟨later, ⟨hlater, ht⟩, rfl⟩

/-- A route behind others is kept unless one of them has its method and path. -/
theorem firstOfEach_concat (routes : List Route) (route : Route) :
    firstOfEach (routes ++ [route]) =
      if route.target ∈ routes.map target then firstOfEach routes
      else firstOfEach routes ++ [route] := by
  induction routes with
  | nil => rfl
  | cons first routes ih =>
    have hmem : route.target ∈ (first :: routes).map target ↔
        route.target = first.target ∨ route.target ∈ routes.map target := List.mem_cons
    rw [List.cons_append, firstOfEach, firstOfEach, ih]
    by_cases hrest : route.target ∈ routes.map target
    · rw [if_pos hrest, if_pos (hmem.mpr (.inr hrest))]
    · rw [if_neg hrest, List.filter_append, List.filter_cons, List.filter_nil]
      by_cases hfirst : route.target = first.target
      · rw [if_pos (hmem.mpr (.inl hfirst)), hfirst]
        simp only [ne_eq, not_true, decide_false, Bool.false_eq_true, ite_false, List.append_nil]
      · have hnew : ¬ route.target ∈ (first :: routes).map target := fun h =>
          (hmem.mp h).elim hfirst hrest
        rw [if_neg hnew, if_pos (decide_eq_true hfirst), List.cons_append]

end

end Route

namespace Sheet

/-- The routes that a text declares, in order and with those declared again. -/
def declaredRoutes (text : List Char) : List Route := (Item.ofSheet text).filterMap Item.route?

/-- A sheet without repeated routes takes in a route as a list without them does. -/
theorem routes_withRoute {sheet : Sheet} {routes : List Route}
    (h : sheet.routes = Route.firstOfEach routes) (route : Route) :
    (sheet.withRoute route).routes = Route.firstOfEach (routes ++ [route]) := by
  have hdeclares : sheet.declares route.method route.path = true ↔
      route.target ∈ routes.map Route.target := by
    rw [declares_iff, ← Route.mem_targets_firstOfEach, ← h, List.mem_map]
    simp only [Route.target, Prod.mk.injEq]
  rw [withRoute, Route.firstOfEach_concat]
  by_cases hd : route.target ∈ routes.map Route.target
  · rw [if_pos (hdeclares.mpr hd), if_pos hd, h]
  · rw [if_neg (mt hdeclares.mp hd), if_neg hd, h]

/-- A loaded sheet has the first of its declared routes for each method and path. -/
theorem routes_load (env : Environment) (text : List Char) :
    (load env text).built.routes = Route.firstOfEach (declaredRoutes text) := by
  rw [built_load, declaredRoutes, ofItems]
  induction Item.ofSheet text using List.reverseRecOn with
  | nil => rfl
  | append_singleton items item ih =>
    rw [List.foldl_append, List.filterMap_append, List.foldl_cons, List.foldl_nil, withItem]
    cases hroute : item.route? with
    | none =>
      rw [List.filterMap_cons_none hroute, List.filterMap_nil, List.append_nil]
      exact ih
    | some route =>
      have hrule : ((items.foldl (withItem env) empty).withRule (item.database? env)
          item.statement?).routes = Route.firstOfEach (items.filterMap Item.route?) := ih
      rw [List.filterMap_cons_some hroute, List.filterMap_nil]
      exact routes_withRoute hrule route

end Sheet

/-- No request can tell that a sheet drops the routes declared again: the first routes of each
method and path give every request the route and the captures that all routes give it. Routes
added behind others answer only what those do not, so an answer stays as it is. -/
theorem Route.find?_firstOfEach (method path : String) :
    (∀ routes, find? (firstOfEach routes) method path = find? routes method path) ∧
    (∀ routes more, find? (routes ++ more) method path =
      (find? routes method path).or (find? more method path)) ∧
    ∀ env text, (Sheet.load env text).built.routes = firstOfEach (Sheet.declaredRoutes text) :=
  ⟨fun routes => find?_kept routes method path, fun _ _ => List.findSome?_append,
    fun env text => Sheet.routes_load env text⟩

end RouteSheet
