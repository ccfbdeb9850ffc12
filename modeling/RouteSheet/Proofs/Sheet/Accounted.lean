import RouteSheet.Proofs.Sheet.Sound
import RouteSheet.Proofs.Text.Phrase

/-!
# What becomes of blocks

A block adds its route, or one problem is reported on its line that says why it did not: its
selector is none of a route, or it has no path, no return, or a method and path that were
declared before. Later items take back neither routes nor reports. So a sheet that loads without
errors has, for every block of a route, that route or an earlier one for the same requests.
-/

namespace RouteSheet

open Text

/-- What may become of the block of a route. -/
inductive Outcome where
  /-- the route is appended, and nothing is said of the block -/
  | added (route : Route)
  /-- an error -/
  | missingPath (selector : String)
  /-- an error -/
  | missingReturn (method path : String)
  /-- a warning -/
  | repeated (method path : String)

namespace Outcome

/-- The routes that are appended. -/
def routes : Outcome → List Route
  | added route => [route]
  | _ => []

/-- What is said of the block. -/
def problems : Outcome → List Problem
  | added _ => []
  | missingPath selector => [.missingPath selector]
  | missingReturn method path => [.missingReturn method path]
  | repeated method path => [.duplicateRoute method path]

/-- The outcome is all that a block on the line adds to the routes and to what is said of
blocks. -/
structure Of (outcome : Outcome) (before after : Loading Sheet) (line : Nat) : Prop where
  routes : after.built.routes = before.built.routes ++ outcome.routes
  diagnostics : ofBlocks after.diagnostics =
    ofBlocks before.diagnostics ++ outcome.problems.map fun problem => ⟨problem, line⟩

/-- What was added and what was said tell the outcome. -/
theorem Of.unique {outcome other : Outcome} {before after : Loading Sheet} {line : Nat}
    (h : outcome.Of before after line) (h' : other.Of before after line) : outcome = other := by
  have hroutes := List.append_cancel_left (h.routes.symm.trans h'.routes)
  have hproblems := (List.map_inj_right fun _ _ heq => (Diagnostic.mk.inj heq).1).mp
    (List.append_cancel_left (h.diagnostics.symm.trans h'.diagnostics))
  cases outcome <;> cases other <;>
    simp only [Outcome.routes, problems, List.cons.injEq, reduceCtorEq, and_true,
      Problem.missingPath.injEq, Problem.missingReturn.injEq,
      Problem.duplicateRoute.injEq] at hroutes hproblems
  · rw [hroutes]
  · rw [hproblems]
  · rw [hproblems.1, hproblems.2]
  · rw [hproblems.1, hproblems.2]

end Outcome

namespace Sheet

/-- What items make up. -/
def loadItems (env : Environment) (items : List Item) : Loading Sheet :=
  items.foldl (addItem env) ⟨.empty, []⟩

section Items

variable (env : Environment) (sheet : Sheet) {item : Item} {route : Route}

/-- A route is appended unless one was declared for its method and path. -/
theorem routes_withItem_of_route? (h : item.route? = some route) :
    (sheet.withItem env item).routes =
      if sheet.declares route.method route.path then sheet.routes else sheet.routes ++ [route] := by
  have hrule : (sheet.withRule (item.database? env) item.statement?).declares route.method
      route.path = sheet.declares route.method route.path := rfl
  rw [withItem, h]
  simp only [withRoute, hrule]
  split
  · rfl
  · rfl

/-- An item that gives no route leaves the routes of a sheet. -/
theorem routes_withItem_of_none (h : item.route? = none) :
    (sheet.withItem env item).routes = sheet.routes := by
  rw [withItem, h]
  rfl

/-- The block of a route has no path, or no return, or it declares a route, and then only an
earlier one for the same method and path is in its way. -/
theorem route?_cases {selector : List Char} (h : "route".toList <+: trim selector)
    {body : List Char} {line bodyLine : Nat}
    (hitem : item = .block selector body line bodyLine) :
    (∃ selector, item.route? = none ∧ ∀ sheet : Sheet,
      sheet.refusal? item = some (.missingPath selector)) ∨
    (∃ method path, item.route? = none ∧ ∀ sheet : Sheet,
      sheet.refusal? item = some (.missingReturn method path)) ∨
    ∃ route, item.route? = some route ∧ ∀ sheet : Sheet, sheet.refusal? item =
      if sheet.declares route.method route.path then some (.duplicateRoute route.method route.path)
      else none := by
  subst hitem
  obtain ⟨text, htext⟩ := h
  have hstrip : stripStart? "route".toList (trim selector) = some text := by
    rw [← htext, stripStart?_append]
  simp only [refusal?, Item.route?, hstrip, Option.bind_eq_bind, Option.bind_some]
  cases (Target.ofText text line).built.path with
  | none => exact .inl ⟨_, rfl, fun _ => rfl⟩
  | some path =>
    simp only [Option.bind_some]
    cases ((Declaration.ofBody bodyLine body).foldl RouteParts.adding .empty).returns with
    | none => exact .inr (.inl ⟨_, _, rfl, fun _ => rfl⟩)
    | some returns => exact .inr (.inr ⟨_, rfl, fun _ => rfl⟩)

/-- The block of a route has an outcome. -/
theorem exists_outcome {selector : List Char} (h : "route".toList <+: trim selector)
    (body : List Char) (line bodyLine : Nat) (l : Loading Sheet) :
    ∃ outcome : Outcome,
      outcome.Of l (addItem env l (.block selector body line bodyLine)) line := by
  have hreports := ofBlocks_addItem env l (.block selector body line bodyLine)
  have hbuilt := built_addItem env l (.block selector body line bodyLine)
  rcases route?_cases h rfl with
    ⟨name, hroute, hrefusal⟩ | ⟨method, path, hroute, hrefusal⟩ | ⟨route, hroute, hrefusal⟩
  · rw [hrefusal] at hreports
    refine ⟨.missingPath name, ?_, hreports⟩
    rw [hbuilt, routes_withItem_of_none env _ hroute]
    exact (List.append_nil _).symm
  · rw [hrefusal] at hreports
    refine ⟨.missingReturn method path, ?_, hreports⟩
    rw [hbuilt, routes_withItem_of_none env _ hroute]
    exact (List.append_nil _).symm
  · have hroutes := routes_withItem_of_route? env l.built hroute
    rw [← hbuilt] at hroutes
    rw [hrefusal] at hreports
    by_cases hdeclares : l.built.declares route.method route.path = true
    · rw [if_pos hdeclares] at hroutes hreports
      exact ⟨.repeated route.method route.path, hroutes.trans (List.append_nil _).symm, hreports⟩
    · rw [if_neg hdeclares] at hroutes hreports
      exact ⟨.added route, hroutes, hreports⟩

/-- The last of several items is added last. -/
theorem loadItems_concat (items : List Item) (item : Item) :
    loadItems env (items ++ [item]) = addItem env (loadItems env items) item := by
  rw [loadItems, List.foldl_append, List.foldl_cons, List.foldl_nil, ← loadItems]

/-- Later items take back neither routes nor diagnostics. -/
theorem loadItems_prefix (items more : List Item) :
    (loadItems env items).built.routes <+: (loadItems env (items ++ more)).built.routes ∧
    (loadItems env items).diagnostics <+: (loadItems env (items ++ more)).diagnostics := by
  induction more using List.reverseRecOn with
  | nil =>
    rw [List.append_nil]
    exact ⟨List.prefix_refl _, List.prefix_refl _⟩
  | append_singleton more item ih =>
    rw [← List.append_assoc, loadItems_concat]
    refine ⟨ih.1.trans ?_, ih.2.trans ?_⟩
    · rw [built_addItem]
      cases hroute : item.route? with
      | none => exact ⟨[], (List.append_nil _).trans (routes_withItem_of_none env _ hroute).symm⟩
      | some route =>
        rw [routes_withItem_of_route? env _ hroute]
        split
        · exact List.prefix_refl _
        · exact List.prefix_append _ _
    · exact diagnostics_prefix_addItem env _ item

/-- What an item of a sheet has added, and what was added before, stays in the loaded sheet. -/
theorem loadItems_prefix_load {text : List Char} {before after : List Item}
    (hitems : Item.ofSheet text = before ++ item :: after) :
    (loadItems env (before ++ [item])).built.routes <+: (load env text).built.routes ∧
    (loadItems env (before ++ [item])).diagnostics <+: (load env text).diagnostics := by
  have hload : load env text = loadItems env (before ++ [item] ++ after) := by
    rw [List.append_assoc, List.singleton_append, ← hitems]
    rfl
  rw [hload]
  exact loadItems_prefix env _ after

/-- What is built from items is the sheet of the items. -/
theorem built_loadItems (items : List Item) :
    (loadItems env items).built = ofItems env items := by
  induction items using List.reverseRecOn with
  | nil => rfl
  | append_singleton items item ih =>
    rw [loadItems_concat, built_addItem, ih, ofItems, ofItems, List.foldl_append, List.foldl_cons,
      List.foldl_nil]

/-- Every route was declared by one of the items. -/
theorem exists_item_of_mem_loadItems {items : List Item}
    (h : route ∈ (loadItems env items).built.routes) :
    ∃ item ∈ items, item.route? = some route := by
  rw [built_loadItems] at h
  exact (mem_routes_foldl_withItem h).resolve_left List.not_mem_nil

/-- Behind an item that declares a route, the sheet has a route for its method and path. -/
theorem exists_mem_routes_target (h : item.route? = some route) :
    ∃ served ∈ (sheet.withItem env item).routes, served.target = route.target := by
  rw [routes_withItem_of_route? env sheet h]
  by_cases hdeclares : sheet.declares route.method route.path = true
  · obtain ⟨served, hserved, hmethod, hpath⟩ := declares_iff.mp hdeclares
    rw [if_pos hdeclares]
    exact ⟨served, hserved, Prod.ext hmethod hpath⟩
  · rw [if_neg hdeclares]
    exact ⟨route, List.mem_append_right _ (List.mem_singleton_self route), rfl⟩

/-- The block of a route declares it, unless an error is reported. -/
theorem exists_route?_of_clean {selector : List Char} (h : "route".toList <+: trim selector)
    (body : List Char) (line bodyLine : Nat) {l : Loading Sheet}
    (hclean : hasErrors (addItem env l (.block selector body line bodyLine)).diagnostics = false) :
    ∃ route, (Item.block selector body line bodyLine).route? = some route := by
  have hno : ∀ problem, l.built.refusal? (.block selector body line bodyLine) = some problem →
      problem.level ≠ .error := by
    intro problem hproblem herror
    have hreported := mem_diagnostics_of_refusal? env l hproblem
    refine Bool.eq_false_iff.mp hclean (List.any_eq_true.mpr ⟨_, hreported, ?_⟩)
    rw [Diagnostic.isError, herror]
    rfl
  rcases route?_cases h rfl with
    ⟨name, -, hrefusal⟩ | ⟨method, path, -, hrefusal⟩ | ⟨route, hroute, -⟩
  · exact absurd rfl (hno _ (hrefusal _))
  · exact absurd rfl (hno _ (hrefusal _))
  · exact ⟨route, hroute⟩

end Items

/-- Every loaded sheet is sound, and no block of a route vanishes from it without a word: exactly
one outcome is all that the block adds to the routes and the diagnostics of blocks when it is its
turn, and what was added stays. If the sheet loads without errors, the block declares a route, and
the sheet has a route for its method and path that the block or an earlier one declares. -/
theorem load_accounted (env : Environment) (text : List Char) :
    (load env text).built.IsSound ∧
    ∀ before selector body line bodyLine after,
      Item.ofSheet text = before ++ .block selector body line bodyLine :: after →
      "route".toList <+: trim selector →
      (∃! outcome : Outcome, outcome.Of (loadItems env before)
        (loadItems env (before ++ [.block selector body line bodyLine])) line) ∧
      (loadItems env (before ++ [.block selector body line bodyLine])).built.routes <+:
        (load env text).built.routes ∧
      (loadItems env (before ++ [.block selector body line bodyLine])).diagnostics <+:
        (load env text).diagnostics ∧
      (hasErrors (load env text).diagnostics = false → ∃ declared served,
        (Item.block selector body line bodyLine).route? = some declared ∧
        served ∈ (load env text).built.routes ∧ served.target = declared.target ∧
        ∃ item ∈ before ++ [.block selector body line bodyLine], item.route? = some served) := by
  refine ⟨isSound_load env text, ?_⟩
  intro before selector body line bodyLine after hitems hselector
  obtain ⟨hroutes, hdiagnostics⟩ := loadItems_prefix_load env hitems
  refine ⟨?_, hroutes, hdiagnostics, fun hclean => ?_⟩
  · obtain ⟨outcome, houtcome⟩ := exists_outcome env hselector body line bodyLine
      (loadItems env before)
    rw [loadItems_concat]
    exact ⟨outcome, houtcome, fun other hother => hother.unique houtcome⟩
  · have hcleanThen : hasErrors
        (loadItems env (before ++ [.block selector body line bodyLine])).diagnostics = false :=
      List.any_eq_false.mpr fun d hd => List.any_eq_false.mp hclean d (hdiagnostics.subset hd)
    rw [loadItems_concat] at hcleanThen
    obtain ⟨declared, hdeclared⟩ :=
      exists_route?_of_clean env hselector body line bodyLine hcleanThen
    obtain ⟨served, hserved, htarget⟩ := exists_mem_routes_target env
      (loadItems env before).built hdeclared
    rw [← built_addItem, ← loadItems_concat] at hserved
    exact ⟨declared, served, hdeclared, hroutes.subset hserved, htarget,
      exists_item_of_mem_loadItems env hserved⟩

/-- A sheet that declares one route twice. -/
def repeatedSheet : List Char :=
  "route[path='/a']\x7breturn: 1\x7d route[path='/a']\x7breturn: 2\x7d".toList

/-- The second block of the route has one outcome, the warning, and the first one is served. -/
theorem load_accounted_repeated :
    Item.ofSheet repeatedSheet =
      [.block "route[path='/a']".toList "return: 1".toList 1 1] ++
        .block "route[path='/a']".toList "return: 2".toList 1 1 :: [] ∧
    "route".toList <+: trim "route[path='/a']".toList ∧
    (load [] repeatedSheet).diagnostics = [⟨.duplicateRoute "GET" "/a", 1⟩] ∧
    ∃ declared served,
      (Item.block "route[path='/a']".toList "return: 2".toList 1 1).route? = some declared ∧
      served ∈ (load [] repeatedSheet).built.routes ∧ served.target = declared.target := by
  have hitems : Item.ofSheet repeatedSheet =
      [.block "route[path='/a']".toList "return: 1".toList 1 1] ++
        .block "route[path='/a']".toList "return: 2".toList 1 1 :: [] := by decide +kernel
  have hselector : "route".toList <+: trim "route[path='/a']".toList := by decide +kernel
  have hdiagnostics : (load [] repeatedSheet).diagnostics = [⟨.duplicateRoute "GET" "/a", 1⟩] := by
    decide +kernel
  have hclean : hasErrors (load [] repeatedSheet).diagnostics = false := by
    rw [hdiagnostics]
    rfl
  obtain ⟨-, -, -, hserved⟩ := (load_accounted [] repeatedSheet).2 _ _ _ _ _ _ hitems hselector
  obtain ⟨declared, served, hdeclared, hmem, htarget, -⟩ := hserved hclean
  exact ⟨hitems, hselector, hdiagnostics, declared, served, hdeclared, hmem, htarget⟩

end Sheet

end RouteSheet
