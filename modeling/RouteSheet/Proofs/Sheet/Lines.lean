import RouteSheet.Proofs.Sheet.Reports

/-!
# Reported lines

A route has the line of its block, an assignment that of its declaration, and what is wrong with a
declaration is reported on its line. Blocks and declarations have the lines of the places where
they stand, so every line that is reported is the one of the text as written.
-/

namespace RouteSheet

open Text

/-- The assignment that a declaration makes. -/
def Declaration.assignment? (d : Declaration) : Option Assignment :=
  (cutTop? ':' d.text).bind fun (property, value) =>
    (stripStart? ['-', '-'] (trim property)).map fun name =>
      ⟨String.ofList name, Expr.parse (trim value), d.line⟩

namespace RouteParts

variable (parts : RouteParts) (d : Declaration) (ds : List Declaration)

/-- A declaration adds the assignment that it makes, if it makes one. -/
theorem assignments_adding :
    (parts.adding d).assignments = parts.assignments ++ d.assignment?.toList := by
  unfold adding declare Declaration.assignment?
  simp only
  split
  · next h => simp [h, Loading.report]
  · next property value h =>
    split
    · next name hname => simp [h, hname, assign, Loading.modify, Loading.reportAll]
    · next hname =>
      simp only [h, Option.bind_some, hname, Option.map_none, Option.toList_none, List.append_nil]
      split
      · unfold setStatus
        split <;> rfl
      · split <;> rfl

/-- The declarations of assignments make them in order. -/
theorem assignments_foldl_adding :
    (ds.foldl adding parts).assignments =
      parts.assignments ++ ds.filterMap Declaration.assignment? := by
  induction ds generalizing parts with
  | nil => simp
  | cons d ds ih =>
    rw [List.foldl_cons, ih, assignments_adding, List.append_assoc, List.filterMap_cons]
    cases d.assignment? <;> rfl

end RouteParts

namespace Item

variable {item : Item} {route : Route}

/-- The route of an item has the line of the item, and its assignments are those that the
declarations of the item make. -/
theorem lines_of_route? (h : item.route? = some route) : route.line = item.line ∧
    route.assignments = item.declarations.filterMap Declaration.assignment? := by
  cases item with
  | block selector body line bodyLine =>
    simp only [route?, Option.bind_eq_bind, Option.bind_eq_some_iff, Option.some.injEq] at h
    obtain ⟨text, htext, path, hpath, returns, -, rfl⟩ := h
    refine ⟨rfl, ?_⟩
    simp only [declarations, htext, hpath, Option.isSome_some, if_true,
      RouteParts.assignments_foldl_adding, RouteParts.empty, List.nil_append]
  | rule text line => cases h
  | stray text line => cases h
  | unopened text line => cases h

end Item

namespace Sheet

/-- What is reported about declarations is what is wrong with those of the items, in order. -/
theorem ofDeclarations_load (env : Environment) (text : List Char) :
    ofDeclarations (load env text).diagnostics =
      (Item.ofSheet text).flatMap fun item => RouteParts.empty.reports item.declarations := by
  have hfold : ∀ (items : List Item) (l : Loading Sheet),
      ofDeclarations (items.foldl (addItem env) l).diagnostics = ofDeclarations l.diagnostics ++
        items.flatMap fun item => RouteParts.empty.reports item.declarations := by
    intro items
    induction items with
    | nil => simp
    | cons item items ih =>
      intro l
      rw [List.foldl_cons, ih, ofDeclarations_addItem, List.flatMap_cons, List.append_assoc]
  exact hfold _ _

/-- The items of a sheet and the declarations of their bodies stand in the text as it was written,
each on the line of its first character that is not blank and in no comment. A route has the line
of its item and its assignments have the lines of their declarations, and whatever is wrong with a
declaration is reported on the line of that declaration. -/
theorem load_lines (env : Environment) (text : List Char) :
    Item.Laid text 0 (Item.ofSheet text) ∧
    (∀ route ∈ (load env text).built.routes, ∃ item ∈ Item.ofSheet text,
      item.route? = some route ∧ route.line = item.line ∧
        route.assignments = item.declarations.filterMap Declaration.assignment?) ∧
    ofDeclarations (load env text).diagnostics =
      (Item.ofSheet text).flatMap fun item => RouteParts.empty.reports item.declarations := by
  refine ⟨Item.laid_ofSheet text, ?_, ofDeclarations_load env text⟩
  intro route hroute
  obtain ⟨item, hitem, hdeclared⟩ := exists_item_of_mem_routes hroute
  exact ⟨item, hitem, hdeclared, Item.lines_of_route? hdeclared⟩

/-- A sheet with a comment of two lines in front of its route, a quoted mark of a comment in the
selector and a comment of two lines inside a declaration. -/
def commentedSheet : List Char :=
  "/* é\n */route[path='/*']\x7b\n/*\n*/--a: 1;\ncolor: 2;return: 3\x7d".toList

/-- The lines of a sheet with comments. -/
theorem load_lines_commented :
    Item.Laid commentedSheet 0 (Item.ofSheet commentedSheet) ∧
    ((load [] commentedSheet).built.routes.map fun route =>
      (route.line, route.assignments.map (·.line))) = [(2, [4])] ∧
    (Item.ofSheet commentedSheet).flatMap (fun item =>
      RouteParts.empty.reports item.declarations) = [⟨.unknownProperty "color", 5⟩] := by
  obtain ⟨hlaid, -, hreports⟩ := load_lines [] commentedSheet
  refine ⟨hlaid, by decide +kernel, ?_⟩
  rw [← hreports]
  decide +kernel

end Sheet

end RouteSheet
