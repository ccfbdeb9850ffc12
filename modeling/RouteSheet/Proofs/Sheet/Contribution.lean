import RouteSheet.Sheet.Load

/-!
# What an item contributes

An item adds at most a database, a statement of the schema or a route, and which one
does not depend on the problems reported before. Loading is therefore a fold of the
items over the sheet alone. Items further down contribute the same on other lines.
-/

namespace RouteSheet

open Text

/-- The declaration on a line further down. -/
def Declaration.movedDown (n : Nat) (d : Declaration) : Declaration := { d with line := d.line + n }

/-- The assignment on a line further down. -/
def Assignment.movedDown (n : Nat) (a : Assignment) : Assignment := { a with line := a.line + n }

/-- The route on lines further down. -/
def Route.movedDown (n : Nat) (route : Route) : Route :=
  { route with
    assignments := route.assignments.map (·.movedDown n)
    line := route.line + n }

namespace RouteParts

/-- The parts with a declaration added. -/
def adding (parts : RouteParts) (d : Declaration) : RouteParts := (declare ⟨parts, []⟩ d).built

/-- Problems reported before have no say in what is built. -/
theorem built_declare (l : Loading RouteParts) (d : Declaration) :
    (declare l d).built = l.built.adding d := by
  simp only [adding, declare]
  split
  · rfl
  · split
    · rfl
    · split
      · unfold setStatus
        split <;> rfl
      · split <;> rfl

/-- What is built from declarations does not depend on what is reported about them. -/
theorem built_foldl_declare (ds : List Declaration) (l : Loading RouteParts) :
    (ds.foldl declare l).built = ds.foldl adding l.built := by
  induction ds generalizing l with
  | nil => rfl
  | cons d ds ih => rw [List.foldl_cons, ih, built_declare, List.foldl_cons]

/-- The parts on lines further down. -/
def movedDown (n : Nat) (parts : RouteParts) : RouteParts :=
  { parts with assignments := parts.assignments.map (·.movedDown n) }

/-- A declaration may be added before the parts of a route are moved down or behind it. -/
theorem adding_movedDown (n : Nat) (parts : RouteParts) (d : Declaration) :
    (parts.movedDown n).adding (d.movedDown n) = (parts.adding d).movedDown n := by
  unfold adding declare Declaration.movedDown
  simp only
  split
  · rfl
  · split
    · simp only [assign, Loading.modify, Loading.reportAll, movedDown, List.map_append,
        List.map_cons, List.map_nil, Assignment.movedDown]
    · split
      · unfold setStatus
        split <;> rfl
      · split <;> rfl

/-- Declarations may be added before the parts of a route are moved down or behind it. -/
theorem foldl_adding_movedDown (n : Nat) (ds : List Declaration) (parts : RouteParts) :
    (ds.map (·.movedDown n)).foldl adding (parts.movedDown n) =
      (ds.foldl adding parts).movedDown n := by
  induction ds generalizing parts with
  | nil => rfl
  | cons d ds ih => rw [List.map_cons, List.foldl_cons, adding_movedDown, ih, List.foldl_cons]

end RouteParts

namespace Declaration

variable (n line : Nat)

/-- The declarations of parts that begin further down stand further down. -/
theorem ofParts_movedDown (parts : List (List Char)) :
    ofParts (line + n) parts = (ofParts line parts).map (·.movedDown n) := by
  induction parts generalizing line with
  | nil => rfl
  | cons part rest ih =>
    have hline : ∀ k, line + n + k = line + k + n := by
      intro k
      omega
    simp only [ofParts, hline, ih]
    split
    · rfl
    · rfl

/-- The declarations of a body that begins further down stand further down. -/
theorem ofBody_movedDown (body : List Char) :
    ofBody (line + n) body = (ofBody line body).map (·.movedDown n) :=
  ofParts_movedDown n line _

end Declaration

namespace Target

/-- The line of a selector has no say in its target, nor have problems reported before. -/
theorem built_foldl_take (attributes : List Attribute) (line line' : Nat) (l l' : Loading Target)
    (h : l.built = l'.built) :
    (attributes.foldl (fun l a => take l line a) l).built =
      (attributes.foldl (fun l a => take l line' a) l').built := by
  induction attributes generalizing l l' with
  | nil => exact h
  | cons a attributes ih =>
    rw [List.foldl_cons, List.foldl_cons]
    refine ih _ _ ?_
    unfold take
    split
    · simp only [Loading.modify, h]
    · split
      · simp only [Loading.modify, h]
      · exact h

/-- The expression of a text does not depend on the line that its problems are reported for. -/
theorem built_ofText (text : List Char) (line line' : Nat) :
    (ofText text line).built = (ofText text line').built :=
  built_foldl_take _ line line' _ _ rfl

end Target

namespace Item

/-- The item on lines further down. -/
def movedDown (n : Nat) : Item → Item
  | .rule text line => .rule text (line + n)
  | .block selector body line bodyLine => .block selector body (line + n) (bodyLine + n)
  | .stray text line => .stray text (line + n)
  | .unopened text line => .unopened text (line + n)

/-- An item of a text that begins further down stands further down, and leaves the same text. -/
theorem next_movedDown (s : List Char) (line n : Nat) :
    next s (line + n) = ((next s line).1.movedDown n, (next s line).2) := by
  unfold next
  split
  · split <;> rfl
  · split
    · rfl
    · split
      · rfl
      · simp only [movedDown, Nat.add_right_comm]

/-- The items of a text that begins further down stand further down. -/
theorem all_movedDown (line n : Nat) (s : List Char) :
    all (line + n) s = (all line s).map (movedDown n) := by
  fun_induction all line s with
  | case1 line s start h =>
    rw [all, dif_pos h]
    rfl
  | case2 line s start h startLine found taken ih =>
    have hline : line + n + lineFeeds (s.takeWhile isBlank) = startLine + n :=
      Nat.add_right_comm ..
    rw [all, dif_neg h, hline]
    simp only [next_movedDown, List.map_cons]
    rw [Nat.add_right_comm]
    exact congrArg _ ih

/-- The name of an at-rule and its value. -/
def ruleParts (text : List Char) : List Char × List Char :=
  ((takeRun (!isBlank ·) (trim text)).1, trim (takeRun (!isBlank ·) (trim text)).2)

/-- The database that an item names. -/
def database? (env : Environment) : Item → Option String
  | .rule text _ =>
    if (ruleParts text).1 = "database".toList then env.resolve? (ruleParts text).2 else none
  | _ => none

/-- The statement that an item adds to the schema. -/
def statement? : Item → Option String
  | .rule text _ =>
    let statement := trim (stripQuotes (ruleParts text).2)
    if (ruleParts text).1 = "schema".toList ∧ statement ≠ [] then some (String.ofList statement)
    else none
  | _ => none

/-- The route that an item declares. -/
def route? : Item → Option Route
  | .block selector body line bodyLine => do
    let text ← stripStart? "route".toList (trim selector)
    let target := (Target.ofText text line).built
    let path ← target.path
    let parts := (Declaration.ofBody bodyLine body).foldl RouteParts.adding .empty
    let returns ← parts.returns
    some ⟨target.method, path, parts.assignments, parts.status, returns, line⟩
  | _ => none

variable (env : Environment) (n : Nat) (item : Item)

/-- A rule names the same database wherever it stands. -/
theorem database?_movedDown : (item.movedDown n).database? env = item.database? env := by
  cases item <;> rfl

/-- A rule gives the same statement wherever it stands. -/
theorem statement?_movedDown : (item.movedDown n).statement? = item.statement? := by
  cases item <;> rfl

/-- A route further down is the same on other lines. -/
theorem route?_movedDown : (item.movedDown n).route? = item.route?.map (·.movedDown n) := by
  cases item with
  | rule text line => rfl
  | block selector body line bodyLine =>
    have hparts := RouteParts.foldl_adding_movedDown n (Declaration.ofBody bodyLine body) .empty
    rw [← Declaration.ofBody_movedDown] at hparts
    simp only [movedDown, route?, Option.bind_eq_bind, Target.built_ofText _ (line + n) line]
    cases stripStart? "route".toList (trim selector) with
    | none => rfl
    | some text =>
      simp only [Option.bind_some]
      cases (Target.ofText text line).built.path with
      | none => rfl
      | some path =>
        have hempty : RouteParts.empty.movedDown n = .empty := rfl
        rw [hempty] at hparts
        simp only [hparts, Option.bind_some, RouteParts.movedDown]
        cases ((Declaration.ofBody bodyLine body).foldl RouteParts.adding .empty).returns with
        | none => rfl
        | some returns => rfl
  | stray text line => rfl
  | unopened text line => rfl

end Item

namespace Sheet

/-- The sheet with a route added, unless it has one for the method and the path. -/
def withRoute (sheet : Sheet) (route : Route) : Sheet :=
  if sheet.declares route.method route.path then sheet
  else { sheet with routes := sheet.routes ++ [route] }

/-- The sheet with what an at-rule may set. -/
def withRule (sheet : Sheet) (database statement : Option String) : Sheet :=
  { sheet with
    database := database.or sheet.database
    schema := sheet.schema ++ statement.toList }

/-- The sheet with the contributions of an item added. -/
def withItem (env : Environment) (sheet : Sheet) (item : Item) : Sheet :=
  let sheet := sheet.withRule (item.database? env) item.statement?
  match item.route? with
  | some route => sheet.withRoute route
  | none => sheet

/-- A rule adds to what is built its database and its statement. -/
theorem built_addRule (env : Environment) (l : Loading Sheet) (text : List Char) (line : Nat) :
    (addRule env l text line).built = l.built.withItem env (.rule text line) := by
  have hnames : "database".toList ≠ "schema".toList := by decide
  have hschema : l.built.schema ++ (none : Option String).toList = l.built.schema :=
    List.append_nil _
  simp only [addRule, withItem, withRule, Item.database?, Item.statement?, Item.route?]
  unfold Item.ruleParts
  generalize takeRun (!isBlank ·) (trim text) = cut
  obtain ⟨name, rest⟩ := cut
  by_cases hd : name = "database".toList
  · simp only [if_pos hd, if_neg (fun h : name = "schema".toList ∧ _ => hnames (hd.symm.trans h.1)),
      hschema]
    cases env.resolve? (trim rest) with
    | none => rfl
    | some url => rfl
  · simp only [if_neg hd, Option.none_or]
    by_cases hs : name = "schema".toList
    · simp only [hs, true_and]
      cases trim (stripQuotes (trim rest)) with
      | nil =>
        simp only [List.isEmpty_nil, if_pos, ne_eq, not_true, ite_false, hschema, Loading.report]
      | cons c statement => rfl
    · simp only [if_neg hs, if_neg (fun h : name = "schema".toList ∧ _ => hs h.1), hschema]
      rfl

/-- A route block adds its route to what is built, if its declarations return something. -/
theorem built_addRoute (l : Loading Sheet) (method path : String) (body : List Char)
    (line bodyLine : Nat) :
    (addRoute l method path body line bodyLine).built =
      match ((Declaration.ofBody bodyLine body).foldl RouteParts.adding .empty).returns with
      | some returns =>
        let parts := (Declaration.ofBody bodyLine body).foldl RouteParts.adding .empty
        l.built.withRoute ⟨method, path, parts.assignments, parts.status, returns, line⟩
      | none => l.built := by
  simp only [addRoute, RouteParts.built_foldl_declare]
  split
  · next h => simp only [h, Loading.report]
  · next returns h =>
    simp only [h, withRoute]
    split
    · rfl
    · rfl

/-- An item adds its contributions, whatever has been reported before. -/
theorem built_addItem (env : Environment) (l : Loading Sheet) (item : Item) :
    (addItem env l item).built = l.built.withItem env item := by
  have hrule : l.built.withRule none none = l.built := by
    simp only [withRule, Option.none_or, Option.toList_none, List.append_nil]
  cases item with
  | rule text line => exact built_addRule env l text line
  | block selector body line bodyLine =>
    simp only [addItem, addBlock, withItem, Item.database?, Item.statement?, Item.route?, hrule]
    cases stripStart? "route".toList (trim selector) with
    | none => rfl
    | some text =>
      simp only [Option.bind_eq_bind, Option.bind_some]
      cases (Target.ofText text line).built.path with
      | none => rfl
      | some path =>
        simp only [Option.bind_some, built_addRoute]
        cases ((Declaration.ofBody bodyLine body).foldl RouteParts.adding .empty).returns with
        | none => rfl
        | some returns => rfl
  | stray text line =>
    simp only [withItem, Item.database?, Item.statement?, Item.route?, hrule]
    rfl
  | unopened text line =>
    simp only [withItem, Item.database?, Item.statement?, Item.route?, hrule]
    rfl

/-- What a list of items declares. -/
def ofItems (env : Environment) (items : List Item) : Sheet := items.foldl (withItem env) .empty

/-- Loading is a fold over the sheet alone. -/
theorem built_load (env : Environment) (text : List Char) :
    (load env text).built = ofItems env (Item.ofSheet text) := by
  have hfold : ∀ (items : List Item) (l : Loading Sheet),
      (items.foldl (addItem env) l).built = items.foldl (withItem env) l.built := by
    intro items
    induction items with
    | nil => exact fun l => rfl
    | cons item items ih =>
      intro l
      rw [List.foldl_cons, ih, built_addItem, List.foldl_cons]
  exact hfold _ _

/-- A route of a sheet with one item more was there before or is the one of the item. -/
theorem mem_routes_withItem {env : Environment} {sheet : Sheet} {item : Item} {route : Route}
    (h : route ∈ (sheet.withItem env item).routes) :
    route ∈ sheet.routes ∨ item.route? = some route := by
  unfold withItem at h
  cases hroute : item.route? with
  | none =>
    rw [hroute] at h
    exact .inl h
  | some added =>
    simp only [hroute, withRoute] at h
    split at h
    · exact .inl h
    · rcases List.mem_append.mp h with h | h
      · exact .inl h
      · rw [List.mem_singleton.mp h]
        exact .inr rfl

/-- A route of a sheet with several items more was there before or is the one of an item. -/
theorem mem_routes_foldl_withItem {env : Environment} {items : List Item} {sheet : Sheet}
    {route : Route} (h : route ∈ (items.foldl (withItem env) sheet).routes) :
    route ∈ sheet.routes ∨ ∃ item ∈ items, item.route? = some route := by
  induction items generalizing sheet with
  | nil => exact .inl h
  | cons item items ih =>
    rcases ih h with h | ⟨later, hlater, hroute⟩
    · rcases mem_routes_withItem h with h | hroute
      · exact .inl h
      · exact .inr ⟨item, List.mem_cons_self, hroute⟩
    · exact .inr ⟨later, List.mem_cons_of_mem _ hlater, hroute⟩

/-- Every route of a loaded sheet is the one of an item of the sheet. -/
theorem exists_item_of_mem_routes {env : Environment} {text : List Char} {route : Route}
    (h : route ∈ (load env text).built.routes) :
    ∃ item ∈ Item.ofSheet text, item.route? = some route := by
  rw [built_load] at h
  exact (mem_routes_foldl_withItem h).resolve_left List.not_mem_nil

end Sheet

end RouteSheet
